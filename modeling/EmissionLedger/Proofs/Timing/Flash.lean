import EmissionLedger.Proofs.Timing.Absorption

/-!
There and back at one time. What is put in and taken out again at `now` leaves the records as a
synchronization at `now` does: the second operation finds them synchronized under the changed amounts,
so it credits nothing, and it takes every amount back to where it was. Votes that are cast and taken back
leave the lock where it was too. Only isoRAY is lost on the way, to the slashing that a withdrawal of
stake takes.

Main statement: `flash_neutral`.
-/

namespace EmissionLedger

/-! ### Amounts -/

/-- What was added can be taken away, and what there was allows a change by nothing. -/
theorem Counter.change_back {what : String} {a c : ℕ} {delta : Int} (h : change what a delta = .ok c)
    (hdelta : 0 ≤ delta) : change what c (-delta) = .ok a ∧ change what a 0 = .ok a := by
  obtain ⟨n, rfl⟩ := Int.eq_ofNat_of_zero_le hdelta
  have hsum := change_ok h
  rw [change, if_pos hdelta] at h
  have hfits := (add_eq_ok.mp h).1
  obtain ⟨b, hback⟩ := change_answered what (show n ≤ c by omega) hfits
  have hb := change_ok hback
  obtain rfl : b = a := by omega
  exact ⟨hback, (if_pos (le_refl 0)).trans (add_eq_ok.mpr ⟨by omega, rfl⟩)⟩

/-- Votes that were locked can be freed, and the reactor is what it was. -/
theorem Emission.moveLock_back {r r' : Reactor} {amount : Int} (h : moveLock r amount = .ok r')
    (hamount : 0 ≤ amount) (hfits : amount ≤ maxU64) : moveLock r' (-amount) = .ok r := by
  obtain ⟨n, rfl⟩ := Int.eq_ofNat_of_zero_le hamount
  obtain ⟨hreactor, hlocked, -⟩ := moveLock_ok h
  obtain ⟨r₁, hback⟩ := moveLock_answered (show n ≤ r'.lockedVotes by omega) (Int.ofNat_le.mp hfits)
  obtain ⟨hreactor₁, hlocked₁, -⟩ := moveLock_ok hback
  have hsame : r₁.lockedVotes = r.lockedVotes := by omega
  have hr : r₁ = r := by rw [hreactor₁, hsame, hreactor]
  rwa [hr] at hback

/-! ### The escrow -/

namespace Escrow

variable {now amount : Int} {t : TimeTracker} {p : PersonalPosition} {out : Outcome}

/-- A deposit can be withdrawn at its time, and the records are those of an update. -/
theorem deposit_back (h : deposit now t p amount = .ok out) :
    ∃ synced, updatePersonal now t p = .ok synced ∧
      withdraw now out.timeTracker out.position amount =
        .ok { synced with transferAmount := out.transferAmount } := by
  simp only [deposit, bind_eq_ok, pure_eq_ok, Counter.add_eq_ok] at h
  obtain ⟨n, hn, ⟨t', p'⟩, hsync, own, ⟨-, hown⟩, total, ⟨-, htotal⟩, rfl⟩ := h
  refine ⟨⟨t', p', 0⟩, bind_ok hsync rfl, ?_⟩
  have hagain := sync_put hsync total own
  have hownBack : Counter.sub "position amount" own n = .ok p'.amount :=
    Counter.sub_eq_ok.mpr hown.symm
  have htotalBack : Counter.sub "total_lp_deposited" total n = .ok t'.totalLpDeposited :=
    Counter.sub_eq_ok.mpr htotal.symm
  apply bind_ok hn
  apply bind_ok hagain
  apply bind_ok hownBack
  exact bind_ok htotalBack rfl

end Escrow

/-! ### The emission -/

namespace Emission

variable {now amount : Int} {config : GaugeConfig} {gauge : Gauge} {personal : PersonalGauge}
  {reactor : Reactor} {out : VoteChange}

/-- Votes can be taken back at the time they were cast, and the records are those of a change by nothing. -/
theorem changeVotes_back (h : changeVotes now config gauge personal amount reactor = .ok out)
    (hamount : 0 ≤ amount) :
    ∃ synced, changeVotes now config gauge personal 0 reactor = .ok synced ∧
      changeVotes now out.config out.gauge out.personalGauge (-amount) out.reactor = .ok synced := by
  simp only [changeVotes, bind_eq_ok, pure_eq_ok] at h
  obtain ⟨n, hn, _, hlinks, _, hpledge, locked, hlock, synced, hsync, total, htotal, pool, hpool, votes,
    hvotes, rfl⟩ := h
  obtain ⟨hmin, hmax, rfl⟩ := requireI64_ok hn
  have hminI64 : minI64 = -2 ^ 63 := rfl
  have hmaxI64 : maxI64 = 2 ^ 63 - 1 := rfl
  have hmaxU64 : maxU64 = 2 ^ 64 - 1 := rfl
  obtain ⟨htotalBack, htotalStill⟩ := Counter.change_back htotal hamount
  obtain ⟨hpoolBack, hpoolStill⟩ := Counter.change_back hpool hamount
  obtain ⟨hvotesBack, hvotesStill⟩ := Counter.change_back hvotes hamount
  have hlockBack := moveLock_back hlock hamount (by omega)
  have hsum := Counter.change_ok hvotes
  have hpledgeBack : checkPledge { personal with votes } locked (-amount) = .ok () := by
    rw [checkPledge, if_neg (by omega), if_neg (by dsimp only; omega)]
  -- neither the gauge's pool nor the owners are touched, so the links hold as they did
  have hlinksBack : checkLinks { synced.gauge with totalVotes := pool } { personal with votes } locked =
      .ok () := by
    have hpoolId : synced.gauge.poolId = gauge.poolId := (syncPoolIndex_ok hsync).2.poolId
    rw [(moveLock_ok hlock).reactor, ← hlinks, checkLinks, checkLinks, hpoolId]
  refine ⟨⟨synced.config, synced.gauge, personal, reactor⟩, ?_, ?_⟩
  · have hzero : requireI64 "amount" 0 = .ok 0 := if_neg (by omega)
    have hnothing : checkPledge personal reactor 0 = .ok () := by
      rw [checkPledge, if_neg (by omega), if_neg (by omega)]
    have hunmoved : moveLock reactor 0 = .ok reactor := rfl
    apply bind_ok hzero
    apply bind_ok hlinks
    apply bind_ok hnothing
    apply bind_ok hunmoved
    apply bind_ok hsync
    apply bind_ok htotalStill
    apply bind_ok hpoolStill
    exact bind_ok hvotesStill rfl
  · have hback : requireI64 "amount" (-amount) = .ok (-amount) := if_neg (by omega)
    have hagain := syncPoolIndex_put hsync total pool
    apply bind_ok hback
    apply bind_ok hlinksBack
    apply bind_ok hpledgeBack
    apply bind_ok hlockBack
    apply bind_ok hagain
    apply bind_ok htotalBack
    apply bind_ok hpoolBack
    exact bind_ok hvotesBack rfl

end Emission

/-! ### The stake -/

namespace Staking

variable {now amount : Int} {config : ReactorConfig} {r : Reactor} {out out' : Outcome}

/-- Stake that is withdrawn at the time it was deposited leaves the records of a synchronization, less the
isoRAY that is lost. -/
theorem depositRay_back (h : depositRay now config r amount = .ok out)
    (hback : withdrawRay now out.config out.reactor amount = .ok out') :
    ∃ synced, syncReactor now config r = .ok synced ∧ out'.config = synced.config ∧
      out'.isoRaySlashed ≤ synced.reactor.isoRay ∧
      out'.reactor =
        { synced.reactor with isoRay := synced.reactor.isoRay - out'.isoRaySlashed } ∧
      out'.transferAmount = out.transferAmount := by
  simp only [depositRay, bind_eq_ok, pure_eq_ok, requireU64_eq_ok, Counter.add_eq_ok] at h
  obtain ⟨n, ⟨-, rfl⟩, ⟨config', r'⟩, hsettle, ray, ⟨hfits, hray⟩, total, ⟨hlimit, htotal⟩, rfl⟩ := h
  obtain ⟨config₁, r₁, taken, loss, ray₁, isoRay, total₁, hsettle₁, htaken, -, -, hray₁, hisoRay,
    htotal₁, rfl⟩ := withdrawRay_ok hback
  -- the withdrawal finds the records settled, and undoes both sums
  cases (settleAt_put hsettle total ray).symm.trans hsettle₁
  obtain rfl : n = taken := Int.ofNat_inj.mp htaken
  dsimp only at hray htotal hray₁ hisoRay htotal₁ ⊢
  obtain rfl : ray₁ = r'.ray := by omega
  obtain rfl : total₁ = config'.totalRayDeposited := by omega
  obtain rfl : isoRay = r'.isoRay - loss := by omega
  obtain ⟨synced, hsynced⟩ := syncReactor_answered hsettle (by omega) (by omega)
  cases hsettle.symm.trans (syncReactor_settleAt hsynced)
  exact ⟨synced, hsynced, rfl, by omega, rfl, rfl⟩

end Staking

/-- **Flash operations gain nothing.** What is put in at `now` and taken out again at `now` leaves every
record as a synchronization at `now` does. A deposit in the escrow can always be withdrawn again, and
votes that were cast can always be taken back. Where stake can be withdrawn again, isoRAY is lower by what
the slashing took, and nothing else differs. -/
theorem flash_neutral (now : Int) {amount : Int} (hamount : 0 ≤ amount) :
    (∀ t p out, Escrow.deposit now t p amount = .ok out →
      ∃ synced, Escrow.updatePersonal now t p = .ok synced ∧
        Escrow.withdraw now out.timeTracker out.position amount =
          .ok { synced with transferAmount := out.transferAmount }) ∧
    (∀ config gauge personal reactor out,
      Emission.changeVotes now config gauge personal amount reactor = .ok out →
      ∃ synced, Emission.changeVotes now config gauge personal 0 reactor = .ok synced ∧
        Emission.changeVotes now out.config out.gauge out.personalGauge (-amount) out.reactor =
          .ok synced) ∧
    (∀ config r out out', Staking.depositRay now config r amount = .ok out →
      Staking.withdrawRay now out.config out.reactor amount = .ok out' →
      ∃ synced, Staking.syncReactor now config r = .ok synced ∧
        out'.config = synced.config ∧ out'.isoRaySlashed ≤ synced.reactor.isoRay ∧
        out'.reactor =
          { synced.reactor with isoRay := synced.reactor.isoRay - out'.isoRaySlashed } ∧
        out'.transferAmount = out.transferAmount) :=
  ⟨fun _ _ _ h => Escrow.deposit_back h, fun _ _ _ _ _ h => Emission.changeVotes_back h hamount,
    fun _ _ _ _ h hback => Staking.depositRay_back h hback⟩

/-- After a year two tokens and two votes come and go without a trace; of the two isoRAY of a reactor with
one RAY, two RAY that come and go cost all, since two thirds of them are rounded up. -/
theorem flash_neutral_year :
    let t : TimeTracker := ⟨.zero, .zero, .zero, 2, 0⟩
    let p : PersonalPosition := ⟨.zero, .zero, 1, .zero, .zero⟩
    let config : GaugeConfig := ⟨2, 86400, .zero, 0⟩
    let gauge : Gauge := ⟨.zero, 1, .zero, 0⟩
    let stake : ReactorConfig := ⟨2, 86400, .zero, 10000, .zero, 0⟩
    let reactor : Reactor := ⟨.zero, 1, 1, 0, .zero, ⟨.zero, 0⟩⟩
    let personal : PersonalGauge := ⟨.zero, .zero, 0⟩
    ∃ deposited updated cast still staked taken synced,
      Escrow.deposit secondsPerYear t p 2 = .ok deposited ∧
      Escrow.updatePersonal secondsPerYear t p = .ok updated ∧
      Escrow.withdraw secondsPerYear deposited.timeTracker deposited.position 2 =
        .ok { updated with transferAmount := deposited.transferAmount } ∧
      Emission.changeVotes secondsPerYear config gauge personal 2 reactor = .ok cast ∧
      Emission.changeVotes secondsPerYear config gauge personal 0 reactor = .ok still ∧
      Emission.changeVotes secondsPerYear cast.config cast.gauge cast.personalGauge (-2) cast.reactor =
        .ok still ∧
      Staking.depositRay secondsPerYear stake reactor 2 = .ok staked ∧
      Staking.withdrawRay secondsPerYear staked.config staked.reactor 2 = .ok taken ∧
      Staking.syncReactor secondsPerYear stake reactor = .ok synced ∧ taken.config = synced.config ∧
      taken.reactor =
        { synced.reactor with isoRay := synced.reactor.isoRay - taken.isoRaySlashed } ∧
      taken.isoRaySlashed = 2 := by
  intro t p config gauge stake reactor personal
  obtain ⟨deposited, hdeposit, -⟩ := Option.map_eq_some_iff.mp (show
    (Escrow.deposit secondsPerYear t p 2).toOption.map (·.position.amount) = some 3 by decide +kernel)
  obtain ⟨cast, hcast, -⟩ := Option.map_eq_some_iff.mp (show
    (Emission.changeVotes secondsPerYear config gauge personal 2 reactor).toOption.map
      (·.reactor.lockedVotes) = some 2 by decide +kernel)
  obtain ⟨taken, htaken, hslashed⟩ := Option.map_eq_some_iff.mp (show
    (Staking.depositRay secondsPerYear stake reactor 2 >>= fun staked =>
      Staking.withdrawRay secondsPerYear staked.config staked.reactor 2).toOption.map
        Staking.Outcome.isoRaySlashed = some 2 by decide +kernel)
  rw [toOption_eq_some] at hdeposit hcast htaken
  obtain ⟨staked, hstaked, htaken⟩ := bind_eq_ok.mp htaken
  obtain ⟨hescrow, hvotes, hstake⟩ := flash_neutral secondsPerYear (show (0 : Int) ≤ 2 by decide)
  obtain ⟨updated, hupdate, hwithdraw⟩ := hescrow _ _ _ hdeposit
  obtain ⟨still, hstill, hback⟩ := hvotes _ _ _ _ _ hcast
  obtain ⟨synced, hsync, hconfig, -, hreactor, -⟩ := hstake _ _ _ _ hstaked htaken
  exact ⟨deposited, updated, cast, still, staked, taken, synced, hdeposit, hupdate, hwithdraw, hcast,
    hstill, hback, hstaked, htaken, hsync, hconfig, hreactor, hslashed⟩

end EmissionLedger
