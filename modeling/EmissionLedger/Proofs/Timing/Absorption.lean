import EmissionLedger.Proofs.Ledger.Closure
import EmissionLedger.Proofs.Votes.Withdrawal

/-!
Synchronizing first changes nothing. An operation moves the shared record on to its time and settles
the account before it touches an amount, so at one time the first synchronization does all the work: a
record that stands at `now` is not moved, and an account that has seen the index earns nothing, whatever
the amounts are by then. So an operation on the synchronized records returns what it returns on the
records before, its refusals included, and no change of an amount acts on the time that has passed.

Main statement: `sync_absorbed`.
-/

namespace EmissionLedger

/-! ### A second time -/

theorem TimeTracker.advance_again {t t' : TimeTracker} {now : Int} (h : t.advance now = .ok t')
    (total : ℕ) : ({ t' with totalLpDeposited := total } : TimeTracker).advance now =
      .ok { t' with totalLpDeposited := total } := by
  obtain rfl := ts_of_advance h
  exact bind_ok (advanceSharedIndex_still _ _ _ _ _) rfl

/-- A position that has seen the tracker's index is settled. -/
theorem PersonalPosition.settle_seen {p : PersonalPosition} {t : TimeTracker}
    (hlink : p.timeTracker = t.poolId) (hseen : p.lastSeenIndex = t.index) : p.settle t = .ok p := by
  have hnothing : accrueShare "personal position" p.amount p.lastSeenIndex t.index =
      .ok ⟨.zero, t.index⟩ := by
    rw [hseen]
    exact accrueShare_still _ _ _
  apply bind_ok (if_pos hlink)
  apply bind_ok hnothing
  exact if_pos ⟨rfl, hseen.symm⟩

theorem PersonalPosition.settle_again {p p' : PersonalPosition} {t : TimeTracker}
    (h : p.settle t = .ok p') (total amount : ℕ) :
    ({ p' with amount } : PersonalPosition).settle { t with totalLpDeposited := total } =
      .ok { p' with amount } := by
  have hset := settle_ok h
  exact settle_seen (hset.timeTracker.trans hset.linked) hset.lastSeen

/-- A gauge that has seen the index is settled. -/
theorem Gauge.settle_seen {g : Gauge} {index : Number} (hseen : g.lastSeenGlobalIndex = index) :
    g.settle index = .ok g := by
  refine bind_eq_ok.mpr ⟨⟨.zero, index⟩, ?_, if_pos hseen.symm⟩
  rw [hseen]
  exact accrueShare_still _ _ _

theorem Gauge.settle_again {g g' : Gauge} {index : Number} (h : g.settle index = .ok g') (votes : ℕ) :
    ({ g' with totalVotes := votes } : Gauge).settle index = .ok { g' with totalVotes := votes } :=
  settle_seen (settle_ok h).lastSeen

theorem ReactorConfig.advance_again {c c' : ReactorConfig} {now : Int} (h : c.advance now = .ok c')
    (total : ℕ) : ({ c' with totalRayDeposited := total } : ReactorConfig).advance now =
      .ok { c' with totalRayDeposited := total } := by
  have hts : now = (c'.rewardsEmittedUntil : Int) + (0 : ℕ) := by
    rw [ts_of_advance h, Nat.cast_zero, add_zero]
  exact bind_ok (elapsedSeconds_eq_ok.mpr hts) (if_pos rfl)

namespace Reactor

/-- Nothing is credited as isoRAY for an index that was seen, if what was credited before fits. -/
theorem accrueIsoRay_again {r : Reactor} {index : Number} (hseen : r.lastSeenIndexIsoRay = index)
    (hfits : r.isoRay ≤ maxU64) : r.accrueIsoRay index = .ok r := by
  have hnone : ShareAccrual.units ⟨.zero, index⟩ = .ok 0 :=
    Number.wholePart_eq_ok.mpr ⟨Nat.zero_le _, (Nat.zero_div scale).symm⟩
  subst hseen
  apply bind_ok (accrueShare_still _ _ _)
  apply bind_ok hnone
  exact bind_ok (Counter.add_eq_ok.mpr ⟨hfits, rfl⟩) rfl

theorem accrueRayRewards_again {r : Reactor} {index : Number}
    (hseen : r.rayStakeRewards.lastSeenIndex = index) : r.accrueRayRewards index = .ok r := by
  subst hseen
  exact bind_ok (accrueShare_still _ _ _) (if_pos rfl)

/-- A reactor that has seen both indices is settled. -/
theorem settle_seen {r : Reactor} {config : ReactorConfig}
    (hisoRay : r.lastSeenIndexIsoRay = config.isoRayIndex)
    (hreward : r.rayStakeRewards.lastSeenIndex = config.rayRewardIndex) (hfits : r.isoRay ≤ maxU64) :
    r.settle config = .ok r :=
  bind_ok (accrueIsoRay_again hisoRay hfits) (accrueRayRewards_again hreward)

theorem settle_again {r r' : Reactor} {config : ReactorConfig} (h : r.settle config = .ok r')
    (total ray : ℕ) : ({ r' with ray } : Reactor).settle { config with totalRayDeposited := total } =
      .ok { r' with ray } := by
  have hset := settle_ok h
  have hfits := settle_isoRay_le h
  exact settle_seen hset.lastSeenIsoRay hset.lastSeenReward hfits

end Reactor

/-! ### The escrow -/

namespace Escrow

/-- What can be done with a position. -/
inductive Turn where
  | deposit (amount : Int)
  | withdraw (amount : Int)
  | update

/-- What is returned to a turn at `now`. -/
def Turn.perform (turn : Turn) (now : Int) (t : TimeTracker) (p : PersonalPosition) : Result Outcome :=
  match turn with
  | deposit amount => Escrow.deposit now t p amount
  | withdraw amount => Escrow.withdraw now t p amount
  | update => updatePersonal now t p

variable {now : Int} {t t' : TimeTracker} {p p' : PersonalPosition}

/-- Synchronized records are synchronized with other amounts too. -/
theorem sync_put (h : sync now t p = .ok (t', p')) (total amount : ℕ) :
    sync now { t' with totalLpDeposited := total } { p' with amount } =
      .ok ({ t' with totalLpDeposited := total }, { p' with amount }) := by
  obtain ⟨hadvance, hsettle⟩ := sync_eq_ok.mp h
  exact sync_eq_ok.mpr ⟨TimeTracker.advance_again hadvance total,
    PersonalPosition.settle_again hsettle total amount⟩

theorem sync_again (h : sync now t p = .ok (t', p')) : sync now t' p' = .ok (t', p') :=
  sync_put h t'.totalLpDeposited p'.amount

/-- A turn reads the records only through their synchronization. -/
theorem Turn.perform_congr (turn : Turn) (h : sync now t' p' = sync now t p) :
    turn.perform now t' p' = turn.perform now t p := by
  cases turn with
  | deposit amount => simp only [perform, Escrow.deposit, h]
  | withdraw amount => simp only [perform, Escrow.withdraw, h]
  | update => simp only [perform, updatePersonal, h]

theorem updatePersonal_sync {out : Outcome} (h : updatePersonal now t p = .ok out) :
    sync now t p = .ok (out.timeTracker, out.position) := by
  simp only [updatePersonal, bind_eq_ok, pure_eq_ok] at h
  obtain ⟨⟨t', p'⟩, hsync, rfl⟩ := h
  exact hsync

theorem updatePersonal_absorbed {out : Outcome} (h : updatePersonal now t p = .ok out) (turn : Turn) :
    turn.perform now out.timeTracker out.position = turn.perform now t p := by
  have hsync := updatePersonal_sync h
  exact turn.perform_congr ((sync_again hsync).trans hsync.symm)

end Escrow

/-! ### The emission -/

namespace Emission

variable {now : Int} {config : GaugeConfig} {gauge : Gauge} {out : Synced}

/-- Synchronized records are synchronized with other votes too. -/
theorem syncPoolIndex_put (h : syncPoolIndex now config gauge = .ok out) (total votes : ℕ) :
    syncPoolIndex now { out.config with totalVotes := total } { out.gauge with totalVotes := votes } =
      .ok ⟨{ out.config with totalVotes := total }, { out.gauge with totalVotes := votes }⟩ := by
  obtain ⟨hadvance, hsettle⟩ := syncPoolIndex_eq_ok.mp h
  exact syncPoolIndex_eq_ok.mpr ⟨GaugeConfig.advance_again hadvance total,
    Gauge.settle_again hsettle votes⟩

theorem syncPoolIndex_idem (h : syncPoolIndex now config gauge = .ok out) :
    syncPoolIndex now out.config out.gauge = .ok out :=
  syncPoolIndex_put h out.config.totalVotes out.gauge.totalVotes

theorem changeVotes_absorbed (h : syncPoolIndex now config gauge = .ok out) (personal : PersonalGauge)
    (amount : Int) (reactor : Reactor) :
    changeVotes now out.config out.gauge personal amount reactor =
      changeVotes now config gauge personal amount reactor := by
  have hpool : out.gauge.poolId = gauge.poolId := (syncPoolIndex_ok h).2.poolId
  have hlinks : checkLinks out.gauge personal reactor = checkLinks gauge personal reactor := by
    rw [checkLinks, checkLinks, hpool]
  simp only [changeVotes, hlinks, h, syncPoolIndex_idem h]

end Emission

/-! ### The stake -/

namespace Staking

/-- What can be done with a reactor at a time. -/
inductive Turn where
  | deposit (amount : Int)
  | withdraw (amount : Int)
  | sync
  | syncAndCollect

/-- What is returned to a turn at `now`. -/
def Turn.perform (turn : Turn) (now : Int) (config : ReactorConfig) (r : Reactor) : Result Outcome :=
  match turn with
  | deposit amount => depositRay now config r amount
  | withdraw amount => withdrawRay now config r amount
  | sync => syncReactor now config r
  | syncAndCollect => syncAndCollectRayRewards now config r

variable {now : Int} {config config' : ReactorConfig} {r r' : Reactor}

/-- Settled records are settled with another stake too. -/
theorem settleAt_put (h : settleAt now config r = .ok (config', r')) (total ray : ℕ) :
    settleAt now { config' with totalRayDeposited := total } { r' with ray } =
      .ok ({ config' with totalRayDeposited := total }, { r' with ray }) := by
  obtain ⟨hadvance, hsettle⟩ := settleAt_eq_ok.mp h
  exact settleAt_eq_ok.mpr ⟨ReactorConfig.advance_again hadvance total,
    Reactor.settle_again hsettle total ray⟩

theorem settleAt_again (h : settleAt now config r = .ok (config', r')) :
    settleAt now config' r' = .ok (config', r') :=
  settleAt_put h config'.totalRayDeposited r'.ray

/-- A turn reads the records only through their settling. -/
theorem Turn.perform_congr (turn : Turn) (h : settleAt now config' r' = settleAt now config r) :
    turn.perform now config' r' = turn.perform now config r := by
  cases turn with
  | deposit amount => simp only [perform, depositRay, h]
  | withdraw amount => simp only [perform, withdrawRay, h]
  | sync => simp only [perform, syncReactor, depositRay, h]
  | syncAndCollect => simp only [perform, syncAndCollectRayRewards, syncReactor, depositRay, h]

/-- A synchronization is a deposit of nothing, so it returns the settled records. -/
theorem syncReactor_settleAt {out : Outcome} (h : syncReactor now config r = .ok out) :
    settleAt now config r = .ok (out.config, out.reactor) := by
  simp only [syncReactor, depositRay, bind_eq_ok, pure_eq_ok, requireU64_eq_ok, Counter.add_eq_ok] at h
  obtain ⟨n, ⟨-, hn⟩, ⟨config', r'⟩, hsettle, ray, ⟨-, hray⟩, total, ⟨-, htotal⟩, rfl⟩ := h
  obtain rfl : n = 0 := by omega
  obtain rfl : ray = r'.ray := hray
  obtain rfl : total = config'.totalRayDeposited := htotal
  exact hsettle

theorem syncReactor_absorbed {out : Outcome} (h : syncReactor now config r = .ok out) (turn : Turn) :
    turn.perform now out.config out.reactor = turn.perform now config r := by
  have hsettle := syncReactor_settleAt h
  exact turn.perform_congr ((settleAt_again hsettle).trans hsettle.symm)

end Staking

/-! ### Rewarders -/

namespace PersonalRewarderState

/-- A rewarder that has seen all there is by `now` sees and stages nothing. -/
theorem syncAndStage_still {state : PersonalRewarderState} {now : Int} {emitted : ℕ} {units : Number}
    (hts : (state.lastUpdatedTs : Int) = now) (hray : state.lastSeenTotalEmittedRay = emitted)
    (hunits : state.lastSeenTimeUnits = units) :
    state.syncAndStage now emitted units = .ok ⟨state, 0⟩ := by
  subst hts hray hunits
  have hprogress : state.checkProgress state.lastUpdatedTs state.lastSeenTotalEmittedRay
      state.lastSeenTimeUnits = .ok () := by
    rw [checkProgress, if_neg (lt_irrefl _), if_neg (lt_irrefl _),
      if_neg (mt Number.lt_iff.mp (Nat.lt_irrefl _))]
  refine bind_eq_ok.mpr ⟨(), hprogress, if_pos ?_⟩
  rw [sub_self, Int.toNat_zero]

/-- A second look at one time stages nothing. -/
theorem syncAndStage_again {state : PersonalRewarderState} {now : Int} {emitted : ℕ} {units : Number}
    {out : Staged} (h : state.syncAndStage now emitted units = .ok out) :
    out.state.syncAndStage now emitted units = .ok ⟨out.state, 0⟩ := by
  obtain ⟨-, -, seconds, hnow, ⟨-, hsame, hnone⟩ | ⟨-, -, hnew⟩⟩ := syncAndStage_ok h
  · -- no time had passed before the first look either
    obtain ⟨state', collected⟩ := out
    obtain rfl : state' = state := hsame
    obtain rfl : collected = 0 := hnone
    exact h
  · rw [hnew]
    refine syncAndStage_still ?_ rfl rfl
    rw [hnow, Nat.cast_add]

end PersonalRewarderState

namespace Rewarder

variable {now : Int} {config : GaugeConfig} {gauge : Gauge} {t : TimeTracker} {p : PersonalPosition}

/-- An accrual reads the escrow's records only through their update. -/
theorem accrueCp_escrow {escrow : Escrow.Outcome} (h : Escrow.updatePersonal now t p = .ok escrow)
    (config : GaugeConfig) (gauge : Gauge) (r : PersonalRewarderCp) :
    accrueCp now config gauge escrow.timeTracker escrow.position r = accrueCp now config gauge t p r := by
  obtain ⟨⟨_, -, hadv⟩, hset⟩ := Escrow.sync_ok (Escrow.updatePersonal_sync h)
  have hpool : checkCpPool gauge escrow.timeTracker = checkCpPool gauge t := by
    rw [checkCpPool, checkCpPool, hadv.poolId]
  have hlinks : checkCpLinks gauge escrow.position r = checkCpLinks gauge p r := by
    rw [checkCpLinks, checkCpLinks, hset.owner]
  have hupdate : Escrow.updatePersonal now escrow.timeTracker escrow.position =
      Escrow.updatePersonal now t p := Escrow.updatePersonal_absorbed h .update
  simp only [accrueCp, hpool, hlinks, hupdate]

/-- An accrual reads the emission's records only through their synchronization. -/
theorem accrueCp_emission {synced : Emission.Synced}
    (h : Emission.syncPoolIndex now config gauge = .ok synced) (t : TimeTracker) (p : PersonalPosition)
    (r : PersonalRewarderCp) :
    accrueCp now synced.config synced.gauge t p r = accrueCp now config gauge t p r := by
  have hgauge : synced.gauge.poolId = gauge.poolId := (Emission.syncPoolIndex_ok h).2.poolId
  have hpool : checkCpPool synced.gauge t = checkCpPool gauge t := by
    rw [checkCpPool, checkCpPool, hgauge]
  have hlinks : checkCpLinks synced.gauge p r = checkCpLinks gauge p r := by
    rw [checkCpLinks, checkCpLinks, hgauge]
  simp only [accrueCp, hpool, hlinks, h, Emission.syncPoolIndex_idem h]

/-- An accrual at the time of the last one collects nothing and changes no record. -/
theorem accrueCp_again {r : PersonalRewarderCp} {out : CpOutcome}
    (h : accrueCp now config gauge t p r = .ok out) :
    accrueCp now out.config out.gauge out.timeTracker out.position out.rewarder =
      .ok { out with collected := 0 } := by
  obtain ⟨hescrow, hsync, hstage⟩ := accrueCp_ok h
  have hkept := accrueCp_links h
  have hlinks : checkCpLinks gauge p out.rewarder = checkCpLinks gauge p r := by
    rw [hkept, checkCpLinks, checkCpLinks]
  rw [accrueCp_escrow hescrow, accrueCp_emission hsync]
  simp only [accrueCp, bind_eq_ok] at h ⊢
  obtain ⟨_, hpool, _, hlink, -⟩ := h
  exact ⟨(), hpool, (), hlinks.trans hlink, _, hescrow, _, hsync, _,
    PersonalRewarderState.syncAndStage_again hstage, rfl⟩

/-- The same for a concentrated-liquidity position whose snapshot has not changed. -/
theorem accrueCl_again {snapshot : ClPositionSnapshot} {mint : String} {r : PersonalRewarderCl}
    {out : ClOutcome} (h : accrueCl now config gauge snapshot mint r = .ok out) :
    accrueCl now out.config out.gauge snapshot mint out.rewarder = .ok { out with collected := 0 } := by
  simp only [accrueCl, bind_eq_ok, pure_eq_ok] at h ⊢
  obtain ⟨_, hpool, _, hlinks, synced, hsync, units, hunits, staged, hstage, rfl⟩ := h
  have hgauge : synced.gauge.poolId = gauge.poolId := (Emission.syncPoolIndex_ok hsync).2.poolId
  refine ⟨(), ?_, (), ?_, synced, Emission.syncPoolIndex_idem hsync, units, hunits, _,
    PersonalRewarderState.syncAndStage_again hstage, rfl⟩
  · rw [checkClPool, hgauge]
    exact hpool
  · rw [checkClLinks, hgauge]
    exact hlinks

end Rewarder

/-- **Absorption.** Where a synchronization at `now` is answered, whatever is done at `now` with the
records that it returns is answered or refused as it is on the records before, with the same result. In
particular a synchronization on its own records returns them, and an accrual on its own records collects
nothing. -/
theorem sync_absorbed (now : Int) :
    (∀ t p out, Escrow.updatePersonal now t p = .ok out →
      Escrow.updatePersonal now out.timeTracker out.position = .ok out ∧
      ∀ turn : Escrow.Turn,
        turn.perform now out.timeTracker out.position = turn.perform now t p) ∧
    (∀ config gauge out, Emission.syncPoolIndex now config gauge = .ok out →
      Emission.syncPoolIndex now out.config out.gauge = .ok out ∧
      ∀ personal amount reactor,
        Emission.changeVotes now out.config out.gauge personal amount reactor =
          Emission.changeVotes now config gauge personal amount reactor) ∧
    (∀ config r out, Staking.syncReactor now config r = .ok out →
      Staking.syncReactor now out.config out.reactor = .ok out ∧
      ∀ turn : Staking.Turn, turn.perform now out.config out.reactor = turn.perform now config r) ∧
    (∀ config gauge t p r escrow, Escrow.updatePersonal now t p = .ok escrow →
      Rewarder.accrueCp now config gauge escrow.timeTracker escrow.position r =
        Rewarder.accrueCp now config gauge t p r) ∧
    (∀ config gauge t p r synced, Emission.syncPoolIndex now config gauge = .ok synced →
      Rewarder.accrueCp now synced.config synced.gauge t p r =
        Rewarder.accrueCp now config gauge t p r) ∧
    (∀ config gauge t p r escrow synced, Escrow.updatePersonal now t p = .ok escrow →
      Emission.syncPoolIndex now config gauge = .ok synced →
      Rewarder.accrueCp now synced.config synced.gauge escrow.timeTracker escrow.position r =
        Rewarder.accrueCp now config gauge t p r) ∧
    (∀ config gauge t p r out, Rewarder.accrueCp now config gauge t p r = .ok out →
      Rewarder.accrueCp now out.config out.gauge out.timeTracker out.position out.rewarder =
        .ok { out with collected := 0 }) ∧
    (∀ config gauge snapshot mint r out, Rewarder.accrueCl now config gauge snapshot mint r = .ok out →
      Rewarder.accrueCl now out.config out.gauge snapshot mint out.rewarder =
        .ok { out with collected := 0 }) := by
  refine ⟨fun t p out h => ?_, fun config gauge out h => ?_, fun config r out h => ?_,
    fun config gauge t p r escrow h => Rewarder.accrueCp_escrow h config gauge r,
    fun config gauge t p r synced h => Rewarder.accrueCp_emission h t p r,
    fun config gauge t p r escrow synced hescrow hsync => ?_,
    fun config gauge t p r out h => Rewarder.accrueCp_again h,
    fun config gauge snapshot mint r out h => Rewarder.accrueCl_again h⟩
  · have habsorbed := Escrow.updatePersonal_absorbed h
    exact ⟨(habsorbed .update).trans h, habsorbed⟩
  · exact ⟨Emission.syncPoolIndex_idem h, Emission.changeVotes_absorbed h⟩
  · have habsorbed := Staking.syncReactor_absorbed h
    exact ⟨(habsorbed .sync).trans h, habsorbed⟩
  · rw [Rewarder.accrueCp_escrow hescrow, Rewarder.accrueCp_emission hsync]

/-- After a day all records are synchronized; a withdrawal of more than there is is refused as before,
and the rewarders, accrued once, have nothing more to collect. -/
theorem sync_absorbed_day :
    let t : TimeTracker := ⟨.zero, .zero, .zero, 2, 0⟩
    let p : PersonalPosition := ⟨.zero, .zero, 1, .zero, .zero⟩
    let config : GaugeConfig := ⟨2, 86400, .zero, 0⟩
    let gauge : Gauge := ⟨.zero, 1, .zero, 0⟩
    let stake : ReactorConfig := ⟨2, 86400, .zero, 10000, .zero, 0⟩
    let reactor : Reactor := ⟨.zero, 1, 0, 0, .zero, ⟨.zero, 0⟩⟩
    let state : PersonalRewarderState := ⟨.zero, 0, 0, 0⟩
    let snapshot : ClPositionSnapshot := ⟨.zero, .zero, [⟨.zero, 43200⟩]⟩
    ∃ escrow synced staked accrued accrued',
      Escrow.updatePersonal 86400 t p = .ok escrow ∧
      Emission.syncPoolIndex 86400 config gauge = .ok synced ∧
      Staking.syncReactor 86400 stake reactor = .ok staked ∧
      Rewarder.accrueCp 86400 config gauge t p ⟨.zero, .zero, state⟩ = .ok accrued ∧
      Rewarder.accrueCl 86400 config gauge snapshot Address.zero.text ⟨.zero, .zero, .zero, state⟩ =
        .ok accrued' ∧
      accrued.collected = 21600 ∧ accrued'.collected = 21600 ∧
      Escrow.withdraw 86400 escrow.timeTracker escrow.position 2 = Escrow.withdraw 86400 t p 2 ∧
      Emission.changeVotes 86400 synced.config synced.gauge ⟨.zero, .zero, 0⟩ 1 reactor =
        Emission.changeVotes 86400 config gauge ⟨.zero, .zero, 0⟩ 1 reactor ∧
      Staking.withdrawRay 86400 staked.config staked.reactor 1 =
        Staking.withdrawRay 86400 stake reactor 1 ∧
      Rewarder.accrueCp 86400 synced.config synced.gauge escrow.timeTracker escrow.position
          ⟨.zero, .zero, state⟩ = .ok accrued ∧
      Rewarder.accrueCp 86400 accrued.config accrued.gauge accrued.timeTracker accrued.position
          accrued.rewarder = .ok { accrued with collected := 0 } ∧
      Rewarder.accrueCl 86400 accrued'.config accrued'.gauge snapshot Address.zero.text
          accrued'.rewarder = .ok { accrued' with collected := 0 } := by
  intro t p config gauge stake reactor state snapshot
  obtain ⟨escrow, hescrow, -⟩ := Option.map_eq_some_iff.mp (show
    (Escrow.updatePersonal 86400 t p).toOption.map (·.position.earnedTimeUnits.raw) =
      some (43200 * scale) by decide +kernel)
  obtain ⟨synced, hsync, -⟩ := Option.map_eq_some_iff.mp (show
    (Emission.syncPoolIndex 86400 config gauge).toOption.map (·.gauge.totalRayEmitted) = some 43200 by
      decide +kernel)
  obtain ⟨staked, hstaked, -⟩ := Option.map_eq_some_iff.mp (show
    (Staking.syncReactor 86400 stake reactor).toOption.map
      (·.reactor.rayStakeRewards.uncollectedRayReward) = some 43200 by decide +kernel)
  obtain ⟨accrued, haccrued, hcollected⟩ := Option.map_eq_some_iff.mp (show
    (Rewarder.accrueCp 86400 config gauge t p ⟨.zero, .zero, state⟩).toOption.map (·.collected) =
      some 21600 by decide +kernel)
  obtain ⟨accrued', haccrued', hcollected'⟩ := Option.map_eq_some_iff.mp (show
    (Rewarder.accrueCl 86400 config gauge snapshot Address.zero.text
      ⟨.zero, .zero, .zero, state⟩).toOption.map (·.collected) = some 21600 by decide +kernel)
  rw [toOption_eq_some] at hescrow hsync hstaked haccrued haccrued'
  obtain ⟨habsorbed, hvotes, hreactor, -, -, hboth, hcp, hcl⟩ := sync_absorbed 86400
  exact ⟨escrow, synced, staked, accrued, accrued', hescrow, hsync, hstaked, haccrued, haccrued',
    hcollected, hcollected', (habsorbed _ _ _ hescrow).2 (.withdraw 2),
    (hvotes _ _ _ hsync).2 _ _ _, (hreactor _ _ _ hstaked).2 (.withdraw 1),
    (hboth _ _ _ _ _ _ _ hescrow hsync).trans haccrued, hcp _ _ _ _ _ _ haccrued,
    hcl _ _ _ _ _ _ haccrued'⟩

end EmissionLedger
