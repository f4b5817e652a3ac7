import EmissionLedger.Proofs.Contract.Acceptance
import EmissionLedger.Proofs.Ledger.Operation
import EmissionLedger.Proofs.Record.Reading
import EmissionLedger.Proofs.Rewarder.Book
import EmissionLedger.Proofs.Staking.Moves

/-!
The ledger is closed on well-formed records: whatever well-formed records are handed to an operation,
linked or not, the records that it returns are well-formed. Clocks end at the time of the operation,
counters change only by checked additions and subtractions, and locked votes stay backed.

Main statements: `Escrow.Operation.run_wellFormed` and its counterparts for the emission, the rewarders
and the stake; `operation_closed`.
-/

namespace EmissionLedger

/-! ### Moving on and settling -/

theorem TimeTracker.WellFormed.advance {t t' : TimeTracker} {now : Int} (h : t.WellFormed)
    (hnow : now ≤ (maxU64 : Int)) (hadvance : t.advance now = .ok t') : t'.WellFormed := by
  obtain ⟨elapsed, hts, hadv⟩ := advance_ok hadvance
  refine ⟨hadv.total ▸ h.1, ?_⟩
  rw [hadv.ts]
  omega

theorem PersonalPosition.WellFormed.settle {p p' : PersonalPosition} {t : TimeTracker}
    (h : p.WellFormed) (hsettle : p.settle t = .ok p') : p'.WellFormed := by
  have hamount := (settle_ok hsettle).amount
  exact hamount.trans_le h

theorem GaugeConfig.WellFormed.advance {c c' : GaugeConfig} {now : Int} (h : c.WellFormed)
    (hnow : now ≤ (maxU64 : Int)) (hadvance : c.advance now = .ok c') : c'.WellFormed := by
  obtain ⟨elapsed, hts, hadv⟩ := advance_ok hadvance
  refine ⟨hadv.votes ▸ h.1, hadv.emission ▸ h.2.1, ?_⟩
  rw [hadv.ts]
  omega

/-- RAY is credited to a gauge only as far as its counter goes. -/
theorem Gauge.settle_fits {g g' : Gauge} {index : Number} (hsettle : g.settle index = .ok g')
    (h : g.totalRayEmitted ≤ maxU64) : g'.totalRayEmitted ≤ maxU64 := by
  simp only [Gauge.settle, bind_eq_ok] at hsettle
  obtain ⟨accrual, -, hsettle⟩ := hsettle
  split at hsettle
  · rw [pure_eq_ok] at hsettle
    exact hsettle ▸ h
  · simp only [bind_eq_ok, pure_eq_ok, Counter.add_eq_ok] at hsettle
    obtain ⟨_, -, emitted, ⟨hfits, -⟩, rfl⟩ := hsettle
    exact hfits

theorem Gauge.WellFormed.settle {g g' : Gauge} {index : Number} (h : g.WellFormed)
    (hsettle : g.settle index = .ok g') : g'.WellFormed := by
  have hvotes := (Gauge.settle_ok hsettle).votes
  exact ⟨hvotes.trans_le h.1, Gauge.settle_fits hsettle h.2⟩

theorem ReactorConfig.WellFormed.advance {c c' : ReactorConfig} {now : Int} (h : c.WellFormed)
    (hnow : now ≤ (maxU64 : Int)) (hadvance : c.advance now = .ok c') : c'.WellFormed := by
  obtain ⟨elapsed, hts, hadv⟩ := advance_ok hadvance
  refine ⟨hadv.total ▸ h.1, hadv.emission ▸ h.2.1, hadv.apr ▸ h.2.2.1, ?_⟩
  rw [hadv.ts]
  omega

namespace Reactor

theorem accrueRayRewards_fits {r r' : Reactor} {index : Number}
    (haccrue : r.accrueRayRewards index = .ok r') (h : r.rayStakeRewards.WellFormed) :
    r'.rayStakeRewards.WellFormed := by
  simp only [accrueRayRewards, bind_eq_ok] at haccrue
  obtain ⟨accrual, -, haccrue⟩ := haccrue
  split at haccrue
  · rw [pure_eq_ok] at haccrue
    exact haccrue ▸ h
  · simp only [bind_eq_ok, pure_eq_ok, Counter.add_eq_ok] at haccrue
    obtain ⟨_, -, uncollected, ⟨hfits, -⟩, rfl⟩ := haccrue
    exact hfits

theorem WellFormed.settle {r r' : Reactor} {config : ReactorConfig} (h : r.WellFormed)
    (hsettle : r.settle config = .ok r') : r'.WellFormed := by
  obtain ⟨hray, -, hlocked, hrewards, hbacked⟩ := h
  have hset := settle_ok hsettle
  simp only [Reactor.settle, bind_eq_ok] at hsettle
  obtain ⟨r₁, hisoRay, haccrue⟩ := hsettle
  have hfits := accrueIsoRay_le hisoRay
  obtain rfl := accrueIsoRay_ok hisoRay
  have hcredited := accrueRayRewards_fits haccrue hrewards
  obtain rfl := accrueRayRewards_ok haccrue
  exact ⟨hray, hfits, hlocked, hcredited, hset.keeps.backed hbacked⟩

theorem WellFormed.lockVotes {r r' : Reactor} {amount : Int} (h : r.WellFormed)
    (hlock : r.lockVotes amount = .ok r') : r'.WellFormed := by
  have hrelocked := lockVotes_ok hlock
  simp only [Reactor.lockVotes, bind_eq_ok] at hlock
  obtain ⟨votes, -, hlock⟩ := hlock
  split at hlock
  · cases hlock
  · simp only [bind_eq_ok, pure_eq_ok, Counter.add_eq_ok] at hlock
    obtain ⟨locked, ⟨hfits, -⟩, rfl⟩ := hlock
    exact ⟨h.1, h.2.1, hfits, h.2.2.2.1, hrelocked.backed h.2.2.2.2⟩

theorem WellFormed.unlockVotes {r r' : Reactor} {amount : Int} (h : r.WellFormed)
    (hunlock : r.unlockVotes amount = .ok r') : r'.WellFormed := by
  have hrelocked := unlockVotes_ok hunlock
  simp only [Reactor.unlockVotes, bind_eq_ok] at hunlock
  obtain ⟨votes, -, hunlock⟩ := hunlock
  split at hunlock
  · cases hunlock
  · simp only [bind_eq_ok, pure_eq_ok, Counter.sub_eq_ok] at hunlock
    obtain ⟨locked, hlocked, rfl⟩ := hunlock
    have hfits : locked ≤ maxU64 := (Nat.le.intro hlocked).trans h.2.2.1
    exact ⟨h.1, h.2.1, hfits, h.2.2.2.1, hrelocked.backed h.2.2.2.2⟩

theorem WellFormed.moveLock {r r' : Reactor} {amount : Int} (h : r.WellFormed)
    (hmove : Emission.moveLock r amount = .ok r') : r'.WellFormed := by
  rw [Emission.moveLock] at hmove
  split at hmove
  · exact h.lockVotes hmove
  split at hmove
  · exact h.unlockVotes hmove
  · rw [Except.ok.injEq] at hmove
    exact hmove ▸ h

end Reactor

/-! ### The escrow -/

namespace Escrow

section

variable {now amount : Int} {t : TimeTracker} {p : PersonalPosition} {out : Outcome}

theorem sync_wellFormed {t' : TimeTracker} {p' : PersonalPosition} (ht : t.WellFormed)
    (hp : p.WellFormed) (hnow : now ≤ (maxU64 : Int)) (h : sync now t p = .ok (t', p')) :
    t'.WellFormed ∧ p'.WellFormed := by
  obtain ⟨hadvance, hsettle⟩ := sync_eq_ok.mp h
  exact ⟨ht.advance hnow hadvance, hp.settle hsettle⟩

theorem deposit_wellFormed (ht : t.WellFormed) (hp : p.WellFormed) (hnow : now ≤ (maxU64 : Int))
    (h : deposit now t p amount = .ok out) : out.timeTracker.WellFormed ∧ out.position.WellFormed := by
  simp only [deposit, bind_eq_ok, pure_eq_ok, Counter.add_eq_ok] at h
  obtain ⟨n, -, ⟨t', p'⟩, hsync, own, ⟨hown, -⟩, total, ⟨htotal, -⟩, rfl⟩ := h
  obtain ⟨ht', -⟩ := sync_wellFormed ht hp hnow hsync
  exact ⟨⟨htotal, ht'.2⟩, hown⟩

theorem withdraw_wellFormed (ht : t.WellFormed) (hp : p.WellFormed) (hnow : now ≤ (maxU64 : Int))
    (h : withdraw now t p amount = .ok out) : out.timeTracker.WellFormed ∧ out.position.WellFormed := by
  simp only [withdraw, bind_eq_ok, pure_eq_ok, Counter.sub_eq_ok] at h
  obtain ⟨n, -, ⟨t', p'⟩, hsync, own, hown, total, htotal, rfl⟩ := h
  obtain ⟨ht', hp'⟩ := sync_wellFormed ht hp hnow hsync
  exact ⟨⟨(Nat.le.intro htotal).trans ht'.1, ht'.2⟩, (Nat.le.intro hown).trans hp'⟩

theorem updatePersonal_wellFormed (ht : t.WellFormed) (hp : p.WellFormed)
    (hnow : now ≤ (maxU64 : Int)) (h : updatePersonal now t p = .ok out) :
    out.timeTracker.WellFormed ∧ out.position.WellFormed := by
  simp only [updatePersonal, bind_eq_ok, pure_eq_ok] at h
  obtain ⟨⟨t', p'⟩, hsync, rfl⟩ := h
  exact sync_wellFormed ht hp hnow hsync

end

theorem Operation.run_wellFormed {op : Operation} {out : List Record} (time : InTime op.time)
    (handed : ∀ r ∈ op.records, r.WellFormed) (h : op.run = .ok out) : ∀ r ∈ out, r.WellFormed := by
  cases op with
  | initTimeTracker now poolId escrowAccount =>
    simp only [run, initTimeTrackerOfJson, Escrow.initTimeTracker, bind_eq_ok, pure_eq_ok,
      requireU64_eq_ok] at h
    obtain ⟨t, ⟨_, -, _, -, start, ⟨hstart, -⟩, rfl⟩, rfl⟩ := h
    exact List.forall_mem_singleton.mpr ⟨Nat.zero_le _, hstart⟩
  | initPersonalPosition now tracker owner =>
    simp only [run, initPersonalPositionOfJson, bind_eq_ok, pure_eq_ok] at h
    obtain ⟨out, ⟨_, -, _, -, hinit⟩, rfl⟩ := h
    obtain ⟨hadvance, -, hposition⟩ := initPersonalPosition_ok hinit
    have ht : tracker.WellFormed := by simpa using handed
    refine Outcome.forall_records.mpr ⟨ht.advance (time now rfl).2 hadvance, ?_⟩
    rw [hposition]
    exact Nat.zero_le _
  | deposit now tracker position amount =>
    simp only [run, depositOfJson, bind_eq_ok, pure_eq_ok] at h
    obtain ⟨out, ⟨_, -, hdeposit⟩, rfl⟩ := h
    obtain ⟨ht, hp⟩ : tracker.WellFormed ∧ position.WellFormed := by simpa using handed
    exact Outcome.forall_records.mpr (deposit_wellFormed ht hp (time now rfl).2 hdeposit)
  | withdraw now tracker position amount =>
    simp only [run, withdrawOfJson, bind_eq_ok, pure_eq_ok] at h
    obtain ⟨out, ⟨_, -, hwithdraw⟩, rfl⟩ := h
    obtain ⟨ht, hp⟩ : tracker.WellFormed ∧ position.WellFormed := by simpa using handed
    exact Outcome.forall_records.mpr (withdraw_wellFormed ht hp (time now rfl).2 hwithdraw)
  | updatePersonal now tracker position =>
    obtain ⟨out, hupdate, rfl⟩ := return_eq_ok.mp h
    obtain ⟨ht, hp⟩ : tracker.WellFormed ∧ position.WellFormed := by simpa using handed
    exact Outcome.forall_records.mpr (updatePersonal_wellFormed ht hp (time now rfl).2 hupdate)

end Escrow

/-! ### The emission -/

theorem requireU64Json_le {name : String} {v : Json} {n : Nat} (h : requireU64Json name v = .ok n) :
    n ≤ maxU64 := by
  simp only [requireU64Json, bind_eq_ok, requireU64_eq_ok] at h
  obtain ⟨_, -, hle, -⟩ := h
  exact hle

namespace Emission

section

variable {now amount : Int} {config : GaugeConfig} {gauge : Gauge}

theorem syncPoolIndex_wellFormed {out : Synced} (hc : config.WellFormed) (hg : gauge.WellFormed)
    (hnow : now ≤ (maxU64 : Int)) (h : syncPoolIndex now config gauge = .ok out) :
    out.config.WellFormed ∧ out.gauge.WellFormed := by
  obtain ⟨hadvance, hsettle⟩ := syncPoolIndex_eq_ok.mp h
  exact ⟨hc.advance hnow hadvance, hg.settle hsettle⟩

theorem changeVotes_wellFormed {personal : PersonalGauge} {reactor : Reactor} {out : VoteChange}
    (hc : config.WellFormed) (hg : gauge.WellFormed) (hp : personal.WellFormed)
    (hr : reactor.WellFormed) (hnow : now ≤ (maxU64 : Int))
    (h : changeVotes now config gauge personal amount reactor = .ok out) :
    out.config.WellFormed ∧ out.gauge.WellFormed ∧ out.personalGauge.WellFormed ∧
      out.reactor.WellFormed := by
  simp only [changeVotes, bind_eq_ok, pure_eq_ok] at h
  obtain ⟨_, -, _, -, _, -, reactor', hlock, synced, hsynced, global, hglobal, pool, hpool, votes,
    hvotes, rfl⟩ := h
  obtain ⟨hc', hg'⟩ := syncPoolIndex_wellFormed hc hg hnow hsynced
  exact ⟨⟨Counter.change_le hglobal hc'.1, hc'.2⟩, ⟨Counter.change_le hpool hg'.1, hg'.2⟩,
    Counter.change_le hvotes hp, hr.moveLock hlock⟩

end

theorem Operation.run_wellFormed {op : Operation} {out : List Record} (time : InTime op.time)
    (handed : ∀ r ∈ op.records, r.WellFormed) (h : op.run = .ok out) : ∀ r ∈ out, r.WellFormed := by
  cases op with
  | initGaugeConfig perDay now =>
    simp only [run, settingsOfJson, initGaugeConfigOfJson, Emission.initGaugeConfig, bind_eq_ok,
      pure_eq_ok, requireU64_eq_ok] at h
    obtain ⟨_, ⟨perDay, hperDay, rfl⟩, config, ⟨_, -, start, ⟨hstart, -⟩, rfl⟩, rfl⟩ := h
    exact List.forall_mem_singleton.mpr ⟨Nat.zero_le _, requireU64Json_le hperDay, hstart⟩
  | initPoolGauge now config poolId =>
    simp only [run, initPoolGaugeOfJson, bind_eq_ok, pure_eq_ok] at h
    obtain ⟨out, ⟨_, -, _, -, hinit⟩, rfl⟩ := h
    obtain ⟨hadvance, hgauge⟩ := initPoolGauge_ok hinit
    have hc : config.WellFormed := by simpa using handed
    refine Synced.forall_records.mpr ⟨hc.advance (time now rfl).2 hadvance, ?_⟩
    rw [hgauge]
    exact ⟨Nat.zero_le _, Nat.zero_le _⟩
  | initPersonalGauge owner gauge =>
    simp only [run, initPersonalGaugeOfJson, bind_eq_ok, pure_eq_ok] at h
    obtain ⟨_, ⟨owner, -, rfl⟩, rfl⟩ := h
    exact List.forall_mem_singleton.mpr (Nat.zero_le _)
  | syncPoolIndex now config gauge =>
    obtain ⟨out, hsync, rfl⟩ := return_eq_ok.mp h
    obtain ⟨hc, hg⟩ : config.WellFormed ∧ gauge.WellFormed := by simpa using handed
    exact Synced.forall_records.mpr (syncPoolIndex_wellFormed hc hg (time now rfl).2 hsync)
  | changeVotes now config gauge personal amount reactor =>
    simp only [run, changeVotesOfJson, bind_eq_ok, pure_eq_ok] at h
    obtain ⟨out, ⟨_, -, h⟩, rfl⟩ := h
    cases reactor with
    | inr kind => cases h
    | inl reactor =>
      obtain ⟨hc, hg, hp, hr⟩ : config.WellFormed ∧ gauge.WellFormed ∧ personal.WellFormed ∧
          reactor.WellFormed := by simpa using handed
      exact VoteChange.forall_records.mpr (changeVotes_wellFormed hc hg hp hr (time now rfl).2 h)

end Emission

/-! ### The rewarders -/

theorem PersonalRewarderState.WellFormed.syncAndStage {state : PersonalRewarderState} {now : Int}
    {emitted : ℕ} {units : Number} {out : Staged} (h : state.WellFormed)
    (hemitted : emitted ≤ maxU64) (hnow : now ≤ (maxU64 : Int))
    (hstage : state.syncAndStage now emitted units = .ok out) : out.state.WellFormed := by
  simp only [PersonalRewarderState.syncAndStage, bind_eq_ok] at hstage
  obtain ⟨_, -, hstage⟩ := hstage
  split at hstage
  · rw [pure_eq_ok] at hstage
    exact hstage ▸ h
  · simp only [bind_eq_ok, pure_eq_ok, Counter.add_eq_ok] at hstage
    obtain ⟨_, -, collected, -, staged, ⟨hfits, -⟩, rfl⟩ := hstage
    refine ⟨?_, ?_, hfits⟩ <;> dsimp only <;> omega

theorem PersonalRewarderState.start_wellFormed {now : Int} {gauge : Gauge} {units : Number}
    {state : PersonalRewarderState} (hg : gauge.WellFormed)
    (h : start now gauge units = .ok state) : state.WellFormed := by
  obtain ⟨-, hfits, rfl⟩ := start_eq_ok.mp h
  exact ⟨hg.2, Int.toNat_le.mpr hfits, Nat.zero_le _⟩

theorem PersonalRewarderState.WellFormed.collect {state : PersonalRewarderState}
    (h : state.WellFormed) : state.collect.1.WellFormed := ⟨h.1, h.2.1, Nat.zero_le _⟩

theorem Rewarder.Operation.run_wellFormed {op : Operation} {out : List Record}
    (time : InTime op.time) (handed : ∀ r ∈ op.records, r.WellFormed) (h : op.run = .ok out) :
    ∀ r ∈ out, r.WellFormed := by
  cases op with
  | initCp now config gauge tracker position =>
    obtain ⟨out, hinit, rfl⟩ := return_eq_ok.mp h
    obtain ⟨hescrow, hsynced, hstate⟩ := initCp_ok hinit
    obtain ⟨hc, hg, ht, hp⟩ : config.WellFormed ∧ gauge.WellFormed ∧ tracker.WellFormed ∧
        position.WellFormed := by simpa using handed
    have hnow := (time now rfl).2
    obtain ⟨ht', hp'⟩ := Escrow.updatePersonal_wellFormed ht hp hnow hescrow
    obtain ⟨hc', hg'⟩ := Emission.syncPoolIndex_wellFormed hc hg hnow hsynced
    exact CpOutcome.forall_records.mpr
      ⟨hc', hg', ht', hp', PersonalRewarderState.start_wellFormed hg' hstate⟩
  | accrueCp now config gauge tracker position rewarder =>
    obtain ⟨out, haccrue, rfl⟩ := return_eq_ok.mp h
    obtain ⟨hescrow, hsynced, hstaged⟩ := accrueCp_ok haccrue
    obtain ⟨hc, hg, ht, hp, hr⟩ : config.WellFormed ∧ gauge.WellFormed ∧ tracker.WellFormed ∧
        position.WellFormed ∧ rewarder.rewarder.WellFormed := by simpa using handed
    have hnow := (time now rfl).2
    obtain ⟨ht', hp'⟩ := Escrow.updatePersonal_wellFormed ht hp hnow hescrow
    obtain ⟨hc', hg'⟩ := Emission.syncPoolIndex_wellFormed hc hg hnow hsynced
    exact CpOutcome.forall_records.mpr ⟨hc', hg', ht', hp', hr.syncAndStage hg'.2 hnow hstaged⟩
  | collectCp rewarder =>
    simp only [run, pure_eq_ok] at h
    have hr : rewarder.rewarder.WellFormed := by simpa using handed
    subst h
    exact List.forall_mem_singleton.mpr hr.collect
  | initCl now config gauge snapshot mint =>
    obtain ⟨out, hinit, rfl⟩ := return_eq_ok.mp h
    obtain ⟨hsynced, units, -, hstate⟩ := initCl_ok hinit
    obtain ⟨hc, hg, -⟩ : config.WellFormed ∧ gauge.WellFormed ∧ snapshot.WellFormed := by simpa using handed
    obtain ⟨hc', hg'⟩ := Emission.syncPoolIndex_wellFormed hc hg (time now rfl).2 hsynced
    exact ClOutcome.forall_records.mpr ⟨hc', hg', PersonalRewarderState.start_wellFormed hg' hstate⟩
  | accrueCl now config gauge snapshot mint rewarder =>
    obtain ⟨out, haccrue, rfl⟩ := return_eq_ok.mp h
    obtain ⟨hsynced, units, -, hstaged⟩ := accrueCl_ok haccrue
    obtain ⟨hc, hg, -, hr⟩ : config.WellFormed ∧ gauge.WellFormed ∧ snapshot.WellFormed ∧
        rewarder.rewarder.WellFormed := by simpa using handed
    have hnow := (time now rfl).2
    obtain ⟨hc', hg'⟩ := Emission.syncPoolIndex_wellFormed hc hg hnow hsynced
    exact ClOutcome.forall_records.mpr ⟨hc', hg', hr.syncAndStage hg'.2 hnow hstaged⟩
  | collectCl rewarder =>
    simp only [run, pure_eq_ok] at h
    have hr : rewarder.rewarder.WellFormed := by simpa using handed
    subst h
    exact List.forall_mem_singleton.mpr hr.collect

/-! ### The stake -/

theorem Reading.toResult_under {α : Type} {kind : RecordKind} {step : PathStep} {r : Reading α} {a : α}
    (h : (r.under step).toResult kind = .ok a) : r = .value a := by
  cases r <;> cases h
  rfl

namespace Staking

section

variable {now amount : Int} {config : ReactorConfig} {r : Reactor} {out : Outcome}

theorem settleAt_wellFormed {config' : ReactorConfig} {r' : Reactor} (hc : config.WellFormed)
    (hr : r.WellFormed) (hnow : now ≤ (maxU64 : Int)) (h : settleAt now config r = .ok (config', r')) :
    config'.WellFormed ∧ r'.WellFormed := by
  obtain ⟨hadvance, hsettle⟩ := settleAt_eq_ok.mp h
  exact ⟨hc.advance hnow hadvance, hr.settle hsettle⟩

theorem depositRay_wellFormed (hc : config.WellFormed) (hr : r.WellFormed) (hnow : now ≤ (maxU64 : Int))
    (h : depositRay now config r amount = .ok out) : out.config.WellFormed ∧ out.reactor.WellFormed := by
  have hbacked := (depositRay_keeps h).backed hr.2.2.2.2
  simp only [depositRay, bind_eq_ok, pure_eq_ok, Counter.add_eq_ok] at h
  obtain ⟨n, -, ⟨config', r'⟩, hsettle, ray, ⟨hray, -⟩, total, ⟨htotal, -⟩, rfl⟩ := h
  obtain ⟨hc', hr'⟩ := settleAt_wellFormed hc hr hnow hsettle
  exact ⟨⟨htotal, hc'.2⟩, hray, hr'.2.1, hr'.2.2.1, hr'.2.2.2.1, hbacked⟩

theorem withdrawRay_wellFormed (hc : config.WellFormed) (hr : r.WellFormed)
    (hnow : now ≤ (maxU64 : Int)) (h : withdrawRay now config r amount = .ok out) :
    out.config.WellFormed ∧ out.reactor.WellFormed := by
  have hbacked := (withdrawRay_keeps h).backed hr.2.2.2.2
  obtain ⟨config', r', taken, loss, ray, isoRay, total, hsettle, -, -, -, hray, hisoRay, htotal, rfl⟩ :=
    withdrawRay_ok h
  obtain ⟨hc', hr'⟩ := settleAt_wellFormed hc hr hnow hsettle
  exact ⟨⟨(Nat.le.intro htotal).trans hc'.1, hc'.2⟩, (Nat.le.intro hray).trans hr'.1,
    (Nat.le.intro hisoRay).trans hr'.2.1, hr'.2.2.1, hr'.2.2.2.1, hbacked⟩

theorem collectRayRewards_wellFormed (hr : r.WellFormed) : (collectRayRewards r).1.WellFormed :=
  ⟨hr.1, hr.2.1, hr.2.2.1, Nat.zero_le _, hr.2.2.2.2⟩

theorem syncAndCollectRayRewards_wellFormed (hc : config.WellFormed) (hr : r.WellFormed)
    (hnow : now ≤ (maxU64 : Int)) (h : syncAndCollectRayRewards now config r = .ok out) :
    out.config.WellFormed ∧ out.reactor.WellFormed := by
  simp only [syncAndCollectRayRewards, bind_eq_ok, pure_eq_ok] at h
  obtain ⟨synced, hsync, rfl⟩ := h
  obtain ⟨hc', hr'⟩ := depositRay_wellFormed hc hr hnow hsync
  exact ⟨hc', collectRayRewards_wellFormed hr'⟩

end

theorem Operation.run_wellFormed {op : Operation} {out : List Record} (time : InTime op.time)
    (handed : ∀ r ∈ op.records, r.WellFormed) (h : op.run = .ok out) : ∀ r ∈ out, r.WellFormed := by
  cases op with
  | initReactorConfig daily apr now =>
    simp only [run, settingsOfJson, initReactorConfigOfJson, Staking.initReactorConfig, bind_eq_ok,
      pure_eq_ok, requireU64_eq_ok] at h
    obtain ⟨_, ⟨daily, hdaily, _, -, rfl⟩, config, ⟨_, -, rate, hrate, start, ⟨hstart, -⟩, rfl⟩, rfl⟩ := h
    exact List.forall_mem_singleton.mpr ⟨Nat.zero_le _, requireU64Json_le hdaily,
      readCounter_le (Reading.toResult_under hrate), hstart⟩
  | initReactor owner =>
    simp only [run, initReactorOfJson, bind_eq_ok, pure_eq_ok] at h
    obtain ⟨_, ⟨owner, -, rfl⟩, rfl⟩ := h
    exact List.forall_mem_singleton.mpr
      ⟨Nat.zero_le _, Nat.zero_le _, Nat.zero_le _, Nat.zero_le _, Nat.le_refl _⟩
  | depositRay now config r amount =>
    simp only [run, depositRayOfJson, bind_eq_ok, pure_eq_ok] at h
    obtain ⟨out, ⟨_, -, hdeposit⟩, rfl⟩ := h
    obtain ⟨hc, hr⟩ : config.WellFormed ∧ r.WellFormed := by simpa using handed
    exact Outcome.forall_records.mpr (depositRay_wellFormed hc hr (time now rfl).2 hdeposit)
  | withdrawRay now config r amount =>
    simp only [run, withdrawRayOfJson, bind_eq_ok, pure_eq_ok] at h
    obtain ⟨out, ⟨_, -, hwithdraw⟩, rfl⟩ := h
    obtain ⟨hc, hr⟩ : config.WellFormed ∧ r.WellFormed := by simpa using handed
    exact Outcome.forall_records.mpr (withdrawRay_wellFormed hc hr (time now rfl).2 hwithdraw)
  | syncReactor now config r =>
    obtain ⟨out, hsync, rfl⟩ := return_eq_ok.mp h
    obtain ⟨hc, hr⟩ : config.WellFormed ∧ r.WellFormed := by simpa using handed
    exact Outcome.forall_records.mpr (depositRay_wellFormed hc hr (time now rfl).2 hsync)
  | lockVotes r amount =>
    simp only [run, Reactor.lockVotesOfJson, bind_eq_ok, pure_eq_ok] at h
    obtain ⟨r', ⟨_, -, hlock⟩, rfl⟩ := h
    have hr : r.WellFormed := by simpa using handed
    exact List.forall_mem_singleton.mpr (hr.lockVotes hlock)
  | unlockVotes r amount =>
    simp only [run, Reactor.unlockVotesOfJson, bind_eq_ok, pure_eq_ok] at h
    obtain ⟨r', ⟨_, -, hunlock⟩, rfl⟩ := h
    have hr : r.WellFormed := by simpa using handed
    exact List.forall_mem_singleton.mpr (hr.unlockVotes hunlock)
  | collectRayRewards r =>
    simp only [run, pure_eq_ok] at h
    subst h
    have hr : r.WellFormed := by simpa using handed
    exact List.forall_mem_singleton.mpr (collectRayRewards_wellFormed hr)
  | syncAndCollectRayRewards now config r =>
    obtain ⟨out, hsync, rfl⟩ := return_eq_ok.mp h
    obtain ⟨hc, hr⟩ : config.WellFormed ∧ r.WellFormed := by simpa using handed
    exact Outcome.forall_records.mpr (syncAndCollectRayRewards_wellFormed hc hr (time now rfl).2 hsync)

end Staking

/-! ### The ledger -/

namespace Operation

theorem run_wellFormed {op : Operation} {out : List Record} (time : InTime op.time)
    (handed : ∀ r ∈ op.records, r.WellFormed) (h : op.run = .ok out) : ∀ r ∈ out, r.WellFormed := by
  cases op with
  | escrow op => exact Escrow.Operation.run_wellFormed time handed h
  | emission op => exact Emission.Operation.run_wellFormed time handed h
  | rewarder op => exact Rewarder.Operation.run_wellFormed time handed h
  | staking op => exact Staking.Operation.run_wellFormed time handed h

/-- What an operation returns is of a kind that is stored. -/
theorem run_stored {op : Operation} {out : List Record} (h : op.run = .ok out) :
    ∀ r ∈ out, r.kind.isStored = true := by
  cases op with
  | escrow op =>
    cases op <;> simp only [run, Escrow.Operation.run, bind_eq_ok, pure_eq_ok] at h <;>
      obtain ⟨_, -, rfl⟩ := h
    case initTimeTracker => exact List.forall_mem_singleton.mpr rfl
    all_goals exact Escrow.Outcome.forall_records.mpr ⟨rfl, rfl⟩
  | emission op =>
    cases op <;> simp only [run, Emission.Operation.run, bind_eq_ok, pure_eq_ok] at h
    case initGaugeConfig =>
      obtain ⟨settings, -, config, -, rfl⟩ := h
      exact List.forall_mem_singleton.mpr rfl
    all_goals obtain ⟨_, -, rfl⟩ := h
    case initPersonalGauge => exact List.forall_mem_singleton.mpr rfl
    case changeVotes => exact Emission.VoteChange.forall_records.mpr ⟨rfl, rfl, rfl, rfl⟩
    all_goals exact Emission.Synced.forall_records.mpr ⟨rfl, rfl⟩
  | rewarder op =>
    cases op <;> simp only [run, Rewarder.Operation.run, bind_eq_ok, pure_eq_ok] at h
    case collectCp | collectCl => exact h ▸ List.forall_mem_singleton.mpr rfl
    all_goals obtain ⟨_, -, rfl⟩ := h
    case initCp | accrueCp =>
      exact Rewarder.CpOutcome.forall_records.mpr ⟨rfl, rfl, rfl, rfl, rfl⟩
    all_goals exact Rewarder.ClOutcome.forall_records.mpr ⟨rfl, rfl, rfl⟩
  | staking op =>
    cases op <;> simp only [run, Staking.Operation.run, bind_eq_ok, pure_eq_ok] at h
    case initReactorConfig =>
      obtain ⟨settings, -, config, -, rfl⟩ := h
      exact List.forall_mem_singleton.mpr rfl
    case collectRayRewards => exact h ▸ List.forall_mem_singleton.mpr rfl
    all_goals obtain ⟨_, -, rfl⟩ := h
    case initReactor | lockVotes | unlockVotes => exact List.forall_mem_singleton.mpr rfl
    all_goals exact Staking.Outcome.forall_records.mpr ⟨rfl, rfl⟩

end Operation

/-- A well-formed record of a stored kind has bytes, and its contract accepts it. -/
theorem Record.WellFormed.stored {r : Record} (h : r.WellFormed) (stored : r.kind.isStored = true) :
    (∃ data, r.encode = .ok data) ∧ r.toContractJson = .ok r.toJson := by
  obtain ⟨kind, a⟩ := r
  have laid : kind.hasLayout = true := by rw [RecordKind.hasLayout, stored]; rfl
  obtain ⟨form, laidOut⟩ := RecordKind.layout_of_hasLayout laid
  obtain ⟨formed, -⟩ := RecordKind.form?_of_layout laidOut
  obtain ⟨data, written, -, -⟩ := Record.encodeAs_of_wellFormed laidOut h
  have range := ((RecordKind.wellFormed_iff formed a).mp h).1
  exact ⟨⟨data, (Record.encode_eq_encodeAs stored a).trans written⟩,
    Record.toContractJson_of_inRange stored formed range⟩

/-- **Every operation is closed on well-formed records.** Whichever well-formed records are handed to
an operation, whatever its arguments and at any time of 64 bits, all records that it returns are
well-formed; so they can be written in bytes, and their contracts accept them. Addresses and numbers
are in range by their types. -/
theorem operation_closed (op : Operation) (time : InTime op.time)
    (handed : ∀ r ∈ op.records, r.WellFormed) {out : List Record} (h : op.run = .ok out) :
    ∀ r ∈ out, r.WellFormed ∧ (∃ data, r.encode = .ok data) ∧ r.toContractJson = .ok r.toJson :=
  fun r hr =>
    have good := Operation.run_wellFormed time handed h r hr
    ⟨good, good.stored (Operation.run_stored h r hr)⟩

/-- Ten of a hundred RAY are taken out, and five of fifty isoRAY lost; twenty votes stay locked. -/
theorem operation_closed_withdrawal :
    let config : ReactorConfig := ⟨100, 0, .zero, 0, .zero, 5⟩
    let r : Reactor := ⟨.zero, 100, 50, 20, .zero, ⟨.zero, 0⟩⟩
    let op : Operation := .staking (.withdrawRay 10 config r (.int 10))
    let out : List Record := [⟨.reactorConfig, (⟨90, 0, .zero, 0, .zero, 10⟩ : ReactorConfig)⟩,
      ⟨.reactor, (⟨.zero, 90, 45, 20, .zero, ⟨.zero, 0⟩⟩ : Reactor)⟩]
    InTime op.time ∧ (∀ r ∈ op.records, r.WellFormed) ∧ op.run = .ok out ∧
      ∀ r ∈ out, r.WellFormed ∧ (∃ data, r.encode = .ok data) ∧ r.toContractJson = .ok r.toJson := by
  intro config r op out
  have time : InTime op.time := by
    rintro _ ⟨⟩
    decide
  have handed : ∀ r ∈ op.records, r.WellFormed :=
    List.forall_mem_cons.mpr ⟨⟨by decide, by decide, by decide, by decide⟩,
      List.forall_mem_singleton.mpr ⟨by decide, by decide, by decide, Nat.zero_le _, by decide⟩⟩
  have answered : op.run = .ok out := toOption_eq_some.mp (by decide +kernel)
  exact ⟨time, handed, answered, operation_closed op time handed answered⟩

end EmissionLedger
