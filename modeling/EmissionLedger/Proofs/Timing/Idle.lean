import EmissionLedger.Proofs.Timing.Absorption

/-!
Idle records. An index without shares gains nothing, so records in which nothing is deposited, voted for
or staked are moved on to any later time, however late, and an account that has seen the index is settled
as it is. Only a rewarder asks how much time has passed, since it divides by it.

Main statements: `Escrow.sync_idle`, `Emission.syncPoolIndex_idle` and `Staking.settleAt_idle`;
`PersonalRewarderState.syncAndStage_idle`.
-/

namespace EmissionLedger

variable {now : Int}

/-! ### Indices without shares -/

theorem elapsedSeconds_of_le (what : String) {last now : Int} (h : last ≤ now) :
    elapsedSeconds what last now = .ok (now - last).toNat := if_neg (not_lt.mpr h)

/-- An index without shares stands still whatever time passes. -/
theorem advanceSharedIndex_idle (what : String) (index : Number) {last now : Int} (h : last ≤ now)
    (rate : Rate) : advanceSharedIndex what index last now 0 rate =
      .ok ⟨index, now, (now - last).toNat, .zero⟩ := by
  have hdelta : sharedIndexDelta (now - last).toNat 0 rate = .ok .zero := if_pos (.inr rfl)
  have hindex : index.add .zero = .ok index := by
    rw [Number.add_eq_ok, Number.raw_zero, Nat.add_zero]
  simp only [advanceSharedIndex, elapsedSeconds_of_le what h, hdelta, hindex, ok_bind]
  rfl

theorem TimeTracker.advance_idle {t : TimeTracker} (hidle : t.totalLpDeposited = 0)
    (h : (t.lastSeenTs : Int) ≤ now) : t.advance now = .ok { t with lastSeenTs := now.toNat } := by
  simp only [advance, hidle, advanceSharedIndex_idle _ _ h, ok_bind]
  rfl

theorem GaugeConfig.advance_idle {c : GaugeConfig} (hc : c.WellFormed) (hidle : c.totalVotes = 0)
    (h : (c.lastUpdatedTs : Int) ≤ now) : c.advance now = .ok { c with lastUpdatedTs := now.toNat } := by
  have hwidth : maxU64 * scale ≤ maxRaw := by decide
  obtain ⟨rate, hrate⟩ := Rate.daily_answered ((Nat.mul_le_mul_right scale hc.2.1).trans hwidth)
  have hstep := advanceSharedIndex_idle "gauge config" c.index h rate
  rw [← hidle] at hstep
  simp only [advance, hrate, hstep, ok_bind]
  split
  · -- no time has passed, and the clock stands at the time already
    rename_i hnone
    have hts : now.toNat = c.lastUpdatedTs := by omega
    rw [hts]
    rfl
  · rfl

theorem ReactorConfig.advance_idle {c : ReactorConfig} (hc : c.WellFormed)
    (hidle : c.totalRayDeposited = 0) (h : (c.rewardsEmittedUntil : Int) ≤ now) :
    c.advance now = .ok { c with rewardsEmittedUntil := now.toNat } := by
  have hday : maxU64 * scale ≤ maxRaw := by decide
  have hyear : maxU16 * scale ≤ maxRaw := by decide
  obtain ⟨emission, hemission⟩ := Rate.daily_answered ((Nat.mul_le_mul_right scale hc.2.1).trans hday)
  obtain ⟨apr, hapr⟩ := Rate.annual_answered ((Nat.mul_le_mul_right scale hc.2.2.1).trans hyear)
  have hdelta (elapsed : ℕ) : sharedIndexDelta elapsed 0 emission = .ok .zero := if_pos (.inr rfl)
  have hreward : c.rayRewardIndex.add .zero = .ok c.rayRewardIndex := by
    rw [Number.add_eq_ok, Number.raw_zero, Nat.add_zero]
  have hisoRay (elapsed : ℕ) : advanceRateIndex c.isoRayIndex elapsed 0 apr = .ok c.isoRayIndex :=
    if_pos (.inr rfl)
  simp only [advance, elapsedSeconds_of_le _ h, ok_bind]
  split
  · rename_i hnone
    have hts : now.toNat = c.rewardsEmittedUntil := by omega
    rw [hts]
    rfl
  · simp only [hemission, hidle, hdelta, hreward, hapr, hisoRay, ok_bind]
    rfl

/-! ### Synchronizing idle records -/

theorem Escrow.sync_idle {t : TimeTracker} {p : PersonalPosition} (hidle : t.totalLpDeposited = 0)
    (h : (t.lastSeenTs : Int) ≤ now) (hlink : p.timeTracker = t.poolId)
    (hseen : p.lastSeenIndex = t.index) :
    sync now t p = .ok ({ t with lastSeenTs := now.toNat }, p) := by
  have hcheck : p.checkTracker t = .ok () := if_pos hlink
  have hsettle : p.settle { t with lastSeenTs := now.toNat } = .ok p :=
    PersonalPosition.settle_seen hlink hseen
  simp only [sync, hcheck, TimeTracker.advance_idle hidle h, hsettle, ok_bind]
  rfl

theorem Emission.syncPoolIndex_idle {config : GaugeConfig} {gauge : Gauge} (hc : config.WellFormed)
    (hidle : config.totalVotes = 0) (h : (config.lastUpdatedTs : Int) ≤ now)
    (hseen : gauge.lastSeenGlobalIndex = config.index) :
    syncPoolIndex now config gauge = .ok ⟨{ config with lastUpdatedTs := now.toNat }, gauge⟩ := by
  simp only [syncPoolIndex, GaugeConfig.advance_idle hc hidle h, ok_bind]
  rw [Gauge.settle_seen hseen]
  rfl

theorem Staking.settleAt_idle {config : ReactorConfig} {r : Reactor} (hc : config.WellFormed)
    (hidle : config.totalRayDeposited = 0) (h : (config.rewardsEmittedUntil : Int) ≤ now)
    (hisoRay : r.lastSeenIndexIsoRay = config.isoRayIndex)
    (hreward : r.rayStakeRewards.lastSeenIndex = config.rayRewardIndex) (hfits : r.isoRay ≤ maxU64) :
    settleAt now config r = .ok ({ config with rewardsEmittedUntil := now.toNat }, r) := by
  have hsettle : r.settle { config with rewardsEmittedUntil := now.toNat } = .ok r :=
    Reactor.settle_seen hisoRay hreward hfits
  simp only [settleAt, ReactorConfig.advance_idle hc hidle h, hsettle, ok_bind]
  rfl

/-- There is no reward where nothing was emitted, but the seconds have to be a number. -/
theorem PersonalRewarderState.reward_nothing {seconds : ℕ} (hseconds : seconds ≠ 0)
    (hfits : seconds * scale ≤ maxRaw) : reward 0 seconds .zero = .ok 0 := by
  obtain ⟨rate, hrate⟩ := Number.ofRatio_answered hseconds (show 0 * scale ≤ maxRaw by decide) hfits
  have hproduct : rate.mul .zero = .ok .zero := by
    rw [Number.mul_eq_ok, Number.raw_zero, Nat.mul_zero, Nat.zero_div]
  simp only [reward, hrate, hproduct, ok_bind]
  exact Number.wholePart_eq_ok.mpr ⟨Nat.zero_le _, (Nat.zero_div scale).symm⟩

/-- A rewarder that has seen all there is stages nothing, as long as the seconds that have passed are a
number. -/
theorem PersonalRewarderState.syncAndStage_idle {state : PersonalRewarderState}
    (hstate : state.WellFormed) (h : (state.lastUpdatedTs : Int) ≤ now)
    (hfits : (now - state.lastUpdatedTs).toNat * scale ≤ maxRaw) :
    ∃ out, state.syncAndStage now state.lastSeenTotalEmittedRay state.lastSeenTimeUnits = .ok out := by
  have hprogress : state.checkProgress now state.lastSeenTotalEmittedRay state.lastSeenTimeUnits = .ok () := by
    have hunits : ¬state.lastSeenTimeUnits < state.lastSeenTimeUnits := mt Number.lt_iff.mp (lt_irrefl _)
    rw [checkProgress, if_neg (lt_irrefl _), if_neg (not_lt.mpr h), if_neg hunits]
  have hunits : state.lastSeenTimeUnits.sub state.lastSeenTimeUnits = .ok .zero := by
    rw [Number.sub_eq_ok, Number.raw_zero, Nat.zero_add]
  have hemitted : ((state.lastSeenTotalEmittedRay : Int) - state.lastSeenTotalEmittedRay).toNat = 0 := by
    rw [sub_self, Int.toNat_zero]
  refine bind_answered hprogress ?_
  dsimp only
  split
  · exact ⟨_, rfl⟩
  · rename_i hpassed
    have hnothing := reward_nothing hpassed hfits
    have hstaged : Counter.add "staged_ray" state.stagedRay 0 = .ok state.stagedRay :=
      Counter.add_eq_ok.mpr ⟨hstate.2.2, rfl⟩
    rw [hemitted]
    exact bind_answered hunits (bind_answered hnothing (bind_answered hstaged ⟨_, rfl⟩))

end EmissionLedger
