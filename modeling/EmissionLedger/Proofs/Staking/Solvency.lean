import EmissionLedger.Proofs.Emission.Conservation
import EmissionLedger.Proofs.Staking.Earnings

/-!
Solvency of the stake. All stakes together make up the total, so in a call the eager ledger credits all
owners the total times the growth of the index. For RAY rewards that is at most the emission of the
seconds in which RAY was staked; for isoRAY it is at most what the annual rate allows on the stake. No
owner is credited more than the ledger's balance, and so neither are all of them together.

Main statements: all RAY rewards, paid out or not, come from the daily emission
(`rewards_solvent`); all isoRAY, slashed or not, comes from the annual rate, and none outlives its stake
(`isoRay_capped`).
-/

namespace EmissionLedger

theorem annualWorth_le (points seconds : ℕ) :
    Number.basisPoints * secondsPerYear * annualWorth points seconds ≤
      scale * (points * seconds) := by
  have hscale : 0 < scale := by decide
  have hyears := Nat.div_mul_le_self (seconds * scale) secondsPerYear
  have hpoints := Nat.div_mul_le_self (points * scale) Number.basisPoints
  have hproduct := Nat.div_mul_le_self
    (seconds * scale / secondsPerYear * (points * scale / Number.basisPoints)) scale
  refine Nat.le_of_mul_le_mul_right ?_ hscale
  calc Number.basisPoints * secondsPerYear * annualWorth points seconds * scale
      = Number.basisPoints * secondsPerYear * (annualWorth points seconds * scale) := Nat.mul_assoc _ _ _
    _ ≤ Number.basisPoints * secondsPerYear *
          (seconds * scale / secondsPerYear * (points * scale / Number.basisPoints)) :=
        Nat.mul_le_mul_left _ hproduct
    _ = seconds * scale / secondsPerYear * secondsPerYear *
          (points * scale / Number.basisPoints * Number.basisPoints) := by ring
    _ ≤ seconds * scale * (points * scale) := Nat.mul_le_mul hyears hpoints
    _ = scale * (points * seconds) * scale := by ring

namespace StakeBook

/-- What all staked RAY earns in a call. -/
def earnedInCall (e : Earning) (book : StakeBook) (_ : ReactorCall) (book' : StakeBook) : ℕ :=
  book.config.totalRayDeposited * ((e.index book'.config).raw - (e.index book.config).raw)

/-- The time that the config advances in a call while RAY is staked. -/
def activeSeconds (book : StakeBook) (_ : ReactorCall) (book' : StakeBook) : ℕ :=
  if 0 < book.config.totalRayDeposited then
    book'.config.rewardsEmittedUntil - book.config.rewardsEmittedUntil
  else 0

/-- The stake times the points of the annual rate times the seconds that the config advances in a
call. -/
def rateAllowance (book : StakeBook) (_ : ReactorCall) (book' : StakeBook) : ℕ :=
  book.config.totalRayDeposited * book.config.isoRayAprBps *
    (book'.config.rewardsEmittedUntil - book.config.rewardsEmittedUntil)

variable {book book' : StakeBook} {call : ReactorCall}

theorem config_of_step (h : book.reactorStep call = some book') :
    ∃ elapsed total, book.config.Advanced { book'.config with totalRayDeposited := total } elapsed := by
  cases transition_of_step h with
  | opened hnew hsettles hnone =>
      exact ⟨0, _, rfl, rfl, rfl, rfl, fun e => by simp⟩
  | kept hr hsettles hmoved =>
      exact ⟨0, _, rfl, rfl, rfl, rfl, fun e => by simp⟩
  | @settled r r₁ r' config elapsed total hr hsettles hadv hset hmoved htotal =>
      exact ⟨elapsed, config.totalRayDeposited, hadv⟩

theorem earnedInCall_of_step (h : book.reactorStep call = some book') (e : Earning) :
    earnedInCall e book call book' = book.config.totalRayDeposited *
      e.growth book.config (book'.config.rewardsEmittedUntil - book.config.rewardsEmittedUntil) := by
  obtain ⟨elapsed, total, hadv⟩ := config_of_step h
  have hts : book'.config.rewardsEmittedUntil = book.config.rewardsEmittedUntil + elapsed := hadv.ts
  have hindex := hadv.index e
  rw [e.index_total] at hindex
  rw [earnedInCall, hindex, hts, Nat.add_sub_cancel_left, Nat.add_sub_cancel_left]

theorem reward_le_emission (h : book.reactorStep call = some book') :
    secondsPerDay * earnedInCall .reward book call book' ≤
      book.config.rayRewardDailyEmission * scale * activeSeconds book call book' := by
  rw [earnedInCall_of_step h, Earning.growth, activeSeconds]
  split
  · rename_i hstake
    generalize book'.config.rewardsEmittedUntil - book.config.rewardsEmittedUntil = seconds
    have hfloor := Nat.mul_div_le (dailyWorth book.config.rayRewardDailyEmission seconds)
      book.config.totalRayDeposited
    have hworth := (dailyWorth_bounds book.config.rayRewardDailyEmission seconds).1
    calc secondsPerDay * (book.config.totalRayDeposited *
          (dailyWorth book.config.rayRewardDailyEmission seconds / book.config.totalRayDeposited))
        ≤ secondsPerDay * dailyWorth book.config.rayRewardDailyEmission seconds :=
          Nat.mul_le_mul_left _ hfloor
      _ = dailyWorth book.config.rayRewardDailyEmission seconds * secondsPerDay := Nat.mul_comm _ _
      _ ≤ book.config.rayRewardDailyEmission * (seconds * scale) := hworth
      _ = book.config.rayRewardDailyEmission * scale * seconds := by ring
  · rename_i hstake
    rw [Nat.eq_zero_of_not_pos hstake, Nat.zero_mul, Nat.mul_zero]
    exact Nat.zero_le _

theorem isoRay_le_allowance (h : book.reactorStep call = some book') :
    Number.basisPoints * secondsPerYear * earnedInCall .isoRay book call book' ≤
      scale * rateAllowance book call book' := by
  rw [earnedInCall_of_step h, Earning.growth, rateAllowance]
  generalize book'.config.rewardsEmittedUntil - book.config.rewardsEmittedUntil = seconds
  split
  · rename_i hstake
    rw [hstake]
    simp
  · have hworth := Nat.mul_le_mul_left book.config.totalRayDeposited
      (annualWorth_le book.config.isoRayAprBps seconds)
    calc Number.basisPoints * secondsPerYear *
          (book.config.totalRayDeposited * annualWorth book.config.isoRayAprBps seconds)
        = book.config.totalRayDeposited * (Number.basisPoints * secondsPerYear *
            annualWorth book.config.isoRayAprBps seconds) := by ring
      _ ≤ book.config.totalRayDeposited * (scale * (book.config.isoRayAprBps * seconds)) := hworth
      _ = scale * (book.config.totalRayDeposited * book.config.isoRayAprBps * seconds) := by ring

section Runs

variable {config : ReactorConfig}

theorem total_credited_le (h : config.totalRayDeposited = 0) (calls : List ReactorCall) (e : Earning) :
    let start : StakeBook := ⟨config, ∅⟩
    let last := run reactorStep start calls
    (last.reactors.total fun owner r =>
        e.units r + tally reactorStep (releasedTo e owner) start calls) * scale ≤
      tally reactorStep (earnedInCall e) start calls := by
  intro start last
  have hcredited : (last.reactors.total fun owner r =>
      (e.units r + tally reactorStep (releasedTo e owner) start calls) * scale) ≤
        last.reactors.total fun owner _ => eagerEarned e start calls owner :=
    Table.total_le_total fun owner r hr => credited_le h calls e hr
  -- the stakes of the owners who have a reactor in the end are at no time more than the total
  have hstakes : tally reactorStep (fun (book : StakeBook) _ book' => (∑ owner ∈ last.reactors.keys,
      book.rayOf owner) * ((e.index book'.config).raw - (e.index book.config).raw)) start calls ≤
        tally reactorStep (earnedInCall e) start calls := by
    refine tally_le (fun _ _ _ hb hs => Balanced.step hb hs) ?_ calls (balanced_start h)
    intro book call book' hb _
    rw [earnedInCall, hb.total]
    exact Nat.mul_le_mul_right _ (Table.sum_valueAt_le _)
  rw [Table.total_mul, Table.total_keys] at hcredited
  unfold eagerEarned at hcredited
  rw [sum_eagerLedger] at hcredited
  exact hcredited.trans hstakes

end Runs

/-- **RAY rewards.** After every run the total is the sum of all stakes, and the RAY rewards that were
credited or paid out come from the daily emission of the seconds in which RAY was staked. -/
theorem rewards_solvent {settings : Staking.Settings} {now : Int} {config : ReactorConfig}
    (hinit : Staking.initReactorConfig settings now = .ok config) (calls : List ReactorCall) :
    let start : StakeBook := ⟨config, ∅⟩
    let last := run reactorStep start calls
    last.config.totalRayDeposited = (last.reactors.total fun _ r => r.ray) ∧
      secondsPerDay * (last.reactors.total fun owner r => r.rayStakeRewards.uncollectedRayReward +
          tally reactorStep (releasedTo .reward owner) start calls) ≤
        settings.rayRewardDailyEmission * tally reactorStep activeSeconds start calls := by
  intro start last
  obtain ⟨hempty, hemission, -⟩ := Staking.initReactorConfig_ok hinit
  have hcredited := total_credited_le hempty calls .reward
  have hearned : secondsPerDay * tally reactorStep (earnedInCall .reward) start calls ≤
      settings.rayRewardDailyEmission * scale * tally reactorStep activeSeconds start calls := by
    refine mul_tally_le (P := fun book : StakeBook =>
      book.config.rayRewardDailyEmission = settings.rayRewardDailyEmission) _ _ ?_ ?_ calls hemission
    · intro book call book' hkept hstep
      obtain ⟨_, _, hadv⟩ := config_of_step hstep
      exact hadv.emission.trans hkept
    · intro book call book' hkept hstep
      rw [← hkept]
      exact reward_le_emission hstep
  refine ⟨(balanced_run (balanced_start hempty) calls).total, ?_⟩
  refine Nat.le_of_mul_le_mul_right ?_ (show 0 < scale by decide)
  calc _ = secondsPerDay * ((last.reactors.total fun owner r =>
          Earning.reward.units r + tally reactorStep (releasedTo .reward owner) start calls) * scale) :=
        Nat.mul_assoc _ _ _
    _ ≤ secondsPerDay * tally reactorStep (earnedInCall .reward) start calls :=
        Nat.mul_le_mul_left _ hcredited
    _ ≤ settings.rayRewardDailyEmission * scale * tally reactorStep activeSeconds start calls := hearned
    _ = settings.rayRewardDailyEmission * tally reactorStep activeSeconds start calls * scale := by ring

/-- A staker is paid for ten seconds. -/
theorem rewards_solvent_collected :
    let settings : Staking.Settings := ⟨86400, 10000⟩
    let config : ReactorConfig := ⟨0, 86400, .zero, 10000, .zero, 0⟩
    let start : StakeBook := ⟨config, ∅⟩
    let calls : List ReactorCall := [.stake (.initReactor .zero), .stake (.deposit 0 .zero 2),
      .stake (.sync 10 .zero), .stake (.collect .zero)]
    let last := run reactorStep start calls
    Staking.initReactorConfig settings 0 = .ok config ∧
      tally reactorStep (releasedTo .reward .zero) start calls = 9 ∧
      secondsPerDay * (last.reactors.total fun owner r => r.rayStakeRewards.uncollectedRayReward +
          tally reactorStep (releasedTo .reward owner) start calls) ≤
        settings.rayRewardDailyEmission * tally reactorStep activeSeconds start calls := by
  intro settings config start calls last
  have hinit : Staking.initReactorConfig settings 0 = .ok config := by rfl
  refine ⟨hinit, by decide +kernel, (rewards_solvent hinit calls).2⟩

/-- **IsoRAY.** After every run the isoRAY of all reactors and all that was ever slashed is at most what
the annual rate allows on the total stake before each advance, and a reactor without RAY has no
isoRAY. -/
theorem isoRay_capped {settings : Staking.Settings} {now : Int} {config : ReactorConfig}
    (hinit : Staking.initReactorConfig settings now = .ok config) (calls : List ReactorCall) :
    let start : StakeBook := ⟨config, ∅⟩
    let last := run reactorStep start calls
    Number.basisPoints * secondsPerYear * (last.reactors.total fun owner r =>
        r.isoRay + tally reactorStep (releasedTo .isoRay owner) start calls) ≤
          tally reactorStep rateAllowance start calls ∧
      ∀ owner r, last.reactors.lookup owner = some r → r.ray = 0 → r.isoRay = 0 := by
  intro start last
  obtain ⟨hempty, -, -⟩ := Staking.initReactorConfig_ok hinit
  have hcredited := total_credited_le hempty calls .isoRay
  have hearned : Number.basisPoints * secondsPerYear *
      tally reactorStep (earnedInCall .isoRay) start calls ≤
        scale * tally reactorStep rateAllowance start calls :=
    mul_tally_le _ _ (fun _ _ _ hb hs => Balanced.step hb hs)
      (fun _ _ _ _ hs => isoRay_le_allowance hs) calls (balanced_start hempty)
  refine ⟨?_, (balanced_run (balanced_start hempty) calls).bare⟩
  refine Nat.le_of_mul_le_mul_right ?_ (show 0 < scale by decide)
  calc _ = Number.basisPoints * secondsPerYear * ((last.reactors.total fun owner r =>
          Earning.isoRay.units r + tally reactorStep (releasedTo .isoRay owner) start calls) * scale) :=
        Nat.mul_assoc _ _ _
    _ ≤ Number.basisPoints * secondsPerYear * tally reactorStep (earnedInCall .isoRay) start calls :=
        Nat.mul_le_mul_left _ hcredited
    _ ≤ scale * tally reactorStep rateAllowance start calls := hearned
    _ = tally reactorStep rateAllowance start calls * scale := Nat.mul_comm _ _

/-- A year's isoRAY is slashed with the whole stake. -/
theorem isoRay_capped_slashed :
    let settings : Staking.Settings := ⟨86400, 10000⟩
    let config : ReactorConfig := ⟨0, 86400, .zero, 10000, .zero, 0⟩
    let start : StakeBook := ⟨config, ∅⟩
    let calls : List ReactorCall := [.stake (.initReactor .zero), .stake (.deposit 0 .zero 2),
      .stake (.withdraw 31536000 .zero 2)]
    let last := run reactorStep start calls
    Staking.initReactorConfig settings 0 = .ok config ∧
      tally reactorStep (releasedTo .isoRay .zero) start calls = 2 ∧
      Number.basisPoints * secondsPerYear * (last.reactors.total fun owner r =>
        r.isoRay + tally reactorStep (releasedTo .isoRay owner) start calls) ≤
          tally reactorStep rateAllowance start calls := by
  intro settings config start calls last
  have hinit : Staking.initReactorConfig settings 0 = .ok config := by rfl
  exact ⟨hinit, by decide +kernel, (isoRay_capped hinit calls).1⟩

end StakeBook

end EmissionLedger
