import EmissionLedger.Proofs.Slashing
import EmissionLedger.Proofs.Votes.Book

/-!
The stake with its locks: every call that a reactor can get, and what it does to what the reactor has
earned. A staked RAY earns twice, RAY rewards and isoRAY; each earning has its index in the config and
its credit in the reactor, and the two accounts obey the same rules. RAY rewards leave a reactor when
they are paid out, isoRAY when it is slashed.

Main statement: an answered call opens an empty reactor, or moves something in one that stays unsettled,
or moves the config on, settles one and only then changes its stake (`transition_of_step`).
-/

namespace EmissionLedger

/-! ### Earnings -/

/-- What a staked RAY earns. -/
inductive Earning where
  | reward
  | isoRay

namespace Earning

/-- The whole units that are credited to a reactor. -/
def units : Earning → Reactor → ℕ
  | reward, r => r.rayStakeRewards.uncollectedRayReward
  | isoRay, r => r.isoRay

/-- The index that a reactor has seen last. -/
def lastSeen : Earning → Reactor → Number
  | reward, r => r.rayStakeRewards.lastSeenIndex
  | isoRay, r => r.lastSeenIndexIsoRay

/-- What one staked RAY has earned since the start. -/
def index : Earning → ReactorConfig → Number
  | reward, c => c.rayRewardIndex
  | isoRay, c => c.isoRayIndex

/-- The raw units that one staked RAY earns in a stretch of seconds. RAY rewards are divided among all
RAY, isoRAY is not; without stake nothing is earned. -/
def growth : Earning → ReactorConfig → ℕ → ℕ
  | reward, c, seconds => dailyWorth c.rayRewardDailyEmission seconds / c.totalRayDeposited
  | isoRay, c, seconds => if c.totalRayDeposited = 0 then 0 else annualWorth c.isoRayAprBps seconds

/-- An amount of each earning. -/
def amounts (reward isoRay : ℕ) : Earning → ℕ
  | .reward => reward
  | .isoRay => isoRay

@[simp] theorem growth_zero (e : Earning) (c : ReactorConfig) : e.growth c 0 = 0 := by
  cases e <;> simp [growth, dailyWorth, annualWorth]

@[simp] theorem index_total (e : Earning) (c : ReactorConfig) (total : ℕ) :
    e.index { c with totalRayDeposited := total } = e.index c := by
  cases e <;> rfl

theorem units_initReactor (e : Earning) (owner : Address) :
    e.units (Staking.initReactor owner) = 0 := by
  cases e <;> rfl

theorem lastSeen_initReactor (e : Earning) (owner : Address) :
    e.lastSeen (Staking.initReactor owner) = .zero := by
  cases e <;> rfl

end Earning

/-! ### What the operations do -/

/-- The config `c'` is `c` moved on by some seconds. -/
structure ReactorConfig.Advanced (c c' : ReactorConfig) (elapsed : ℕ) : Prop where
  total : c'.totalRayDeposited = c.totalRayDeposited
  emission : c'.rayRewardDailyEmission = c.rayRewardDailyEmission
  apr : c'.isoRayAprBps = c.isoRayAprBps
  ts : c'.rewardsEmittedUntil = c.rewardsEmittedUntil + elapsed
  index : ∀ e : Earning, (e.index c').raw = (e.index c).raw + e.growth c elapsed

theorem ReactorConfig.Advanced.index_le {c c' : ReactorConfig} {elapsed : ℕ}
    (h : c.Advanced c' elapsed) (e : Earning) : e.index c ≤ e.index c' := by
  rw [Number.le_iff, h.index e]
  exact Nat.le_add_right _ _

theorem ReactorConfig.advance_ok {c c' : ReactorConfig} {now : Int} (h : c.advance now = .ok c') :
    ∃ elapsed : ℕ, now = c.rewardsEmittedUntil + elapsed ∧ c.Advanced c' elapsed := by
  simp only [advance, bind_eq_ok, elapsedSeconds_eq_ok] at h
  obtain ⟨elapsed, hnow, h⟩ := h
  refine ⟨elapsed, hnow, ?_⟩
  split at h
  · -- no time has passed
    rename_i hzero
    rw [pure_eq_ok] at h
    subst h hzero
    exact ⟨rfl, rfl, rfl, rfl, fun e => by rw [e.growth_zero, Nat.add_zero]⟩
  · simp only [bind_eq_ok, pure_eq_ok, Number.add_eq_ok] at h
    obtain ⟨emission, hemission, delta, hdelta, reward, hreward, apr, hapr, isoRay, hisoRay, rfl⟩ := h
    have hts : now.toNat = c.rewardsEmittedUntil + elapsed := by omega
    refine ⟨rfl, rfl, rfl, hts, fun e => ?_⟩
    cases e with
    | reward =>
        rw [Earning.growth, ← Rate.daily_ok hemission, ← sharedIndexDelta_ok hdelta]
        exact hreward
    | isoRay =>
        rw [Earning.growth, ← Rate.annual_ok hapr]
        exact advanceRateIndex_ok hisoRay

theorem ReactorConfig.ts_of_advance {c c' : ReactorConfig} {now : Int} (h : c.advance now = .ok c') :
    (c'.rewardsEmittedUntil : Int) = now := by
  obtain ⟨elapsed, hnow, hadv⟩ := advance_ok h
  rw [hadv.ts, hnow, Int.natCast_add]

namespace Reactor

theorem Settled.units {r r' : Reactor} {config : ReactorConfig} (h : r.Settled r' config)
    (e : Earning) :
    e.units r' = e.units r + r.ray * ((e.index config).raw - (e.lastSeen r).raw) / scale := by
  cases e with
  | reward => exact h.reward
  | isoRay => exact h.isoRay

theorem Settled.lastSeen {r r' : Reactor} {config : ReactorConfig} (h : r.Settled r' config)
    (e : Earning) : e.lastSeen r' = e.index config := by
  cases e with
  | reward => exact h.lastSeenReward
  | isoRay => exact h.lastSeenIsoRay

/-- Without RAY there is no isoRAY. -/
def Bare (r : Reactor) : Prop := r.ray = 0 → r.isoRay = 0

theorem Settled.bare {r r' : Reactor} {config : ReactorConfig} (h : r.Settled r' config)
    (hbare : r.Bare) : r'.Bare := by
  intro hzero
  rw [h.ray] at hzero
  rw [h.isoRay, hbare hzero, hzero, Nat.zero_mul, Nat.zero_div]

/-- The reactor `r'` is `r` with its stake changed and some of its earnings given out. -/
structure Moved (r r' : Reactor) (change : ℤ) (out : Earning → ℕ) : Prop where
  ray : (r'.ray : ℤ) = r.ray + change
  units : ∀ e : Earning, e.units r' + out e = e.units r
  lastSeen : ∀ e : Earning, e.lastSeen r' = e.lastSeen r
  bare : r.Bare → r'.Bare

theorem Relocked.moved {r r' : Reactor} {amount : Int} (h : r.Relocked r' amount) :
    r.Moved r' 0 (Earning.amounts 0 0) := by
  rw [h.reactor]
  exact ⟨(add_zero _).symm, fun e => by cases e <;> rfl, fun e => by cases e <;> rfl, id⟩

theorem collectRayRewards_moved (r : Reactor) :
    r.Moved (Staking.collectRayRewards r).1 0 (Earning.amounts (Staking.collectRayRewards r).2 0) := by
  refine ⟨(add_zero _).symm, fun e => ?_, fun e => by cases e <;> rfl, id⟩
  cases e with
  | reward => exact Nat.zero_add _
  | isoRay => rfl

end Reactor

namespace Staking

theorem initReactorConfig_ok {settings : Settings} {now : Int} {config : ReactorConfig}
    (h : initReactorConfig settings now = .ok config) :
    config.totalRayDeposited = 0 ∧ config.rayRewardDailyEmission = settings.rayRewardDailyEmission ∧
      config.isoRayAprBps = settings.isoRayAprBps := by
  simp only [initReactorConfig, bind_eq_ok, pure_eq_ok] at h
  obtain ⟨_, -, rfl⟩ := h
  exact ⟨rfl, rfl, rfl⟩

/-- A config moved on and a reactor settled at `now`, the stakes of both then changed by the same number
and some earnings given out. -/
structure Applied (now : Int) (config : ReactorConfig) (r : Reactor) (result : Outcome) (change : ℤ)
    (out : Earning → ℕ) : Prop where
  settled : ∃ config' r', settleAt now config r = .ok (config', r') ∧
    result.config = { config' with totalRayDeposited := result.config.totalRayDeposited } ∧
    r'.Moved result.reactor change out
  total : (result.config.totalRayDeposited : ℤ) = config.totalRayDeposited + change

theorem depositRay_applied {now amount : Int} {config : ReactorConfig} {r : Reactor}
    {result : Outcome} (h : depositRay now config r amount = .ok result) :
    Applied now config r result amount (Earning.amounts 0 0) := by
  obtain ⟨config', r', ray, total, hsettle, hray, htotal, hconfig, hreactor, -, -, hamount⟩ :=
    depositRay_ok h
  obtain ⟨_, -, hadv⟩ := ReactorConfig.advance_ok (settleAt_ok hsettle).1
  rw [hadv.total] at htotal
  refine ⟨⟨config', r', hsettle, by rw [hconfig], ?_⟩, by rw [hconfig]; exact htotal⟩
  rw [hreactor]
  refine ⟨hray, fun e => by cases e <;> rfl, fun e => by cases e <;> rfl, ?_⟩
  intro hbare hzero
  exact hbare (by dsimp only at hzero; omega)

theorem withdrawRay_applied {now amount : Int} {config : ReactorConfig} {r : Reactor}
    {result : Outcome} (h : withdrawRay now config r amount = .ok result) :
    Applied now config r result (-amount) (Earning.amounts 0 result.isoRaySlashed) := by
  obtain ⟨config', r', taken, loss, ray, isoRay, total, hsettle, rfl, hloss, -, hray, hisoRay, htotal,
    rfl⟩ := withdrawRay_ok h
  obtain ⟨_, -, hadv⟩ := ReactorConfig.advance_ok (settleAt_ok hsettle).1
  have hkept := hadv.total
  refine ⟨⟨config', r', hsettle, rfl, ?_⟩, by dsimp only; omega⟩
  refine ⟨by dsimp only; omega, ?_, fun e => by cases e <;> rfl, ?_⟩
  · intro e
    cases e with
    | reward => rfl
    | isoRay => exact hisoRay
  · -- the last RAY is taken out with all isoRAY
    intro hbare hzero
    obtain rfl : ray = 0 := hzero
    obtain rfl : taken = r'.ray := by omega
    by_cases hstake : r'.ray = 0
    · have hnone := hbare hstake
      dsimp only
      omega
    · have hall := ((isoRaySlashAmount_all hstake).mp hloss).2
      dsimp only
      omega

theorem syncAndCollectRayRewards_applied {now : Int} {config : ReactorConfig} {r : Reactor}
    {result : Outcome} (h : syncAndCollectRayRewards now config r = .ok result) :
    Applied now config r result 0 (Earning.amounts result.transferAmount 0) := by
  simp only [syncAndCollectRayRewards, syncReactor, bind_eq_ok, pure_eq_ok] at h
  obtain ⟨synced, hsync, rfl⟩ := h
  obtain ⟨⟨config', r', hsettle, hconfig, hmoved⟩, htotal⟩ := depositRay_applied hsync
  have hcollected := Reactor.collectRayRewards_moved synced.reactor
  refine ⟨⟨config', r', hsettle, hconfig, ?_⟩, htotal⟩
  refine ⟨?_, fun e => ?_, fun e => ?_, fun hbare => hcollected.bare (hmoved.bare hbare)⟩
  · rw [hcollected.ray, hmoved.ray, add_zero]
  · rw [← hmoved.units e, ← hcollected.units e]
    cases e <;> rfl
  · rw [hcollected.lastSeen e, hmoved.lastSeen e]

end Staking

/-! ### The book with locks -/

/-- A call on a reactor: on its stake, or on the locks of its votes. -/
inductive ReactorCall where
  | stake (call : StakeCall)
  | lock (owner : Address) (amount : Int)
  | unlock (owner : Address) (amount : Int)

namespace ReactorCall

/-- The owner that a call is about. -/
def owner : ReactorCall → Address
  | stake call => call.owner
  | lock owner _ | unlock owner _ => owner

/-- Whether a call settles the reactor that it is about. -/
def settles : ReactorCall → Bool
  | stake (.deposit ..) | stake (.withdraw ..) | stake (.sync ..) | stake (.syncAndCollect ..) => true
  | _ => false

/-- What a call adds to the stake. -/
def change : ReactorCall → ℤ
  | stake (.deposit _ _ amount) => amount
  | stake (.withdraw _ _ amount) => -amount
  | _ => 0

end ReactorCall

namespace StakeBook

/-- The book after an answered call. -/
def reactorStep (book : StakeBook) : ReactorCall → Option StakeBook
  | .stake call => book.step call
  | .lock owner amount => do
      let r ← book.reactors.lookup owner
      let r ← (r.lockVotes amount).toOption
      return { book with reactors := book.reactors.insert owner r }
  | .unlock owner amount => do
      let r ← book.reactors.lookup owner
      let r ← (r.unlockVotes amount).toOption
      return { book with reactors := book.reactors.insert owner r }

/-- The RAY rewards that a call pays out. -/
def rewardsPaid (book : StakeBook) : ReactorCall → ℕ
  | .stake (.collect owner) =>
      (book.reactors.lookup owner).elim 0 fun r => (Staking.collectRayRewards r).2
  | .stake (.syncAndCollect now owner) =>
      (book.reactors.lookup owner).elim 0 fun r =>
        (Staking.syncAndCollectRayRewards now book.config r).toOption.elim 0
          Staking.Outcome.transferAmount
  | _ => 0

/-- The isoRAY that is lost in a call. -/
def isoRaySlashed (book : StakeBook) : ReactorCall → ℕ
  | .stake (.withdraw now owner amount) =>
      (book.reactors.lookup owner).elim 0 fun r =>
        (Staking.withdrawRay now book.config r amount).toOption.elim 0 Staking.Outcome.isoRaySlashed
  | _ => 0

/-- What a call takes out of an earning. -/
def released (book : StakeBook) (call : ReactorCall) : Earning → ℕ :=
  Earning.amounts (book.rewardsPaid call) (book.isoRaySlashed call)

variable {book book' : StakeBook} {call : ReactorCall}

section Steps

variable {owner : Address} {amount : Int}

theorem reactorStep_stake {call : StakeCall} : book.reactorStep (.stake call) = some book' ↔
    ∃ config r', book.answer call = some (config, r') ∧
      ⟨config, book.reactors.insert call.owner r'⟩ = book' :=
  step_eq_some

theorem reactorStep_lock : book.reactorStep (.lock owner amount) = some book' ↔
    ∃ r r', book.reactors.lookup owner = some r ∧ r.lockVotes amount = .ok r' ∧
      { book with reactors := book.reactors.insert owner r' } = book' := by
  simp [reactorStep, Option.bind_eq_some_iff]

theorem reactorStep_unlock : book.reactorStep (.unlock owner amount) = some book' ↔
    ∃ r r', book.reactors.lookup owner = some r ∧ r.unlockVotes amount = .ok r' ∧
      { book with reactors := book.reactors.insert owner r' } = book' := by
  simp [reactorStep, Option.bind_eq_some_iff]

end Steps

variable (book call) in
/-- What an answered call does to the book. -/
inductive Transition : StakeBook → Prop where
  /-- An empty reactor is opened. -/
  | opened (hnew : book.reactors.lookup call.owner = none) (hsettles : call.settles = false)
      (hnone : book.released call = Earning.amounts 0 0) :
      Transition ⟨book.config, book.reactors.insert call.owner (Staking.initReactor call.owner)⟩
  /-- Something leaves a reactor, or its locks change, and nothing is settled. -/
  | kept {r r' : Reactor} (hr : book.reactors.lookup call.owner = some r)
      (hsettles : call.settles = false) (hmoved : r.Moved r' 0 (book.released call)) :
      Transition ⟨book.config, book.reactors.insert call.owner r'⟩
  /-- The config moves on and a reactor is settled before the stakes change. -/
  | settled {r r₁ r' : Reactor} {config : ReactorConfig} {elapsed total : ℕ}
      (hr : book.reactors.lookup call.owner = some r) (hsettles : call.settles = true)
      (hadv : book.config.Advanced config elapsed) (hset : r.Settled r₁ config)
      (hmoved : r₁.Moved r' call.change (book.released call))
      (htotal : (total : ℤ) = config.totalRayDeposited + call.change) :
      Transition ⟨{ config with totalRayDeposited := total }, book.reactors.insert call.owner r'⟩

theorem transition_of_applied (now : Int) {r : Reactor} {result : Staking.Outcome}
    (hr : book.reactors.lookup call.owner = some r) (hsettles : call.settles = true)
    (h : Staking.Applied now book.config r result call.change (book.released call)) :
    book.Transition call ⟨result.config, book.reactors.insert call.owner result.reactor⟩ := by
  obtain ⟨⟨config, r₁, hsettle, hconfig, hmoved⟩, htotal⟩ := h
  obtain ⟨hadvance, hset⟩ := Staking.settleAt_ok hsettle
  obtain ⟨elapsed, -, hadv⟩ := ReactorConfig.advance_ok hadvance
  rw [← hadv.total] at htotal
  rw [hconfig]
  exact .settled hr hsettles hadv hset hmoved htotal

theorem transition_of_answer {call : StakeCall} {config : ReactorConfig} {r' : Reactor}
    (h : book.answer call = some (config, r')) :
    book.Transition (.stake call) ⟨config, book.reactors.insert call.owner r'⟩ := by
  cases call with
  | initReactor owner =>
      obtain ⟨hnew, rfl, rfl⟩ := answer_initReactor.mp h
      exact .opened (Finmap.lookup_eq_none.mpr hnew) rfl rfl
  | deposit now owner amount =>
      obtain ⟨r, result, hr, hresult, rfl, rfl⟩ := answer_deposit.mp h
      exact transition_of_applied now hr rfl (Staking.depositRay_applied hresult)
  | withdraw now owner amount =>
      obtain ⟨r, result, hr, hresult, rfl, rfl⟩ := answer_withdraw.mp h
      have hlost : book.isoRaySlashed (.stake (.withdraw now owner amount)) = result.isoRaySlashed := by
        rw [isoRaySlashed, hr, Option.elim_some, hresult]
        rfl
      refine transition_of_applied now hr rfl ?_
      rw [released, hlost]
      exact Staking.withdrawRay_applied hresult
  | sync now owner =>
      obtain ⟨r, result, hr, hresult, rfl, rfl⟩ := answer_sync.mp h
      exact transition_of_applied now hr rfl (Staking.depositRay_applied hresult)
  | collect owner =>
      obtain ⟨r, hr, rfl, rfl⟩ := answer_collect.mp h
      have hpaid : book.rewardsPaid (.stake (.collect owner)) = (Staking.collectRayRewards r).2 := by
        rw [rewardsPaid, hr, Option.elim_some]
      refine .kept hr rfl ?_
      rw [released, hpaid]
      exact Reactor.collectRayRewards_moved r
  | syncAndCollect now owner =>
      obtain ⟨r, result, hr, hresult, rfl, rfl⟩ := answer_syncAndCollect.mp h
      have hpaid : book.rewardsPaid (.stake (.syncAndCollect now owner)) = result.transferAmount := by
        rw [rewardsPaid, hr, Option.elim_some, hresult]
        rfl
      refine transition_of_applied now hr rfl ?_
      rw [released, hpaid]
      exact Staking.syncAndCollectRayRewards_applied hresult

theorem transition_of_step (h : book.reactorStep call = some book') : book.Transition call book' := by
  cases call with
  | stake call =>
      obtain ⟨config, r', hanswer, rfl⟩ := reactorStep_stake.mp h
      exact transition_of_answer hanswer
  | lock owner amount =>
      obtain ⟨r, r', hr, hlock, rfl⟩ := reactorStep_lock.mp h
      exact .kept hr rfl (Reactor.lockVotes_ok hlock).moved
  | unlock owner amount =>
      obtain ⟨r, r', hr, hlock, rfl⟩ := reactorStep_unlock.mp h
      exact .kept hr rfl (Reactor.unlockVotes_ok hlock).moved

end StakeBook

end EmissionLedger
