import EmissionLedger.Staking
import EmissionLedger.Proofs.Accrual.Faults
import EmissionLedger.Proofs.Table

/-!
The book of the stake: the reactor config and one reactor for each owner, as they were committed last.

Main statement: no call on the stake touches locked votes, and votes that were backed stay backed, a
withdrawal's loss of isoRAY included (`step_cases`).
-/

namespace EmissionLedger

/-! ### What the operations return -/

/-- The reactor `r'` is `r` with all credited that it has earned up to the indices of a config. -/
structure Reactor.Settled (r r' : Reactor) (config : ReactorConfig) : Prop where
  owner : r'.owner = r.owner
  ray : r'.ray = r.ray
  lockedVotes : r'.lockedVotes = r.lockedVotes
  isoRay : r'.isoRay = r.isoRay +
    r.ray * (config.isoRayIndex.raw - r.lastSeenIndexIsoRay.raw) / scale
  lastSeenIsoRay : r'.lastSeenIndexIsoRay = config.isoRayIndex
  reward : r'.rayStakeRewards.uncollectedRayReward = r.rayStakeRewards.uncollectedRayReward +
    r.ray * (config.rayRewardIndex.raw - r.rayStakeRewards.lastSeenIndex.raw) / scale
  lastSeenReward : r'.rayStakeRewards.lastSeenIndex = config.rayRewardIndex

namespace Reactor

theorem accrueIsoRay_ok {r r' : Reactor} {index : Number} (h : r.accrueIsoRay index = .ok r') :
    r' = { r with
      isoRay := r.isoRay + r.ray * (index.raw - r.lastSeenIndexIsoRay.raw) / scale
      lastSeenIndexIsoRay := index } := by
  simp only [accrueIsoRay, bind_eq_ok, pure_eq_ok, Counter.add_eq_ok, ShareAccrual.units,
    Number.wholePart_eq_ok] at h
  obtain ⟨accrual, haccrual, units, ⟨-, hunits⟩, isoRay, ⟨-, hisoRay⟩, rfl⟩ := h
  obtain ⟨-, haccrued, hlast⟩ := accrueShare_ok haccrual
  rw [hisoRay, hunits, haccrued, hlast]

theorem accrueIsoRay_le {r r' : Reactor} {index : Number} (h : r.accrueIsoRay index = .ok r') :
    r'.isoRay ≤ maxU64 := by
  simp only [accrueIsoRay, bind_eq_ok, pure_eq_ok, Counter.add_eq_ok] at h
  obtain ⟨_, -, _, -, isoRay, ⟨hfits, -⟩, rfl⟩ := h
  exact hfits

theorem accrueRayRewards_ok {r r' : Reactor} {index : Number}
    (h : r.accrueRayRewards index = .ok r') :
    r' = { r with
      rayStakeRewards := {
        lastSeenIndex := index
        uncollectedRayReward := r.rayStakeRewards.uncollectedRayReward +
          r.ray * (index.raw - r.rayStakeRewards.lastSeenIndex.raw) / scale } } := by
  simp only [accrueRayRewards, bind_eq_ok] at h
  obtain ⟨accrual, haccrual, h⟩ := h
  obtain ⟨-, haccrued, hlast⟩ := accrueShare_ok haccrual
  split at h
  · -- the reactor has seen the index already
    rename_i hsame
    rw [pure_eq_ok] at h
    subst h
    rw [hlast] at hsame
    rw [hsame, Nat.sub_self, Nat.mul_zero, Nat.zero_div, Nat.add_zero]
  · simp only [bind_eq_ok, pure_eq_ok, Counter.add_eq_ok, ShareAccrual.units,
      Number.wholePart_eq_ok] at h
    obtain ⟨units, ⟨-, hunits⟩, uncollected, ⟨-, huncollected⟩, rfl⟩ := h
    rw [huncollected, hunits, haccrued, hlast]

theorem settle_ok {r r' : Reactor} {config : ReactorConfig} (h : r.settle config = .ok r') :
    r.Settled r' config := by
  simp only [settle, bind_eq_ok] at h
  obtain ⟨r₁, hisoRay, hrewards⟩ := h
  obtain rfl := accrueIsoRay_ok hisoRay
  obtain rfl := accrueRayRewards_ok hrewards
  exact ⟨rfl, rfl, rfl, rfl, rfl, rfl, rfl⟩

/-- The reactor `r'` has the owner and the locked votes of `r`, backed if they were. -/
structure Keeps (r r' : Reactor) : Prop where
  owner : r'.owner = r.owner
  locked : r'.lockedVotes = r.lockedVotes
  backed : r.Backed → r'.Backed

theorem Settled.keeps {r r' : Reactor} {config : ReactorConfig} (h : r.Settled r' config) :
    r.Keeps r' := by
  refine ⟨h.owner, h.lockedVotes, fun hbacked => ?_⟩
  rw [Backed, votePower, h.lockedVotes, h.ray, h.isoRay]
  exact hbacked.trans (Nat.add_le_add_left (Nat.le_add_right _ _) _)

theorem Keeps.trans {r r' r'' : Reactor} (h : r.Keeps r') (h' : r'.Keeps r'') : r.Keeps r'' :=
  ⟨h'.owner.trans h.owner, h'.locked.trans h.locked, fun hbacked => h'.backed (h.backed hbacked)⟩

end Reactor

namespace Staking

theorem settleAt_eq_ok {now : Int} {config config' : ReactorConfig} {r r' : Reactor} :
    settleAt now config r = .ok (config', r') ↔
      config.advance now = .ok config' ∧ r.settle config' = .ok r' := by
  constructor
  · intro h
    simp only [settleAt, bind_eq_ok, pure_eq_ok] at h
    obtain ⟨config₁, hadvance, r₁, hsettle, heq⟩ := h
    cases heq
    exact ⟨hadvance, hsettle⟩
  · rintro ⟨hadvance, hsettle⟩
    apply bind_ok hadvance
    exact bind_ok hsettle rfl

theorem settleAt_ok {now : Int} {config config' : ReactorConfig} {r r' : Reactor}
    (h : settleAt now config r = .ok (config', r')) :
    config.advance now = .ok config' ∧ r.Settled r' config' := by
  obtain ⟨hadvance, hsettle⟩ := settleAt_eq_ok.mp h
  exact ⟨hadvance, Reactor.settle_ok hsettle⟩

theorem depositRay_ok {now amount : Int} {config : ReactorConfig} {r : Reactor} {out : Outcome}
    (h : depositRay now config r amount = .ok out) :
    ∃ config' r' ray total, settleAt now config r = .ok (config', r') ∧
      ((ray : ℕ) : ℤ) = r'.ray + amount ∧
      ((total : ℕ) : ℤ) = config'.totalRayDeposited + amount ∧
      out.config = { config' with totalRayDeposited := total } ∧ out.reactor = { r' with ray } ∧
      (out.transferAmount : ℤ) = amount ∧ out.isoRaySlashed = 0 ∧ 0 ≤ amount := by
  simp only [depositRay, bind_eq_ok, pure_eq_ok, requireU64_eq_ok, Counter.add_eq_ok] at h
  obtain ⟨n, ⟨-, rfl⟩, ⟨config', r'⟩, hsettle, ray, ⟨-, hray⟩, total, ⟨-, htotal⟩, rfl⟩ := h
  refine ⟨config', r', ray, total, hsettle, ?_, ?_, rfl, rfl, rfl, rfl, Int.natCast_nonneg n⟩
  · exact_mod_cast hray
  · exact_mod_cast htotal

theorem withdrawRay_ok {now amount : Int} {config : ReactorConfig} {r : Reactor} {out : Outcome}
    (h : withdrawRay now config r amount = .ok out) :
    ∃ config' r' taken loss ray isoRay total, settleAt now config r = .ok (config', r') ∧
      amount = (taken : ℕ) ∧ isoRaySlashAmount r'.ray taken r'.isoRay = .ok loss ∧
      ((taken + loss : ℕ) : ℤ) ≤ r'.freeVotes ∧ ray + taken = r'.ray ∧ isoRay + loss = r'.isoRay ∧
      total + taken = config'.totalRayDeposited ∧
      out = ⟨{ config' with totalRayDeposited := total }, { r' with ray, isoRay }, taken, loss⟩ := by
  simp only [withdrawRay, bind_eq_ok, requireU64_eq_ok] at h
  obtain ⟨taken, ⟨-, rfl⟩, ⟨config', r'⟩, hsettle, h⟩ := h
  split at h
  · cases h
  simp only [bind_eq_ok] at h
  obtain ⟨loss, hloss, h⟩ := h
  split at h
  · cases h
  rename_i hfree
  simp only [bind_eq_ok, pure_eq_ok, Counter.sub_eq_ok] at h
  obtain ⟨ray, hray, isoRay, hisoRay, total, htotal, rfl⟩ := h
  exact ⟨config', r', taken, loss, ray, isoRay, total, hsettle, rfl, hloss, not_lt.mp hfree, hray,
    hisoRay, htotal, rfl⟩

theorem depositRay_keeps {now amount : Int} {config : ReactorConfig} {r : Reactor} {out : Outcome}
    (h : depositRay now config r amount = .ok out) : r.Keeps out.reactor := by
  obtain ⟨config', r', ray, total, hsettle, hray, -, -, hout, -, -, hamount⟩ := depositRay_ok h
  refine (settleAt_ok hsettle).2.keeps.trans ?_
  rw [hout]
  refine ⟨rfl, rfl, fun hbacked => ?_⟩
  simp only [Reactor.Backed, Reactor.votePower] at hbacked ⊢
  omega

/-- What is taken out together with the isoRAY lost is free. -/
theorem withdrawRay_keeps {now amount : Int} {config : ReactorConfig} {r : Reactor} {out : Outcome}
    (h : withdrawRay now config r amount = .ok out) : r.Keeps out.reactor := by
  obtain ⟨config', r', taken, loss, ray, isoRay, total, hsettle, -, -, hfree, hray, hisoRay, -, rfl⟩ :=
    withdrawRay_ok h
  refine (settleAt_ok hsettle).2.keeps.trans ⟨rfl, rfl, fun _ => ?_⟩
  simp only [Reactor.freeVotes, Reactor.votePower] at hfree
  simp only [Reactor.Backed, Reactor.votePower]
  omega

theorem collectRayRewards_keeps (r : Reactor) : r.Keeps (collectRayRewards r).1 :=
  ⟨rfl, rfl, id⟩

theorem syncAndCollectRayRewards_keeps {now : Int} {config : ReactorConfig} {r : Reactor}
    {out : Outcome} (h : syncAndCollectRayRewards now config r = .ok out) : r.Keeps out.reactor := by
  simp only [syncAndCollectRayRewards, syncReactor, bind_eq_ok, pure_eq_ok] at h
  obtain ⟨synced, hsync, rfl⟩ := h
  exact (depositRay_keeps hsync).trans (collectRayRewards_keeps _)

end Staking

/-! ### With which faults they refuse -/

section

variable {allowed : Fault → Prop} {now amount : Int} {config : ReactorConfig} {r : Reactor}

theorem ReactorConfig.advance_faultsIn
    (hover : ∀ e : Fault, e.causeKind = .arithmeticOverflow → allowed e)
    (hlate : now < config.rewardsEmittedUntil →
      allowed (.timestampRegression "reactor rewards" now config.rewardsEmittedUntil)) :
    FaultsIn allowed (config.advance now) := by
  refine .bind (elapsedSeconds_faultsIn hlate) fun elapsed _ => .ite (fun _ => .pure) fun _ => ?_
  refine .bind (Rate.daily_faultsIn hover _) fun rate _ => ?_
  refine .bind (sharedIndexDelta_faultsIn hover elapsed _ rate) fun delta _ => ?_
  refine .bind (Number.add_faultsIn (hover _ rfl)) fun rewardIndex _ => ?_
  refine .bind (Rate.annual_faultsIn hover _) fun apr _ => ?_
  exact .bind (advanceRateIndex_faultsIn hover _ elapsed _ apr) fun _ _ => .pure

namespace Reactor

theorem accrueIsoRay_faultsIn {index : Number} (houtgrown : ∀ e : Fault, e.Outgrown → allowed e)
    (haccrue : FaultsIn allowed (accrueShare "reactor isoRAY" r.ray r.lastSeenIndexIsoRay index)) :
    FaultsIn allowed (r.accrueIsoRay index) := by
  refine .bind haccrue fun accrual _ => ?_
  refine .bind (Number.wholePart_faultsIn (houtgrown _ (.whole _))) fun units _ => ?_
  exact .bind (Counter.add_faultsIn (houtgrown _ (.sum _ _ _))) fun _ _ => .pure

theorem accrueRayRewards_faultsIn {index : Number} (houtgrown : ∀ e : Fault, e.Outgrown → allowed e)
    (haccrue : FaultsIn allowed
      (accrueShare "reactor RAY rewards" r.ray r.rayStakeRewards.lastSeenIndex index)) :
    FaultsIn allowed (r.accrueRayRewards index) := by
  refine .bind haccrue fun accrual _ => .ite (fun _ => .pure) fun _ => ?_
  refine .bind (Number.wholePart_faultsIn (houtgrown _ (.whole _))) fun units _ => ?_
  exact .bind (Counter.add_faultsIn (houtgrown _ (.sum _ _ _))) fun _ _ => .pure

/-- A reactor has the faults of its two accounts, and what they earn may outgrow its counters. -/
theorem settle_faultsIn (houtgrown : ∀ e : Fault, e.Outgrown → allowed e)
    (hisoRay : FaultsIn allowed
      (accrueShare "reactor isoRAY" r.ray r.lastSeenIndexIsoRay config.isoRayIndex))
    (hreward : FaultsIn allowed
      (accrueShare "reactor RAY rewards" r.ray r.rayStakeRewards.lastSeenIndex config.rayRewardIndex)) :
    FaultsIn allowed (r.settle config) := by
  refine .bind (accrueIsoRay_faultsIn houtgrown hisoRay) fun r' hr' => ?_
  obtain rfl := accrueIsoRay_ok hr'
  exact accrueRayRewards_faultsIn houtgrown hreward

end Reactor

namespace Staking

theorem initReactorConfig_faultsIn (hrequest : ∀ e : Fault, e.OfRequest → allowed e) (settings : Settings) :
    FaultsIn allowed (initReactorConfig settings now) :=
  .bind (requireU64_faultsIn (hrequest _ (.argument _))) fun _ _ => .pure

theorem settleAt_faultsIn (hadvance : FaultsIn allowed (config.advance now))
    (hsettle : ∀ config', config.advance now = .ok config' → FaultsIn allowed (r.settle config')) :
    FaultsIn allowed (settleAt now config r) :=
  .bind hadvance fun config' hconfig' => .bind (hsettle config' hconfig') fun _ _ => .pure

/-- A deposit has the faults of a settling, and those of what is asked for. -/
theorem depositRay_faultsIn (hrequest : ∀ e : Fault, e.OfRequest → allowed e)
    (hsettle : FaultsIn allowed (settleAt now config r)) :
    FaultsIn allowed (depositRay now config r amount) := by
  refine .bind (requireU64_faultsIn (hrequest _ (.argument _))) fun n _ => .bind hsettle fun settled _ => ?_
  refine .bind (Counter.add_faultsIn (hrequest _ (.outgrown (.sum _ _ _)))) fun ray _ => ?_
  exact .bind (Counter.add_faultsIn (hrequest _ (.outgrown (.sum _ _ _)))) fun _ _ => .pure

/-- A withdrawal has the faults of a settling, those of the loss, and those of what is asked for. -/
theorem withdrawRay_faultsIn (hrequest : ∀ e : Fault, e.OfRequest → allowed e)
    (hsettle : FaultsIn allowed (settleAt now config r))
    (hloss : ∀ config' r' taken, settleAt now config r = .ok (config', r') → taken ≤ r'.ray →
      FaultsIn allowed (isoRaySlashAmount r'.ray taken r'.isoRay)) :
    FaultsIn allowed (withdrawRay now config r amount) := by
  have hsub : ∀ what m n, FaultsIn allowed (Counter.sub what m n) := fun _ _ _ =>
    Counter.sub_faultsIn fun _ => hrequest _ (.difference _ _ _)
  refine .bind (requireU64_faultsIn (hrequest _ (.argument _))) fun taken _ => ?_
  refine .bind hsettle fun ⟨config', r'⟩ hsettled => ?_
  refine .ite (fun _ => .error (hrequest _ (.shortage _ _ _))) fun henough => ?_
  refine .bind (hloss config' r' taken hsettled (Nat.le_of_not_lt henough)) fun loss _ => ?_
  refine .ite (fun _ => .error (hrequest _ (.shortage _ _ _))) fun _ => ?_
  refine .bind (hsub _ _ _) fun ray _ => .bind (hsub _ _ _) fun isoRay _ => ?_
  exact .bind (hsub _ _ _) fun _ _ => .pure

end Staking

end

/-! ### The book -/

/-- The records of the stake; reactors stand under their owners. -/
structure StakeBook where
  config : ReactorConfig
  reactors : Table Address Reactor

/-- A call on the stake. -/
inductive StakeCall where
  | initReactor (owner : Address)
  | deposit (now : Int) (owner : Address) (amount : Int)
  | withdraw (now : Int) (owner : Address) (amount : Int)
  | sync (now : Int) (owner : Address)
  | collect (owner : Address)
  | syncAndCollect (now : Int) (owner : Address)

/-- The owner that a call is about. -/
def StakeCall.owner : StakeCall → Address
  | initReactor owner | deposit _ owner _ | withdraw _ owner _ | sync _ owner | collect owner
  | syncAndCollect _ owner => owner

namespace StakeBook

/-- What is returned to a call: the config and the owner's reactor. -/
def answer (book : StakeBook) : StakeCall → Option (ReactorConfig × Reactor)
  | .initReactor owner =>
      if owner ∈ book.reactors then none else some (book.config, Staking.initReactor owner)
  | .deposit now owner amount => do
      let r ← book.reactors.lookup owner
      let out ← (Staking.depositRay now book.config r amount).toOption
      return (out.config, out.reactor)
  | .withdraw now owner amount => do
      let r ← book.reactors.lookup owner
      let out ← (Staking.withdrawRay now book.config r amount).toOption
      return (out.config, out.reactor)
  | .sync now owner => do
      let r ← book.reactors.lookup owner
      let out ← (Staking.syncReactor now book.config r).toOption
      return (out.config, out.reactor)
  | .collect owner => do
      let r ← book.reactors.lookup owner
      return (book.config, (Staking.collectRayRewards r).1)
  | .syncAndCollect now owner => do
      let r ← book.reactors.lookup owner
      let out ← (Staking.syncAndCollectRayRewards now book.config r).toOption
      return (out.config, out.reactor)

/-- The book after an answered call. -/
def step (book : StakeBook) (call : StakeCall) : Option StakeBook :=
  (book.answer call).map fun (config, r) => ⟨config, book.reactors.insert call.owner r⟩

variable {book book' : StakeBook} {call : StakeCall}

section Answers

variable {now amount : Int} {owner : Address} {config : ReactorConfig} {r' : Reactor}

theorem answer_initReactor : book.answer (.initReactor owner) = some (config, r') ↔
    owner ∉ book.reactors ∧ book.config = config ∧ Staking.initReactor owner = r' := by
  simp [answer]

theorem answer_deposit : book.answer (.deposit now owner amount) = some (config, r') ↔
    ∃ r out, book.reactors.lookup owner = some r ∧
      Staking.depositRay now book.config r amount = .ok out ∧ out.config = config ∧ out.reactor = r' := by
  simp [answer, Option.bind_eq_some_iff]

theorem answer_withdraw : book.answer (.withdraw now owner amount) = some (config, r') ↔
    ∃ r out, book.reactors.lookup owner = some r ∧
      Staking.withdrawRay now book.config r amount = .ok out ∧ out.config = config ∧ out.reactor = r' := by
  simp [answer, Option.bind_eq_some_iff]

theorem answer_sync : book.answer (.sync now owner) = some (config, r') ↔
    ∃ r out, book.reactors.lookup owner = some r ∧
      Staking.syncReactor now book.config r = .ok out ∧ out.config = config ∧ out.reactor = r' := by
  simp [answer, Option.bind_eq_some_iff]

theorem answer_collect : book.answer (.collect owner) = some (config, r') ↔
    ∃ r, book.reactors.lookup owner = some r ∧ book.config = config ∧
      (Staking.collectRayRewards r).1 = r' := by
  simp [answer, Option.bind_eq_some_iff]

theorem answer_syncAndCollect : book.answer (.syncAndCollect now owner) = some (config, r') ↔
    ∃ r out, book.reactors.lookup owner = some r ∧
      Staking.syncAndCollectRayRewards now book.config r = .ok out ∧
      out.config = config ∧ out.reactor = r' := by
  simp [answer, Option.bind_eq_some_iff]

end Answers

theorem step_eq_some : book.step call = some book' ↔
    ∃ config r', book.answer call = some (config, r') ∧
      ⟨config, book.reactors.insert call.owner r'⟩ = book' := by
  simp [step]

theorem answer_cases {config : ReactorConfig} {r' : Reactor}
    (h : book.answer call = some (config, r')) :
    (book.reactors.lookup call.owner = none ∧ r' = Staking.initReactor call.owner) ∨
      ∃ r, book.reactors.lookup call.owner = some r ∧ r.Keeps r' := by
  cases call with
  | initReactor owner =>
      obtain ⟨hnew, -, rfl⟩ := answer_initReactor.mp h
      exact .inl ⟨Finmap.lookup_eq_none.mpr hnew, rfl⟩
  | deposit now owner amount =>
      obtain ⟨r, out, hr, hout, -, rfl⟩ := answer_deposit.mp h
      exact .inr ⟨r, hr, Staking.depositRay_keeps hout⟩
  | withdraw now owner amount =>
      obtain ⟨r, out, hr, hout, -, rfl⟩ := answer_withdraw.mp h
      exact .inr ⟨r, hr, Staking.withdrawRay_keeps hout⟩
  | sync now owner =>
      obtain ⟨r, out, hr, hout, -, rfl⟩ := answer_sync.mp h
      exact .inr ⟨r, hr, Staking.depositRay_keeps hout⟩
  | collect owner =>
      obtain ⟨r, hr, -, rfl⟩ := answer_collect.mp h
      exact .inr ⟨r, hr, Staking.collectRayRewards_keeps r⟩
  | syncAndCollect now owner =>
      obtain ⟨r, out, hr, hout, -, rfl⟩ := answer_syncAndCollect.mp h
      exact .inr ⟨r, hr, Staking.syncAndCollectRayRewards_keeps hout⟩

/-- What an answered call does to the reactors: one is opened empty, or one keeps its owner and its
locked votes. -/
theorem step_cases (h : book.step call = some book') :
    ∃ r', book'.reactors = book.reactors.insert call.owner r' ∧
      ((book.reactors.lookup call.owner = none ∧ r' = Staking.initReactor call.owner) ∨
        ∃ r, book.reactors.lookup call.owner = some r ∧ r.Keeps r') := by
  obtain ⟨config, r', hanswer, rfl⟩ := step_eq_some.mp h
  exact ⟨r', rfl, answer_cases hanswer⟩

end StakeBook

end EmissionLedger
