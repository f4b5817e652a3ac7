import EmissionLedger.Proofs.Emission.Conservation
import EmissionLedger.Proofs.Escrow.Conservation
import EmissionLedger.Proofs.Staking.Earnings

/-!
Lazy accrual refines eager distribution. In the escrow, the emission and the stake alike, every call
moves the index on before it opens an account or changes a share, and settles the account that it
changes; so what an account has earned, credited or not, follows the eager ledger in every state. Right
after an account was settled nothing of it is left uncredited but parts of whole units.

Main statement: time units are exact, and RAY, RAY rewards and isoRAY are short of the eager ledger by at
most one unit for each settlement (`lazy_refines_eager`).
-/

namespace EmissionLedger

/-! ### The escrow -/

/-- A position as an account of time units. -/
def PersonalPosition.account : LazyAccount PersonalPosition where
  share := PersonalPosition.amount
  earned := PersonalPosition.unitsAt
  gain p i i' h := by
    have hle : i.raw ≤ i'.raw := h
    unfold unitsAt
    push_cast [hle]
    ring

namespace EscrowBook

variable {ι : Type} [DecidableEq ι]

/-- The balances of the eager ledger: all positions earn when the tracker's index grows. -/
def eagerUnits (start : EscrowBook ι) (calls : List (EscrowCall ι)) : ι → ℕ :=
  eagerLedger step (fun book => book.tracker.index) amountOf start calls

/-- The raw time units that an account has earned, credited or not. -/
def unitsOf (account : ι) (book : EscrowBook ι) : ℤ :=
  PersonalPosition.account.earnedBy positions account book.tracker.index book

variable {book book' : EscrowBook ι} {call : EscrowCall ι}

theorem units_follow (h : book.step call = some book') (account : ι) :
    Follows (fun book => book.tracker.index) amountOf account (unitsOf account) (fun _ _ _ => 0)
      (fun _ _ _ => 0) book call book' := by
  obtain ⟨t, elapsed, hadv, -, hcases⟩ := step_cases h
  rcases hcases with ⟨hnone, -, owner, -, rfl⟩ | ⟨p, p', total, amount, hp, hset, -, -, rfl⟩
  · let opened : PersonalPosition := ⟨owner, t.poolId, 0, t.index, .zero⟩
    have hunits : PersonalPosition.account.earned opened t.index =
        PersonalPosition.account.earnedBy positions call.account t.index book := by
      rw [PersonalPosition.account.earnedBy_of_none positions hnone]
      exact PersonalPosition.unitsAt_of_seen rfl
    exact PersonalPosition.account.follows_of_exact (s := book) rfl hadv.index_le rfl hunits
  · have hunits : PersonalPosition.account.earned { p' with amount } t.index =
        PersonalPosition.account.earnedBy positions call.account t.index book := by
      rw [PersonalPosition.account.earnedBy_of_lookup positions hp]
      exact hset.unitsAt_eq amount
    exact PersonalPosition.account.follows_of_exact (s := book) rfl hadv.index_le rfl hunits

/-- In every state what an account has earned is the balance in the eager ledger. -/
theorem unitsOf_run (tracker : TimeTracker) (calls : List (EscrowCall ι)) (account : ι) :
    unitsOf account (run step ⟨tracker, ∅⟩ calls) = eagerUnits ⟨tracker, ∅⟩ calls account := by
  have hzero : unitsOf account ⟨tracker, ∅⟩ = 0 :=
    PersonalPosition.account.earnedBy_of_none positions (Finmap.lookup_empty account) _
  have hrun := follows_run (P := fun _ => True) (fun _ _ _ _ _ => trivial)
    (fun _ _ _ _ hs => units_follow hs account) trivial hzero calls
  simp only [tally_zero, Nat.zero_mul, Nat.cast_zero, add_zero] at hrun
  exact le_antisymm hrun.1 hrun.2

theorem seen_of_step (h : book.step call = some book') :
    ∃ p, book'.positions.lookup call.account = some p ∧ p.lastSeenIndex = book'.tracker.index := by
  obtain ⟨t, elapsed, hadv, -, hcases⟩ := step_cases h
  rcases hcases with ⟨-, -, owner, -, rfl⟩ | ⟨p, p', total, amount, -, hset, -, -, rfl⟩
  · exact ⟨_, Finmap.lookup_insert _, rfl⟩
  · exact ⟨_, Finmap.lookup_insert _, hset.lastSeen⟩

theorem earned_eq_eager {tracker : TimeTracker} {calls : List (EscrowCall ι)} {last : EscrowBook ι}
    (h : step (run step ⟨tracker, ∅⟩ calls) call = some last) :
    ∃ p, last.positions.lookup call.account = some p ∧
      p.earnedTimeUnits.raw = eagerUnits ⟨tracker, ∅⟩ (calls ++ [call]) call.account := by
  obtain ⟨p, hp, hseen⟩ := seen_of_step h
  refine ⟨p, hp, ?_⟩
  have hunits := unitsOf_run tracker (calls ++ [call]) call.account
  rw [run_concat h, unitsOf, PersonalPosition.account.earnedBy_of_lookup positions hp] at hunits
  exact_mod_cast (PersonalPosition.unitsAt_of_seen hseen).symm.trans hunits

end EscrowBook

/-! ### The emission -/

/-- A gauge as an account of RAY. -/
def Gauge.account : LazyAccount Gauge where
  share := Gauge.totalVotes
  earned := Gauge.accruedAt
  gain _ _ _ h := earnedAt_advanced h

/-- Whether a call settles the gauge that it is about. -/
def GaugeCall.settles {ι : Type} : GaugeCall ι → Bool
  | initPool .. => false
  | sync .. | changeVotes .. => true

namespace GaugeBook

variable {ι : Type} [DecidableEq ι]

/-- The balances of the eager ledger: all gauges are credited when the config's index grows. -/
def eagerRay (start : GaugeBook ι) (calls : List (GaugeCall ι)) : ι → ℕ :=
  eagerLedger step (fun book => book.config.index) votesOf start calls

/-- One if a call settles the gauge under an account. -/
def settlements (account : ι) (_ : GaugeBook ι) (call : GaugeCall ι) (_ : GaugeBook ι) : ℕ :=
  if call.account = account ∧ call.settles = true then 1 else 0

/-- The raw RAY that an account has earned, credited or not. -/
def rayAt (account : ι) (book : GaugeBook ι) : ℤ :=
  Gauge.account.earnedBy gauges account book.config.index book

variable {book book' : GaugeBook ι} {call : GaugeCall ι}

theorem settles_of_lookup {g : Gauge} (h : book.step call = some book')
    (hg : book.gauges.lookup call.account = some g) : call.settles = true := by
  cases call with
  | initPool now account poolId =>
      obtain ⟨out, hout, -⟩ := step_eq_some.mp h
      simp only [answer, Option.ite_none_left_eq_some] at hout
      exact absurd (Finmap.mem_of_lookup_eq_some hg) hout.1
  | sync now account => rfl
  | changeVotes now account personal amount reactor => rfl

theorem ray_follows (h : book.step call = some book') (account : ι) :
    Follows (fun book => book.config.index) votesOf account (rayAt account) (fun _ _ _ => 0)
      (settlements account) book call book' := by
  obtain ⟨config, elapsed, hadv, -, hcases⟩ := step_cases h
  rcases hcases with ⟨hnone, -, poolId, -, rfl⟩ | ⟨g, g', total, votes, hg, hset, -, -, rfl⟩
  · let opened : Gauge := ⟨poolId, 0, config.index, 0⟩
    have hray : Gauge.account.earned opened config.index =
        Gauge.account.earnedBy gauges call.account config.index book := by
      rw [Gauge.account.earnedBy_of_none gauges hnone]
      show earnedAt 0 0 config.index config.index = 0
      rw [earnedAt_seen, Nat.zero_mul, Nat.cast_zero]
    exact Gauge.account.follows_of_exact (s := book) rfl hadv.index_le rfl hray
  · have hnow : Gauge.account.earned { g' with totalVotes := votes } config.index =
        earnedAt g'.totalRayEmitted votes config.index config.index := by
      show earnedAt _ _ g'.lastSeenGlobalIndex _ = _
      rw [hset.lastSeen]
    have hthen : Gauge.account.earnedBy gauges call.account config.index book =
        earnedAt g.totalRayEmitted g.totalVotes g.lastSeenGlobalIndex config.index :=
      Gauge.account.earnedBy_of_lookup gauges hg config.index
    have hemitted : g'.totalRayEmitted + 0 = _ := hset.emitted
    obtain ⟨hle, hge⟩ := earnedAt_settled votes hset.seen hemitted
    rw [Nat.zero_mul, Nat.cast_zero, add_zero, ← hnow, ← hthen] at hle hge
    refine Gauge.account.follows_of_settled (s := book) rfl hadv.index_le rfl hle ?_
    rintro rfl
    rw [settlements, if_pos ⟨rfl, settles_of_lookup h hg⟩, Nat.one_mul]
    exact hge

/-- In every state what an account has earned is the balance in the eager ledger, but for one unit at
most for each settlement. -/
theorem rayAt_run (config : GaugeConfig) (calls : List (GaugeCall ι)) (account : ι) :
    let start : GaugeBook ι := ⟨config, ∅⟩
    let last := run step start calls
    last.rayAt account ≤ eagerRay start calls account ∧ eagerRay start calls account ≤
      last.rayAt account + (tally step (settlements account) start calls * scale : ℕ) := by
  intro start last
  have hzero : start.rayAt account = 0 :=
    Gauge.account.earnedBy_of_none gauges (Finmap.lookup_empty account) _
  have hrun := follows_run (P := fun _ => True) (fun _ _ _ _ _ => trivial)
    (fun _ _ _ _ hs => ray_follows hs account) trivial hzero calls
  simp only [tally_zero, Nat.zero_mul, Nat.cast_zero, add_zero] at hrun
  exact hrun

theorem seen_of_step (h : book.step call = some book') :
    ∃ g, book'.gauges.lookup call.account = some g ∧
      g.lastSeenGlobalIndex = book'.config.index := by
  obtain ⟨config, elapsed, hadv, -, hcases⟩ := step_cases h
  rcases hcases with ⟨-, -, poolId, -, rfl⟩ | ⟨g, g', total, votes, -, hset, -, -, rfl⟩
  · exact ⟨_, Finmap.lookup_insert _, rfl⟩
  · exact ⟨_, Finmap.lookup_insert _, hset.lastSeen⟩

theorem emitted_within {config : GaugeConfig} {calls : List (GaugeCall ι)} {last : GaugeBook ι}
    (h : step (run step ⟨config, ∅⟩ calls) call = some last) :
    ∃ g, last.gauges.lookup call.account = some g ∧
      WithinUnits g.totalRayEmitted (eagerRay ⟨config, ∅⟩ (calls ++ [call]) call.account)
        (tally step (settlements call.account) ⟨config, ∅⟩ (calls ++ [call])) := by
  obtain ⟨g, hg, hseen⟩ := seen_of_step h
  refine ⟨g, hg, ?_⟩
  have hray := rayAt_run config (calls ++ [call]) call.account
  have hcredited : Gauge.account.earned g last.config.index = (g.totalRayEmitted * scale : ℕ) := by
    show earnedAt _ _ g.lastSeenGlobalIndex _ = _
    rw [hseen, earnedAt_seen]
  dsimp only at hray
  rw [run_concat h, rayAt, Gauge.account.earnedBy_of_lookup gauges hg, hcredited] at hray
  constructor
  · exact_mod_cast hray.1
  · rw [Nat.add_mul]
    exact_mod_cast hray.2

end GaugeBook

/-! ### All engines -/

/-- **Lazy accrual refines eager distribution.** After every call of every run that settles an account,
the time units of a position are its balance in the eager ledger; the RAY of a gauge, the RAY rewards of
a reactor and its isoRAY, those paid out or slashed included, are at most the balance and short of it by
at most one unit for each settlement of the account. -/
theorem lazy_refines_eager {ι : Type} [DecidableEq ι] :
    (∀ now poolId escrowAccount tracker,
        Escrow.initTimeTracker now poolId escrowAccount = .ok tracker →
        ∀ calls call last, EscrowBook.step (run EscrowBook.step ⟨tracker, ∅⟩ calls) call = some last →
          ∃ p, last.positions.lookup (call.account : ι) = some p ∧
            p.earnedTimeUnits.raw =
              EscrowBook.eagerUnits ⟨tracker, ∅⟩ (calls ++ [call]) call.account) ∧
      (∀ settings now config, Emission.initGaugeConfig settings now = .ok config →
        ∀ calls call last, GaugeBook.step (run GaugeBook.step ⟨config, ∅⟩ calls) call = some last →
          ∃ g, last.gauges.lookup (call.account : ι) = some g ∧
            WithinUnits g.totalRayEmitted
              (GaugeBook.eagerRay ⟨config, ∅⟩ (calls ++ [call]) call.account)
              (tally GaugeBook.step (GaugeBook.settlements call.account) ⟨config, ∅⟩
                (calls ++ [call]))) ∧
      ∀ settings now config, Staking.initReactorConfig settings now = .ok config →
        ∀ calls call last,
          StakeBook.reactorStep (run StakeBook.reactorStep ⟨config, ∅⟩ calls) call = some last →
          call.settles = true →
          ∃ r, last.reactors.lookup call.owner = some r ∧
            let start : StakeBook := ⟨config, ∅⟩
            let out := fun e =>
              tally StakeBook.reactorStep (StakeBook.releasedTo e call.owner) start (calls ++ [call])
            let eager := fun e => StakeBook.eagerEarned e start (calls ++ [call]) call.owner
            let settled :=
              tally StakeBook.reactorStep (StakeBook.settlements call.owner) start (calls ++ [call])
            WithinUnits (r.rayStakeRewards.uncollectedRayReward + out .reward) (eager .reward) settled ∧
              WithinUnits (r.isoRay + out .isoRay) (eager .isoRay) settled := by
  refine ⟨?_, ?_, ?_⟩
  · intro now poolId escrowAccount tracker _ calls call last h
    exact EscrowBook.earned_eq_eager h
  · intro settings now config _ calls call last h
    exact GaugeBook.emitted_within h
  · intro settings now config hinit calls call last h hsettles
    obtain ⟨hempty, -, -⟩ := Staking.initReactorConfig_ok hinit
    obtain ⟨r, hr, hwithin⟩ := StakeBook.credited_within hempty h hsettles
    exact ⟨r, hr, hwithin .reward, hwithin .isoRay⟩

/-- A position, a gauge and a reactor that are settled once after their share was changed. -/
theorem lazy_refines_eager_settled_once :
    let tracker : TimeTracker := ⟨.zero, .zero, .zero, 0, 0⟩
    let gaugeConfig : GaugeConfig := ⟨0, 86400, .zero, 0⟩
    let reactorConfig : ReactorConfig := ⟨0, 86400, .zero, 10000, .zero, 0⟩
    let voter : Reactor := ⟨.zero, 2, 0, 0, .zero, ⟨.zero, 0⟩⟩
    let deposits : List (EscrowCall ℕ) := [.initPosition 0 0 .zero, .deposit 0 0 3]
    let votes : List (GaugeCall ℕ) := [.initPool 0 0 .zero, .changeVotes 0 0 ⟨.zero, .zero, 0⟩ 2 voter]
    let stakes : List ReactorCall := [.stake (.initReactor .zero), .stake (.deposit 0 .zero 2)]
    (∃ last, EscrowBook.step (run EscrowBook.step ⟨tracker, ∅⟩ deposits) (.update 12 0) = some last ∧
        ∃ p, last.positions.lookup 0 = some p ∧
          p.earnedTimeUnits.raw = EscrowBook.eagerUnits ⟨tracker, ∅⟩ (deposits ++ [.update 12 0]) 0) ∧
      (∃ last, GaugeBook.step (run GaugeBook.step ⟨gaugeConfig, ∅⟩ votes) (.sync 10 0) = some last ∧
        ∃ g, last.gauges.lookup 0 = some g ∧
          g.totalRayEmitted * scale ≤
            GaugeBook.eagerRay ⟨gaugeConfig, ∅⟩ (votes ++ [.sync 10 0]) 0) ∧
      ∃ last, StakeBook.reactorStep (run StakeBook.reactorStep ⟨reactorConfig, ∅⟩ stakes)
            (.stake (.sync 10 .zero)) = some last ∧
        ∃ r, last.reactors.lookup .zero = some r ∧
          r.rayStakeRewards.uncollectedRayReward * scale ≤
            StakeBook.eagerEarned .reward ⟨reactorConfig, ∅⟩ (stakes ++ [.stake (.sync 10 .zero)])
              .zero := by
  intro tracker gaugeConfig reactorConfig voter deposits votes stakes
  obtain ⟨hescrow, hemission, hstake⟩ := lazy_refines_eager (ι := ℕ)
  refine ⟨?_, ?_, ?_⟩
  · have hanswered : (EscrowBook.step (run EscrowBook.step ⟨tracker, ∅⟩ deposits)
        (.update 12 0)).isSome = true := by decide +kernel
    obtain ⟨last, hlast⟩ := Option.isSome_iff_exists.mp hanswered
    exact ⟨last, hlast, hescrow 0 .zero .zero tracker rfl deposits _ last hlast⟩
  · have hanswered : (GaugeBook.step (run GaugeBook.step ⟨gaugeConfig, ∅⟩ votes)
        (.sync 10 0)).isSome = true := by decide +kernel
    obtain ⟨last, hlast⟩ := Option.isSome_iff_exists.mp hanswered
    obtain ⟨g, hg, hwithin⟩ := hemission ⟨86400⟩ 0 gaugeConfig rfl votes _ last hlast
    exact ⟨last, hlast, g, hg, hwithin.le⟩
  · have hanswered : (StakeBook.reactorStep (run StakeBook.reactorStep ⟨reactorConfig, ∅⟩ stakes)
        (.stake (.sync 10 .zero))).isSome = true := by decide +kernel
    obtain ⟨last, hlast⟩ := Option.isSome_iff_exists.mp hanswered
    obtain ⟨r, hr, hwithin, -⟩ := hstake ⟨86400, 10000⟩ 0 reactorConfig rfl stakes _ last hlast rfl
    exact ⟨last, hlast, r, hr, (Nat.mul_le_mul_right _ (Nat.le_add_right _ _)).trans hwithin.le⟩

end EmissionLedger
