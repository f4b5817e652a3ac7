import EmissionLedger.Proofs.Eager.Ledger
import EmissionLedger.Proofs.Staking.Moves

/-!
What stakers earn. The total is the sum of all stakes, and no reactor has seen more than the config's
indices; so what an owner has earned of either kind, credited or not, grows with the eager ledger, and
what is given out comes from it. A settlement leaves less than one unit behind, and every settlement
comes before the stake changes, so a new reactor that starts at index zero earns nothing of the past.

Main statements: what an owner was credited and given out is at most the balance in the eager ledger
(`credited_le`), and right after a settlement it is short of it by at most one unit for each settlement
(`credited_within`).
-/

namespace EmissionLedger

/-- A reactor as an account of an earning. -/
def Earning.account (e : Earning) : LazyAccount Reactor where
  share := Reactor.ray
  earned r index := earnedAt (e.units r) r.ray (e.lastSeen r) index
  gain _ _ _ h := earnedAt_advanced h

theorem Earning.account_earned (e : Earning) (r : Reactor) (index : Number) :
    e.account.earned r index = earnedAt (e.units r) r.ray (e.lastSeen r) index := rfl

namespace StakeBook

/-! ### Accounts of owners -/

/-- The RAY that an owner has staked, none without a reactor. -/
def rayOf (book : StakeBook) (owner : Address) : ℕ := book.reactors.valueAt Reactor.ray owner

/-- The raw units that an owner has earned and that were not given out, credited or not. -/
def earnedOf (e : Earning) (owner : Address) (book : StakeBook) : ℤ :=
  e.account.earnedBy reactors owner (e.index book.config) book

/-- The units of an earning that leave an owner's reactor in a call. -/
def releasedTo (e : Earning) (owner : Address) (book : StakeBook) (call : ReactorCall)
    (_ : StakeBook) : ℕ :=
  if call.owner = owner then book.released call e else 0

/-- One if a call settles an owner's reactor. -/
def settlements (owner : Address) (_ : StakeBook) (call : ReactorCall) (_ : StakeBook) : ℕ :=
  if call.owner = owner ∧ call.settles = true then 1 else 0

/-- The balances of the eager ledger for an earning: all owners are credited when its index grows. -/
def eagerEarned (e : Earning) (start : StakeBook) (calls : List ReactorCall) : Address → ℕ :=
  eagerLedger reactorStep (fun book => e.index book.config) rayOf start calls

/-- The total is the sum of all stakes, no reactor has seen more than the indices, and without RAY there
is no isoRAY. -/
structure Balanced (book : StakeBook) : Prop where
  total : book.config.totalRayDeposited = book.reactors.total fun _ r => r.ray
  seen : ∀ owner r, book.reactors.lookup owner = some r → ∀ e : Earning,
    e.lastSeen r ≤ e.index book.config
  bare : ∀ owner r, book.reactors.lookup owner = some r → r.Bare

variable {book book' : StakeBook} {call : ReactorCall} {e : Earning} {owner : Address}

theorem balanced_start {config : ReactorConfig} (h : config.totalRayDeposited = 0) :
    (⟨config, ∅⟩ : StakeBook).Balanced := by
  refine ⟨h, ?_, ?_⟩
  · intro owner r hr
    cases hr
  · intro owner r hr
    cases hr

theorem Balanced.insert (hb : book.Balanced) {r r' : Reactor} {out : Earning → ℕ}
    (hr : book.reactors.lookup owner = some r) (hmoved : r.Moved r' 0 out) :
    (⟨book.config, book.reactors.insert owner r'⟩ : StakeBook).Balanced := by
  refine ⟨?_, Table.forall_insert hb.seen fun e => ?_,
    Table.forall_insert hb.bare (hmoved.bare (hb.bare _ _ hr))⟩
  · have hsum := Table.total_insert_change (f := fun _ r => r.ray) hr hmoved.ray
    rw [← hb.total, add_zero] at hsum
    exact_mod_cast hsum.symm
  · rw [hmoved.lastSeen e]
    exact hb.seen _ _ hr e

theorem Balanced.step (hb : book.Balanced) (h : book.reactorStep call = some book') :
    book'.Balanced := by
  cases transition_of_step h with
  | opened hnew hsettles hnone =>
      refine ⟨?_, Table.forall_insert hb.seen fun e => ?_, Table.forall_insert hb.bare fun _ => rfl⟩
      · rw [Table.total_insert_new hnew, hb.total]
        exact (Nat.zero_add _).symm
      · rw [e.lastSeen_initReactor]
        exact Nat.zero_le _
  | kept hr hsettles hmoved => exact hb.insert hr hmoved
  | @settled r r₁ r' config elapsed total hr hsettles hadv hset hmoved htotal =>
      have hray : (r'.ray : ℤ) = r.ray + call.change := by rw [hmoved.ray, hset.ray]
      refine ⟨?_, Table.forall_insert (fun owner r hr e => ?_) fun e => ?_,
        Table.forall_insert hb.bare (hmoved.bare (hset.bare (hb.bare _ _ hr)))⟩
      · have hsum := Table.total_insert_change (f := fun _ r => r.ray) hr hray
        rw [← hb.total, ← hadv.total, ← htotal] at hsum
        exact_mod_cast hsum.symm
      · rw [e.index_total]
        exact Nat.le_trans (hb.seen owner r hr e) (hadv.index_le e)
      · rw [e.index_total, hmoved.lastSeen e, hset.lastSeen e]
        exact Nat.le_refl _

theorem balanced_run {start : StakeBook} (h : start.Balanced) (calls : List ReactorCall) :
    (run reactorStep start calls).Balanced :=
  run_invariant (fun _ _ _ hb hs => hb.step hs) calls h

/-! ### One call -/

/-- What an owner has earned moves with the eager ledger and with what is given out; less than one unit
is lost when the owner's reactor is settled. -/
abbrev FollowsEager (e : Earning) (owner : Address) : StakeBook → ReactorCall → StakeBook → Prop :=
  Follows (fun book => e.index book.config) rayOf owner (earnedOf e owner) (releasedTo e owner)
    (settlements owner)

theorem follows_of_own {config : ReactorConfig} {r' : Reactor} {i : Number}
    (hi : e.index config = i) (hindex : e.index book.config ≤ i)
    (hle : e.account.earned r' i + (book.released call e * scale : ℕ) ≤
      e.account.earnedBy reactors call.owner i book)
    (hge : e.account.earnedBy reactors call.owner i book ≤ e.account.earned r' i +
      (book.released call e * scale : ℕ) + ((if call.settles = true then 1 else 0) * scale : ℕ))
    (owner : Address) :
    FollowsEager e owner book call ⟨config, book.reactors.insert call.owner r'⟩ := by
  refine e.account.follows_of_insert (k := call.owner) (a := r') hi hindex rfl (fun h => if_neg h) ?_ ?_
  · rintro rfl
    rw [releasedTo, if_pos rfl]
    exact hle
  · rintro rfl
    rw [releasedTo, if_pos rfl]
    simp only [settlements, true_and]
    exact hge

theorem Balanced.follows (hb : book.Balanced) (h : book.reactorStep call = some book') (e : Earning)
    (owner : Address) : FollowsEager e owner book call book' := by
  cases transition_of_step h with
  | opened hnew hsettles hnone =>
      have hnow : e.account.earned (Staking.initReactor call.owner) (e.index book.config) = 0 := by
        rw [e.account_earned, e.units_initReactor, earnedAt]
        simp [Staking.initReactor]
      have hthen := e.account.earnedBy_of_none reactors hnew (e.index book.config)
      have hout : book.released call e = 0 := by
        rw [hnone]
        cases e <;> rfl
      apply follows_of_own rfl (Nat.le_refl _)
      · rw [hnow, hthen, hout, Nat.zero_mul, Nat.cast_zero, add_zero]
      · rw [hnow, hthen, hout, Nat.zero_mul, Nat.cast_zero, zero_add, zero_add]
        exact Int.natCast_nonneg _
  | @kept r r' hr hsettles hmoved =>
      -- what is given out was credited before, so nothing is earned and nothing is lost
      have hsame : e.account.earned r' (e.index book.config) + (book.released call e * scale : ℕ) =
          e.account.earnedBy reactors call.owner (e.index book.config) book := by
        have hray : r'.ray = r.ray := by exact_mod_cast hmoved.ray.trans (add_zero _)
        rw [e.account.earnedBy_of_lookup reactors hr]
        rw [e.account_earned, e.account_earned, earnedAt, earnedAt, hray, hmoved.lastSeen e,
          ← hmoved.units e]
        push_cast
        ring
      apply follows_of_own rfl (Nat.le_refl _) hsame.le
      exact hsame.ge.trans (le_add_of_nonneg_right (Int.natCast_nonneg _))
  | @settled r r₁ r' config elapsed total hr hsettles hadv hset hmoved htotal =>
      have hseen : e.lastSeen r ≤ e.index config :=
        Nat.le_trans (hb.seen _ _ hr e) (hadv.index_le e)
      have hcredited : e.units r' + book.released call e =
          e.units r + r.ray * ((e.index config).raw - (e.lastSeen r).raw) / scale := by
        rw [hmoved.units e, hset.units e]
      have hnow : e.account.earned r' (e.index config) =
          earnedAt (e.units r') r'.ray (e.index config) (e.index config) := by
        rw [e.account_earned, hmoved.lastSeen e, hset.lastSeen e]
      have hthen := e.account.earnedBy_of_lookup reactors hr (e.index config)
      obtain ⟨hle, hge⟩ := earnedAt_settled r'.ray hseen hcredited
      apply follows_of_own (e.index_total config total) (hadv.index_le e)
      · rw [hnow, hthen]
        exact hle
      · rw [hnow, hthen, if_pos hsettles, Nat.one_mul]
        exact hge

theorem seen_of_settles (h : book.reactorStep call = some book') (hsettles : call.settles = true) :
    ∃ r, book'.reactors.lookup call.owner = some r ∧ ∀ e : Earning, e.lastSeen r = e.index book'.config := by
  cases transition_of_step h with
  | opened _ hnot _ =>
      rw [hsettles] at hnot
      cases hnot
  | kept _ hnot _ =>
      rw [hsettles] at hnot
      cases hnot
  | @settled r r₁ r' config elapsed total hr _ hadv hset hmoved htotal =>
      refine ⟨r', Finmap.lookup_insert _, fun e => ?_⟩
      rw [e.index_total config total, hmoved.lastSeen e, hset.lastSeen e]

/-! ### Runs -/

section Runs

variable {config : ReactorConfig}

/-- Over a run what an owner has earned is the balance in the eager ledger less what was given out, but
for one unit at most for each settlement. -/
theorem earned_run (h : config.totalRayDeposited = 0) (calls : List ReactorCall) (e : Earning)
    (owner : Address) :
    let start : StakeBook := ⟨config, ∅⟩
    let last := run reactorStep start calls
    let out := tally reactorStep (releasedTo e owner) start calls
    let settled := tally reactorStep (settlements owner) start calls
    last.earnedOf e owner + (out * scale : ℕ) ≤ eagerEarned e start calls owner ∧
      eagerEarned e start calls owner ≤
        last.earnedOf e owner + (out * scale : ℕ) + (settled * scale : ℕ) := by
  intro start last out settled
  have hzero : start.earnedOf e owner = 0 :=
    e.account.earnedBy_of_none reactors (Finmap.lookup_empty owner) _
  exact follows_run (fun _ _ _ hb hs => Balanced.step hb hs)
    (fun _ _ _ hb hs => Balanced.follows hb hs e owner) (balanced_start h) hzero calls

theorem credited_le (h : config.totalRayDeposited = 0) (calls : List ReactorCall) (e : Earning)
    {owner : Address} {r : Reactor}
    (hr : (run reactorStep ⟨config, ∅⟩ calls).reactors.lookup owner = some r) :
    (e.units r + tally reactorStep (releasedTo e owner) ⟨config, ∅⟩ calls) * scale ≤
      eagerEarned e ⟨config, ∅⟩ calls owner := by
  have hearned := (earned_run h calls e owner).1
  have hseen := (balanced_run (balanced_start h) calls).seen owner r hr e
  have hcredited : ((e.units r * scale : ℕ) : ℤ) ≤ earnedAt (e.units r) r.ray (e.lastSeen r) _ :=
    le_earnedAt hseen
  rw [earnedOf, e.account.earnedBy_of_lookup reactors hr] at hearned
  have hall := (add_le_add_left hcredited _).trans hearned
  rw [Nat.add_mul]
  exact_mod_cast hall

theorem credited_within (h : config.totalRayDeposited = 0) {calls : List ReactorCall}
    {call : ReactorCall} {last : StakeBook}
    (hstep : reactorStep (run reactorStep ⟨config, ∅⟩ calls) call = some last)
    (hsettles : call.settles = true) :
    ∃ r, last.reactors.lookup call.owner = some r ∧ ∀ e : Earning,
      WithinUnits
        (e.units r + tally reactorStep (releasedTo e call.owner) ⟨config, ∅⟩ (calls ++ [call]))
        (eagerEarned e ⟨config, ∅⟩ (calls ++ [call]) call.owner)
        (tally reactorStep (settlements call.owner) ⟨config, ∅⟩ (calls ++ [call])) := by
  obtain ⟨r, hr, hseen⟩ := seen_of_settles hstep hsettles
  refine ⟨r, hr, fun e => ?_⟩
  have hearned := earned_run h (calls ++ [call]) e call.owner
  have hcredited : e.account.earned r (e.index last.config) = (e.units r * scale : ℕ) := by
    rw [e.account_earned, hseen e, earnedAt_seen]
  dsimp only at hearned
  rw [run_concat hstep, earnedOf, e.account.earnedBy_of_lookup reactors hr, hcredited] at hearned
  constructor
  · rw [Nat.add_mul]
    exact_mod_cast hearned.1
  · rw [Nat.add_mul, Nat.add_mul]
    exact_mod_cast hearned.2

end Runs

end StakeBook

end EmissionLedger
