import EmissionLedger.Proofs.Emission.Book
import EmissionLedger.Proofs.Staking.Book

/-!
The book of the votes: the stake, the emission once it has begun, and what every owner has pledged to
every pool. A change of votes commits four records at once, the config, a gauge, an owner's votes for
the pool and the owner's reactor; nothing else touches pledged or locked votes. Calls name the records
that they bring together by their keys, so records that do not belong together may be brought too.
-/

namespace EmissionLedger

/-! ### Locking -/

/-- What locking `amount` votes, or freeing them if it is below zero, does to a reactor. -/
structure Reactor.Relocked (r r' : Reactor) (amount : Int) : Prop where
  reactor : r' = { r with lockedVotes := r'.lockedVotes }
  locked : (r'.lockedVotes : ℤ) = r.lockedVotes + amount
  backed : r.Backed → r'.Backed

theorem Reactor.lockVotes_ok {r r' : Reactor} {amount : Int} (h : r.lockVotes amount = .ok r') :
    r.Relocked r' amount := by
  simp only [lockVotes, bind_eq_ok, requireU64_eq_ok] at h
  obtain ⟨votes, ⟨-, rfl⟩, h⟩ := h
  split at h
  · cases h
  rename_i hfree
  simp only [bind_eq_ok, pure_eq_ok, Counter.add_eq_ok] at h
  obtain ⟨locked, ⟨-, hlocked⟩, rfl⟩ := h
  refine ⟨rfl, by exact_mod_cast hlocked, fun _ => ?_⟩
  rw [freeVotes] at hfree
  rw [Backed, votePower]
  dsimp only [votePower] at hfree ⊢
  omega

theorem Reactor.unlockVotes_ok {r r' : Reactor} {amount : Int} (h : r.unlockVotes amount = .ok r') :
    r.Relocked r' (-amount) := by
  simp only [unlockVotes, bind_eq_ok, requireU64_eq_ok] at h
  obtain ⟨votes, ⟨-, rfl⟩, h⟩ := h
  split at h
  · cases h
  simp only [bind_eq_ok, pure_eq_ok, Counter.sub_eq_ok] at h
  obtain ⟨locked, hlocked, rfl⟩ := h
  refine ⟨rfl, ?_, fun hbacked => ?_⟩
  · dsimp only
    omega
  · rw [Backed, votePower] at hbacked ⊢
    dsimp only
    omega

theorem Emission.moveLock_ok {r r' : Reactor} {amount : Int} (h : moveLock r amount = .ok r') :
    r.Relocked r' amount := by
  rw [moveLock] at h
  split at h
  · exact Reactor.lockVotes_ok h
  split at h
  · rw [← neg_neg amount]
    exact Reactor.unlockVotes_ok h
  · -- nothing is locked or freed
    rw [Except.ok.injEq] at h
    subst h
    exact ⟨rfl, by omega, id⟩

theorem Emission.checkPledge_ok {personal : PersonalGauge} {r : Reactor} {amount : Int}
    (h : checkPledge personal r amount = .ok ()) :
    (0 < amount → amount ≤ r.freeVotes) ∧ 0 ≤ personal.votes + amount := by
  rw [checkPledge] at h
  split at h
  · cases h
  split at h
  · cases h
  omega

/-! ### Votes by account -/

/-- The votes of the gauge under an account, none if there is no gauge. -/
def GaugeBook.votesOf {ι : Type} [DecidableEq ι] (book : GaugeBook ι) (account : ι) : ℕ :=
  (book.gauges.lookup account).elim 0 Gauge.totalVotes

/-- The locked votes of an owner's reactor, none if there is no reactor. -/
def StakeBook.lockedOf (book : StakeBook) (owner : Address) : ℕ :=
  (book.reactors.lookup owner).elim 0 Reactor.lockedVotes

theorem GaugeBook.votesOf_step {ι : Type} [DecidableEq ι] {book book' : GaugeBook ι}
    {call : GaugeCall ι} (h : book.step call = some book') (account : ι) :
    (book'.votesOf account : ℤ) =
      book.votesOf account + if call.account = account then call.change else 0 := by
  obtain ⟨config, elapsed, -, -, hcases⟩ := step_cases h
  by_cases haccount : call.account = account
  · subst haccount
    rcases hcases with ⟨hnone, hchange, poolId, -, rfl⟩ | ⟨g, g', total, votes, hg, -, -, hvotes, rfl⟩
    · rw [if_pos rfl, hchange, votesOf, votesOf, hnone, Finmap.lookup_insert]
      rfl
    · rw [if_pos rfl, votesOf, votesOf, hg, Finmap.lookup_insert]
      exact hvotes
  · have hother : ¬account = call.account := fun heq => haccount heq.symm
    rw [if_neg haccount, add_zero]
    rcases hcases with ⟨-, -, poolId, -, rfl⟩ | ⟨g, g', total, votes, -, -, -, -, rfl⟩ <;>
      rw [votesOf, votesOf, Finmap.lookup_insert_of_ne _ hother]

theorem StakeBook.lockedOf_step {book book' : StakeBook} {call : StakeCall}
    (h : book.step call = some book') (owner : Address) :
    book'.lockedOf owner = book.lockedOf owner := by
  obtain ⟨r', hreactors, hcases⟩ := step_cases h
  by_cases howner : owner = call.owner
  · subst howner
    rw [lockedOf, lockedOf, hreactors, Finmap.lookup_insert]
    rcases hcases with ⟨hnone, rfl⟩ | ⟨r, hr, hkeeps⟩
    · rw [hnone]
      rfl
    · rw [hr]
      exact hkeeps.locked
  · rw [lockedOf, lockedOf, hreactors, Finmap.lookup_insert_of_ne _ howner]

/-- Locking changes the locked votes of one reactor. -/
theorem StakeBook.lockedOf_insert {book : StakeBook} {staker : Address} {r r' : Reactor} {amount : Int}
    (hr : book.reactors.lookup staker = some r) (hlock : r.Relocked r' amount) (owner : Address) :
    (({ book with reactors := book.reactors.insert staker r' } : StakeBook).lockedOf owner : ℤ) =
      book.lockedOf owner + if staker = owner then amount else 0 := by
  by_cases howner : owner = staker
  · subst howner
    rw [if_pos rfl, lockedOf, lockedOf, hr, Finmap.lookup_insert]
    exact hlock.locked
  · rw [if_neg (Ne.symm howner), add_zero, lockedOf, lockedOf, Finmap.lookup_insert_of_ne _ howner]

/-! ### The book -/

/-- The records of the votes; what an owner has pledged to a pool stands under both. -/
structure VoteBook where
  stake : StakeBook
  emission : Option (GaugeBook Address)
  pledges : Table (Address × Address) PersonalGauge

/-- A call on the stake, the emission or the votes. -/
inductive VoteCall where
  | stake (call : StakeCall)
  | initGaugeConfig (settings : Emission.Settings) (now : Int)
  | initPool (now : Int) (pool : Address)
  | sync (now : Int) (pool : Address)
  | initPersonalGauge (owner pool : Address)
  | changeVotes (now : Int) (pool : Address) (pledge : Address × Address) (staker : Address)
      (amount : Int)

namespace VoteBook

/-- A book in which nobody has staked and nothing is emitted. -/
def start (config : ReactorConfig) : VoteBook := ⟨⟨config, ∅⟩, none, ∅⟩

/-- The book with four changed records committed. -/
def commit (book : VoteBook) (emission : GaugeBook Address) (pool : Address)
    (pledge : Address × Address) (staker : Address) (out : Emission.VoteChange) : VoteBook where
  stake := { book.stake with reactors := book.stake.reactors.insert staker out.reactor }
  emission := some (emission.commit pool ⟨out.config, out.gauge⟩)
  pledges := book.pledges.insert pledge out.personalGauge

/-- The book after an answered call. -/
def step (book : VoteBook) : VoteCall → Option VoteBook
  | .stake call => do
      let stake ← book.stake.step call
      return { book with stake }
  | .initGaugeConfig settings now =>
      if book.emission.isSome then none
      else do
        let config ← (Emission.initGaugeConfig settings now).toOption
        return { book with emission := some ⟨config, ∅⟩ }
  | .initPool now pool => do
      let emission ← book.emission
      let emission ← emission.step (.initPool now pool pool)
      return { book with emission := some emission }
  | .sync now pool => do
      let emission ← book.emission
      let emission ← emission.step (.sync now pool)
      return { book with emission := some emission }
  | .initPersonalGauge owner pool => do
      let emission ← book.emission
      let gauge ← emission.gauges.lookup pool
      if (owner, pool) ∈ book.pledges then none
      else
        let personal := Emission.initPersonalGauge owner gauge
        return { book with pledges := book.pledges.insert (owner, pool) personal }
  | .changeVotes now pool pledge staker amount => do
      let emission ← book.emission
      let gauge ← emission.gauges.lookup pool
      let personal ← book.pledges.lookup pledge
      let reactor ← book.stake.reactors.lookup staker
      let out ← (Emission.changeVotes now emission.config gauge personal amount reactor).toOption
      return book.commit emission pool pledge staker out

section Steps

variable {book book' : VoteBook} {now amount : Int} {owner pool staker : Address}
variable {pledge : Address × Address}

theorem step_stake {call : StakeCall} : book.step (.stake call) = some book' ↔
    ∃ stake, book.stake.step call = some stake ∧ { book with stake } = book' := by
  simp [step, Option.bind_eq_some_iff]

theorem step_initGaugeConfig {settings : Emission.Settings} :
    book.step (.initGaugeConfig settings now) = some book' ↔
      book.emission = none ∧ ∃ config, Emission.initGaugeConfig settings now = .ok config ∧
        { book with emission := some ⟨config, ∅⟩ } = book' := by
  simp [step, Option.bind_eq_some_iff]

theorem step_initPool : book.step (.initPool now pool) = some book' ↔
    ∃ e e', book.emission = some e ∧ e.step (.initPool now pool pool) = some e' ∧
      { book with emission := some e' } = book' := by
  simp [step, Option.bind_eq_some_iff]

theorem step_sync : book.step (.sync now pool) = some book' ↔
    ∃ e e', book.emission = some e ∧ e.step (.sync now pool) = some e' ∧
      { book with emission := some e' } = book' := by
  simp [step, Option.bind_eq_some_iff]

theorem step_initPersonalGauge : book.step (.initPersonalGauge owner pool) = some book' ↔
    ∃ e gauge, book.emission = some e ∧ e.gauges.lookup pool = some gauge ∧
      (owner, pool) ∉ book.pledges ∧
      { book with pledges :=
          book.pledges.insert (owner, pool) (Emission.initPersonalGauge owner gauge) } = book' := by
  simp [step, Option.bind_eq_some_iff]

theorem step_changeVotes : book.step (.changeVotes now pool pledge staker amount) = some book' ↔
    ∃ e gauge personal reactor out, book.emission = some e ∧ e.gauges.lookup pool = some gauge ∧
      book.pledges.lookup pledge = some personal ∧ book.stake.reactors.lookup staker = some reactor ∧
      Emission.changeVotes now e.config gauge personal amount reactor = .ok out ∧
      book.commit e pool pledge staker out = book' := by
  simp [step, Option.bind_eq_some_iff]

end Steps

/-- The votes of the gauge under `pool`, none if there is no gauge. -/
def gaugeVotes (book : VoteBook) (pool : Address) : ℕ :=
  book.emission.elim 0 fun emission => emission.votesOf pool

/-- The sum of the pledged votes whose records name `a`. -/
def pledged (book : VoteBook) (named : PersonalGauge → Address) (a : Address) : ℕ :=
  book.pledges.total fun _ p => if named p = a then p.votes else 0

/-- The votes pledged to a pool. -/
def pledgedTo (book : VoteBook) (pool : Address) : ℕ := book.pledged PersonalGauge.poolGauge pool

/-- The votes pledged by an owner. -/
def pledgedBy (book : VoteBook) (owner : Address) : ℕ := book.pledged PersonalGauge.owner owner

end VoteBook

end EmissionLedger
