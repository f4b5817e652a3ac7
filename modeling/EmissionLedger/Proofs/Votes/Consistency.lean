import EmissionLedger.Proofs.Emission.Conservation
import EmissionLedger.Proofs.Votes.Book

/-!
Votes add up. The config's total is the sum over the gauges, a gauge's votes are the sum of what was
pledged to its pool, and the locked votes of a reactor are the sum of what its owner has pledged, all
of it backed by stake. One change of votes moves all four by the same number, and no other call moves
any of them. So nothing that is taken back can be missing on another level: of the faults of a change
of votes, those that would say so never occur.
-/

namespace EmissionLedger

/-! ### Faults of a change of votes -/

/-- The kinds of fault that would show that votes do not add up. -/
def FaultKind.Inconsistent : FaultKind → Prop
  | shortage .votesToLock | shortage .votesToUnlock | arithmeticUnderflow => True
  | _ => False

/-- The faults that are left when votes add up. -/
def Fault.Sound (e : Fault) : Prop := ¬e.causeKind.Inconsistent

theorem Fault.OfAccrual.sound {e : Fault} (h : e.OfAccrual) : e.Sound := by
  rw [Fault.Sound]
  rcases h with h | h | h <;> rw [h] <;> exact id

theorem Fault.Sound.kind_ne {e : Fault} (h : e.Sound) :
    e.kind ≠ .shortage .votesToLock ∧ e.kind ≠ .shortage .votesToUnlock ∧
      e.kind ≠ .arithmeticUnderflow := by
  have hkind : ¬e.kind.Inconsistent := by
    rcases e.kind_eq with heq | heq <;> rw [heq]
    · exact h
    · exact id
  refine ⟨?_, ?_, ?_⟩ <;>
  · intro heq
    rw [heq] at hkind
    exact hkind trivial

namespace Emission

/-- Votes that are free can be locked, and votes that are locked can be freed. -/
theorem moveLock_faults {reactor : Reactor} {amount : Int}
    (hfree : 0 < amount → amount ≤ reactor.freeVotes) (hlocked : 0 ≤ reactor.lockedVotes + amount) :
    FaultsIn Fault.Sound (moveLock reactor amount) := by
  refine moveLock_faultsIn (fun hpos => ?_) fun _ => ?_
  · have henough := hfree hpos
    exact Reactor.lockVotes_faultsIn id (fun hlt => absurd hlt (by omega)) id
  · exact Reactor.unlockVotes_faultsIn id fun hlt => absurd hlt (by omega)

/-- A change of votes, if what was pledged is there on every level. -/
theorem changeVotes_faults {now amount : Int} {config : GaugeConfig} {gauge : Gauge}
    {personal : PersonalGauge} {reactor : Reactor}
    (hlocked : reactor.owner = personal.owner → personal.votes ≤ reactor.lockedVotes)
    (hpool : personal.poolGauge = gauge.poolId → personal.votes ≤ gauge.totalVotes)
    (hglobal : gauge.totalVotes ≤ config.totalVotes) :
    FaultsIn Fault.Sound (changeVotes now config gauge personal amount reactor) := by
  have hchange : ∀ what (n : ℕ) (delta : ℤ), 0 ≤ n + delta →
      FaultsIn Fault.Sound (Counter.change what n delta) := fun _ _ _ hleft =>
    Counter.change_faultsIn id fun hneg => absurd hneg (not_lt.mpr hleft)
  rw [changeVotes]
  refine .bind (requireI64_faultsIn id) fun _ hamount => ?_
  obtain ⟨-, -, rfl⟩ := requireI64_ok hamount
  refine .bind (checkLinks_faultsIn fun _ => id) fun _ hlinks => ?_
  obtain ⟨hlink, howner⟩ := checkLinks_ok hlinks
  refine .bind (checkPledge_faultsIn id id) fun _ hpledge => ?_
  obtain ⟨hfree, hvotes⟩ := checkPledge_ok hpledge
  have hpledged := hlocked howner
  have hgauge := hpool hlink
  refine .bind (moveLock_faults hfree (by omega)) fun _ _ => ?_
  refine .bind ((syncPoolIndex_faults _ _ _).mono fun e => Fault.OfAccrual.sound) fun synced hsynced => ?_
  obtain ⟨⟨_, -, hadv⟩, hset⟩ := syncPoolIndex_ok hsynced
  have hconfig := hadv.votes
  have hsettled := hset.votes
  refine .bind (hchange _ _ _ (by omega)) fun _ _ => .bind (hchange _ _ _ (by omega)) fun _ _ => ?_
  exact .bind (hchange _ _ _ hvotes) fun _ _ => .pure

end Emission

/-! ### The invariant -/

/-- Every gauge stands under its pool. -/
def GaugeBook.Keyed (book : GaugeBook Address) : Prop :=
  ∀ pool g, book.gauges.lookup pool = some g → g.poolId = pool

theorem GaugeBook.Keyed.step {book book' : GaugeBook Address} {call : GaugeCall Address}
    (hk : book.Keyed) (h : book.step call = some book')
    (hcall : ∀ now poolId, call = .initPool now call.account poolId → poolId = call.account) :
    book'.Keyed := by
  obtain ⟨config, elapsed, -, -, hcases⟩ := step_cases h
  rcases hcases with ⟨-, -, poolId, hinit, rfl⟩ | ⟨g, g', total, votes, hg, hset, -, -, rfl⟩
  · exact Table.forall_insert hk (hcall _ _ hinit)
  · exact Table.forall_insert hk (hset.poolId.trans (hk _ g hg))

/-- Every reactor stands under its owner, and its locked votes are backed. -/
def StakeBook.Sound (book : StakeBook) : Prop :=
  ∀ owner r, book.reactors.lookup owner = some r → r.owner = owner ∧ r.Backed

theorem StakeBook.Sound.step {book book' : StakeBook} {call : StakeCall} (hs : book.Sound)
    (h : book.step call = some book') : book'.Sound := by
  obtain ⟨r', hreactors, hcases⟩ := step_cases h
  rw [StakeBook.Sound, hreactors]
  refine Table.forall_insert hs ?_
  rcases hcases with ⟨-, rfl⟩ | ⟨r, hr, hkeeps⟩
  · exact ⟨rfl, Nat.zero_le _⟩
  · obtain ⟨howner, hbacked⟩ := hs _ r hr
    exact ⟨hkeeps.owner.trans howner, hkeeps.backed hbacked⟩

namespace VoteBook

/-- The votes of a book add up on every level and are backed. -/
structure Consistent (book : VoteBook) : Prop where
  emission : ∀ emission, book.emission = some emission → emission.Balanced ∧ emission.Keyed
  stake : book.stake.Sound
  gauges : ∀ pool, book.gaugeVotes pool = book.pledgedTo pool
  locked : ∀ owner, book.stake.lockedOf owner = book.pledgedBy owner

variable {book book' : VoteBook} {call : VoteCall}

theorem consistent_start (config : ReactorConfig) : (start config).Consistent := by
  refine ⟨?_, ?_, fun pool => rfl, fun owner => rfl⟩
  · intro emission he
    cases he
  · intro owner r hr
    cases hr

/-- A pledge without votes adds nothing. -/
theorem pledged_insert_new {key : Address × Address} {p : PersonalGauge}
    (hnone : book.pledges.lookup key = none) (hvotes : p.votes = 0)
    (h : book'.pledges = book.pledges.insert key p) (named : PersonalGauge → Address) (a : Address) :
    book'.pledged named a = book.pledged named a := by
  rw [pledged, h, Table.total_insert_new hnone, hvotes, ite_self, Nat.zero_add, pledged]

/-- A change of one pledge changes the sum that it is part of. -/
theorem pledged_insert {key : Address × Address} {p p' : PersonalGauge} {amount : Int}
    {named : PersonalGauge → Address} (hp : book.pledges.lookup key = some p)
    (hnamed : named p' = named p) (hvotes : (p'.votes : ℤ) = p.votes + amount)
    (h : book'.pledges = book.pledges.insert key p') (a : Address) :
    (book'.pledged named a : ℤ) = book.pledged named a + if named p = a then amount else 0 := by
  rw [pledged, h, pledged]
  refine Table.total_insert_change hp ?_
  rw [hnamed]
  split
  · exact hvotes
  · rfl

/-- The emission moves on without a change of votes. -/
theorem Consistent.emission_step (hc : book.Consistent) {e e' : GaugeBook Address}
    {call : GaugeCall Address} (he : book.emission = some e) (h : e.step call = some e')
    (hchange : call.change = 0)
    (hcall : ∀ now poolId, call = .initPool now call.account poolId → poolId = call.account) :
    ({ book with emission := some e' } : VoteBook).Consistent := by
  obtain ⟨hbalanced, hkeyed⟩ := hc.emission e he
  refine ⟨?_, hc.stake, fun pool => ?_, hc.locked⟩
  · rintro _ ⟨⟩
    exact ⟨hbalanced.step h, hkeyed.step h hcall⟩
  · have hvotes := GaugeBook.votesOf_step h pool
    have hold := hc.gauges pool
    rw [hchange, ite_self, add_zero] at hvotes
    rw [gaugeVotes, he] at hold
    exact (Int.ofNat_inj.mp hvotes).trans hold

/-- A change of votes moves the sums on all levels by the same number. -/
theorem Consistent.changeVotes_step (hc : book.Consistent) {now amount : Int} {pool staker : Address}
    {pledge : Address × Address} {e : GaugeBook Address} {gauge : Gauge} {personal : PersonalGauge}
    {reactor : Reactor} {out : Emission.VoteChange} (he : book.emission = some e)
    (hg : e.gauges.lookup pool = some gauge) (hp : book.pledges.lookup pledge = some personal)
    (hr : book.stake.reactors.lookup staker = some reactor)
    (h : Emission.changeVotes now e.config gauge personal amount reactor = .ok out) :
    (book.commit e pool pledge staker out).Consistent := by
  have hvoted := Emission.changeVotes_ok h
  have hlock := Emission.moveLock_ok hvoted.lock
  obtain ⟨hbalanced, hkeyed⟩ := hc.emission e he
  obtain ⟨howner, hbacked⟩ := hc.stake staker reactor hr
  have hstep : e.step (.changeVotes now pool personal amount reactor) =
      some (e.commit pool ⟨out.config, out.gauge⟩) := GaugeBook.step_changeVotes hg h
  have hsame : out.reactor.owner = reactor.owner := by rw [hlock.reactor]
  refine ⟨?_, ?_, fun a => ?_, fun a => ?_⟩
  · rintro _ ⟨⟩
    exact ⟨hbalanced.step hstep, hkeyed.step hstep (fun _ _ hinit => by cases hinit)⟩
  · exact Table.forall_insert hc.stake ⟨hsame.trans howner, hlock.backed hbacked⟩
  · -- the pool that the pledge names is the one that the gauge stands under
    have hpool : personal.poolGauge = pool := hvoted.pool.trans (hkeyed pool gauge hg)
    have hgauge : ((e.commit pool ⟨out.config, out.gauge⟩).votesOf a : ℤ) =
        e.votesOf a + if pool = a then amount else 0 := GaugeBook.votesOf_step hstep a
    have hpledged : ((book.commit e pool pledge staker out).pledgedTo a : ℤ) =
        book.pledgedTo a + if personal.poolGauge = a then amount else 0 :=
      pledged_insert hp (by rw [hvoted.personalGauge]) hvoted.votes rfl a
    have hold : e.votesOf a = book.pledgedTo a := by
      have hgauges := hc.gauges a
      rwa [gaugeVotes, he] at hgauges
    show (e.commit pool ⟨out.config, out.gauge⟩).votesOf a =
      (book.commit e pool pledge staker out).pledgedTo a
    rw [hpool] at hpledged
    omega
  · -- and the owner that it names is the one that the reactor stands under
    have hstaker : personal.owner = staker := hvoted.voter.symm.trans howner
    have hpledged : ((book.commit e pool pledge staker out).pledgedBy a : ℤ) =
        book.pledgedBy a + if personal.owner = a then amount else 0 :=
      pledged_insert hp (by rw [hvoted.personalGauge]) hvoted.votes rfl a
    have hlocked : ((book.commit e pool pledge staker out).stake.lockedOf a : ℤ) =
        book.stake.lockedOf a + if staker = a then amount else 0 :=
      StakeBook.lockedOf_insert hr hlock a
    have hold := hc.locked a
    rw [hstaker] at hpledged
    omega

theorem Consistent.step (hc : book.Consistent) (h : book.step call = some book') :
    book'.Consistent := by
  cases call with
  | stake call =>
      obtain ⟨stake, hstep, rfl⟩ := step_stake.mp h
      refine ⟨hc.emission, hc.stake.step hstep, hc.gauges, fun owner => ?_⟩
      exact (StakeBook.lockedOf_step hstep owner).trans (hc.locked owner)
  | initGaugeConfig settings now =>
      obtain ⟨hnone, config, hinit, rfl⟩ := step_initGaugeConfig.mp h
      refine ⟨?_, hc.stake, fun pool => ?_, hc.locked⟩
      · rintro _ ⟨⟩
        refine ⟨GaugeBook.balanced_start (Emission.initGaugeConfig_ok hinit).2.1, ?_⟩
        intro pool g hg
        cases hg
      · have hold := hc.gauges pool
        rwa [gaugeVotes, hnone] at hold
  | initPool now pool =>
      obtain ⟨e, e', he, hstep, rfl⟩ := step_initPool.mp h
      refine hc.emission_step he hstep rfl ?_
      rintro _ _ ⟨⟩
      rfl
  | sync now pool =>
      obtain ⟨e, e', he, hstep, rfl⟩ := step_sync.mp h
      exact hc.emission_step he hstep rfl (fun _ _ hinit => by cases hinit)
  | initPersonalGauge owner pool =>
      obtain ⟨e, gauge, he, hg, hnew, rfl⟩ := step_initPersonalGauge.mp h
      have hnone : book.pledges.lookup (owner, pool) = none := Finmap.lookup_eq_none.mpr hnew
      refine ⟨hc.emission, hc.stake, fun a => ?_, fun a => ?_⟩
      · exact (hc.gauges a).trans (pledged_insert_new hnone rfl rfl PersonalGauge.poolGauge a).symm
      · exact (hc.locked a).trans (pledged_insert_new hnone rfl rfl PersonalGauge.owner a).symm
  | changeVotes now pool pledge staker amount =>
      obtain ⟨e, gauge, personal, reactor, out, he, hg, hp, hr, hout, rfl⟩ := step_changeVotes.mp h
      exact hc.changeVotes_step he hg hp hr hout

/-- A pledge is part of the sum that it is counted in. -/
theorem votes_le_pledged {key : Address × Address} {p : PersonalGauge}
    (h : book.pledges.lookup key = some p) (named : PersonalGauge → Address) :
    p.votes ≤ book.pledged named (named p) := by
  have hle := Table.le_total (f := fun _ q => if named q = named p then q.votes else 0) h
    fun _ _ _ => Nat.zero_le _
  rwa [if_pos rfl] at hle

/-- What was pledged is there on every level. -/
theorem Consistent.votes_le_locked (hc : book.Consistent) {key : Address × Address}
    {p : PersonalGauge} {r : Reactor} (hp : book.pledges.lookup key = some p)
    (hr : book.stake.reactors.lookup p.owner = some r) : p.votes ≤ r.lockedVotes := by
  have hlocked := hc.locked p.owner
  rw [StakeBook.lockedOf, hr] at hlocked
  exact (votes_le_pledged hp PersonalGauge.owner).trans hlocked.ge

theorem Consistent.votes_le_gauge (hc : book.Consistent) {e : GaugeBook Address}
    {key : Address × Address} {p : PersonalGauge} {g : Gauge} (he : book.emission = some e)
    (hp : book.pledges.lookup key = some p) (hg : e.gauges.lookup p.poolGauge = some g) :
    p.votes ≤ g.totalVotes := by
  have hvotes := hc.gauges p.poolGauge
  rw [gaugeVotes, he, Option.elim_some, GaugeBook.votesOf, hg] at hvotes
  exact (votes_le_pledged hp PersonalGauge.poolGauge).trans hvotes.ge

theorem Consistent.gauge_le_total (hc : book.Consistent) {e : GaugeBook Address} {pool : Address}
    {g : Gauge} (he : book.emission = some e) (hg : e.gauges.lookup pool = some g) :
    g.totalVotes ≤ e.config.totalVotes := by
  rw [(hc.emission e he).1.votes]
  exact Table.le_total (f := fun _ g => g.totalVotes) hg fun _ _ _ => Nat.zero_le _

/-- In a consistent book a change of votes never misses votes that it takes back. -/
theorem Consistent.changeVotes_faults (hc : book.Consistent) {now amount : Int}
    {pool staker : Address} {pledge : Address × Address} {e : GaugeBook Address} {gauge : Gauge}
    {personal : PersonalGauge} {reactor : Reactor} (he : book.emission = some e)
    (hg : e.gauges.lookup pool = some gauge) (hp : book.pledges.lookup pledge = some personal)
    (hr : book.stake.reactors.lookup staker = some reactor) :
    FaultsIn Fault.Sound (Emission.changeVotes now e.config gauge personal amount reactor) := by
  have howner : reactor.owner = staker := (hc.stake staker reactor hr).1
  have hpool : gauge.poolId = pool := (hc.emission e he).2 pool gauge hg
  refine Emission.changeVotes_faults ?_ ?_ (hc.gauge_le_total he hg)
  · intro hvoter
    rw [← howner, hvoter] at hr
    exact hc.votes_le_locked hp hr
  · intro hlink
    rw [← hpool, ← hlink] at hg
    exact hc.votes_le_gauge he hp hg

theorem consistent_run (config : ReactorConfig) (calls : List VoteCall) :
    (run step (start config) calls).Consistent :=
  run_invariant (fun _ _ _ hc hs => hc.step hs) calls (consistent_start config)

/-- **Consistency.** After every run the config's total is the sum of the gauges' votes, a gauge's
votes are the sum of what is pledged to its pool, and a reactor's locked votes are the sum of what its
owner has pledged and are backed by its stake. A change of votes of stored records, at any time and by
any amount, is never refused for want of votes to lock or to free, and never takes a counter or a
number below zero. -/
theorem votes_consistent (config : ReactorConfig) (calls : List VoteCall) :
    let book := run step (start config) calls
    (∀ emission, book.emission = some emission →
        emission.config.totalVotes = emission.gauges.total (fun _ g => g.totalVotes) ∧
          ∀ pool g, emission.gauges.lookup pool = some g →
            g.poolId = pool ∧ g.totalVotes = book.pledgedTo pool) ∧
      (∀ owner r, book.stake.reactors.lookup owner = some r →
        r.owner = owner ∧ r.lockedVotes = book.pledgedBy owner ∧ r.lockedVotes ≤ r.ray + r.isoRay) ∧
      ∀ emission pool gauge pledge personal staker reactor now amount fault,
        book.emission = some emission → emission.gauges.lookup pool = some gauge →
        book.pledges.lookup pledge = some personal →
        book.stake.reactors.lookup staker = some reactor →
        Emission.changeVotes now emission.config gauge personal amount reactor = .error fault →
        fault.kind ≠ .shortage .votesToLock ∧ fault.kind ≠ .shortage .votesToUnlock ∧
          fault.kind ≠ .arithmeticUnderflow := by
  intro book
  have hc : book.Consistent := consistent_run config calls
  refine ⟨?_, ?_, ?_⟩
  · intro emission he
    obtain ⟨hbalanced, hkeyed⟩ := hc.emission emission he
    refine ⟨hbalanced.votes, fun pool g hg => ⟨hkeyed pool g hg, ?_⟩⟩
    have hvotes := hc.gauges pool
    rwa [gaugeVotes, he, Option.elim_some, GaugeBook.votesOf, hg] at hvotes
  · intro owner r hr
    obtain ⟨howner, hbacked⟩ := hc.stake owner r hr
    have hlocked := hc.locked owner
    rw [StakeBook.lockedOf, hr] at hlocked
    exact ⟨howner, hlocked, hbacked⟩
  · intro emission pool gauge pledge personal staker reactor now amount fault he hg hp hr hfault
    exact (hc.changeVotes_faults he hg hp hr fault hfault).kind_ne

/-- Two votes of a stake of two are pledged. -/
theorem votes_consistent_two_pledged :
    let calls : List VoteCall :=
      [.stake (.initReactor .zero), .stake (.deposit 0 .zero 2), .initGaugeConfig ⟨86400⟩ 0,
        .initPool 0 .zero, .initPersonalGauge .zero .zero, .changeVotes 0 .zero (.zero, .zero) .zero 2]
    let reactor : Reactor := ⟨.zero, 2, 0, 2, .zero, ⟨.zero, 0⟩⟩
    let book := run step (start ⟨0, 0, .zero, 0, .zero, 0⟩) calls
    book.stake.reactors.lookup .zero = some reactor ∧
      reactor.lockedVotes = book.pledgedBy .zero := by
  intro calls reactor book
  have hr : book.stake.reactors.lookup .zero = some reactor := by rfl
  exact ⟨hr, ((votes_consistent _ calls).2.1 .zero reactor hr).2.1⟩

end VoteBook

end EmissionLedger
