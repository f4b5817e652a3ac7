import EmissionLedger.Proofs.Rewarder.Fairness
import EmissionLedger.Proofs.Run
import EmissionLedger.Proofs.Timing.Ledger
import EmissionLedger.Proofs.Timing.Order

/-!
What the books show of the whole ledger. A book holds some of the ledger's records: those of the stake,
those that votes are about, or those of one pool. Every call that the ledger answers is a call on the
book, or leaves the book's records as they are, so a run of the ledger shows as a run of the book, and what
a book keeps over its runs the ledger keeps. The operations at one time that may be put in any order are
calls on the ledger too.

Main statements: `Ledger.ShowsStake.run`, `Ledger.ShowsVotes.run`, `Ledger.ShowsPool.run` and
`Board.Within.play`.
-/

namespace EmissionLedger

/-! ### Turns as calls on the books -/

/-- A turn of a position as a call on the escrow. -/
def Escrow.Turn.call {ι : Type} (now : Int) (account : ι) : Escrow.Turn → EscrowCall ι
  | deposit amount => .deposit now account amount
  | withdraw amount => .withdraw now account amount
  | update => .update now account

theorem EscrowBook.step_turn {ι : Type} [DecidableEq ι] {book : EscrowBook ι} {now : Int} {account : ι}
    {p : PersonalPosition} {turn : Escrow.Turn} {out : Escrow.Outcome}
    (hp : book.positions.lookup account = some p) (hout : turn.perform now book.tracker p = .ok out) :
    book.step (turn.call now account) = some (book.commit account out) := by
  refine step_eq_some.mpr ⟨out, ?_, ?_⟩
  · cases turn with
    | deposit amount => exact answer_deposit.mpr ⟨p, hp, hout⟩
    | withdraw amount => exact answer_withdraw.mpr ⟨p, hp, hout⟩
    | update => exact answer_update.mpr ⟨p, hp, hout⟩
  · cases turn <;> rfl

/-- A turn of a reactor as a call on the stake. -/
def Staking.Turn.call (now : Int) (owner : Address) : Staking.Turn → StakeCall
  | deposit amount => .deposit now owner amount
  | withdraw amount => .withdraw now owner amount
  | sync => .sync now owner
  | syncAndCollect => .syncAndCollect now owner

theorem StakeBook.step_turn {book : StakeBook} {now : Int} {owner : Address} {r : Reactor}
    {turn : Staking.Turn} {out : Staking.Outcome} (hr : book.reactors.lookup owner = some r)
    (hout : turn.perform now book.config r = .ok out) :
    book.step (turn.call now owner) = some ⟨out.config, book.reactors.insert owner out.reactor⟩ := by
  refine step_eq_some.mpr ⟨out.config, out.reactor, ?_, ?_⟩
  · cases turn with
    | deposit amount => exact answer_deposit.mpr ⟨r, out, hr, hout, rfl, rfl⟩
    | withdraw amount => exact answer_withdraw.mpr ⟨r, out, hr, hout, rfl, rfl⟩
    | sync => exact answer_sync.mpr ⟨r, out, hr, hout, rfl, rfl⟩
    | syncAndCollect => exact answer_syncAndCollect.mpr ⟨r, out, hr, hout, rfl, rfl⟩
  · cases turn <;> rfl

theorem StakeBook.step_initReactor {book : StakeBook} {owner : Address} (hnew : owner ∉ book.reactors) :
    book.step (.initReactor owner) =
      some ⟨book.config, book.reactors.insert owner (Staking.initReactor owner)⟩ :=
  step_eq_some.mpr ⟨_, _, answer_initReactor.mpr ⟨hnew, rfl, rfl⟩, rfl⟩

theorem StakeBook.step_collect {book : StakeBook} {owner : Address} {r : Reactor}
    (hr : book.reactors.lookup owner = some r) : book.step (.collect owner) =
      some ⟨book.config, book.reactors.insert owner (Staking.collectRayRewards r).1⟩ :=
  step_eq_some.mpr ⟨_, _, answer_collect.mpr ⟨r, hr, rfl, rfl⟩, rfl⟩

/-- Whether a call is on the locks of a reactor alone; a change of votes is not. -/
def LedgerCall.locks {κ : Type} : LedgerCall κ → Bool
  | lock .. | unlock .. => true
  | _ => false

namespace Ledger

variable {κ : Type} {l : Ledger κ}

/-! ### What the books show -/

/-- The reactor config and the reactors are those of a book. -/
structure ShowsStake (l : Ledger κ) (book : StakeBook) : Prop where
  config : l.rewards = some book.config
  reactors : l.reactors = book.reactors

/-- The records that votes are about are those of a book. -/
structure ShowsVotes (l : Ledger κ) (book : VoteBook) : Prop where
  rewards : l.rewards = some book.stake.config
  reactors : l.reactors = book.stake.reactors
  emission : l.emission = book.emission.map GaugeBook.config
  gauges : l.gauges = book.emission.elim ∅ GaugeBook.gauges
  pledges : l.pledges = book.pledges

/-- The records of the emission and those of one pool are those of a book. -/
structure ShowsPool [DecidableEq κ] (pool : Address) (l : Ledger κ) (book : PoolBook Address κ) : Prop where
  config : l.emission = some book.emission.config
  gauges : l.gauges = book.emission.gauges
  tracker : l.trackers.lookup pool = some book.escrow.tracker
  positions : ∀ account, l.positions.lookup (pool, account) = book.escrow.positions.lookup account
  rewarders : ∀ account,
    l.rewarders.lookup (pool, account) = (book.rewarders.lookup account).map PayingRewarder.rewarder

namespace ShowsStake

variable {book : StakeBook}

theorem putReactor (h : l.ShowsStake book) (owner : Address) (r : Reactor) :
    (l.putReactor owner r).ShowsStake ⟨book.config, book.reactors.insert owner r⟩ :=
  ⟨h.config, by rw [Ledger.putReactor, h.reactors]⟩

theorem putStake (h : l.ShowsStake book) (owner : Address) (c : ReactorConfig) (r : Reactor) :
    (l.putStake owner c r).ShowsStake ⟨c, book.reactors.insert owner r⟩ :=
  ⟨rfl, by rw [Ledger.putStake, h.reactors]⟩

/-- A changed lock is a lock, an unlock, or no change at all. -/
theorem moveLock (h : l.ShowsStake book) {staker : Address} {r r' : Reactor} {amount : Int}
    (hr : book.reactors.lookup staker = some r) (hlock : Emission.moveLock r amount = .ok r') :
    (l.putReactor staker r').ShowsStake book ∨ ∃ shown book', book.reactorStep shown = some book' ∧
      (l.putReactor staker r').ShowsStake book' := by
  rw [Emission.moveLock] at hlock
  split at hlock
  · exact .inr ⟨.lock staker amount, _, StakeBook.reactorStep_lock.mpr ⟨r, r', hr, hlock, rfl⟩,
      h.putReactor staker r'⟩
  split at hlock
  · exact .inr ⟨.unlock staker (-amount), _, StakeBook.reactorStep_unlock.mpr ⟨r, r', hr, hlock, rfl⟩,
      h.putReactor staker r'⟩
  · obtain rfl : r = r' := Except.ok.inj hlock
    have hsame := h.putReactor staker r
    rw [Table.insert_of_lookup hr] at hsame
    exact .inl hsame

end ShowsStake

namespace ShowsVotes

variable {book : VoteBook} {c : GaugeConfig} {g : Gauge} {pool : Address}

/-- The gauges stand in a book of the emission. -/
theorem opened (h : l.ShowsVotes book) (hc : l.emission = some c) :
    ∃ e, book.emission = some e ∧ e.config = c ∧ l.gauges = e.gauges := by
  obtain ⟨e, he, hconfig⟩ := Option.map_eq_some_iff.mp (h.emission.symm.trans hc)
  refine ⟨e, he, hconfig, ?_⟩
  rw [h.gauges, he]
  rfl

/-- Without an emission there is no gauge. -/
theorem opened_of_gauge (h : l.ShowsVotes book) (hg : l.gauges.lookup pool = some g) :
    ∃ e, book.emission = some e ∧ e.gauges.lookup pool = some g := by
  rw [h.gauges] at hg
  cases he : book.emission with
  | none =>
      rw [he] at hg
      cases hg
  | some e =>
      rw [he] at hg
      exact ⟨e, rfl, hg⟩

theorem putStake (h : l.ShowsVotes book) (owner : Address) (c : ReactorConfig) (r : Reactor) :
    (l.putStake owner c r).ShowsVotes
      { book with stake := ⟨c, book.stake.reactors.insert owner r⟩ } :=
  ⟨rfl, by rw [Ledger.putStake, h.reactors], h.emission, h.gauges, h.pledges⟩

theorem putReactor (h : l.ShowsVotes book) (owner : Address) (r : Reactor) :
    (l.putReactor owner r).ShowsVotes
      { book with stake := ⟨book.stake.config, book.stake.reactors.insert owner r⟩ } :=
  ⟨h.rewards, by rw [Ledger.putReactor, h.reactors], h.emission, h.gauges, h.pledges⟩

theorem putPledge (h : l.ShowsVotes book) (pledge : Address × Address) (p : PersonalGauge) :
    (l.putPledge pledge p).ShowsVotes { book with pledges := book.pledges.insert pledge p } :=
  ⟨h.rewards, h.reactors, h.emission, h.gauges, by rw [Ledger.putPledge, h.pledges]⟩

theorem putGauge (h : l.ShowsVotes book) {e : GaugeBook Address} (he : l.gauges = e.gauges)
    (pool : Address) (out : Emission.Synced) : (l.putGauge pool out.config out.gauge).ShowsVotes
      { book with emission := some (e.commit pool out) } :=
  ⟨h.rewards, h.reactors, rfl, by rw [Ledger.putGauge, he]; rfl, h.pledges⟩

/-- A synchronized gauge is one of the votes too, whatever it is synchronized for. -/
theorem sync (h : l.ShowsVotes book) {now : Int} {out : Emission.Synced} (hc : l.emission = some c)
    (hg : l.gauges.lookup pool = some g) (hout : Emission.syncPoolIndex now c g = .ok out) :
    ∃ shown book', book.step shown = some book' ∧
      (l.putGauge pool out.config out.gauge).ShowsVotes book' := by
  obtain ⟨e, he, rfl, hgauges⟩ := h.opened hc
  rw [hgauges] at hg
  exact ⟨.sync now pool, _, VoteBook.step_sync.mpr ⟨e, _, he, GaugeBook.step_sync hg hout, rfl⟩,
    h.putGauge hgauges pool out⟩

end ShowsVotes

variable [DecidableEq κ] {l' : Ledger κ} {call : LedgerCall κ}

namespace ShowsPool

variable {book : PoolBook Address κ} {pool other : Address} {account : κ} {t : TimeTracker}
  {p : PersonalPosition}

theorem putGauge (h : l.ShowsPool pool book) (other : Address) (out : Emission.Synced) :
    (l.putGauge other out.config out.gauge).ShowsPool pool
      { book with emission := book.emission.commit other out } :=
  ⟨rfl, by rw [Ledger.putGauge, h.gauges]; rfl, h.tracker, h.positions, h.rewarders⟩

theorem putPosition (h : l.ShowsPool pool book) (account : κ) (out : Escrow.Outcome) :
    (l.putPosition pool account out.timeTracker out.position).ShowsPool pool
      { book with escrow := book.escrow.commit account out } := by
  refine ⟨h.config, h.gauges, Finmap.lookup_insert _, fun x => ?_, h.rewarders⟩
  by_cases hx : x = account
  · subst hx
    refine (Finmap.lookup_insert _).trans ?_
    rw [EscrowBook.commit, Finmap.lookup_insert]
  · have hkey : (pool, x) ≠ (pool, account) := fun heq => hx (Prod.mk.inj heq).2
    refine ((Finmap.lookup_insert_of_ne _ hkey).trans (h.positions x)).trans ?_
    rw [EscrowBook.commit, Finmap.lookup_insert_of_ne _ hx]

theorem putPosition_of_ne (h : l.ShowsPool pool book) (hne : other ≠ pool) (account : κ)
    (t : TimeTracker) (p : PersonalPosition) : (l.putPosition other account t p).ShowsPool pool book := by
  refine ⟨h.config, h.gauges, ?_, fun x => ?_, h.rewarders⟩
  · exact (Finmap.lookup_insert_of_ne _ (Ne.symm hne)).trans h.tracker
  · have hkey : (pool, x) ≠ (other, account) := fun heq => hne (Prod.mk.inj heq).1.symm
    exact (Finmap.lookup_insert_of_ne _ hkey).trans (h.positions x)

theorem putRewarder (h : l.ShowsPool pool book) (account : κ) (r : PayingRewarder) :
    (l.putRewarder pool account r.rewarder).ShowsPool pool (book.commit account r) := by
  refine ⟨h.config, h.gauges, h.tracker, h.positions, fun x => ?_⟩
  by_cases hx : x = account
  · subst hx
    refine (Finmap.lookup_insert _).trans ?_
    rw [PoolBook.commit, Finmap.lookup_insert]
    rfl
  · have hkey : (pool, x) ≠ (pool, account) := fun heq => hx (Prod.mk.inj heq).2
    refine ((Finmap.lookup_insert_of_ne _ hkey).trans (h.rewarders x)).trans ?_
    rw [PoolBook.commit, Finmap.lookup_insert_of_ne _ hx]

theorem putRewarder_of_ne (h : l.ShowsPool pool book) (hne : other ≠ pool) (account : κ)
    (r : PersonalRewarderCp) : (l.putRewarder other account r).ShowsPool pool book := by
  refine ⟨h.config, h.gauges, h.tracker, h.positions, fun x => ?_⟩
  have hkey : (pool, x) ≠ (other, account) := fun heq => hne (Prod.mk.inj heq).1.symm
  exact (Finmap.lookup_insert_of_ne _ hkey).trans (h.rewarders x)

/-- A synchronized gauge is one of the emission, whatever it is synchronized for. -/
theorem sync (h : l.ShowsPool pool book) {now : Int} {c : GaugeConfig} {g : Gauge} {out : Emission.Synced}
    (hc : l.emission = some c) (hg : l.gauges.lookup other = some g)
    (hout : Emission.syncPoolIndex now c g = .ok out) : ∃ shown book', book.step pool shown = some book' ∧
      (l.putGauge other out.config out.gauge).ShowsPool pool book' := by
  obtain rfl := Option.some.inj (h.config.symm.trans hc)
  rw [h.gauges] at hg
  have hsync := GaugeBook.step_sync hg hout
  exact ⟨_, _, PoolBook.step_emission.mpr ⟨_, hsync, rfl⟩, h.putGauge other out⟩

/-- A look at a position of the pool. -/
theorem putLook (h : l.ShowsPool pool book) (account : κ) (out : Rewarder.CpOutcome) (paid : ℕ) :
    (l.putLook pool account out).ShowsPool pool
      ((book.looked pool account out).commit account ⟨out.rewarder, paid⟩) :=
  ((h.putPosition account ⟨out.timeTracker, out.position, 0⟩).putGauge pool
    ⟨out.config, out.gauge⟩).putRewarder account ⟨out.rewarder, paid⟩

/-- A look at a position of another pool only shows as its gauge synchronized. -/
theorem putLook_of_ne (h : l.ShowsPool pool book) (hne : other ≠ pool) {now : Int} {c : GaugeConfig}
    {g : Gauge} {out : Rewarder.CpOutcome} (hc : l.emission = some c) (hg : l.gauges.lookup other = some g)
    (hout : Emission.syncPoolIndex now c g = .ok ⟨out.config, out.gauge⟩) (account : κ) :
    ∃ shown book', book.step pool shown = some book' ∧
      (l.putLook other account out).ShowsPool pool book' := by
  have hput := h.putPosition_of_ne hne account out.timeTracker out.position
  obtain ⟨shown, book', hshown, h'⟩ := hput.sync hc hg hout
  exact ⟨shown, book', hshown, h'.putRewarder_of_ne hne account out.rewarder⟩

end ShowsPool

/-! ### Answered calls -/

/-- What an answered call finds in the ledger, and what is committed. -/
inductive Answered (l : Ledger κ) : LedgerCall κ → Ledger κ → Prop where
  | initRewards {settings : Staking.Settings} {now : Int} {c : ReactorConfig} (hnone : l.rewards = none)
      (hc : Staking.initReactorConfig settings now = .ok c) :
      Answered l (.initRewards settings now) { l with rewards := some c }
  | initReactor {owner : Address} (hnew : owner ∉ l.reactors) :
      Answered l (.initReactor owner) (l.putReactor owner (Staking.initReactor owner))
  | stake {now : Int} {owner : Address} {turn : Staking.Turn} {c : ReactorConfig} {r : Reactor}
      {out : Staking.Outcome} (hc : l.rewards = some c) (hr : l.reactors.lookup owner = some r)
      (hout : turn.perform now c r = .ok out) :
      Answered l (.stake now owner turn) (l.putStake owner out.config out.reactor)
  | collect {owner : Address} {r : Reactor} (hr : l.reactors.lookup owner = some r) :
      Answered l (.collect owner) (l.putReactor owner (Staking.collectRayRewards r).1)
  | lock {owner : Address} {amount : Int} {r r' : Reactor} (hr : l.reactors.lookup owner = some r)
      (hlock : r.lockVotes amount = .ok r') : Answered l (.lock owner amount) (l.putReactor owner r')
  | unlock {owner : Address} {amount : Int} {r r' : Reactor} (hr : l.reactors.lookup owner = some r)
      (hlock : r.unlockVotes amount = .ok r') : Answered l (.unlock owner amount) (l.putReactor owner r')
  | initEmission {settings : Emission.Settings} {now : Int} {c : GaugeConfig} (hnone : l.emission = none)
      (hc : Emission.initGaugeConfig settings now = .ok c) :
      Answered l (.initEmission settings now) { l with emission := some c }
  | initGauge {now : Int} {pool : Address} {c : GaugeConfig} {out : Emission.Synced}
      (hc : l.emission = some c) (hnew : pool ∉ l.gauges)
      (hout : Emission.initPoolGauge now c pool = .ok out) :
      Answered l (.initGauge now pool) (l.putGauge pool out.config out.gauge)
  | syncGauge {now : Int} {pool : Address} {c : GaugeConfig} {g : Gauge} {out : Emission.Synced}
      (hc : l.emission = some c) (hg : l.gauges.lookup pool = some g)
      (hout : Emission.syncPoolIndex now c g = .ok out) :
      Answered l (.syncGauge now pool) (l.putGauge pool out.config out.gauge)
  | initPledge {owner pool : Address} {g : Gauge} (hg : l.gauges.lookup pool = some g)
      (hnew : (owner, pool) ∉ l.pledges) :
      Answered l (.initPledge owner pool)
        (l.putPledge (owner, pool) (Emission.initPersonalGauge owner g))
  | changeVotes {now amount : Int} {pool staker : Address} {pledge : Address × Address} {c : GaugeConfig}
      {g : Gauge} {p : PersonalGauge} {r : Reactor} {out : Emission.VoteChange}
      (hc : l.emission = some c) (hg : l.gauges.lookup pool = some g)
      (hp : l.pledges.lookup pledge = some p) (hr : l.reactors.lookup staker = some r)
      (hout : Emission.changeVotes now c g p amount r = .ok out) :
      Answered l (.changeVotes now pool pledge staker amount)
        (((l.putGauge pool out.config out.gauge).putPledge pledge out.personalGauge).putReactor staker
          out.reactor)
  | initTracker {now : Int} {pool escrowAccount : Address} {t : TimeTracker} (hnew : pool ∉ l.trackers)
      (ht : Escrow.initTimeTracker now pool escrowAccount = .ok t) :
      Answered l (.initTracker now pool escrowAccount) { l with trackers := l.trackers.insert pool t }
  | initPosition {now : Int} {pool owner : Address} {account : κ} {t : TimeTracker} {out : Escrow.Outcome}
      (ht : l.trackers.lookup pool = some t) (hnew : (pool, account) ∉ l.positions)
      (hout : Escrow.initPersonalPosition now t owner = .ok out) :
      Answered l (.initPosition now pool account owner)
        (l.putPosition pool account out.timeTracker out.position)
  | escrow {now : Int} {pool : Address} {account : κ} {turn : Escrow.Turn} {t : TimeTracker}
      {p : PersonalPosition} {out : Escrow.Outcome} (ht : l.trackers.lookup pool = some t)
      (hp : l.positions.lookup (pool, account) = some p) (hout : turn.perform now t p = .ok out) :
      Answered l (.escrow now pool account turn)
        (l.putPosition pool account out.timeTracker out.position)
  | initCp {now : Int} {pool : Address} {account : κ} {c : GaugeConfig} {g : Gauge} {t : TimeTracker}
      {p : PersonalPosition} {out : Rewarder.CpOutcome} (hc : l.emission = some c)
      (hg : l.gauges.lookup pool = some g) (ht : l.trackers.lookup pool = some t)
      (hp : l.positions.lookup (pool, account) = some p) (hnew : (pool, account) ∉ l.rewarders)
      (hout : Rewarder.initCp now c g t p = .ok out) :
      Answered l (.initCp now pool account) (l.putLook pool account out)
  | accrueCp {now : Int} {pool : Address} {account : κ} {c : GaugeConfig} {g : Gauge} {t : TimeTracker}
      {p : PersonalPosition} {r : PersonalRewarderCp} {out : Rewarder.CpOutcome}
      (hc : l.emission = some c) (hg : l.gauges.lookup pool = some g)
      (ht : l.trackers.lookup pool = some t) (hp : l.positions.lookup (pool, account) = some p)
      (hr : l.rewarders.lookup (pool, account) = some r)
      (hout : Rewarder.accrueCp now c g t p r = .ok out) :
      Answered l (.accrueCp now pool account) (l.putLook pool account out)
  | collectCp {pool : Address} {account : κ} {r : PersonalRewarderCp}
      (hr : l.rewarders.lookup (pool, account) = some r) :
      Answered l (.collectCp pool account) (l.putRewarder pool account (Rewarder.collectCp r).1)

theorem answered_of_step (h : l.step call = some l') : l.Answered call l' := by
  have hattempt := step_eq_some.mp h
  cases call with
  | initRewards settings now =>
      obtain ⟨hnone, hresult⟩ := attempt_initRewards.mp hattempt
      obtain ⟨c, hc, rfl⟩ := map_eq_ok.mp hresult
      exact .initRewards hnone hc
  | initReactor owner =>
      obtain ⟨-, hnew, ⟨⟩⟩ := attempt_initReactor.mp hattempt
      exact .initReactor hnew
  | stake now owner turn =>
      obtain ⟨c, r, hc, hr, hresult⟩ := attempt_stake.mp hattempt
      obtain ⟨out, hout, rfl⟩ := map_eq_ok.mp hresult
      exact .stake hc hr hout
  | collect owner =>
      obtain ⟨r, hr, ⟨⟩⟩ := attempt_collect.mp hattempt
      exact .collect hr
  | lock owner amount =>
      obtain ⟨r, hr, hresult⟩ := attempt_lock.mp hattempt
      obtain ⟨r', hlock, rfl⟩ := map_eq_ok.mp hresult
      exact .lock hr hlock
  | unlock owner amount =>
      obtain ⟨r, hr, hresult⟩ := attempt_unlock.mp hattempt
      obtain ⟨r', hlock, rfl⟩ := map_eq_ok.mp hresult
      exact .unlock hr hlock
  | initEmission settings now =>
      obtain ⟨hnone, hresult⟩ := attempt_initEmission.mp hattempt
      obtain ⟨c, hc, rfl⟩ := map_eq_ok.mp hresult
      exact .initEmission hnone hc
  | initGauge now pool =>
      obtain ⟨c, hc, hnew, hresult⟩ := attempt_initGauge.mp hattempt
      obtain ⟨out, hout, rfl⟩ := map_eq_ok.mp hresult
      exact .initGauge hc hnew hout
  | syncGauge now pool =>
      obtain ⟨c, g, hc, hg, hresult⟩ := attempt_syncGauge.mp hattempt
      obtain ⟨out, hout, rfl⟩ := map_eq_ok.mp hresult
      exact .syncGauge hc hg hout
  | initPledge owner pool =>
      obtain ⟨g, hg, hnew, ⟨⟩⟩ := attempt_initPledge.mp hattempt
      exact .initPledge hg hnew
  | changeVotes now pool pledge staker amount =>
      obtain ⟨c, g, p, r, hc, hg, hp, hr, hresult⟩ := attempt_changeVotes.mp hattempt
      obtain ⟨out, hout, rfl⟩ := map_eq_ok.mp hresult
      exact .changeVotes hc hg hp hr hout
  | initTracker now pool escrowAccount =>
      obtain ⟨hnew, hresult⟩ := attempt_initTracker.mp hattempt
      obtain ⟨t, ht, rfl⟩ := map_eq_ok.mp hresult
      exact .initTracker hnew ht
  | initPosition now pool account owner =>
      obtain ⟨t, ht, hnew, hresult⟩ := attempt_initPosition.mp hattempt
      obtain ⟨out, hout, rfl⟩ := map_eq_ok.mp hresult
      exact .initPosition ht hnew hout
  | escrow now pool account turn =>
      obtain ⟨t, p, ht, hp, hresult⟩ := attempt_escrow.mp hattempt
      obtain ⟨out, hout, rfl⟩ := map_eq_ok.mp hresult
      exact .escrow ht hp hout
  | initCp now pool account =>
      obtain ⟨c, g, t, p, hc, hg, ht, hp, hnew, hresult⟩ := attempt_initCp.mp hattempt
      obtain ⟨out, hout, rfl⟩ := map_eq_ok.mp hresult
      exact .initCp hc hg ht hp hnew hout
  | accrueCp now pool account =>
      obtain ⟨c, g, t, p, r, hc, hg, ht, hp, hr, hresult⟩ := attempt_accrueCp.mp hattempt
      obtain ⟨out, hout, rfl⟩ := map_eq_ok.mp hresult
      exact .accrueCp hc hg ht hp hr hout
  | collectCp pool account =>
      obtain ⟨r, hr, ⟨⟩⟩ := attempt_collectCp.mp hattempt
      exact .collectCp hr

/-! ### Steps and runs -/

/-- An answered call is a call on the stake with its locks, or leaves the stake as it is. -/
theorem ShowsStake.step {book : StakeBook} (h : l.ShowsStake book) (hstep : l.step call = some l') :
    l'.ShowsStake book ∨ ∃ shown book', book.reactorStep shown = some book' ∧ l'.ShowsStake book' := by
  cases answered_of_step hstep with
  | initRewards hnone => cases hnone.symm.trans h.config
  | initReactor hnew =>
      rw [h.reactors] at hnew
      exact .inr ⟨.stake _, _, StakeBook.step_initReactor hnew, h.putReactor _ _⟩
  | stake hc hr hout =>
      obtain rfl := Option.some.inj (h.config.symm.trans hc)
      rw [h.reactors] at hr
      exact .inr ⟨.stake _, _, StakeBook.step_turn hr hout, h.putStake _ _ _⟩
  | collect hr =>
      rw [h.reactors] at hr
      exact .inr ⟨.stake _, _, StakeBook.step_collect hr, h.putReactor _ _⟩
  | lock hr hlock =>
      rw [h.reactors] at hr
      exact .inr ⟨_, _, StakeBook.reactorStep_lock.mpr ⟨_, _, hr, hlock, rfl⟩, h.putReactor _ _⟩
  | unlock hr hlock =>
      rw [h.reactors] at hr
      exact .inr ⟨_, _, StakeBook.reactorStep_unlock.mpr ⟨_, _, hr, hlock, rfl⟩, h.putReactor _ _⟩
  | changeVotes hc hg hp hr hout =>
      rw [h.reactors] at hr
      refine moveLock ?_ hr (Emission.changeVotes_ok hout).lock
      exact ⟨h.config, h.reactors⟩
  | initEmission | initGauge | syncGauge | initPledge | initTracker | initPosition | escrow | initCp
  | accrueCp | collectCp => exact .inl ⟨h.config, h.reactors⟩

/-- **The stake of a ledger.** From the opening of the reactor config on, a run of the ledger shows as a
run of the stake with its locks. -/
theorem ShowsStake.run {book : StakeBook} (h : l.ShowsStake book) (calls : List (LedgerCall κ)) :
    ∃ shown, ShowsStake (EmissionLedger.run Ledger.step l calls)
      (EmissionLedger.run StakeBook.reactorStep book shown) :=
  run_shows (fun _ _ _ _ h hstep => h.step hstep) calls h

/-- An answered call that is not on locks alone is a call on the votes, or leaves their records as they
are. -/
theorem ShowsVotes.step {book : VoteBook} (h : l.ShowsVotes book) (hstep : l.step call = some l')
    (hlocks : call.locks = false) :
    l'.ShowsVotes book ∨ ∃ shown book', book.step shown = some book' ∧ l'.ShowsVotes book' := by
  cases answered_of_step hstep with
  | initRewards hnone => cases hnone.symm.trans h.rewards
  | initReactor hnew =>
      rw [h.reactors] at hnew
      exact .inr ⟨.stake _, _, VoteBook.step_stake.mpr ⟨_, StakeBook.step_initReactor hnew, rfl⟩,
        h.putReactor _ _⟩
  | stake hc hr hout =>
      obtain rfl := Option.some.inj (h.rewards.symm.trans hc)
      rw [h.reactors] at hr
      exact .inr ⟨.stake _, _, VoteBook.step_stake.mpr ⟨_, StakeBook.step_turn hr hout, rfl⟩,
        h.putStake _ _ _⟩
  | collect hr =>
      rw [h.reactors] at hr
      exact .inr ⟨.stake _, _, VoteBook.step_stake.mpr ⟨_, StakeBook.step_collect hr, rfl⟩,
        h.putReactor _ _⟩
  | lock | unlock => cases hlocks
  | initEmission hnone hc =>
      have hnone' : book.emission = none := Option.map_eq_none_iff.mp (h.emission.symm.trans hnone)
      refine .inr ⟨_, _, VoteBook.step_initGaugeConfig.mpr ⟨hnone', _, hc, rfl⟩, h.rewards, h.reactors,
        rfl, ?_, h.pledges⟩
      rw [h.gauges, hnone']
      rfl
  | @initGauge now pool c out hc hnew hout =>
      obtain ⟨e, he, rfl, hgauges⟩ := h.opened hc
      rw [hgauges] at hnew
      have hopen : e.step (.initPool now pool pool) = some (e.commit pool out) :=
        GaugeBook.step_eq_some.mpr ⟨out, GaugeBook.answer_initPool.mpr ⟨hnew, hout⟩, rfl⟩
      exact .inr ⟨_, _, VoteBook.step_initPool.mpr ⟨e, _, he, hopen, rfl⟩, h.putGauge hgauges pool out⟩
  | syncGauge hc hg hout => exact .inr (h.sync hc hg hout)
  | initPledge hg hnew =>
      obtain ⟨e, he, hg⟩ := h.opened_of_gauge hg
      rw [h.pledges] at hnew
      exact .inr ⟨_, _, VoteBook.step_initPersonalGauge.mpr ⟨e, _, he, hg, hnew, rfl⟩, h.putPledge _ _⟩
  | changeVotes hc hg hp hr hout =>
      obtain ⟨e, he, rfl, hgauges⟩ := h.opened hc
      rw [hgauges] at hg
      rw [h.pledges] at hp
      rw [h.reactors] at hr
      refine .inr ⟨_, _, VoteBook.step_changeVotes.mpr ⟨e, _, _, _, _, he, hg, hp, hr, hout, rfl⟩, ?_⟩
      exact ((h.putGauge hgauges _ ⟨_, _⟩).putPledge _ _).putReactor _ _
  | initCp hc hg ht hp hnew hout =>
      obtain ⟨shown, book', hshown, h'⟩ := h.sync hc hg (Rewarder.initCp_ok hout).2.1
      exact .inr ⟨shown, book', hshown, h'.rewards, h'.reactors, h'.emission, h'.gauges, h'.pledges⟩
  | accrueCp hc hg ht hp hr hout =>
      obtain ⟨shown, book', hshown, h'⟩ := h.sync hc hg (Rewarder.accrueCp_ok hout).2.1
      exact .inr ⟨shown, book', hshown, h'.rewards, h'.reactors, h'.emission, h'.gauges, h'.pledges⟩
  | initTracker | initPosition | escrow | collectCp =>
      exact .inl ⟨h.rewards, h.reactors, h.emission, h.gauges, h.pledges⟩

/-- **The votes of a ledger.** From the opening of the reactor config on, a run of the ledger without
locks of their own shows as a run of the votes. -/
theorem ShowsVotes.run {book : VoteBook} (h : l.ShowsVotes book) (calls : List (LedgerCall κ))
    (hlocks : ∀ call ∈ calls, call.locks = false) :
    ∃ shown, ShowsVotes (EmissionLedger.run Ledger.step l calls)
      (EmissionLedger.run VoteBook.step book shown) :=
  run_shows_of_throughout (fun _ _ _ _ h hstep hlock => h.step hstep hlock) calls
    (throughout_of_mem hlocks l) h

/-- An answered call is a call on the pool, on the emission, or leaves the pool's records as they are. -/
theorem ShowsPool.step {pool : Address} {book : PoolBook Address κ} (h : l.ShowsPool pool book)
    (hstep : l.step call = some l') :
    l'.ShowsPool pool book ∨ ∃ shown book', book.step pool shown = some book' ∧
      l'.ShowsPool pool book' := by
  cases answered_of_step hstep with
  | initEmission hnone => cases hnone.symm.trans h.config
  | @initGauge now other c out hc hnew hout =>
      obtain rfl := Option.some.inj (h.config.symm.trans hc)
      rw [h.gauges] at hnew
      have hopen : book.emission.step (.initPool now other other) = some (book.emission.commit other out) :=
        GaugeBook.step_eq_some.mpr ⟨out, GaugeBook.answer_initPool.mpr ⟨hnew, hout⟩, rfl⟩
      exact .inr ⟨_, _, PoolBook.step_emission.mpr ⟨_, hopen, rfl⟩, h.putGauge other out⟩
  | syncGauge hc hg hout => exact .inr (h.sync hc hg hout)
  | @changeVotes now amount other staker pledge c g p r out hc hg hp hr hout =>
      obtain rfl := Option.some.inj (h.config.symm.trans hc)
      rw [h.gauges] at hg
      have hvotes := GaugeBook.step_changeVotes hg hout
      have hput := h.putGauge other ⟨out.config, out.gauge⟩
      exact .inr ⟨_, _, PoolBook.step_emission.mpr ⟨_, hvotes, rfl⟩, hput.config, hput.gauges,
        hput.tracker, hput.positions, hput.rewarders⟩
  | @initTracker now other escrowAccount t hnew ht =>
      have hne : pool ≠ other := by
        rintro rfl
        cases (Finmap.lookup_eq_none.mpr hnew).symm.trans h.tracker
      exact .inl ⟨h.config, h.gauges, (Finmap.lookup_insert_of_ne _ hne).trans h.tracker, h.positions,
        h.rewarders⟩
  | @initPosition now other owner account t out ht hnew hout =>
      by_cases hpool : other = pool
      · subst hpool
        obtain rfl := Option.some.inj (h.tracker.symm.trans ht)
        have hnew' : account ∉ book.escrow.positions := by
          rw [← Finmap.lookup_eq_none, ← h.positions]
          exact Finmap.lookup_eq_none.mpr hnew
        have hopen := EscrowBook.step_eq_some.mpr
          ⟨out, EscrowBook.answer_initPosition.mpr ⟨hnew', hout⟩, rfl⟩
        exact .inr ⟨_, _, PoolBook.step_escrow.mpr ⟨_, hopen, rfl⟩, h.putPosition account out⟩
      · exact .inl (h.putPosition_of_ne hpool account out.timeTracker out.position)
  | @escrow now other account turn t p out ht hp hout =>
      by_cases hpool : other = pool
      · subst hpool
        obtain rfl := Option.some.inj (h.tracker.symm.trans ht)
        rw [h.positions] at hp
        have hturn := EscrowBook.step_turn hp hout
        exact .inr ⟨_, _, PoolBook.step_escrow.mpr ⟨_, hturn, rfl⟩, h.putPosition account out⟩
      · exact .inl (h.putPosition_of_ne hpool account out.timeTracker out.position)
  | @initCp now other account c g t p out hc hg ht hp hnew hout =>
      by_cases hpool : other = pool
      · subst hpool
        obtain rfl := Option.some.inj (h.config.symm.trans hc)
        obtain rfl := Option.some.inj (h.tracker.symm.trans ht)
        rw [h.gauges] at hg
        rw [h.positions] at hp
        have hnew' : account ∉ book.rewarders := by
          rw [← Finmap.lookup_eq_none, ← Option.map_eq_none_iff, ← h.rewarders]
          exact Finmap.lookup_eq_none.mpr hnew
        exact .inr ⟨_, _, PoolBook.step_initCp.mpr ⟨g, p, out, hg, hp, hnew', hout, rfl⟩,
          h.putLook account out 0⟩
      · exact .inr (h.putLook_of_ne hpool hc hg (Rewarder.initCp_ok hout).2.1 account)
  | @accrueCp now other account c g t p r out hc hg ht hp hr hout =>
      by_cases hpool : other = pool
      · subst hpool
        obtain rfl := Option.some.inj (h.config.symm.trans hc)
        obtain rfl := Option.some.inj (h.tracker.symm.trans ht)
        rw [h.gauges] at hg
        rw [h.positions] at hp
        rw [h.rewarders] at hr
        obtain ⟨paying, hpaying, rfl⟩ := Option.map_eq_some_iff.mp hr
        exact .inr ⟨_, _, PoolBook.step_accrueCp.mpr ⟨g, p, paying, out, hg, hp, hpaying, hout, rfl⟩,
          h.putLook account out paying.paid⟩
      · exact .inr (h.putLook_of_ne hpool hc hg (Rewarder.accrueCp_ok hout).2.1 account)
  | @collectCp other account r hr =>
      by_cases hpool : other = pool
      · subst hpool
        rw [h.rewarders] at hr
        obtain ⟨paying, hpaying, rfl⟩ := Option.map_eq_some_iff.mp hr
        exact .inr ⟨_, _, PoolBook.step_collectCp.mpr ⟨paying, hpaying, rfl⟩, h.putRewarder account ⟨_, _⟩⟩
      · exact .inl (h.putRewarder_of_ne hpool account _)
  | initRewards | initReactor | stake | collect | lock | unlock | initPledge =>
      exact .inl ⟨h.config, h.gauges, h.tracker, h.positions, h.rewarders⟩

/-- **A pool of a ledger.** From the opening of the emission and of the pool's tracker on, a run of the
ledger shows as a run of the pool. -/
theorem ShowsPool.run {pool : Address} {book : PoolBook Address κ} (h : l.ShowsPool pool book)
    (calls : List (LedgerCall κ)) :
    ∃ shown, ShowsPool pool (EmissionLedger.run Ledger.step l calls)
      (EmissionLedger.run (PoolBook.step pool) book shown) :=
  run_shows (fun _ _ _ _ h hstep => h.step hstep) calls h

/-! ### From the first call on -/

/-- A reactor config is opened before any reactor. -/
theorem showsStake_of_initRewards (hs : l.Seen) {settings : Staking.Settings} {now : Int}
    (hstep : l.step (.initRewards settings now) = some l') :
    ∃ c, Staking.initReactorConfig settings now = .ok c ∧ l'.ShowsStake ⟨c, ∅⟩ := by
  cases answered_of_step hstep with
  | @initRewards settings now c hnone hc =>
      refine ⟨c, hc, rfl, Table.eq_empty fun owner r hr => ?_⟩
      obtain ⟨config, hconfig, -⟩ := hs.reactors owner r hr
      cases hnone.symm.trans hconfig

theorem showsVotes_of_initRewards {settings : Staking.Settings} {now : Int}
    (hstep : (empty : Ledger κ).step (.initRewards settings now) = some l) :
    ∃ c, Staking.initReactorConfig settings now = .ok c ∧ l.ShowsVotes (.start c) := by
  cases answered_of_step hstep with
  | @initRewards settings now c hnone hc => exact ⟨c, hc, rfl, rfl, rfl, rfl, rfl⟩

/-- A tracker is opened before any position of its pool, and so before any of its rewarders. -/
theorem showsPool_of_initTracker (hs : l.Seen) {config : GaugeConfig} (hconfig : l.emission = some config)
    {now : Int} {pool escrowAccount : Address}
    (hstep : l.step (.initTracker now pool escrowAccount) = some l') :
    ∃ t, Escrow.initTimeTracker now pool escrowAccount = .ok t ∧
      l'.ShowsPool pool ⟨⟨config, l.gauges⟩, ⟨t, ∅⟩, ∅⟩ := by
  cases answered_of_step hstep with
  | @initTracker now pool escrowAccount t hnew ht =>
      have hnone : l.trackers.lookup pool = none := Finmap.lookup_eq_none.mpr hnew
      refine ⟨t, ht, hconfig, rfl, Finmap.lookup_insert _, fun account => ?_, fun account => ?_⟩
      · refine Option.eq_none_iff_forall_ne_some.mpr fun p hp => ?_
        obtain ⟨t', ht', -⟩ := hs.positions (pool, account) p hp
        cases hnone.symm.trans ht'
      · refine Option.eq_none_iff_forall_ne_some.mpr fun r hr => ?_
        obtain ⟨c, g, t', p, -, -, ht', -⟩ := hs.rewarders (pool, account) r hr
        cases hnone.symm.trans ht'

/-- Whatever is done to a ledger, what its reactors have earned stays balanced. -/
theorem stakeBalanced_run (hs : l.Seen) {settings : Staking.Settings} {now : Int}
    (hstep : l.step (.initRewards settings now) = some l') (calls : List (LedgerCall κ)) :
    ∃ book, ShowsStake (run step l' calls) book ∧ book.Balanced := by
  obtain ⟨c, hc, hshows⟩ := showsStake_of_initRewards hs hstep
  obtain ⟨shown, hshows'⟩ := hshows.run calls
  have hbalanced := StakeBook.balanced_start (Staking.initReactorConfig_ok hc).1
  exact ⟨_, hshows', StakeBook.balanced_run hbalanced shown⟩

/-- Whatever is done to a ledger, no rewarder of a pool has more than its share of what was emitted since
it looked first. -/
theorem poolSound_run (hs : l.Seen) {config : GaugeConfig} (hconfig : l.emission = some config) {now : Int}
    {pool escrowAccount : Address} (hstep : l.step (.initTracker now pool escrowAccount) = some l')
    (calls : List (LedgerCall κ)) :
    ∃ book, ShowsPool pool (run step l' calls) book ∧ PoolBook.Sound pool book := by
  obtain ⟨t, ht, hshows⟩ := showsPool_of_initTracker hs hconfig hstep
  obtain ⟨shown, hshows'⟩ := hshows.run calls
  refine ⟨_, hshows', PoolBook.sound_run ⟨?_, fun account r hr => ?_⟩ shown⟩
  · exact EscrowBook.balanced_start t (Escrow.initTimeTracker_ok ht)
  · cases hr

/-- Whatever is done to a ledger but to its locks, the votes of its records add up. -/
theorem votesConsistent_run {settings : Staking.Settings} {now : Int}
    (hstep : (empty : Ledger κ).step (.initRewards settings now) = some l) (calls : List (LedgerCall κ))
    (hlocks : ∀ call ∈ calls, call.locks = false) :
    ∃ book, ShowsVotes (run step l calls) book ∧ book.Consistent := by
  obtain ⟨c, -, hshows⟩ := showsVotes_of_initRewards hstep
  obtain ⟨shown, hshows'⟩ := hshows.run calls hlocks
  exact ⟨_, hshows', VoteBook.consistent_run c shown⟩

end Ledger

/-! ### Operations at one time -/

/-- The records of a board are among those of a ledger, the positions among those of one pool. -/
structure Board.Within {κ : Type} [DecidableEq κ] (pool : Address)
    (b : Board κ Address Address (Address × Address)) (l : Ledger κ) : Prop where
  tracker : l.trackers.lookup pool = some b.tracker
  positions : ∀ account p, b.positions.lookup account = some p →
    l.positions.lookup (pool, account) = some p.record
  stake : l.rewards = some b.stake
  reactors : ∀ owner r, b.reactors.lookup owner = some r → l.reactors.lookup owner = some r.record
  emission : l.emission = some b.emission
  gauges : ∀ gauge g, b.gauges.lookup gauge = some g → l.gauges.lookup gauge = some g
  pledges : ∀ pledge p, b.pledges.lookup pledge = some p → l.pledges.lookup pledge = some p

/-- An operation as a call on the ledger. -/
def BoardCall.inLedger {κ : Type} (now : Int) (pool : Address) :
    BoardCall κ Address Address (Address × Address) → LedgerCall κ
  | escrow account turn => .escrow now pool account turn
  | stake owner turn => .stake now owner turn
  | votes pledge vote => .changeVotes now vote.gauge pledge vote.voter vote.amount

namespace Board.Within

variable {κ : Type} [DecidableEq κ] {pool : Address} {b b' : Board κ Address Address (Address × Address)}
  {l : Ledger κ} {now : Int}

/-- An operation that is answered from a board is answered from the ledger, with the same records. -/
theorem step (h : b.Within pool l) {call : BoardCall κ Address Address (Address × Address)}
    (hstep : b.step now call = some b') :
    ∃ l', l.step (call.inLedger now pool) = some l' ∧ b'.Within pool l' := by
  cases call with
  | escrow account turn =>
      obtain ⟨p, out, hp, hout, rfl⟩ := step_escrow.mp hstep
      have hattempt := Ledger.attempt_escrow.mpr ⟨_, _, h.tracker, h.positions account p hp,
        map_eq_ok.mpr ⟨out, hout, rfl⟩⟩
      refine ⟨_, Ledger.step_eq_some.mpr hattempt, Finmap.lookup_insert _, ?_, h.stake, h.reactors,
        h.emission, h.gauges, h.pledges⟩
      exact Table.lookup_insert_among h.positions fun x y heq => (Prod.mk.inj heq).2
  | stake owner turn =>
      obtain ⟨r, out, hr, hout, rfl⟩ := step_stake.mp hstep
      have hattempt := Ledger.attempt_stake.mpr ⟨_, _, h.stake, h.reactors owner r hr,
        map_eq_ok.mpr ⟨out, hout, rfl⟩⟩
      exact ⟨_, Ledger.step_eq_some.mpr hattempt, h.tracker, h.positions, rfl,
        Table.lookup_insert_among h.reactors Function.injective_id, h.emission, h.gauges, h.pledges⟩
  | votes pledge vote =>
      obtain ⟨p, g, r, out, hp, hg, hr, hout, rfl⟩ := step_votes.mp hstep
      have hattempt := Ledger.attempt_changeVotes.mpr ⟨_, _, _, _, h.emission, h.gauges _ g hg,
        h.pledges pledge p hp, h.reactors _ r hr, map_eq_ok.mpr ⟨out, hout, rfl⟩⟩
      exact ⟨_, Ledger.step_eq_some.mpr hattempt, h.tracker, h.positions, h.stake,
        Table.lookup_insert_among h.reactors Function.injective_id, rfl,
        Table.lookup_insert_among h.gauges Function.injective_id,
        Table.lookup_insert_among h.pledges Function.injective_id⟩

/-- **Operations at one time.** Operations that are all answered from a board, in whatever order, are all
answered from the ledger, one after another, with the same records. -/
theorem play (h : b.Within pool l) {calls : List (BoardCall κ Address Address (Address × Address))}
    (hplay : b.play now calls = some b') :
    ∃ l', (calls.map (BoardCall.inLedger now pool)).foldlM Ledger.step l = some l' ∧
      b'.Within pool l' := by
  induction calls generalizing b l with
  | nil =>
      obtain rfl := Option.some.inj hplay
      exact ⟨l, rfl, h⟩
  | cons call rest ih =>
      obtain ⟨b₁, hstep, hrest⟩ := foldlM_cons_eq_some.mp hplay
      obtain ⟨l₁, hstep', h₁⟩ := h.step hstep
      obtain ⟨l', hplay', h'⟩ := ih h₁ hrest
      exact ⟨l', foldlM_cons_eq_some.mpr ⟨l₁, hstep', hplay'⟩, h'⟩

end Board.Within

end EmissionLedger
