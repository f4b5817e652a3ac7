import EmissionLedger.Proofs.Table
import EmissionLedger.Proofs.Timing.Progress

/-!
The whole ledger: the records of all engines, from the first call on. A call names the records that it is
about, is answered or refused from them, and changes nothing if it is refused.

Of two states of a ledger the later one has all records of the earlier one, and none of their indices,
clocks and totals has gone back (`Forward`). No account has ever seen more of an index or a total than
there is (`Seen`). Every record that is committed keeps both.
-/

namespace EmissionLedger

/-! ### The ledger -/

/-- The records of all engines, as they were committed last. A gauge and a tracker stand under the id of
their pool, a position and its rewarder under the pool and the position's account. -/
structure Ledger (κ : Type) where
  rewards : Option ReactorConfig
  reactors : Table Address Reactor
  emission : Option GaugeConfig
  gauges : Table Address Gauge
  pledges : Table (Address × Address) PersonalGauge
  trackers : Table Address TimeTracker
  positions : Table (Address × κ) PersonalPosition
  rewarders : Table (Address × κ) PersonalRewarderCp

/-- A call on the ledger. -/
inductive LedgerCall (κ : Type) where
  | initRewards (settings : Staking.Settings) (now : Int)
  | initReactor (owner : Address)
  | stake (now : Int) (owner : Address) (turn : Staking.Turn)
  | collect (owner : Address)
  | lock (owner : Address) (amount : Int)
  | unlock (owner : Address) (amount : Int)
  | initEmission (settings : Emission.Settings) (now : Int)
  | initGauge (now : Int) (pool : Address)
  | syncGauge (now : Int) (pool : Address)
  | initPledge (owner pool : Address)
  | changeVotes (now : Int) (pool : Address) (pledge : Address × Address) (staker : Address)
      (amount : Int)
  | initTracker (now : Int) (pool escrowAccount : Address)
  | initPosition (now : Int) (pool : Address) (account : κ) (owner : Address)
  | escrow (now : Int) (pool : Address) (account : κ) (turn : Escrow.Turn)
  | initCp (now : Int) (pool : Address) (account : κ)
  | accrueCp (now : Int) (pool : Address) (account : κ)
  | collectCp (pool : Address) (account : κ)

/-- The time of a call, if it has one. -/
def LedgerCall.time {κ : Type} : LedgerCall κ → Option Int
  | initRewards _ now | stake now .. | initEmission _ now | initGauge now _ | syncGauge now _
  | changeVotes now .. | initTracker now .. | initPosition now .. | escrow now .. | initCp now ..
  | accrueCp now .. => some now
  | initReactor _ | collect _ | lock .. | unlock .. | initPledge .. | collectCp .. => none

namespace Ledger

variable {κ : Type}

/-- The ledger before the first call. -/
def empty : Ledger κ := ⟨none, ∅, none, ∅, ∅, ∅, ∅, ∅⟩

variable [DecidableEq κ]

def putReactor (l : Ledger κ) (owner : Address) (r : Reactor) : Ledger κ :=
  { l with reactors := l.reactors.insert owner r }

def putStake (l : Ledger κ) (owner : Address) (config : ReactorConfig) (r : Reactor) : Ledger κ :=
  { l with rewards := some config, reactors := l.reactors.insert owner r }

def putGauge (l : Ledger κ) (pool : Address) (config : GaugeConfig) (g : Gauge) : Ledger κ :=
  { l with emission := some config, gauges := l.gauges.insert pool g }

def putPledge (l : Ledger κ) (pledge : Address × Address) (p : PersonalGauge) : Ledger κ :=
  { l with pledges := l.pledges.insert pledge p }

def putPosition (l : Ledger κ) (pool : Address) (account : κ) (t : TimeTracker)
    (p : PersonalPosition) : Ledger κ :=
  { l with trackers := l.trackers.insert pool t, positions := l.positions.insert (pool, account) p }

def putRewarder (l : Ledger κ) (pool : Address) (account : κ) (r : PersonalRewarderCp) : Ledger κ :=
  { l with rewarders := l.rewarders.insert (pool, account) r }

/-- The ledger with the records of one look at a position committed. -/
def putLook (l : Ledger κ) (pool : Address) (account : κ) (out : Rewarder.CpOutcome) : Ledger κ :=
  ((l.putPosition pool account out.timeTracker out.position).putGauge pool out.config
    out.gauge).putRewarder pool account out.rewarder

/-- What becomes of a call: nothing if the records that it is about are not there, or those that it is
to open are; else the ledger with the returned records committed, or the fault with which it is refused. -/
def attempt (l : Ledger κ) : LedgerCall κ → Option (Result (Ledger κ))
  | .initRewards settings now =>
      if l.rewards.isSome then none
      else some ((Staking.initReactorConfig settings now).map fun c => { l with rewards := some c })
  | .initReactor owner =>
      if l.rewards.isNone ∨ owner ∈ l.reactors then none
      else some (.ok (l.putReactor owner (Staking.initReactor owner)))
  | .stake now owner turn => do
      let config ← l.rewards
      let r ← l.reactors.lookup owner
      some ((turn.perform now config r).map fun out => l.putStake owner out.config out.reactor)
  | .collect owner => do
      let r ← l.reactors.lookup owner
      some (.ok (l.putReactor owner (Staking.collectRayRewards r).1))
  | .lock owner amount => do
      let r ← l.reactors.lookup owner
      some ((r.lockVotes amount).map (l.putReactor owner))
  | .unlock owner amount => do
      let r ← l.reactors.lookup owner
      some ((r.unlockVotes amount).map (l.putReactor owner))
  | .initEmission settings now =>
      if l.emission.isSome then none
      else some ((Emission.initGaugeConfig settings now).map fun c => { l with emission := some c })
  | .initGauge now pool => do
      let config ← l.emission
      if pool ∈ l.gauges then none
      else some ((Emission.initPoolGauge now config pool).map fun out =>
        l.putGauge pool out.config out.gauge)
  | .syncGauge now pool => do
      let config ← l.emission
      let g ← l.gauges.lookup pool
      some ((Emission.syncPoolIndex now config g).map fun out => l.putGauge pool out.config out.gauge)
  | .initPledge owner pool => do
      let g ← l.gauges.lookup pool
      if (owner, pool) ∈ l.pledges then none
      else some (.ok (l.putPledge (owner, pool) (Emission.initPersonalGauge owner g)))
  | .changeVotes now pool pledge staker amount => do
      let config ← l.emission
      let g ← l.gauges.lookup pool
      let p ← l.pledges.lookup pledge
      let r ← l.reactors.lookup staker
      some ((Emission.changeVotes now config g p amount r).map fun out =>
        ((l.putGauge pool out.config out.gauge).putPledge pledge out.personalGauge).putReactor staker
          out.reactor)
  | .initTracker now pool escrowAccount =>
      if pool ∈ l.trackers then none
      else some ((Escrow.initTimeTracker now pool escrowAccount).map fun t =>
        { l with trackers := l.trackers.insert pool t })
  | .initPosition now pool account owner => do
      let t ← l.trackers.lookup pool
      if (pool, account) ∈ l.positions then none
      else some ((Escrow.initPersonalPosition now t owner).map fun out =>
        l.putPosition pool account out.timeTracker out.position)
  | .escrow now pool account turn => do
      let t ← l.trackers.lookup pool
      let p ← l.positions.lookup (pool, account)
      some ((turn.perform now t p).map fun out => l.putPosition pool account out.timeTracker out.position)
  | .initCp now pool account => do
      let config ← l.emission
      let g ← l.gauges.lookup pool
      let t ← l.trackers.lookup pool
      let p ← l.positions.lookup (pool, account)
      if (pool, account) ∈ l.rewarders then none
      else some ((Rewarder.initCp now config g t p).map (l.putLook pool account))
  | .accrueCp now pool account => do
      let config ← l.emission
      let g ← l.gauges.lookup pool
      let t ← l.trackers.lookup pool
      let p ← l.positions.lookup (pool, account)
      let r ← l.rewarders.lookup (pool, account)
      some ((Rewarder.accrueCp now config g t p r).map (l.putLook pool account))
  | .collectCp pool account => do
      let r ← l.rewarders.lookup (pool, account)
      some (.ok (l.putRewarder pool account (Rewarder.collectCp r).1))

/-- The ledger after an answered call. -/
def step (l : Ledger κ) (call : LedgerCall κ) : Option (Ledger κ) :=
  (l.attempt call).bind Except.toOption

/-- The clocks that a call moves on. -/
def clocks (l : Ledger κ) : LedgerCall κ → List (String × Int)
  | .stake .. => l.rewards.toList.map ReactorConfig.clock
  | .initGauge .. | .syncGauge .. | .changeVotes .. => l.emission.toList.map GaugeConfig.clock
  | .initPosition _ pool _ _ | .escrow _ pool _ _ =>
      (l.trackers.lookup pool).toList.map TimeTracker.clock
  | .initCp _ pool _ | .accrueCp _ pool _ =>
      (l.trackers.lookup pool).toList.map TimeTracker.clock ++ l.emission.toList.map GaugeConfig.clock
  | _ => []

section Attempts

variable {l l' : Ledger κ} {call : LedgerCall κ} {result : Result (Ledger κ)} {now amount : Int}
variable {pool owner escrowAccount staker : Address} {pledge : Address × Address} {account : κ}

theorem step_eq_some : l.step call = some l' ↔ l.attempt call = some (.ok l') := by
  simp [step, Option.bind_eq_some_iff]

theorem attempt_initRewards {settings : Staking.Settings} :
    l.attempt (.initRewards settings now) = some result ↔ l.rewards = none ∧
      (Staking.initReactorConfig settings now).map (fun c => { l with rewards := some c }) = result := by
  simp [attempt]

theorem attempt_initReactor : l.attempt (.initReactor owner) = some result ↔
    (∃ c, l.rewards = some c) ∧ owner ∉ l.reactors ∧
      .ok (l.putReactor owner (Staking.initReactor owner)) = result := by
  simp [attempt, Option.ne_none_iff_exists', and_assoc]

theorem attempt_stake {turn : Staking.Turn} : l.attempt (.stake now owner turn) = some result ↔
    ∃ c r, l.rewards = some c ∧ l.reactors.lookup owner = some r ∧
      (turn.perform now c r).map (fun out => l.putStake owner out.config out.reactor) = result := by
  simp [attempt, Option.bind_eq_some_iff]

theorem attempt_collect : l.attempt (.collect owner) = some result ↔
    ∃ r, l.reactors.lookup owner = some r ∧
      .ok (l.putReactor owner (Staking.collectRayRewards r).1) = result := by
  simp [attempt, Option.bind_eq_some_iff]

theorem attempt_lock : l.attempt (.lock owner amount) = some result ↔
    ∃ r, l.reactors.lookup owner = some r ∧
      (r.lockVotes amount).map (l.putReactor owner) = result := by
  simp [attempt, Option.bind_eq_some_iff]

theorem attempt_unlock : l.attempt (.unlock owner amount) = some result ↔
    ∃ r, l.reactors.lookup owner = some r ∧
      (r.unlockVotes amount).map (l.putReactor owner) = result := by
  simp [attempt, Option.bind_eq_some_iff]

theorem attempt_initEmission {settings : Emission.Settings} :
    l.attempt (.initEmission settings now) = some result ↔ l.emission = none ∧
      (Emission.initGaugeConfig settings now).map (fun c => { l with emission := some c }) = result := by
  simp [attempt]

theorem attempt_initGauge : l.attempt (.initGauge now pool) = some result ↔
    ∃ c, l.emission = some c ∧ pool ∉ l.gauges ∧
      (Emission.initPoolGauge now c pool).map (fun out => l.putGauge pool out.config out.gauge) =
        result := by
  simp [attempt, Option.bind_eq_some_iff]

theorem attempt_syncGauge : l.attempt (.syncGauge now pool) = some result ↔
    ∃ c g, l.emission = some c ∧ l.gauges.lookup pool = some g ∧
      (Emission.syncPoolIndex now c g).map (fun out => l.putGauge pool out.config out.gauge) =
        result := by
  simp [attempt, Option.bind_eq_some_iff]

theorem attempt_initPledge : l.attempt (.initPledge owner pool) = some result ↔
    ∃ g, l.gauges.lookup pool = some g ∧ (owner, pool) ∉ l.pledges ∧
      .ok (l.putPledge (owner, pool) (Emission.initPersonalGauge owner g)) = result := by
  simp [attempt, Option.bind_eq_some_iff]

theorem attempt_changeVotes : l.attempt (.changeVotes now pool pledge staker amount) = some result ↔
    ∃ c g p r, l.emission = some c ∧ l.gauges.lookup pool = some g ∧
      l.pledges.lookup pledge = some p ∧ l.reactors.lookup staker = some r ∧
      (Emission.changeVotes now c g p amount r).map (fun out =>
        ((l.putGauge pool out.config out.gauge).putPledge pledge out.personalGauge).putReactor staker
          out.reactor) = result := by
  simp [attempt, Option.bind_eq_some_iff]

theorem attempt_initTracker : l.attempt (.initTracker now pool escrowAccount) = some result ↔
    pool ∉ l.trackers ∧ (Escrow.initTimeTracker now pool escrowAccount).map
      (fun t => { l with trackers := l.trackers.insert pool t }) = result := by
  simp [attempt]

theorem attempt_initPosition : l.attempt (.initPosition now pool account owner) = some result ↔
    ∃ t, l.trackers.lookup pool = some t ∧ (pool, account) ∉ l.positions ∧
      (Escrow.initPersonalPosition now t owner).map (fun out =>
        l.putPosition pool account out.timeTracker out.position) = result := by
  simp [attempt, Option.bind_eq_some_iff]

theorem attempt_escrow {turn : Escrow.Turn} : l.attempt (.escrow now pool account turn) = some result ↔
    ∃ t p, l.trackers.lookup pool = some t ∧ l.positions.lookup (pool, account) = some p ∧
      (turn.perform now t p).map (fun out =>
        l.putPosition pool account out.timeTracker out.position) = result := by
  simp [attempt, Option.bind_eq_some_iff]

theorem attempt_initCp : l.attempt (.initCp now pool account) = some result ↔
    ∃ c g t p, l.emission = some c ∧ l.gauges.lookup pool = some g ∧
      l.trackers.lookup pool = some t ∧ l.positions.lookup (pool, account) = some p ∧
      (pool, account) ∉ l.rewarders ∧
      (Rewarder.initCp now c g t p).map (l.putLook pool account) = result := by
  simp [attempt, Option.bind_eq_some_iff]

theorem attempt_accrueCp : l.attempt (.accrueCp now pool account) = some result ↔
    ∃ c g t p r, l.emission = some c ∧ l.gauges.lookup pool = some g ∧
      l.trackers.lookup pool = some t ∧ l.positions.lookup (pool, account) = some p ∧
      l.rewarders.lookup (pool, account) = some r ∧
      (Rewarder.accrueCp now c g t p r).map (l.putLook pool account) = result := by
  simp [attempt, Option.bind_eq_some_iff]

theorem attempt_collectCp : l.attempt (.collectCp pool account) = some result ↔
    ∃ r, l.rewarders.lookup (pool, account) = some r ∧
      .ok (l.putRewarder pool account (Rewarder.collectCp r).1) = result := by
  simp [attempt, Option.bind_eq_some_iff]

end Attempts

/-! ### Forward -/

/-- Every record of `l` is still in `l'`, and none of its indices, clocks and totals has gone back. -/
structure Forward (l l' : Ledger κ) : Prop where
  rewards : Grows ReactorConfig.progress (fun _ : Unit => l.rewards) fun _ => l'.rewards
  emission : Grows GaugeConfig.progress (fun _ : Unit => l.emission) fun _ => l'.emission
  gauges : Grows Gauge.totalRayEmitted l.gauges.lookup l'.gauges.lookup
  trackers : Grows TimeTracker.progress l.trackers.lookup l'.trackers.lookup
  positions : Grows PersonalPosition.progress l.positions.lookup l'.positions.lookup
  rewarders : Grows PersonalRewarderCp.progress l.rewarders.lookup l'.rewarders.lookup

variable {l l' l'' : Ledger κ} {call : LedgerCall κ}

theorem Forward.refl (l : Ledger κ) : l.Forward l := ⟨.refl, .refl, .refl, .refl, .refl, .refl⟩

theorem Forward.trans (h : l.Forward l') (h' : l'.Forward l'') : l.Forward l'' :=
  ⟨h.rewards.trans h'.rewards, h.emission.trans h'.emission, h.gauges.trans h'.gauges,
    h.trackers.trans h'.trackers, h.positions.trans h'.positions, h.rewarders.trans h'.rewarders⟩

/-! ### Seen -/

/-- The reactor has seen no more than the indices. -/
def ReactorSeen (l : Ledger κ) (r : Reactor) : Prop :=
  ∃ c, l.rewards = some c ∧ ∀ e : Earning, e.lastSeen r ≤ e.index c

/-- The gauge has seen no more than the index. -/
def GaugeSeen (l : Ledger κ) (g : Gauge) : Prop :=
  ∃ c, l.emission = some c ∧ g.lastSeenGlobalIndex ≤ c.index

/-- The position has seen no more than the index of its pool. -/
def PositionSeen (l : Ledger κ) (pool : Address) (p : PersonalPosition) : Prop :=
  ∃ t, l.trackers.lookup pool = some t ∧ p.lastSeenIndex ≤ t.index

/-- The rewarder has seen no more than there is in its pool and its position, at no later time. -/
def RewarderSeen (l : Ledger κ) (key : Address × κ) (r : PersonalRewarderCp) : Prop :=
  ∃ c g t p, l.emission = some c ∧ l.gauges.lookup key.1 = some g ∧ l.trackers.lookup key.1 = some t ∧
    l.positions.lookup key = some p ∧ r.rewarder.Seen c g t p

/-- No account has seen more than there is. -/
structure Seen (l : Ledger κ) : Prop where
  reactors : ∀ owner r, l.reactors.lookup owner = some r → l.ReactorSeen r
  gauges : ∀ pool g, l.gauges.lookup pool = some g → l.GaugeSeen g
  positions : ∀ key p, l.positions.lookup key = some p → l.PositionSeen key.1 p
  rewarders : ∀ key r, l.rewarders.lookup key = some r → l.RewarderSeen key r

theorem Forward.reactorSeen (hf : l.Forward l') {r : Reactor} (h : l.ReactorSeen r) :
    l'.ReactorSeen r := by
  obtain ⟨c, hc, hseen⟩ := h
  obtain ⟨c', hc', hle⟩ := hf.rewards () c hc
  exact ⟨c', hc', fun e => Nat.le_trans (hseen e) (ReactorConfig.index_le_of_progress hle e)⟩

theorem Forward.gaugeSeen (hf : l.Forward l') {g : Gauge} (h : l.GaugeSeen g) : l'.GaugeSeen g := by
  obtain ⟨c, hc, hseen⟩ := h
  obtain ⟨c', hc', hle⟩ := hf.emission () c hc
  exact ⟨c', hc', Nat.le_trans hseen hle.1⟩

theorem Forward.positionSeen (hf : l.Forward l') {pool : Address} {p : PersonalPosition}
    (h : l.PositionSeen pool p) : l'.PositionSeen pool p := by
  obtain ⟨t, ht, hseen⟩ := h
  obtain ⟨t', ht', hle⟩ := hf.trackers pool t ht
  exact ⟨t', ht', Nat.le_trans hseen hle.1⟩

theorem Forward.rewarderSeen (hf : l.Forward l') {key : Address × κ} {r : PersonalRewarderCp}
    (h : l.RewarderSeen key r) : l'.RewarderSeen key r := by
  obtain ⟨c, g, t, p, hc, hg, ht, hp, hseen⟩ := h
  obtain ⟨c', hc', hcle⟩ := hf.emission () c hc
  obtain ⟨g', hg', hgle⟩ := hf.gauges key.1 g hg
  obtain ⟨t', ht', htle⟩ := hf.trackers key.1 t ht
  obtain ⟨p', hp', hple⟩ := hf.positions key p hp
  exact ⟨c', g', t', p', hc', hg', ht', hp', hseen.forward hcle hgle htle hple⟩

theorem seen_empty : (empty : Ledger κ).Seen := by
  refine ⟨?_, ?_, ?_, ?_⟩ <;>
  · intro k a h
    cases h

/-! ### Commits -/

/-- The ledger `l'` is `l` gone forward, and if no account had seen more than there is, none has. -/
structure Keeps (l l' : Ledger κ) : Prop where
  forward : l.Forward l'
  seen : l.Seen → l'.Seen

theorem Keeps.trans (h : l.Keeps l') (h' : l'.Keeps l'') : l.Keeps l'' :=
  ⟨h.forward.trans h'.forward, fun hs => h'.seen (h.seen hs)⟩

theorem keeps_putReactor {owner : Address} {r' : Reactor} (hseen : l.Seen → l.ReactorSeen r') :
    l.Keeps (l.putReactor owner r') := by
  refine ⟨⟨.refl, .refl, .refl, .refl, .refl, .refl⟩, fun hs => ?_⟩
  exact ⟨Table.forall_insert hs.reactors (hseen hs), hs.gauges, hs.positions, hs.rewarders⟩

/-- A reactor that has seen what the one in its place had is entered. -/
theorem keeps_replace {owner : Address} {r r' : Reactor} (hr : l.reactors.lookup owner = some r)
    (hseen : ∀ e : Earning, e.lastSeen r' = e.lastSeen r) : l.Keeps (l.putReactor owner r') := by
  refine keeps_putReactor fun hs => ?_
  obtain ⟨c, hc, hle⟩ := hs.reactors owner r hr
  exact ⟨c, hc, fun e => hseen e ▸ hle e⟩

theorem keeps_putStake {owner : Address} {c c' : ReactorConfig} {r' : Reactor} (hc : l.rewards = some c)
    (hforward : c.progress ≤ c'.progress) (hseen : ∀ e : Earning, e.lastSeen r' ≤ e.index c') :
    l.Keeps (l.putStake owner c' r') := by
  have hf : l.Forward (l.putStake owner c' r') := by
    refine ⟨.put fun old hold => ?_, .refl, .refl, .refl, .refl, .refl⟩
    obtain rfl : c = old := Option.some.inj (hc.symm.trans hold)
    exact hforward
  refine ⟨hf, fun hs => ⟨?_, hs.gauges, hs.positions, hs.rewarders⟩⟩
  exact Table.forall_insert (fun x b hb => hf.reactorSeen (hs.reactors x b hb)) ⟨c', rfl, hseen⟩

theorem keeps_putGauge {pool : Address} {c c' : GaugeConfig} {g' : Gauge} (hc : l.emission = some c)
    (hforward : c.progress ≤ c'.progress)
    (hg : ∀ g, l.gauges.lookup pool = some g → g.totalRayEmitted ≤ g'.totalRayEmitted)
    (hseen : g'.lastSeenGlobalIndex ≤ c'.index) : l.Keeps (l.putGauge pool c' g') := by
  have hf : l.Forward (l.putGauge pool c' g') := by
    refine ⟨.refl, .put fun old hold => ?_, .insert hg, .refl, .refl, .refl⟩
    obtain rfl : c = old := Option.some.inj (hc.symm.trans hold)
    exact hforward
  refine ⟨hf, fun hs => ⟨hs.reactors, ?_, hs.positions, fun key r hr => ?_⟩⟩
  · exact Table.forall_insert (fun x b hb => hf.gaugeSeen (hs.gauges x b hb)) ⟨c', rfl, hseen⟩
  · exact hf.rewarderSeen (hs.rewarders key r hr)

/-- A gauge that has earned more and seen the index is entered in the place of one. -/
theorem keeps_settleGauge {pool : Address} {c c' : GaugeConfig} {g g' : Gauge} (hc : l.emission = some c)
    (hg : l.gauges.lookup pool = some g) (hforward : c.progress ≤ c'.progress)
    (hemitted : g.totalRayEmitted ≤ g'.totalRayEmitted) (hseen : g'.lastSeenGlobalIndex = c'.index) :
    l.Keeps (l.putGauge pool c' g') := by
  refine keeps_putGauge hc hforward (fun old hold => ?_) (congrArg Number.raw hseen).le
  obtain rfl : g = old := Option.some.inj (hg.symm.trans hold)
  exact hemitted

theorem keeps_putPosition {pool : Address} {account : κ} {t t' : TimeTracker} {p' : PersonalPosition}
    (ht : l.trackers.lookup pool = some t) (hforward : t.progress ≤ t'.progress)
    (hp : ∀ p, l.positions.lookup (pool, account) = some p → p.progress ≤ p'.progress)
    (hseen : p'.lastSeenIndex ≤ t'.index) : l.Keeps (l.putPosition pool account t' p') := by
  have hf : l.Forward (l.putPosition pool account t' p') := by
    refine ⟨.refl, .refl, .refl, .insert fun old hold => ?_, .insert hp, .refl⟩
    obtain rfl : t = old := Option.some.inj (ht.symm.trans hold)
    exact hforward
  refine ⟨hf, fun hs => ⟨hs.reactors, hs.gauges, ?_, fun key r hr => ?_⟩⟩
  · refine Table.forall_insert (fun x b hb => hf.positionSeen (hs.positions x b hb)) ?_
    exact ⟨t', Finmap.lookup_insert _, hseen⟩
  · exact hf.rewarderSeen (hs.rewarders key r hr)

/-- A position that has earned more and seen the index is entered in the place of one. -/
theorem keeps_settlePosition {pool : Address} {account : κ} {t t' : TimeTracker}
    {p p' : PersonalPosition} (ht : l.trackers.lookup pool = some t)
    (hp : l.positions.lookup (pool, account) = some p) (hforward : t.progress ≤ t'.progress)
    (hearned : p.progress ≤ p'.progress) (hseen : p'.lastSeenIndex = t'.index) :
    l.Keeps (l.putPosition pool account t' p') := by
  refine keeps_putPosition ht hforward (fun old hold => ?_) (congrArg Number.raw hseen).le
  obtain rfl : p = old := Option.some.inj (hp.symm.trans hold)
  exact hearned

theorem keeps_putRewarder {pool : Address} {account : κ} {r' : PersonalRewarderCp}
    (hr : ∀ r, l.rewarders.lookup (pool, account) = some r → r.progress ≤ r'.progress)
    (hseen : l.Seen → l.RewarderSeen (pool, account) r') : l.Keeps (l.putRewarder pool account r') := by
  refine ⟨⟨.refl, .refl, .refl, .refl, .refl, .insert hr⟩, fun hs => ?_⟩
  exact ⟨hs.reactors, hs.gauges, hs.positions, Table.forall_insert hs.rewarders (hseen hs)⟩

theorem keeps_putPledge (l : Ledger κ) (pledge : Address × Address) (p : PersonalGauge) :
    l.Keeps (l.putPledge pledge p) :=
  ⟨⟨.refl, .refl, .refl, .refl, .refl, .refl⟩, fun hs =>
    ⟨hs.reactors, hs.gauges, hs.positions, hs.rewarders⟩⟩

theorem keeps_initRewards (hnone : l.rewards = none) (c : ReactorConfig) :
    l.Keeps { l with rewards := some c } := by
  have hf : l.Forward { l with rewards := some c } := by
    refine ⟨.put fun old hold => ?_, .refl, .refl, .refl, .refl, .refl⟩
    rw [hnone] at hold
    cases hold
  exact ⟨hf, fun hs => ⟨fun x b hb => hf.reactorSeen (hs.reactors x b hb), hs.gauges, hs.positions,
    hs.rewarders⟩⟩

theorem keeps_initEmission (hnone : l.emission = none) (c : GaugeConfig) :
    l.Keeps { l with emission := some c } := by
  have hf : l.Forward { l with emission := some c } := by
    refine ⟨.refl, .put fun old hold => ?_, .refl, .refl, .refl, .refl⟩
    rw [hnone] at hold
    cases hold
  exact ⟨hf, fun hs => ⟨hs.reactors, fun x b hb => hf.gaugeSeen (hs.gauges x b hb), hs.positions,
    fun key r hr => hf.rewarderSeen (hs.rewarders key r hr)⟩⟩

theorem keeps_initTracker {pool : Address} (hnone : l.trackers.lookup pool = none) (t : TimeTracker) :
    l.Keeps { l with trackers := l.trackers.insert pool t } := by
  have hf : l.Forward { l with trackers := l.trackers.insert pool t } := by
    refine ⟨.refl, .refl, .refl, .insert fun old hold => ?_, .refl, .refl⟩
    rw [hnone] at hold
    cases hold
  exact ⟨hf, fun hs => ⟨hs.reactors, hs.gauges, fun x b hb => hf.positionSeen (hs.positions x b hb),
    fun key r hr => hf.rewarderSeen (hs.rewarders key r hr)⟩⟩

/-- The escrow's and the emission's records after a look at a position, before its rewarder. -/
theorem keeps_look {now : Int} {pool : Address} {account : κ} {c : GaugeConfig} {g : Gauge}
    {t : TimeTracker} {p : PersonalPosition} {out : Rewarder.CpOutcome} (hc : l.emission = some c)
    (hg : l.gauges.lookup pool = some g) (ht : l.trackers.lookup pool = some t)
    (hp : l.positions.lookup (pool, account) = some p)
    (hupdate : Escrow.updatePersonal now t p = .ok ⟨out.timeTracker, out.position, 0⟩)
    (hsync : Emission.syncPoolIndex now c g = .ok ⟨out.config, out.gauge⟩) :
    l.Keeps ((l.putPosition pool account out.timeTracker out.position).putGauge pool out.config
      out.gauge) := by
  obtain ⟨htracker, hposition, hindex, -⟩ := Escrow.Turn.update.perform_progress hupdate
  obtain ⟨hconfig, hgauge, hglobal, -⟩ := Emission.syncPoolIndex_progress hsync
  exact (keeps_settlePosition ht hp htracker hposition hindex).trans
    (keeps_settleGauge hc hg hconfig hgauge hglobal)

/-- A rewarder that has seen all that a look has returned. -/
theorem rewarderSeen_putLook {now : Int} {pool : Address} {account : κ} {c : GaugeConfig} {g : Gauge}
    {t : TimeTracker} {p : PersonalPosition} {out : Rewarder.CpOutcome} {r : PersonalRewarderCp}
    (hupdate : Escrow.updatePersonal now t p = .ok ⟨out.timeTracker, out.position, 0⟩)
    (hsync : Emission.syncPoolIndex now c g = .ok ⟨out.config, out.gauge⟩)
    (hunits : r.rewarder.lastSeenTimeUnits = out.position.earnedTimeUnits)
    (hemitted : r.rewarder.lastSeenTotalEmittedRay = out.gauge.totalRayEmitted)
    (hts : (r.rewarder.lastUpdatedTs : Int) = now) :
    ((l.putPosition pool account out.timeTracker out.position).putGauge pool out.config
      out.gauge).RewarderSeen (pool, account) r := by
  obtain ⟨-, -, -, htracker⟩ := Escrow.Turn.update.perform_progress hupdate
  obtain ⟨-, -, -, hconfig⟩ := Emission.syncPoolIndex_progress hsync
  dsimp only at htracker hconfig
  exact ⟨out.config, out.gauge, out.timeTracker, out.position, rfl, Finmap.lookup_insert _,
    Finmap.lookup_insert _, Finmap.lookup_insert _, by omega, by omega, hemitted.le,
    (congrArg Number.raw hunits).le⟩

theorem keeps_initCp {now : Int} {pool : Address} {account : κ} {c : GaugeConfig} {g : Gauge}
    {t : TimeTracker} {p : PersonalPosition} {out : Rewarder.CpOutcome} (hc : l.emission = some c)
    (hg : l.gauges.lookup pool = some g) (ht : l.trackers.lookup pool = some t)
    (hp : l.positions.lookup (pool, account) = some p)
    (hnone : l.rewarders.lookup (pool, account) = none)
    (h : Rewarder.initCp now c g t p = .ok out) : l.Keeps (l.putLook pool account out) := by
  obtain ⟨hupdate, hsync, hstart⟩ := Rewarder.initCp_ok h
  have hstate := (PersonalRewarderState.start_eq_ok.mp hstart).2.2
  have hnow : (out.timeTracker.lastSeenTs : Int) = now :=
    (Escrow.Turn.update.perform_progress hupdate).2.2.2
  refine (keeps_look hc hg ht hp hupdate hsync).trans (keeps_putRewarder (fun r hr => ?_) fun _ => ?_)
  · cases hnone.symm.trans hr
  · refine rewarderSeen_putLook hupdate hsync ?_ ?_ ?_ <;> rw [hstate]
    dsimp only
    omega

theorem keeps_accrueCp {now : Int} {pool : Address} {account : κ} {c : GaugeConfig} {g : Gauge}
    {t : TimeTracker} {p : PersonalPosition} {r : PersonalRewarderCp} {out : Rewarder.CpOutcome}
    (hc : l.emission = some c) (hg : l.gauges.lookup pool = some g)
    (ht : l.trackers.lookup pool = some t) (hp : l.positions.lookup (pool, account) = some p)
    (hr : l.rewarders.lookup (pool, account) = some r)
    (h : Rewarder.accrueCp now c g t p r = .ok out) : l.Keeps (l.putLook pool account out) := by
  obtain ⟨hupdate, hsync, hstage⟩ := Rewarder.accrueCp_ok h
  obtain ⟨hunits, hemitted, hts, hlooked⟩ := PersonalRewarderState.syncAndStage_progress hstage
  refine (keeps_look hc hg ht hp hupdate hsync).trans (keeps_putRewarder (fun q hq => ?_) fun hs => ?_)
  · cases hr.symm.trans hq
    exact ⟨hunits, hemitted, hts⟩
  · rcases hlooked with hsame | ⟨hunits, hemitted, hts⟩
    · obtain ⟨c', g', t', p', hc', hg', ht', hp', hseen⟩ := hs.rewarders (pool, account) r hr
      rw [← show out.rewarder.rewarder = r.rewarder from hsame] at hseen
      exact ⟨c', g', t', p', hc', hg', ht', hp', hseen⟩
    · exact rewarderSeen_putLook hupdate hsync hunits hemitted hts

end Ledger

end EmissionLedger
