import EmissionLedger.Proofs.Rewarder.Book
import EmissionLedger.Proofs.Timing.Absorption

/-!
Records that belong together. A record names its owner and its pool by their addresses, and an operation
relies on some of them being the same in two records that it is given. A link is the mismatch that is
reported where they are not. All checks of an operation are one check of a list of links, made before
anything else: the first broken link is reported, whatever else is wrong with the records or the time, and
if no link is broken no mismatch is. No operation changes an address of a record.

Main statement: `records_never_mix`.
-/

namespace EmissionLedger

/-! ### Links -/

namespace Mismatch

/-- The address in the record that is bound. -/
def own : Mismatch → Address
  | position _ tracker _ => tracker
  | personalGauge _ gauge _ => gauge
  | voter reactor _ => reactor
  | gaugeTracker gauge _ => gauge
  | gaugePool gauge _ => gauge
  | rewarderOwner rewarder _ => rewarder
  | rewarderGauge rewarder _ => rewarder
  | rewarderPosition rewarder _ => rewarder

/-- The address in the record that it is bound to. -/
def given : Mismatch → Address
  | position _ _ pool => pool
  | personalGauge _ _ pool => pool
  | voter _ owner => owner
  | gaugeTracker _ tracker => tracker
  | gaugePool _ pool => pool
  | rewarderOwner _ holder => holder
  | rewarderGauge _ gauge => gauge
  | rewarderPosition _ held => held

/-- Whether the two addresses differ. -/
def Broken (link : Mismatch) : Prop := link.own ≠ link.given

instance (link : Mismatch) : Decidable link.Broken := inferInstanceAs (Decidable (_ ≠ _))

/-- Checks links one after another. -/
def checkAll : List Mismatch → Result Unit
  | [] => .ok ()
  | link :: rest => if link.own = link.given then checkAll rest else .error (.mismatch link)

variable {links rest : List Mismatch}

theorem checkAll_append : checkAll (links ++ rest) = checkAll links >>= fun _ => checkAll rest := by
  induction links with
  | nil => rfl
  | cons link links ih =>
      rw [List.cons_append, checkAll, checkAll, ih]
      split <;> rfl

/-- The first broken link is reported. -/
theorem checkAll_eq_error {e : Fault} :
    checkAll links = .error e ↔ ∃ link, links.find? (·.Broken) = some link ∧ e = .mismatch link := by
  induction links with
  | nil => exact iff_of_false nofun nofun
  | cons link links ih =>
      rw [checkAll]
      by_cases hbroken : link.Broken
      · rw [if_neg hbroken, List.find?_cons, decide_eq_true hbroken]
        simp [eq_comm]
      · rw [if_pos (not_not.mp hbroken), List.find?_cons, decide_eq_false hbroken]
        exact ih

theorem checkAll_eq_ok : checkAll links = .ok () ↔ ∀ link ∈ links, ¬link.Broken := by
  induction links with
  | nil => exact iff_of_true rfl nofun
  | cons link links ih =>
      rw [checkAll, List.forall_mem_cons]
      by_cases hbroken : link.Broken
      · rw [if_neg hbroken]
        exact iff_of_false nofun fun h => h.1 hbroken
      · rw [if_pos (not_not.mp hbroken), ih, and_iff_right hbroken]

/-- A mismatch has a message, so it is reported as one. -/
theorem kind_fault (link : Mismatch) : (Fault.mismatch link).kind = .recordMismatch := by
  cases link <;> rfl

end Mismatch

/-! ### Other faults -/

/-- No mismatch. -/
def Fault.Unmixed : Fault → Prop
  | .mismatch _ => False
  | _ => True

theorem Fault.OfAccrual.unmixed {e : Fault} (h : e.OfAccrual) : e.Unmixed := by
  cases e with
  | mismatch cause => rcases h with h | h | h <;> cases h
  | _ => trivial

/-- What is no mismatch is not reported as one. -/
theorem Fault.Unmixed.kind_ne {e : Fault} (h : e.Unmixed) : e.kind ≠ .recordMismatch := by
  have hcause : e.causeKind ≠ .recordMismatch := by
    cases e with
    | mismatch cause => exact h.elim
    | number cause => cases cause <;> simp [causeKind, NumberFault.kind]
    | argument cause => cases cause <;> simp [causeKind, ArgumentFault.kind]
    | _ => simp [causeKind]
  rcases e.kind_eq with heq | heq <;> rw [heq]
  · exact hcause
  · simp

theorem FaultsIn.unmixed {α : Type} {x : Result α} (h : FaultsIn Fault.OfAccrual x) :
    FaultsIn Fault.Unmixed x :=
  h.mono fun _ => Fault.OfAccrual.unmixed

theorem Fault.Unmixed.of_request {e : Fault} (h : e.OfRequest) : e.Unmixed := by
  cases h with
  | outgrown h => exact h.ofAccrual.unmixed
  | _ => trivial

theorem ClPositionSnapshot.earnedTimeUnits_unmixed (snapshot : ClPositionSnapshot) (mint : String) :
    FaultsIn Fault.Unmixed (snapshot.earnedTimeUnits mint) := by
  rw [earnedTimeUnits]
  split
  · exact Number.ofNatural_faultsIn trivial
  · exact .error trivial

/-! ### Guarded operations -/

/-- An operation that checks `links` before anything else, and then meets no mismatch. -/
structure Guarded {α : Type} (links : List Mismatch) (x : Result α) : Prop where
  refused : ∀ e, Mismatch.checkAll links = .error e → x = .error e
  passed : Mismatch.checkAll links = .ok () → FaultsIn Fault.Unmixed x

namespace Guarded

variable {α β : Type} {links rest : List Mismatch} {x : Result α}

theorem of_unmixed (h : FaultsIn Fault.Unmixed x) : Guarded [] x :=
  ⟨nofun, fun _ => h⟩

/-- Further checks may come first. -/
theorem after (links rest : List Mismatch) {checks : Result Unit} (hchecks : checks = Mismatch.checkAll links)
    (h : checks = .ok () → Guarded rest x) : Guarded (links ++ rest) (checks >>= fun _ => x) := by
  subst hchecks
  constructor
  · intro e he
    rw [Mismatch.checkAll_append, bind_eq_error] at he
    rcases he with he | ⟨_, hlinks, he⟩
    · rw [he]
      rfl
    · rw [hlinks, ok_bind]
      exact (h hlinks).refused e he
  · intro hall
    rw [Mismatch.checkAll_append] at hall
    obtain ⟨_, hlinks, hrest⟩ := bind_eq_ok.mp hall
    rw [hlinks, ok_bind]
    exact (h hlinks).passed hrest

/-- What follows may have other faults. -/
theorem bind {f : α → Result β} (h : Guarded links x)
    (hf : ∀ a, x = .ok a → FaultsIn Fault.Unmixed (f a)) : Guarded links (x >>= f) := by
  constructor
  · intro e he
    rw [h.refused e he]
    rfl
  · intro hall
    exact .bind (h.passed hall) hf

/-- A guarded operation reports a mismatch if and only if a link is broken. -/
theorem refused_iff (h : Guarded links x) :
    (∃ e, x = .error e ∧ e.kind = .recordMismatch) ↔ ∃ link ∈ links, link.Broken := by
  cases hall : Mismatch.checkAll links with
  | error e =>
      obtain ⟨link, hfind, rfl⟩ := Mismatch.checkAll_eq_error.mp hall
      have hbroken := List.find?_some hfind
      exact iff_of_true ⟨_, h.refused _ hall, link.kind_fault⟩
        ⟨link, List.mem_of_find?_eq_some hfind, of_decide_eq_true hbroken⟩
  | ok =>
      have hjoined := Mismatch.checkAll_eq_ok.mp hall
      refine iff_of_false ?_ fun ⟨link, hlink, hbroken⟩ => hjoined link hlink hbroken
      rintro ⟨e, he, hkind⟩
      exact (h.passed hall e he).kind_ne hkind

/-- The first broken link is reported. -/
theorem first (h : Guarded links x) {link : Mismatch} (hfind : links.find? (·.Broken) = some link) :
    x = .error (.mismatch link) :=
  h.refused _ (Mismatch.checkAll_eq_error.mpr ⟨link, hfind, rfl⟩)

/-- No link is broken where a guarded operation is answered. -/
theorem unbroken (h : Guarded links x) {a : α} (hx : x = .ok a) : ∀ link ∈ links, ¬link.Broken := by
  cases hall : Mismatch.checkAll links with
  | error e => cases (h.refused e hall).symm.trans hx
  | ok => exact Mismatch.checkAll_eq_ok.mp hall

end Guarded

/-! ### The operations -/

namespace Escrow

variable {now : Int} {t : TimeTracker} {p : PersonalPosition}

theorem sync_guarded : Guarded [.position p.owner p.timeTracker t.poolId] (sync now t p) := by
  refine .after [_] [] rfl fun hcheck => .of_unmixed ?_
  have hlink := PersonalPosition.checkTracker_ok hcheck
  have hover : ∀ e : Fault, e.causeKind = .arithmeticOverflow → e.Unmixed := fun _ h =>
    Fault.OfAccrual.unmixed (.inl h)
  refine .bind (TimeTracker.advance_faultsIn hover fun _ => trivial) fun t' hadvance => ?_
  obtain ⟨_, -, hadv⟩ := TimeTracker.advance_ok hadvance
  have hlink' : p.timeTracker = t'.poolId := hlink.trans hadv.poolId.symm
  refine .bind ?_ fun _ _ => .pure
  exact PersonalPosition.settle_faultsIn hover (fun hne => absurd hlink' hne) fun _ => trivial

theorem updatePersonal_guarded :
    Guarded [.position p.owner p.timeTracker t.poolId] (updatePersonal now t p) :=
  sync_guarded.bind fun _ _ => .pure

/-- Whether the amount that a turn moves is one. -/
def Turn.InRange : Turn → Prop
  | deposit amount | withdraw amount => 0 ≤ amount ∧ amount ≤ maxU64
  | update => True

theorem Turn.perform_guarded {turn : Turn} (h : turn.InRange) :
    Guarded [.position p.owner p.timeTracker t.poolId] (turn.perform now t p) := by
  cases turn with
  | deposit amount =>
      obtain ⟨n, hn⟩ := requireU64_answered "amount" h.1 h.2
      rw [perform, Escrow.deposit, hn, ok_bind]
      refine sync_guarded.bind fun synced _ => .bind (Counter.add_faultsIn trivial) fun own _ => ?_
      exact .bind (Counter.add_faultsIn trivial) fun _ _ => .pure
  | withdraw amount =>
      obtain ⟨n, hn⟩ := requireU64_answered "amount" h.1 h.2
      rw [perform, Escrow.withdraw, hn, ok_bind]
      refine sync_guarded.bind fun synced _ => ?_
      refine .bind (Counter.sub_faultsIn fun _ => trivial) fun own _ => ?_
      exact .bind (Counter.sub_faultsIn fun _ => trivial) fun _ _ => .pure
  | update => exact updatePersonal_guarded

end Escrow

namespace Emission

variable {now amount : Int} {config : GaugeConfig} {gauge : Gauge} {personal : PersonalGauge}
  {reactor : Reactor}

theorem changeVotes_guarded (h : minI64 ≤ amount ∧ amount ≤ maxI64) :
    Guarded [.personalGauge personal.owner personal.poolGauge gauge.poolId,
      .voter reactor.owner personal.owner] (changeVotes now config gauge personal amount reactor) := by
  have hamount : requireI64 "amount" amount = .ok amount := if_neg (by omega)
  have hlinks : checkLinks gauge personal reactor = Mismatch.checkAll
      [.personalGauge personal.owner personal.poolGauge gauge.poolId,
        .voter reactor.owner personal.owner] := by
    rw [checkLinks, ite_not, ite_not]
    rfl
  rw [changeVotes, hamount, ok_bind]
  refine .after [_, _] [] hlinks fun _ => .of_unmixed ?_
  have hchange : ∀ what n delta, FaultsIn Fault.Unmixed (Counter.change what n delta) := fun _ _ _ =>
    Counter.change_faultsIn trivial fun _ => trivial
  refine .bind (checkPledge_faultsIn trivial trivial) fun _ _ => ?_
  refine .bind (moveLock_faultsIn_of_request fun _ => Fault.Unmixed.of_request) fun reactor' _ => ?_
  refine .bind (syncPoolIndex_faults _ _ _).unmixed fun synced _ => ?_
  refine .bind (hchange _ _ _) fun global _ => .bind (hchange _ _ _) fun pool _ => ?_
  exact .bind (hchange _ _ _) fun _ _ => .pure

end Emission

namespace Rewarder

variable {now : Int} {config : GaugeConfig} {gauge : Gauge} {t : TimeTracker} {p : PersonalPosition}
  {snapshot : ClPositionSnapshot} {mint : String}

theorem initCp_guarded :
    Guarded [.gaugeTracker gauge.poolId t.poolId, .position p.owner p.timeTracker t.poolId]
      (initCp now config gauge t p) := by
  refine .after [_] _ rfl fun _ => Escrow.updatePersonal_guarded.bind fun _ _ => ?_
  refine .bind (Emission.syncPoolIndex_faults _ _ _).unmixed fun synced _ => ?_
  exact .bind (PersonalRewarderState.start_faultsIn fun _ => trivial) fun _ _ => .pure

theorem accrueCp_guarded {r : PersonalRewarderCp} :
    Guarded [.gaugeTracker gauge.poolId t.poolId, .rewarderOwner r.owner p.owner,
      .rewarderGauge r.poolGauge gauge.poolId, .position p.owner p.timeTracker t.poolId]
      (accrueCp now config gauge t p r) := by
  have hlinks : checkCpLinks gauge p r = Mismatch.checkAll
      [.rewarderOwner r.owner p.owner, .rewarderGauge r.poolGauge gauge.poolId] := by
    rw [checkCpLinks, ite_not, ite_not]
    rfl
  refine .after [_] _ rfl fun _ => .after _ _ hlinks fun _ =>
    Escrow.updatePersonal_guarded.bind fun _ _ => ?_
  refine .bind (Emission.syncPoolIndex_faults _ _ _).unmixed fun synced _ => ?_
  exact .bind (PersonalRewarderState.syncAndStage_faults _ _ _ _).unmixed fun _ _ => .pure

theorem initCl_guarded :
    Guarded [.gaugePool gauge.poolId snapshot.pool] (initCl now config gauge snapshot mint) := by
  refine .after [_] [] rfl fun _ => .of_unmixed ?_
  refine .bind (Emission.syncPoolIndex_faults _ _ _).unmixed fun synced _ => ?_
  refine .bind (snapshot.earnedTimeUnits_unmixed mint) fun units _ => ?_
  exact .bind (PersonalRewarderState.start_faultsIn fun _ => trivial) fun _ _ => .pure

theorem accrueCl_guarded {r : PersonalRewarderCl} :
    Guarded [.gaugePool gauge.poolId snapshot.pool, .rewarderPosition r.poolPosition snapshot.position,
      .rewarderGauge r.poolGauge gauge.poolId] (accrueCl now config gauge snapshot mint r) := by
  have hlinks : checkClLinks gauge snapshot r = Mismatch.checkAll
      [.rewarderPosition r.poolPosition snapshot.position, .rewarderGauge r.poolGauge gauge.poolId] := by
    rw [checkClLinks, ite_not, ite_not]
    rfl
  refine .after [_] _ rfl fun _ => .after [_, _] [] hlinks fun _ => .of_unmixed ?_
  refine .bind (Emission.syncPoolIndex_faults _ _ _).unmixed fun synced _ => ?_
  refine .bind (snapshot.earnedTimeUnits_unmixed mint) fun units _ => ?_
  exact .bind (PersonalRewarderState.syncAndStage_faults _ _ _ _).unmixed fun _ _ => .pure

end Rewarder

/-! ### Addresses are kept

The addresses of a record are its owner, its pool and those that bind it to other records. -/

def TimeTracker.addresses (t : TimeTracker) : List Address := [t.poolId, t.escrowAccount]

def PersonalPosition.addresses (p : PersonalPosition) : List Address := [p.owner, p.timeTracker]

def Gauge.addresses (g : Gauge) : List Address := [g.poolId]

def PersonalGauge.addresses (g : PersonalGauge) : List Address := [g.owner, g.poolGauge]

def Reactor.addresses (r : Reactor) : List Address := [r.owner]

def PersonalRewarderCp.addresses (r : PersonalRewarderCp) : List Address := [r.owner, r.poolGauge]

def PersonalRewarderCl.addresses (r : PersonalRewarderCl) : List Address :=
  [r.poolPosition, r.poolGauge, r.pool]

namespace Escrow

variable {now : Int} {t : TimeTracker} {p : PersonalPosition} {out : Outcome}

theorem Moved.addresses {change : ℤ} (h : Moved now t p out change) :
    out.timeTracker.addresses = t.addresses ∧ out.position.addresses = p.addresses := by
  obtain ⟨⟨t', p', hsync, ht, hp⟩, -, -⟩ := h
  obtain ⟨⟨_, -, hadv⟩, hset⟩ := sync_ok hsync
  rw [ht, hp, TimeTracker.addresses, TimeTracker.addresses, PersonalPosition.addresses,
    PersonalPosition.addresses]
  dsimp only
  rw [hadv.poolId, hadv.escrowAccount, hset.owner, hset.timeTracker]
  exact ⟨rfl, rfl⟩

theorem Turn.perform_addresses {turn : Turn} (h : turn.perform now t p = .ok out) :
    out.timeTracker.addresses = t.addresses ∧ out.position.addresses = p.addresses := by
  cases turn with
  | deposit amount => exact (deposit_ok h).1.addresses
  | withdraw amount => exact (withdraw_ok h).1.addresses
  | update => exact (updatePersonal_ok h).1.addresses

end Escrow

namespace Emission

variable {now amount : Int} {config : GaugeConfig} {gauge : Gauge}

theorem syncPoolIndex_addresses {out : Synced} (h : syncPoolIndex now config gauge = .ok out) :
    out.gauge.addresses = gauge.addresses :=
  congrArg ([·]) (syncPoolIndex_ok h).2.poolId

theorem changeVotes_addresses {personal : PersonalGauge} {reactor : Reactor} {out : VoteChange}
    (h : changeVotes now config gauge personal amount reactor = .ok out) :
    out.gauge.addresses = gauge.addresses ∧ out.personalGauge.addresses = personal.addresses ∧
      out.reactor.addresses = reactor.addresses := by
  have hvoted := changeVotes_ok h
  obtain ⟨synced, hsync, -, hgauge⟩ := hvoted.synced
  refine ⟨?_, ?_, ?_⟩
  · rw [hgauge]
    exact syncPoolIndex_addresses hsync
  · rw [hvoted.personalGauge]
    rfl
  · rw [(moveLock_ok hvoted.lock).reactor]
    rfl

end Emission

namespace Rewarder

variable {now : Int} {config : GaugeConfig} {gauge : Gauge} {t : TimeTracker} {p : PersonalPosition}
  {snapshot : ClPositionSnapshot} {mint : String}

theorem initCp_addresses {out : CpOutcome} (h : initCp now config gauge t p = .ok out) :
    out.gauge.addresses = gauge.addresses ∧ out.timeTracker.addresses = t.addresses ∧
      out.position.addresses = p.addresses ∧ out.rewarder.addresses = [p.owner, gauge.poolId] := by
  obtain ⟨hescrow, hsync, -⟩ := initCp_ok h
  obtain ⟨-, howner, hgauge⟩ := initCp_links h
  obtain ⟨ht, hp⟩ := (Escrow.updatePersonal_ok hescrow).1.addresses
  obtain ⟨⟨_, -, -⟩, hset⟩ := Escrow.sync_ok (Escrow.updatePersonal_sync hescrow)
  refine ⟨Emission.syncPoolIndex_addresses hsync, ht, hp, ?_⟩
  rw [PersonalRewarderCp.addresses, howner, hgauge, hset.owner, (Emission.syncPoolIndex_ok hsync).2.poolId]

theorem accrueCp_addresses {r : PersonalRewarderCp} {out : CpOutcome}
    (h : accrueCp now config gauge t p r = .ok out) :
    out.gauge.addresses = gauge.addresses ∧ out.timeTracker.addresses = t.addresses ∧
      out.position.addresses = p.addresses ∧ out.rewarder.addresses = r.addresses := by
  obtain ⟨hescrow, hsync, -⟩ := accrueCp_ok h
  obtain ⟨ht, hp⟩ := (Escrow.updatePersonal_ok hescrow).1.addresses
  refine ⟨Emission.syncPoolIndex_addresses hsync, ht, hp, ?_⟩
  rw [accrueCp_links h]
  rfl

theorem initCl_addresses {out : ClOutcome} (h : initCl now config gauge snapshot mint = .ok out) :
    out.gauge.addresses = gauge.addresses ∧
      out.rewarder.addresses = [snapshot.position, gauge.poolId, snapshot.pool] := by
  simp only [initCl, bind_eq_ok, pure_eq_ok] at h
  obtain ⟨_, -, synced, hsync, units, -, state, -, rfl⟩ := h
  refine ⟨Emission.syncPoolIndex_addresses hsync, ?_⟩
  rw [PersonalRewarderCl.addresses, (Emission.syncPoolIndex_ok hsync).2.poolId]

theorem accrueCl_addresses {r : PersonalRewarderCl} {out : ClOutcome}
    (h : accrueCl now config gauge snapshot mint r = .ok out) :
    out.gauge.addresses = gauge.addresses ∧ out.rewarder.addresses = r.addresses := by
  simp only [accrueCl, bind_eq_ok, pure_eq_ok] at h
  obtain ⟨_, -, _, -, synced, hsync, units, -, staged, -, rfl⟩ := h
  exact ⟨Emission.syncPoolIndex_addresses hsync, rfl⟩

/-- The rewarders of concentrated-liquidity positions that there can be: opened once, then accrued and paid
out with any records and at any times. -/
inductive ReachedCl : PersonalRewarderCl → Prop where
  | opened {now : Int} {config : GaugeConfig} {gauge : Gauge} {snapshot : ClPositionSnapshot}
      {mint : String} {out : ClOutcome} :
      initCl now config gauge snapshot mint = .ok out → ReachedCl out.rewarder
  | accrued {now : Int} {config : GaugeConfig} {gauge : Gauge} {snapshot : ClPositionSnapshot}
      {mint : String} {r : PersonalRewarderCl} {out : ClOutcome} :
      ReachedCl r → accrueCl now config gauge snapshot mint r = .ok out → ReachedCl out.rewarder
  | paidOut {r : PersonalRewarderCl} : ReachedCl r → ReachedCl (collectCl r).1

/-- Such a rewarder is opened for a position in the gauge's pool, and keeps both addresses. -/
theorem ReachedCl.pool_eq {r : PersonalRewarderCl} (h : ReachedCl r) : r.pool = r.poolGauge := by
  induction h with
  | @opened now config gauge snapshot mint out hinit =>
      have hjoined : gauge.poolId = snapshot.pool :=
        not_not.mp (initCl_guarded.unbroken hinit _ (List.mem_singleton_self _))
      have haddresses := (initCl_addresses hinit).2
      simp only [PersonalRewarderCl.addresses, List.cons.injEq] at haddresses
      rw [haddresses.2.1, haddresses.2.2.1, hjoined]
  | accrued _ haccrue ih =>
      have haddresses := (accrueCl_addresses haccrue).2
      simp only [PersonalRewarderCl.addresses, List.cons.injEq] at haddresses
      rw [haddresses.2.1, haddresses.2.2.1, ih]
  | paidOut _ ih => exact ih

end Rewarder

/-! ### All operations -/

/-- An operation that relies on `links`: it reports a mismatch if and only if a link is broken, namely the
first broken one, and what it answers keeps the addresses of its records. -/
structure Joined {α : Type} (links : List Mismatch) (x : Result α) (kept : α → Prop) : Prop where
  mismatch_iff : (∃ e, x = .error e ∧ e.kind = .recordMismatch) ↔ ∃ link ∈ links, link.Broken
  first : ∀ link, links.find? (·.Broken) = some link → x = .error (.mismatch link)
  kept : ∀ out, x = .ok out → kept out

theorem Guarded.joined {α : Type} {links : List Mismatch} {x : Result α} {kept : α → Prop}
    (h : Guarded links x) (hkept : ∀ out, x = .ok out → kept out) : Joined links x kept :=
  ⟨h.refused_iff, fun _ => h.first, hkept⟩

/-- **Records never mix.** Whatever the records and the time are, an operation whose amount is in range
reports a mismatch if and only if two of its records do not belong together, before it looks at anything
else, and reports the first link that is broken. Where it is answered, every record keeps the addresses of
its owner, its pool and its links. A rewarder of a concentrated-liquidity position is bound to the gauge of
its position's pool for as long as it lives. -/
theorem records_never_mix (now : Int) :
    (∀ t p, ∀ turn : Escrow.Turn, turn.InRange →
      Joined [.position p.owner p.timeTracker t.poolId] (turn.perform now t p) fun out =>
        out.timeTracker.addresses = t.addresses ∧ out.position.addresses = p.addresses) ∧
    (∀ config gauge personal amount reactor, minI64 ≤ amount ∧ amount ≤ maxI64 →
      Joined [.personalGauge personal.owner personal.poolGauge gauge.poolId,
          .voter reactor.owner personal.owner]
        (Emission.changeVotes now config gauge personal amount reactor) fun out =>
        out.gauge.addresses = gauge.addresses ∧ out.personalGauge.addresses = personal.addresses ∧
          out.reactor.addresses = reactor.addresses) ∧
    (∀ config gauge t p,
      Joined [.gaugeTracker gauge.poolId t.poolId, .position p.owner p.timeTracker t.poolId]
        (Rewarder.initCp now config gauge t p) fun out =>
        out.gauge.addresses = gauge.addresses ∧ out.timeTracker.addresses = t.addresses ∧
          out.position.addresses = p.addresses ∧ out.rewarder.addresses = [p.owner, gauge.poolId]) ∧
    (∀ config gauge t p r,
      Joined [.gaugeTracker gauge.poolId t.poolId, .rewarderOwner r.owner p.owner,
          .rewarderGauge r.poolGauge gauge.poolId, .position p.owner p.timeTracker t.poolId]
        (Rewarder.accrueCp now config gauge t p r) fun out =>
        out.gauge.addresses = gauge.addresses ∧ out.timeTracker.addresses = t.addresses ∧
          out.position.addresses = p.addresses ∧ out.rewarder.addresses = r.addresses) ∧
    (∀ config gauge snapshot mint,
      Joined [.gaugePool gauge.poolId snapshot.pool]
        (Rewarder.initCl now config gauge snapshot mint) fun out =>
        out.gauge.addresses = gauge.addresses ∧
          out.rewarder.addresses = [snapshot.position, gauge.poolId, snapshot.pool]) ∧
    (∀ config gauge snapshot mint r,
      Joined [.gaugePool gauge.poolId snapshot.pool,
          .rewarderPosition r.poolPosition snapshot.position, .rewarderGauge r.poolGauge gauge.poolId]
        (Rewarder.accrueCl now config gauge snapshot mint r) fun out =>
        out.gauge.addresses = gauge.addresses ∧ out.rewarder.addresses = r.addresses) ∧
    ∀ r, Rewarder.ReachedCl r → r.pool = r.poolGauge :=
  ⟨fun _ _ _ h => (Escrow.Turn.perform_guarded h).joined fun _ => Escrow.Turn.perform_addresses,
    fun _ _ _ _ _ h => (Emission.changeVotes_guarded h).joined fun _ => Emission.changeVotes_addresses,
    fun _ _ _ _ => Rewarder.initCp_guarded.joined fun _ => Rewarder.initCp_addresses,
    fun _ _ _ _ _ => Rewarder.accrueCp_guarded.joined fun _ => Rewarder.accrueCp_addresses,
    fun _ _ _ _ => Rewarder.initCl_guarded.joined fun _ => Rewarder.initCl_addresses,
    fun _ _ _ _ _ => Rewarder.accrueCl_guarded.joined fun _ => Rewarder.accrueCl_addresses,
    fun _ h => h.pool_eq⟩

/-- A day before all clocks, a rewarder of another owner and another gauge is refused for its owner, and a
withdrawal of tokens that are not there for the position's tracker; on records that belong together votes
of an empty reactor are short, which is no mismatch, and a rewarder is opened and accrued in its pool. -/
theorem records_never_mix_stale :
    let other : Address := ⟨String.ofList (List.replicate 64 '1'), by decide⟩
    let t : TimeTracker := ⟨.zero, .zero, .zero, 2, 86400⟩
    let p : PersonalPosition := ⟨.zero, .zero, 1, .zero, .zero⟩
    let config : GaugeConfig := ⟨2, 86400, .zero, 86400⟩
    let gauge : Gauge := ⟨.zero, 1, .zero, 0⟩
    let state : PersonalRewarderState := ⟨.zero, 0, 86400, 0⟩
    let snapshot : ClPositionSnapshot := ⟨other, .zero, [⟨.zero, 43200⟩]⟩
    Rewarder.accrueCp 0 config gauge t p ⟨other, other, state⟩ =
        .error (.mismatch (.rewarderOwner other .zero)) ∧
      Escrow.withdraw 0 t { p with timeTracker := other } 5 =
        .error (.mismatch (.position .zero other .zero)) ∧
      (¬∃ e, Emission.changeVotes 0 config gauge ⟨.zero, .zero, 0⟩ 1 (Staking.initReactor .zero) =
        .error e ∧ e.kind = .recordMismatch) ∧
      ∃ opened accrued, Rewarder.initCl 86400 config gauge snapshot Address.zero.text = .ok opened ∧
        Rewarder.accrueCl 172800 opened.config opened.gauge snapshot Address.zero.text opened.rewarder =
          .ok accrued ∧
        accrued.rewarder.addresses = opened.rewarder.addresses ∧
        accrued.rewarder.pool = accrued.rewarder.poolGauge := by
  intro other t p config gauge state snapshot
  have hdiffer : other ≠ Address.zero := by decide +kernel
  obtain ⟨hescrow, hvotes, -, hcp, -, -, -⟩ := records_never_mix 0
  obtain ⟨-, -, -, -, -, hcl, hreached⟩ := records_never_mix 172800
  have hwithdraw := hescrow t { p with timeTracker := other } (.withdraw 5)
    (show (0 : Int) ≤ 5 ∧ (5 : Int) ≤ maxU64 by decide)
  have hchange := hvotes config gauge ⟨.zero, .zero, 0⟩ 1 (Staking.initReactor .zero) (by decide)
  refine ⟨(hcp config gauge t p ⟨other, other, state⟩).first _ ?_, hwithdraw.first _ ?_, ?_, ?_⟩
  · simp [t, p, gauge, Mismatch.Broken, Mismatch.own, Mismatch.given, hdiffer]
  · simp [t, p, Mismatch.Broken, Mismatch.own, Mismatch.given, hdiffer]
  · rw [hchange.mismatch_iff]
    decide +kernel
  · obtain ⟨accrued, haccrued, -⟩ := Option.map_eq_some_iff.mp (show
      (Rewarder.initCl 86400 config gauge snapshot Address.zero.text >>= fun opened =>
        Rewarder.accrueCl 172800 opened.config opened.gauge snapshot Address.zero.text
          opened.rewarder).toOption.map Rewarder.ClOutcome.collected = some 0 by decide +kernel)
    rw [toOption_eq_some] at haccrued
    obtain ⟨opened, hopened, haccrued⟩ := bind_eq_ok.mp haccrued
    exact ⟨opened, accrued, hopened, haccrued, ((hcl _ _ _ _ _).kept _ haccrued).2,
      hreached _ (.accrued (.opened hopened) haccrued)⟩

end EmissionLedger
