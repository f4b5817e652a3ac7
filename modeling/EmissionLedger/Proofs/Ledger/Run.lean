import EmissionLedger.Proofs.Ledger.Arithmetic
import EmissionLedger.Proofs.Run

/-!
Runs of the whole ledger. Operations are made one after another from nothing, each on records that
earlier ones have returned, in any combination and however old; only views of concentrated-liquidity
positions come from outside. All records that ever come up have headroom, so no number of the ledger
leaves its range.

Main statements: `records_headroom` and `arithmetic_faults_of_counters`.
-/

namespace EmissionLedger

instance (time : Option Int) : Decidable (InTime time) :=
  inferInstanceAs (Decidable (∀ now ∈ time, 0 ≤ now ∧ now ≤ (maxU64 : Int)))

instance (info : ClRewardInfo) : Decidable info.WellFormed := inferInstanceAs (Decidable (_ ≤ _))

instance (s : ClPositionSnapshot) : Decidable s.WellFormed := inferInstanceAs (Decidable (_ ∧ _))

/-- Whether a record can be handed over: it was returned before, or it is a well-formed view from
outside. -/
inductive Record.AtHand (known : List Record) : Record → Prop where
  | returned {r : Record} (h : r ∈ known) : AtHand known r
  | view {s : ClPositionSnapshot} (h : s.WellFormed) : AtHand known ⟨.clPositionSnapshot, s⟩

/-- The view that a record is, if it is one. -/
def Record.view? : Record → Option ClPositionSnapshot
  | ⟨.clPositionSnapshot, s⟩ => some s
  | _ => none

theorem Record.view?_eq_some {r : Record} {s : ClPositionSnapshot} :
    r.view? = some s ↔ r = ⟨.clPositionSnapshot, s⟩ := by
  obtain ⟨kind, a⟩ := r
  cases kind <;> simp [view?]

theorem Record.atHand_iff {known : List Record} {r : Record} :
    r.AtHand known ↔ r ∈ known ∨ ∃ s ∈ r.view?, s.WellFormed := by
  constructor
  · rintro (h | h)
    · exact .inl h
    · exact .inr ⟨_, rfl, h⟩
  · rintro (h | ⟨s, hs, h⟩)
    · exact .returned h
    · rw [view?_eq_some.mp hs]
      exact .view h

instance (known : List Record) (r : Record) : Decidable (r.AtHand known) :=
  decidable_of_iff _ Record.atHand_iff.symm

/-- All records after an operation at a time of 64 bits on records at hand. -/
def Operation.step (known : List Record) (op : Operation) : Option (List Record) :=
  if InTime op.time ∧ ∀ r ∈ op.records, r.AtHand known then op.run.toOption.map (· ++ known) else none

variable {known : List Record} {op : Operation}

theorem Operation.step_ok {known' : List Record} (h : op.step known = some known') :
    InTime op.time ∧ (∀ r ∈ op.records, r.AtHand known) ∧
      ∃ out, op.run = .ok out ∧ known' = out ++ known := by
  rw [step] at h
  split at h
  · rename_i hcall
    rw [Option.map_eq_some_iff] at h
    obtain ⟨out, hrun, rfl⟩ := h
    exact ⟨hcall.1, hcall.2, out, toOption_eq_some.mp hrun, rfl⟩
  · cases h

theorem Record.AtHand.headroom {r : Record} (h : r.AtHand known) (hknown : ∀ r ∈ known, r.Headroom) :
    r.Headroom := by
  cases h with
  | returned h => exact hknown r h
  | view h => exact h

/-- An operation on records at hand returns records with headroom, if all had it. -/
theorem Operation.step_headroom {known' : List Record} (h : op.step known = some known')
    (hknown : ∀ r ∈ known, r.Headroom) : ∀ r ∈ known', r.Headroom := by
  obtain ⟨time, handed, out, hrun, rfl⟩ := step_ok h
  have hout := run_headroom time (fun r hr => (handed r hr).headroom hknown) hrun
  exact List.forall_mem_append.mpr ⟨hout, hknown⟩

/-- All records that operations have returned. -/
def recordsAfter (ops : List Operation) : List Record := run (fun known op => op.step known) [] ops

theorem records_headroom (ops : List Operation) : ∀ r ∈ recordsAfter ops, r.Headroom :=
  run_invariant (fun _ _ _ hknown hstep => Operation.step_headroom hstep hknown) ops
    (List.forall_mem_nil _)

/-- **Arithmetic faults come from counters alone.** After any operations from nothing, an operation at a
time of 64 bits on records at hand that is refused by a fault of arithmetic is refused by a counter of 64
bits. No sum, product, quotient or rounding of numbers is ever refused. -/
theorem arithmetic_faults_of_counters (earlier : List Operation) {op : Operation} (time : InTime op.time)
    (handed : ∀ r ∈ op.records, r.AtHand (recordsAfter earlier)) {e : Fault} (h : op.run = .error e)
    (arithmetic : e.IsArithmetic) : e.OfCounter :=
  have headroom : ∀ r ∈ op.records, r.Headroom :=
    fun r hr => (handed r hr).headroom (records_headroom earlier)
  (Operation.run_countersOnly time headroom e h).ofCounter arithmetic

/-- One vote earns all of the largest emission for two days, which no counter of RAY can hold. -/
theorem arithmetic_faults_of_counters_two_days :
    let address : Json := .str Address.zero.text
    let r : Reactor := ⟨.zero, 0, 0, 0, .zero, ⟨.zero, 0⟩⟩
    let config : GaugeConfig := ⟨0, maxU64, .zero, 0⟩
    let gauge : Gauge := ⟨.zero, 0, .zero, 0⟩
    let earlier : List Operation := [
      .staking (.initReactorConfig none none (.int 0)), .staking (.initReactor address),
      .staking (.depositRay 0 ⟨0, 0, .zero, 0, .zero, 0⟩ r (.int 1)),
      .emission (.initGaugeConfig (some (.int maxU64)) (.int 0)),
      .emission (.initPoolGauge 0 config address), .emission (.initPersonalGauge address gauge),
      .emission (.changeVotes 0 config gauge ⟨.zero, .zero, 0⟩ (.int 1) (.inl { r with ray := 1 }))]
    let op : Operation :=
      .emission (.syncPoolIndex 172800 { config with totalVotes := 1 } { gauge with totalVotes := 1 })
    InTime op.time ∧ (∀ r ∈ op.records, r.AtHand (recordsAfter earlier)) ∧
      ∃ e, op.run = .error e ∧ e.IsArithmetic ∧ e.OfCounter := by
  intro address r config gauge earlier op
  have time : InTime op.time := by decide
  have handed : ∀ r ∈ op.records, r.AtHand (recordsAfter earlier) := by decide +kernel
  have refused : ∃ e ∈ fault? op.run, e.IsArithmetic := by decide +kernel
  obtain ⟨e, he, arithmetic⟩ := refused
  have hrun : op.run = .error e := fault?_eq_some.mp he
  exact ⟨time, handed, e, hrun, arithmetic,
    arithmetic_faults_of_counters earlier time handed hrun arithmetic⟩

end EmissionLedger
