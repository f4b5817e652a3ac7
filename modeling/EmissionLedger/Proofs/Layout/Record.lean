import EmissionLedger.Layout.Record
import EmissionLedger.Proofs.Layout.Codec
import EmissionLedger.Proofs.Outcome
import Mathlib.Data.List.Nodup

/-!
Records and their bytes are in bijection, kind by kind. The bytes of a record are its kind's
discriminator and the bytes of its row, so the laws of rows carry over once well-formed records are
known to be those whose row is in range and that break no rule of their kind. Discriminators tell the
kinds apart.

Main statement: `layouts_biject`.
-/

namespace EmissionLedger

/-! ### Discriminators -/

theorem Sha256.length_bigEndian (width n : Nat) : (Sha256.bigEndian width n).length = width := by
  induction width generalizing n with
  | zero => rfl
  | succ width ih => simp [Sha256.bigEndian, ih]

theorem Sha256.length_digest (message : List UInt8) : (Sha256.digest message).length = 32 := by
  simp [Sha256.digest, Sha256.length_bigEndian]

theorem length_discriminator (name : String) : (discriminator name).length = discriminatorBytes := by
  simp [discriminator, Sha256.length_digest, discriminatorBytes]

/-- No two kinds have one discriminator. -/
theorem discriminator_injective {kind other : RecordKind}
    (same : discriminator kind.name = discriminator other.name) : kind = other := by
  have apart : (RecordKind.all.map fun kind => discriminator kind.name).Nodup := by decide +kernel
  exact List.inj_on_of_nodup_map apart kind.mem_all other.mem_all same

/-! ### Forms -/

namespace Form

variable {α : Type} {form : Form α} {a : α} {data : List UInt8}

/-- A record whose row is in range is written in the bytes of its size and read back. -/
theorem encode_of_inRange (range : form.shape.InRange (form.toRow a)) :
    ∃ data, form.encode a = .ok data ∧ data.length = form.recordSize ∧ form.decode data = .ok a := by
  obtain ⟨row, written, size, read⟩ := form.shape.encode_of_inRange range
  have front := length_discriminator form.kind.name
  have hlen : (discriminator form.kind.name ++ row).length = form.recordSize := by
    simp only [List.length_append, front, size, recordSize]
  refine ⟨discriminator form.kind.name ++ row, by simp only [encode, written], hlen, ?_⟩
  simp only [decode, hlen, ne_eq, not_true_eq_false, if_false, List.take_left' front,
    List.drop_left' front, read, form.ofRow_toRow]

/-- A record whose row is not in range has no bytes. -/
theorem encode_of_not_inRange (outside : ¬form.shape.InRange (form.toRow a)) :
    form.encode a = .error .fieldTooWide := by
  cases written : form.shape.encode (form.toRow a) with
  | none => simp only [encode, written]
  | some row => exact absurd (form.shape.inRange_of_encode written) outside

/-- Bytes of the size of a record behind the right discriminator are read. -/
theorem decode_of_length (hlen : data.length = form.recordSize)
    (front : data.take discriminatorBytes = discriminator form.kind.name) :
    ∃ row, form.shape.decode? (data.drop discriminatorBytes) = some row ∧
      form.decode data = .ok (form.ofRow row) ∧ form.shape.InRange row ∧
      form.encode (form.ofRow row) = .ok data := by
  have size : (data.drop discriminatorBytes).length = form.shape.size := by
    simp only [List.length_drop, hlen, recordSize]; omega
  obtain ⟨row, read, range, written⟩ := form.shape.decode?_of_length size
  refine ⟨row, read, ?_, range, ?_⟩
  · simp only [decode, hlen, front, ne_eq, not_true_eq_false, if_false, read]
  · simp only [encode, form.toRow_ofRow, written, ← front, List.take_append_drop]

/-- Bytes that are read have the size of a record and its discriminator. -/
theorem decode_ok (h : form.decode data = .ok a) :
    data.length = form.recordSize ∧ data.take discriminatorBytes = discriminator form.kind.name := by
  unfold decode at h
  split at h
  · cases h
  · next hlen =>
    split at h
    · cases h
    · next front => exact ⟨not_not.mp hlen, not_not.mp front⟩

end Form

/-! ### Kinds -/

namespace RecordKind

variable {kind : RecordKind} {data : List UInt8}

/-- The kinds with a layout are laid out by the form of their records. -/
theorem layout_of_hasLayout (laid : kind.hasLayout = true) : ∃ form, kind.layout = .ok form := by
  cases kind <;> first | exact ⟨_, rfl⟩ | cases laid

theorem form?_of_layout {form : Form kind.Carrier} (laidOut : kind.layout = .ok form) :
    kind.form? = some form ∧ form.kind = kind := by
  cases kind <;> cases laidOut <;> exact ⟨rfl, rfl⟩

/-- A record is well-formed if its row is in range and it breaks no rule of its kind. -/
theorem wellFormed_iff {form : Form kind.Carrier} (formed : kind.form? = some form) (a : kind.Carrier) :
    kind.WellFormed a ↔ form.shape.InRange (form.toRow a) ∧ kind.brokenRule? a = none := by
  cases kind <;> cases formed
  case reactor =>
    have backed : Reactor.unbackedItem? a = none ↔ a.Backed := by
      unfold Reactor.unbackedItem?; split <;> simp_all
    simp only [WellFormed, Reactor.WellFormed, RayStakeRewards.WellFormed, brokenRule?, backed,
      Shape.InRange, Reactor.form, RayStakeRewards.form, true_and, and_true, and_assoc]
  all_goals
    simp [WellFormed, TimeTracker.WellFormed, PersonalPosition.WellFormed, GaugeConfig.WellFormed,
      Gauge.WellFormed, PersonalGauge.WellFormed, PersonalRewarderState.WellFormed,
      PersonalRewarderCp.WellFormed, PersonalRewarderCl.WellFormed, ClRewardInfo.WellFormed,
      ReactorConfig.WellFormed, RayStakeRewards.WellFormed, brokenRule?, Shape.InRange,
      TimeTracker.form, PersonalPosition.form, GaugeConfig.form, Gauge.form, PersonalGauge.form,
      PersonalRewarderState.form, PersonalRewarderCp.form, PersonalRewarderCl.form, ClRewardInfo.form,
      ReactorConfig.form, RayStakeRewards.form]

theorem decodeBy_eq_ok {form : Form kind.Carrier} {a : kind.Carrier} :
    kind.decodeBy form data = .ok a ↔ form.decode data = .ok a ∧ kind.brokenRule? a = none := by
  unfold decodeBy
  rw [bind_eq_ok]
  constructor
  · rintro ⟨b, read, kept⟩
    split at kept
    · next unbroken => cases kept; exact ⟨read, unbroken⟩
    · cases kept
  · rintro ⟨read, unbroken⟩
    refine ⟨a, read, ?_⟩
    rw [unbroken]; rfl

/-- Bytes of the size of a record behind its kind's discriminator are read if no rule is broken. -/
theorem decodeBy_of_length {form : Form kind.Carrier} (formed : kind.form? = some form)
    (named : form.kind = kind) (hlen : data.length = form.recordSize)
    (front : data.take discriminatorBytes = discriminator kind.name) :
    ∃ row, form.shape.decode? (data.drop discriminatorBytes) = some row ∧
      form.decode data = .ok (form.ofRow row) ∧ form.encode (form.ofRow row) = .ok data ∧
      (kind.WellFormed (form.ofRow row) ↔ kind.brokenRule? (form.ofRow row) = none) := by
  obtain ⟨row, read, decoded, range, encoded⟩ := form.decode_of_length hlen (named.symm ▸ front)
  refine ⟨row, read, decoded, encoded, ?_⟩
  rw [wellFormed_iff formed, form.toRow_ofRow]
  exact and_iff_right range

end RecordKind

/-! ### A reactor's stake and votes in its bytes -/

/-- The counter in the eight bytes at an offset. -/
def counterAt (data : List UInt8) (offset : Nat) : Nat := ofLittleEndian ((data.drop offset).take 8)

/-- A reactor's RAY, isoRAY and locked votes stand behind its discriminator and its owner. -/
theorem Reactor.counters_of_decode? {data : List UInt8} {row : Reactor.form.shape.Row}
    (read : Reactor.form.shape.decode? (data.drop discriminatorBytes) = some row) :
    (Reactor.form.ofRow row).ray = counterAt data 40 ∧
      (Reactor.form.ofRow row).isoRay = counterAt data 48 ∧
      (Reactor.form.ofRow row).lockedVotes = counterAt data 56 := by
  obtain ⟨-, others⟩ := Shape.decode?_field.mp read
  obtain ⟨ray, others⟩ := Shape.decode?_field.mp others
  obtain ⟨isoRay, others⟩ := Shape.decode?_field.mp others
  obtain ⟨lockedVotes, -⟩ := Shape.decode?_field.mp others
  simp only [Shape.decode?, Shape.size, List.drop_drop, Option.some.injEq] at ray isoRay lockedVotes
  exact ⟨ray.symm, isoRay.symm, lockedVotes.symm⟩

theorem RecordKind.brokenRule?_reactor (r : Reactor) :
    RecordKind.reactor.brokenRule? r = none ↔ r.lockedVotes ≤ r.ray + r.isoRay := by
  show (if r.Backed then none else _) = none ↔ _
  split <;> simp_all [Reactor.Backed, Reactor.votePower]

/-! ### The bijection -/

namespace Record

variable {kind other : RecordKind} {form : Form kind.Carrier} {data : List UInt8}

theorem encodeAs_eq (laidOut : kind.layout = .ok form) (a : kind.Carrier) :
    encodeAs kind ⟨kind, a⟩ = form.encode a := by
  simp only [encodeAs, laidOut, if_true]; rfl

theorem decodeAs_eq_ok (laidOut : kind.layout = .ok form) {r : Record} :
    decodeAs kind data = .ok r ↔ ∃ a, kind.decodeBy form data = .ok a ∧ r = ⟨kind, a⟩ := by
  simp only [decodeAs, laidOut, bind_eq_ok, pure_eq_ok, Except.ok.injEq, exists_eq_left']
  simp only [eq_comm]

theorem encode_eq_encodeAs (stored : kind.isStored = true) (a : kind.Carrier) :
    encode ⟨kind, a⟩ = encodeAs kind ⟨kind, a⟩ := by
  cases laidOut : kind.layout with
  | error e => simp only [encode, encodeAs, RecordKind.storedLayout, stored, laidOut, if_true]; rfl
  | ok form =>
    rw [encodeAs_eq laidOut]
    simp only [encode, RecordKind.storedLayout, stored, laidOut, if_true]; rfl

theorem decode_eq_decodeAs (stored : kind.isStored = true) : decode kind data = decodeAs kind data := by
  simp only [decode, decodeAs, RecordKind.storedLayout, stored, if_true]

/-- A well-formed record is written in the bytes of its kind's size and read back. -/
theorem encodeAs_of_wellFormed (laidOut : kind.layout = .ok form) {a : kind.Carrier}
    (good : kind.WellFormed a) :
    ∃ data, encodeAs kind ⟨kind, a⟩ = .ok data ∧ data.length = form.recordSize ∧
      decodeAs kind data = .ok ⟨kind, a⟩ := by
  obtain ⟨formed, -⟩ := RecordKind.form?_of_layout laidOut
  obtain ⟨range, unbroken⟩ := (RecordKind.wellFormed_iff formed a).mp good
  obtain ⟨data, written, size, read⟩ := form.encode_of_inRange range
  refine ⟨data, (encodeAs_eq laidOut a).trans written, size, ?_⟩
  exact (decodeAs_eq_ok laidOut).mpr ⟨a, RecordKind.decodeBy_eq_ok.mpr ⟨read, unbroken⟩, rfl⟩

/-- What is read from bytes is well-formed, and the bytes are its own. -/
theorem decodeAs_ok {r : Record} (read : decodeAs kind data = .ok r) :
    ∃ form row, kind.layout = .ok form ∧ data.length = form.recordSize ∧
      data.take discriminatorBytes = discriminator kind.name ∧
      form.shape.decode? (data.drop discriminatorBytes) = some row ∧ r = ⟨kind, form.ofRow row⟩ ∧
      kind.brokenRule? (form.ofRow row) = none ∧ kind.WellFormed (form.ofRow row) ∧
      encodeAs kind r = .ok data := by
  obtain ⟨form, laidOut, -⟩ := bind_eq_ok.mp read
  obtain ⟨formed, named⟩ := RecordKind.form?_of_layout laidOut
  obtain ⟨a, byForm, rfl⟩ := (decodeAs_eq_ok laidOut).mp read
  obtain ⟨decoded, unbroken⟩ := RecordKind.decodeBy_eq_ok.mp byForm
  obtain ⟨size, front⟩ := Form.decode_ok decoded
  rw [named] at front
  obtain ⟨row, readRow, decoded', written, good⟩ :=
    RecordKind.decodeBy_of_length formed named size front
  obtain rfl : form.ofRow row = a := Except.ok.inj (decoded'.symm.trans decoded)
  exact ⟨form, row, laidOut, size, front, readRow, rfl, unbroken, good.mpr unbroken,
    (encodeAs_eq laidOut _).trans written⟩

end Record

/-- What a kind asks of bytes of the right length behind the right discriminator: that its rule holds.
Only reactors have one. -/
theorem RecordKind.brokenRule?_eq_none {kind : RecordKind} {form : Form kind.Carrier}
    {data : List UInt8} {row : form.shape.Row} (formed : kind.form? = some form)
    (read : form.shape.decode? (data.drop discriminatorBytes) = some row) :
    kind.brokenRule? (form.ofRow row) = none ↔
      (kind = .reactor → counterAt data 56 ≤ counterAt data 40 + counterAt data 48) := by
  cases kind <;> cases formed
  case reactor =>
    obtain ⟨ray, isoRay, lockedVotes⟩ := Reactor.counters_of_decode? read
    rw [brokenRule?_reactor, ray, isoRay, lockedVotes]
    simp
  all_goals simp [brokenRule?]

/-- **Byte layouts are bijections.** Every well-formed record of a kind with a layout is written in
exactly the bytes of its kind's size and read back; whatever is read from bytes is well-formed and is
written in those bytes. Bytes are read just when they have that size, start with the discriminator of
the kind and, for a reactor, lock no more votes than RAY and isoRAY stand before them. No bytes are
read as records of two kinds. Stored kinds are written and read that way also where the layout is
looked up by the kind. -/
theorem layouts_biject (kind : RecordKind) (laid : kind.hasLayout = true) :
    ∃ form : Form kind.Carrier, kind.layout = .ok form ∧
      (∀ a, kind.WellFormed a → ∃ data, Record.encodeAs kind ⟨kind, a⟩ = .ok data ∧
        data.length = form.recordSize ∧ Record.decodeAs kind data = .ok ⟨kind, a⟩) ∧
      (∀ data r, Record.decodeAs kind data = .ok r →
        (∃ a, r = ⟨kind, a⟩ ∧ kind.WellFormed a) ∧ Record.encodeAs kind r = .ok data) ∧
      (∀ data, (∃ r, Record.decodeAs kind data = .ok r) ↔
        data.length = form.recordSize ∧ data.take discriminatorBytes = discriminator kind.name ∧
          (kind = .reactor → counterAt data 56 ≤ counterAt data 40 + counterAt data 48)) ∧
      (∀ other data r r', Record.decodeAs kind data = .ok r → Record.decodeAs other data = .ok r' →
        kind = other) ∧
      (kind.isStored = true → (∀ a, Record.encode ⟨kind, a⟩ = Record.encodeAs kind ⟨kind, a⟩) ∧
        ∀ data, Record.decode kind data = Record.decodeAs kind data) := by
  obtain ⟨form, laidOut⟩ := RecordKind.layout_of_hasLayout laid
  obtain ⟨formed, named⟩ := RecordKind.form?_of_layout laidOut
  refine ⟨form, laidOut, fun a good => Record.encodeAs_of_wellFormed laidOut good,
    fun data r read => ?_, fun data => ⟨?_, ?_⟩, fun other data r r' read read' => ?_,
    fun stored => ⟨Record.encode_eq_encodeAs stored, fun _ => Record.decode_eq_decodeAs stored⟩⟩
  · obtain ⟨form', row, -, -, -, -, rfl, -, good, written⟩ := Record.decodeAs_ok read
    exact ⟨⟨_, rfl, good⟩, written⟩
  · rintro ⟨r, read⟩
    obtain ⟨form', row, laidOut', size, front, readRow, -, unbroken, -⟩ := Record.decodeAs_ok read
    obtain rfl : form' = form := Except.ok.inj (laidOut'.symm.trans laidOut)
    exact ⟨size, front, (RecordKind.brokenRule?_eq_none formed readRow).mp unbroken⟩
  · rintro ⟨size, front, backed⟩
    obtain ⟨row, readRow, decoded, -, -⟩ := RecordKind.decodeBy_of_length formed named size front
    have unbroken := (RecordKind.brokenRule?_eq_none formed readRow).mpr backed
    exact ⟨_, (Record.decodeAs_eq_ok laidOut).mpr
      ⟨_, RecordKind.decodeBy_eq_ok.mpr ⟨decoded, unbroken⟩, rfl⟩⟩
  · obtain ⟨-, -, -, -, front, -⟩ := Record.decodeAs_ok read
    obtain ⟨-, -, -, -, front', -⟩ := Record.decodeAs_ok read'
    exact discriminator_injective (front.symm.trans front')

/-- A reactor whose owner is the zero address, with 3 RAY, 2 isoRAY and 5 locked votes, has 136 bytes
and is read back from them. -/
theorem layouts_biject_reactor :
    let r : Reactor := ⟨Address.zero, 3, 2, 5, Number.zero, ⟨Number.zero, 0⟩⟩
    RecordKind.reactor.hasLayout = true ∧ ∃ data, Record.encodeAs .reactor ⟨.reactor, r⟩ = .ok data ∧
      data.length = 136 ∧ Record.decodeAs .reactor data = .ok ⟨.reactor, r⟩ ∧
      Record.encode ⟨.reactor, r⟩ = .ok data := by
  intro r
  obtain ⟨form, laidOut, writes, -, -, -, stored⟩ := layouts_biject .reactor rfl
  obtain rfl : Reactor.form = form := Except.ok.inj laidOut
  obtain ⟨data, written, size, read⟩ :=
    writes r ⟨by decide, by decide, by decide, Nat.zero_le _, by decide⟩
  exact ⟨rfl, data, written, size.trans (by decide), read, ((stored rfl).1 r).trans written⟩

end EmissionLedger
