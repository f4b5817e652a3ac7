import EmissionLedger.Proofs.Ledger.Operation
import EmissionLedger.Proofs.Number.Text
import EmissionLedger.Proofs.Record.Reading

/-!
The JSON form of a well-formed record is read back as the record. Addresses and numbers are read back
from their texts and counters from their integers; the members that are written for a shape are found
under their names. Reactors and position snapshots, which ask for more than a shape, are read back once
what they ask for is known to hold.

Main statement: `json_round_trip`.
-/

namespace EmissionLedger

/-! ### Shapes -/

theorem readNumber_text (a : Number) : readNumber (.str a.text) = .value a := by
  have found : Number.ofJson (.str a.text) = .ok a := by
    rw [Number.ofJson, a.parse_text]
    rfl
  simp only [readNumber, found]

namespace Shape

/-- Fields are read from the members that they name. -/
theorem read_congr : ∀ (fields : Shape .fields) {members members' : List (String × Json)},
    (∀ name ∈ fields.names, members.lookup name = members'.lookup name) →
    fields.read (.obj members) = fields.read (.obj members')
  | done, _, _, _ => rfl
  | field name _ head rest, members, members', same => by
    rw [names, List.forall_mem_cons] at same
    obtain ⟨first, others⟩ := same
    have others := read_congr rest others
    simp only [read, Json.member?, first, others]

/-- What is written for a row in range is read back as the row. -/
theorem read_write : ∀ {s : ShapeSort} (shape : Shape s) {row : shape.Row},
    shape.distinct = true → shape.InRange row → shape.read (document (shape.write row)) = .value row
  | _, address, a, _, _ => readAddress_text a
  | _, u64, _, _, range => readCounter_of_le range
  | _, u16, _, _, range => readCounter_of_le range
  | _, number, a, _, _ => readNumber_text a
  | _, record _ fields, _, apart, range => read_write fields apart range
  | _, done, _, _, _ => rfl
  | _, field name _ head rest, row, apart, range => by
    obtain ⟨other, apartHead, apartRest⟩ := distinct_field apart
    have first : head.read (head.write row.1) = .value row.1 := read_write head apartHead range.1
    have others : rest.read (.obj (rest.write row.2)) = .value row.2 := read_write rest apartRest range.2
    have skip : rest.read (.obj ((name, head.write row.1) :: rest.write row.2)) =
        rest.read (.obj (rest.write row.2)) := read_congr rest (other _ _)
    simp only [document, write, read, Json.member?, List.lookup_cons, beq_self_eq_true, first, skip,
      others, Reading.under, Reading.both]

end Shape

theorem Form.read_toJson {α : Type} {form : Form α} {a : α} (apart : form.shape.distinct = true)
    (range : form.shape.InRange (form.toRow a)) : form.read (form.toJson a) = .value a := by
  have back : (Shape.record none form.shape).read (form.toJson a) = .value (form.toRow a) :=
    (Shape.record none form.shape).read_write apart range
  rw [Form.read, back, Reading.map, form.ofRow_toRow]

/-! ### Reactors -/

/-- The stake and the votes of a reactor are found in its JSON form. -/
theorem Reactor.unbackedIn?_toJson {r : Reactor} (good : r.WellFormed) :
    unbackedIn? (form.toJson r) = none := by
  obtain ⟨ray, isoRay, lockedVotes, -, backed⟩ := good
  have found : stakeShape.read (form.toJson r) =
      stakeShape.read (.obj (stakeShape.write (r.ray, r.isoRay, r.lockedVotes, ()))) := by
    refine Shape.read_congr stakeShape fun name named => ?_
    simp only [stakeShape, Shape.names, List.mem_cons, List.not_mem_nil, or_false] at named
    rcases named with rfl | rfl | rfl <;>
      simp [stakeShape, Reactor.form, Shape.write, List.lookup_cons]
  have apart : stakeShape.distinct = true := by simp [stakeShape, Shape.distinct, Shape.names]
  have stake : stakeShape.read (form.toJson r) = .value (r.ray, r.isoRay, r.lockedVotes, ()) :=
    found.trans (stakeShape.read_write apart ⟨ray, isoRay, lockedVotes, trivial⟩)
  simp only [unbackedIn?, stake]
  exact if_pos backed

/-! ### Position snapshots -/

namespace ClPositionSnapshot

theorem collect_values {α : Type} (values : List α) (i : ℕ) :
    collect i (values.map Reading.value) = .value values := by
  induction values generalizing i with
  | nil => rfl
  | cons a rest ih => simp only [List.map_cons, collect, ih, Reading.under, Reading.both, Reading.map]

theorem readRewardInfos_toJson {infos : List ClRewardInfo} (few : infos.length ≤ maxRewardInfos)
    (good : ∀ info ∈ infos, info.WellFormed) :
    readRewardInfos (some (.arr (infos.map ClRewardInfo.form.toJson))) = .value infos := by
  have formed : RecordKind.clRewardInfo.form? = some ClRewardInfo.form := rfl
  have back : (infos.map ClRewardInfo.form.toJson).map ClRewardInfo.form.read =
      infos.map Reading.value := by
    rw [List.map_map]
    refine List.map_congr_left fun info hinfo => ?_
    exact Form.read_toJson (RecordKind.distinct_of_form? formed) ⟨trivial, good info hinfo, trivial⟩
  have fits : ¬maxRewardInfos < (infos.map Reading.value).countP succeeds :=
    Nat.not_lt.mpr ((List.countP_le_length).trans (by rwa [List.length_map]))
  simp only [readRewardInfos, back, if_neg fits, collect_values]

theorem read_toJson {s : ClPositionSnapshot} (good : s.WellFormed) : read s.toJson = .value s := by
  have found : headShape.read s.toJson =
      headShape.read (.obj (headShape.write (s.position, s.pool, ()))) := by
    refine Shape.read_congr headShape fun name named => ?_
    simp only [headShape, Shape.names, List.mem_cons, List.not_mem_nil, or_false] at named
    rcases named with rfl | rfl <;> simp [headShape, Shape.write, List.lookup_cons]
  have apart : headShape.distinct = true := by simp [headShape, Shape.distinct, Shape.names]
  have head : headShape.read s.toJson = .value (s.position, s.pool, ()) :=
    found.trans (headShape.read_write apart ⟨trivial, trivial, trivial⟩)
  have slots : s.toJson.member? "reward_infos" =
      some (.arr (s.rewardInfos.map ClRewardInfo.form.toJson)) := by
    simp [toJson, headShape, Shape.write, Json.member?, List.lookup_cons]
  have object : s.toJson.isObject = true := rfl
  simp only [read, object, if_true, head, slots, readRewardInfos_toJson good.1 good.2, Reading.under,
    Reading.both, Reading.map]

end ClPositionSnapshot

/-! ### All kinds -/

/-- A well-formed record is read back from its JSON form. -/
theorem RecordKind.read_toJson {kind : RecordKind} {a : kind.Carrier} (good : kind.WellFormed a) :
    kind.read (kind.toJson a) = .value a := by
  have byForm : ∀ form : Form kind.Carrier, kind.form? = some form →
      form.read (form.toJson a) = .value a := fun form formed =>
    Form.read_toJson (distinct_of_form? formed) ((wellFormed_iff formed a).mp good).1
  cases kind
  case clPositionSnapshot => exact ClPositionSnapshot.read_toJson good
  case reactor =>
    have back := byForm Reactor.form rfl
    simp only [read, toJson, Reactor.read, back, Reactor.unbackedIn?_toJson good]
  all_goals exact byForm _ rfl

theorem RecordKind.form?_of_isStored {kind : RecordKind} (stored : kind.isStored = true) :
    ∃ form, kind.form? = some form := by
  cases kind <;> first | exact ⟨_, rfl⟩ | cases stored

/-- **Records persist.** Every well-formed record of every kind is read back from its JSON form. If its
kind is stored, the kind's contract accepts that form, and loading it returns the record. -/
theorem json_round_trip (r : Record) (good : r.WellFormed) :
    r.kind.validate r.toJson = .ok r.value ∧
      (r.kind.isStored = true →
        ∃ data, r.toContractJson = .ok data ∧ Record.load r.kind data = .ok r) := by
  have back : r.kind.validate r.toJson = .ok r.value := by
    rw [RecordKind.validate, Record.toJson, RecordKind.read_toJson good]
  refine ⟨back, fun stored => ?_⟩
  obtain ⟨form, formed⟩ := RecordKind.form?_of_isStored stored
  have written : r.toContractJson = .ok r.toJson :=
    Record.toContractJson_of_inRange stored formed ((RecordKind.wellFormed_iff formed _).mp good).1
  refine ⟨r.toJson, written, ?_⟩
  simp only [Record.toContractJson, bind_eq_ok] at written
  obtain ⟨contract, found, _, accepted, -⟩ := written
  simp only [Record.load, bind_eq_ok]
  exact ⟨contract, found, (), accepted, r.value, back, rfl⟩

/-- A reactor whose indices have places after the point, in a contract; a view of a position, which has
none. -/
theorem json_round_trip_reactor :
    let r : Record := ⟨.reactor, ⟨.zero, 3, 2, 5, ⟨1500000000000, by decide⟩, ⟨⟨1, by decide⟩, 7⟩⟩⟩
    let view : Record := ⟨.clPositionSnapshot, ⟨.zero, .zero, [⟨.zero, 1⟩, ⟨.zero, maxU64⟩]⟩⟩
    r.WellFormed ∧ r.kind.isStored = true ∧
      (∃ data, r.toContractJson = .ok data ∧ Record.load r.kind data = .ok r) ∧
      view.WellFormed ∧ view.kind.validate view.toJson = .ok view.value := by
  intro r view
  have good : r.WellFormed := by
    have counters : 3 ≤ maxU64 ∧ 2 ≤ maxU64 ∧ 5 ≤ maxU64 ∧ 7 ≤ maxU64 ∧ 5 ≤ 3 + 2 := by decide
    exact counters
  have goodView : view.WellFormed := by
    have slots : ∀ info ∈ ([⟨.zero, 1⟩, ⟨.zero, maxU64⟩] : List ClRewardInfo),
        info.rewardAmountOwed ≤ maxU64 := by decide
    exact ⟨by decide, slots⟩
  exact ⟨good, rfl, (json_round_trip r good).2 rfl, goodView, (json_round_trip view goodView).1⟩

end EmissionLedger
