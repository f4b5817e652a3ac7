import EmissionLedger.Proofs.Layout.Record
import EmissionLedger.Proofs.Number.Text
import EmissionLedger.Proofs.Record.Reading

/-!
What the validation of data can end with. A record that is returned is well-formed, and bad data is
listed item by item. One kind of bad data is not listed: a text for a number that spells a decimal so
large that it cannot be scaled ends the validation with a fault of its own. Only decimals whose leading
digit stands for at least `10 ^ 999987` do, far beyond every number.

Main statements: `validation_outcomes`; `validation_escapes`, a record refused in that third way.
-/

namespace EmissionLedger

/-! ### Decimals that are too large to scale -/

namespace Decimal

/-- The exponent of ten that the leading digit stands for. -/
def leading (d : Decimal) : Int := d.exponent + digitCount d.coefficient - 1

theorem digitCount_mul_scale_le (n : ℕ) : digitCount (n * scale) ≤ digitCount n + Number.places := by
  refine digitCount_le (Nat.add_pos_right _ (by decide)) ?_
  rw [Nat.pow_add]
  exact Nat.mul_lt_mul_of_pos_right (lt_pow_digitCount n) (by decide)

/-- Rounding may carry into one more digit. -/
theorem digitCount_roundTo_le (places n : ℕ) :
    digitCount (roundTo places n).1 + (roundTo places n).2 ≤ digitCount n + 1 := by
  let cut := digitCount n - places
  have hcut : cut ≤ digitCount n := Nat.sub_le _ _
  have hdiv : n / 10 ^ cut < 10 ^ (digitCount n - cut) := by
    rw [Nat.div_lt_iff_lt_mul (Nat.pow_pos (by decide)), ← Nat.pow_add, Nat.sub_add_cancel hcut]
    exact lt_pow_digitCount n
  have hround : divHalfEven n (10 ^ cut) ≤ n / 10 ^ cut + 1 := by
    rw [divHalfEven]
    split
    · exact Nat.le_refl _
    · exact Nat.le_succ _
  have hfew : divHalfEven n (10 ^ cut) < 10 ^ (digitCount n - cut + 1) := by
    have hpos : 0 < 10 ^ (digitCount n - cut) := Nat.pow_pos (by decide)
    rw [Nat.pow_succ]
    omega
  have hcount := digitCount_le (Nat.succ_pos _) hfew
  show digitCount (divHalfEven n (10 ^ cut)) + cut ≤ digitCount n + 1
  omega

end Decimal

namespace Number

/-- The least exponent of ten of a leading digit from which a decimal may be too large to scale. -/
def overflowFrom : Int := maxDecimalExponent - places

/-- The text spells a decimal that may be too large to scale. -/
def Huge (s : String) : Prop :=
  ∃ d, Decimal.parse? s = some (.finite d) ∧ overflowFrom ≤ d.leading

/-- A number out of range is an invalid value in data. -/
theorem ofRaw_faults (raw : Int) :
    FaultsIn (fun e => (restate e).causeKind = .invalidValue) (ofRaw raw) := by
  rw [ofRaw]
  refine .ite (fun _ => .error rfl) fun _ => ?_
  split
  · exact .ok
  · exact .error rfl

/-- Of the faults of a decimal, one is no invalid value: a decimal too large to scale. -/
theorem ofDecimal_faults (shown : Piece) (d : Decimal) :
    FaultsIn (fun e => e = .decimalOverflow ∧ overflowFrom ≤ d.leading ∨
      (restate e).causeKind = .invalidValue) (ofDecimal shown d) := by
  rw [ofDecimal]
  refine .ite (fun _ => .error (.inr rfl)) fun _ => .ite (fun _ => .error (.inr rfl)) fun _ => ?_
  refine .ite (fun hlimit => .error (.inl ⟨rfl, ?_⟩)) fun _ => (ofRaw_faults _).mono fun e he => .inr he
  have hround := Decimal.digitCount_roundTo_le decimalDigits (d.coefficient * scale)
  have hscale := Decimal.digitCount_mul_scale_le d.coefficient
  simp only [Decimal.roundTo] at hround
  rw [overflowFrom, Decimal.leading]
  omega

theorem parse_faults (s : String) :
    FaultsIn (fun e => e = .decimalOverflow ∧ Huge s ∨ (restate e).causeKind = .invalidValue)
      (parse s) := by
  rw [parse]
  cases hliteral : Decimal.parse? s with
  | none => exact .error (.inr rfl)
  | some literal =>
      cases literal with
      | infinite negative => exact .error (.inr rfl)
      | notANumber => exact .error (.inr rfl)
      | finite d =>
          refine (ofDecimal_faults _ d).mono fun e he => he.imp_left fun h => ?_
          exact ⟨h.1, d, hliteral, h.2⟩

theorem wordsOfJson_faults (items : List Json) (i : ℕ) :
    FaultsIn (fun e => (restate e).causeKind = .invalidValue) (wordsOfJson i items) := by
  induction items generalizing i with
  | nil => exact .ok
  | cons v rest ih =>
      cases v with
      | int n =>
          rw [wordsOfJson]
          exact .ite (fun _ => .error rfl) fun _ => .bind (ih _) fun _ _ => .pure
      | _ => exact .error rfl

theorem ofWordsJson_faults (items : List Json) :
    FaultsIn (fun e => (restate e).causeKind = .invalidValue) (ofWordsJson items) := by
  rw [ofWordsJson]
  exact .ite (fun _ => .bind (wordsOfJson_faults items 0) fun _ _ => ofRaw_faults _) fun _ => .error rfl

/-- The data is a text that spells a decimal that may be too large to scale. -/
def SpellsHuge (v : Json) : Prop := ∃ s, v = .str s ∧ Huge s

/-- Data for a number is refused as an invalid value, unless it spells a decimal too large to scale. -/
theorem ofJson_faults (v : Json) :
    FaultsIn (fun e => e = .decimalOverflow ∧ SpellsHuge v ∨ e.causeKind = .invalidValue) (ofJson v) := by
  cases v with
  | str s =>
      refine .mapError ((parse_faults s).mono fun e he => ?_)
      rcases he with ⟨rfl, hhuge⟩ | hinvalid
      · exact .inl ⟨rfl, s, rfl, hhuge⟩
      · exact .inr hinvalid
  | arr items => exact .mapError ((ofWordsJson_faults items).mono fun e he => .inr he)
  | _ => exact .error (.inr rfl)

end Number

/-! ### Parts of data -/

namespace Json

/-- The part of data at a path. -/
def at? : List PathStep → Json → Option Json
  | [], v => some v
  | .field name :: rest, v => (v.member? name).bind (at? rest)
  | .index i :: rest, .arr items => items[i]?.bind (at? rest)
  | .index _ :: _, _ => none

/-- Some part of the data is a text that spells a decimal that may be too large to scale. -/
def HoldsHuge (v : Json) : Prop := ∃ path part, v.at? path = some part ∧ Number.SpellsHuge part

theorem HoldsHuge.of_member {v member : Json} {name : String} (found : v.member? name = some member)
    (h : member.HoldsHuge) : v.HoldsHuge := by
  obtain ⟨path, part, at?_part, huge⟩ := h
  refine ⟨.field name :: path, part, ?_, huge⟩
  rw [at?, found, Option.bind_some, at?_part]

theorem HoldsHuge.of_mem {items : List Json} {item : Json} (h : item ∈ items) (huge : item.HoldsHuge) :
    HoldsHuge (.arr items) := by
  obtain ⟨path, part, at?_part, huge⟩ := huge
  obtain ⟨i, hi, found⟩ := List.mem_iff_getElem.mp h
  refine ⟨.index i :: path, part, ?_, huge⟩
  rw [at?, List.getElem?_eq_getElem hi, found, Option.bind_some, at?_part]

end Json

/-! ### What is read -/

theorem readNumber_overflow {v : Json} (h : readNumber v = .overflow) : v.HoldsHuge := by
  rw [readNumber] at h
  split at h
  · cases h
  · rename_i hfault
    rcases Number.ofJson_faults v _ hfault with ⟨-, huge⟩ | hother
    · exact ⟨[], v, rfl, huge⟩
    · cases hother
  · cases h

namespace Shape

theorem inRange_zero : ∀ {s : ShapeSort} (shape : Shape s), shape.InRange shape.zero
  | _, address | _, number | _, done => trivial
  | _, u64 | _, u16 => Nat.zero_le _
  | _, record _ fields => inRange_zero fields
  | _, field _ _ head rest => ⟨inRange_zero head, inRange_zero rest⟩

/-- What is read keeps its counters within their widths. -/
theorem read_inRange : ∀ {s : ShapeSort} (shape : Shape s) {v : Json} {row : shape.Row},
    shape.read v = .value row → shape.InRange row
  | _, address, _, _, _ => trivial
  | _, u64, _, _, h => readCounter_le h
  | _, u16, _, _, h => readCounter_le h
  | _, number, _, _, _ => trivial
  | _, record _ fields, v, _, h => by
    rw [read] at h
    split at h
    · exact read_inRange fields h
    · cases h
  | _, done, _, _, _ => trivial
  | _, field name optional head rest, v, row, h => by
    obtain ⟨first, others⟩ := Reading.both_eq_value.mp h
    refine ⟨?_, read_inRange rest others⟩
    rw [Reading.under_eq_value] at first
    split at first
    · exact read_inRange head first
    · split at first
      · rw [← Reading.value.inj first]
        exact inRange_zero head
      · cases first

/-- A reading is cut short only by a text in the data. -/
theorem read_overflow : ∀ {s : ShapeSort} (shape : Shape s) {v : Json},
    shape.read v = .overflow → v.HoldsHuge
  | _, address, _, h => absurd h (readAddress_ne_overflow _)
  | _, u64, _, h => absurd h (readCounter_ne_overflow _ _)
  | _, u16, _, h => absurd h (readCounter_ne_overflow _ _)
  | _, number, _, h => readNumber_overflow h
  | _, record _ fields, v, h => by
    rw [read] at h
    split at h
    · exact read_overflow fields h
    · cases h
  | _, done, _, h => by cases h
  | _, field name optional head rest, v, h => by
    rcases Reading.both_eq_overflow.mp h with first | others
    · rw [Reading.under_eq_overflow] at first
      split at first
      · next found => exact (read_overflow head first).of_member found
      · split at first <;> cases first
    · exact read_overflow rest others

end Shape

namespace Form

variable {α : Type} {form : Form α} {v : Json}

theorem read_value {a : α} (h : form.read v = .value a) :
    ∃ row, form.shape.read v = .value row ∧ form.ofRow row = a := by
  obtain ⟨row, found, rfl⟩ := Reading.map_eq_value.mp h
  rw [Shape.read] at found
  split at found
  · exact ⟨row, found, rfl⟩
  · cases found

theorem read_inRange {a : α} (h : form.read v = .value a) : form.shape.InRange (form.toRow a) := by
  obtain ⟨row, found, rfl⟩ := read_value h
  rw [form.toRow_ofRow]
  exact form.shape.read_inRange found

theorem read_overflow (h : form.read v = .overflow) : v.HoldsHuge :=
  (Shape.record none form.shape).read_overflow (Reading.map_eq_overflow.mp h)

end Form

/-! ### Reactors -/

namespace Reactor

variable {v : Json} {r : Reactor}

theorem read_value (h : Reactor.read v = .value r) : form.read v = .value r ∧ unbackedIn? v = none := by
  rw [Reactor.read] at h
  split at h
  · cases h
  · exact ⟨h, ‹_›⟩
  · cases h

/-- A reactor that is read has the stake and the votes that its data was found to back. -/
theorem backed_of_read (h : Reactor.read v = .value r) : r.Backed := by
  obtain ⟨found, unbacked⟩ := read_value h
  obtain ⟨⟨owner, ray, isoRay, lockedVotes, index, rewards, ⟨⟩⟩, fields, rfl⟩ := Form.read_value found
  obtain ⟨-, fields⟩ := Reading.both_eq_value.mp fields
  obtain ⟨readRay, fields⟩ := Reading.both_eq_value.mp fields
  obtain ⟨readIsoRay, fields⟩ := Reading.both_eq_value.mp fields
  obtain ⟨readLocked, -⟩ := Reading.both_eq_value.mp fields
  have stake : stakeShape.read v = .value (ray, isoRay, lockedVotes, ()) :=
    Reading.both_eq_value.mpr ⟨readRay, Reading.both_eq_value.mpr ⟨readIsoRay,
      Reading.both_eq_value.mpr ⟨readLocked, rfl⟩⟩⟩
  simp only [unbackedIn?, stake, ite_eq_left_iff, reduceCtorEq, imp_false, not_not] at unbacked
  exact unbacked

theorem read_overflow (h : Reactor.read v = .overflow) : v.HoldsHuge := by
  rw [Reactor.read] at h
  split at h
  · exact Form.read_overflow ‹_›
  · exact Form.read_overflow h
  · cases h

end Reactor

/-! ### Position snapshots -/

namespace ClPositionSnapshot

theorem collect_eq_value {α : Type} {readings : List (Reading α)} {i : ℕ} {values : List α}
    (h : collect i readings = .value values) : readings = values.map .value := by
  induction readings generalizing i values with
  | nil =>
      cases h
      rfl
  | cons r rest ih =>
      obtain ⟨⟨a, others⟩, both, rfl⟩ := Reading.map_eq_value.mp h
      obtain ⟨first, rest⟩ := Reading.both_eq_value.mp both
      rw [List.map_cons, Reading.under_eq_value.mp first, ih rest]

theorem mem_of_collect_overflow {α : Type} {readings : List (Reading α)} {i : ℕ}
    (h : collect i readings = .overflow) : .overflow ∈ readings := by
  induction readings generalizing i with
  | nil => cases h
  | cons r rest ih =>
      rcases Reading.both_eq_overflow.mp (Reading.map_eq_overflow.mp h) with first | rest
      · rw [Reading.under_eq_overflow.mp first]
        exact List.mem_cons_self
      · exact List.mem_cons_of_mem _ (ih rest)

theorem readRewardInfos_wellFormed {data : Option Json} {infos : List ClRewardInfo}
    (h : readRewardInfos data = .value infos) :
    infos.length ≤ maxRewardInfos ∧ ∀ info ∈ infos, info.WellFormed := by
  rw [readRewardInfos.eq_def] at h
  split at h
  · cases h
    exact ⟨Nat.zero_le _, List.forall_mem_nil _⟩
  · rename_i items
    dsimp only at h
    split at h
    · cases h
    rename_i few
    have values := collect_eq_value h
    rw [values] at few
    constructor
    · have all : (infos.map Reading.value).countP succeeds = infos.length := by
        rw [List.countP_map]
        exact List.countP_eq_length.mpr fun _ _ => rfl
      omega
    · intro info hinfo
      have read : .value info ∈ items.map ClRewardInfo.form.read :=
        values ▸ List.mem_map_of_mem hinfo
      obtain ⟨item, -, found⟩ := List.mem_map.mp read
      exact (Form.read_inRange found).2.1
  · cases h

theorem readRewardInfos_overflow {v : Json} (h : readRewardInfos (v.member? "reward_infos") = .overflow) :
    v.HoldsHuge := by
  rw [readRewardInfos.eq_def] at h
  split at h
  · cases h
  · rename_i items found
    dsimp only at h
    split at h
    · cases h
    obtain ⟨item, hitem, read⟩ := List.mem_map.mp (mem_of_collect_overflow h)
    exact ((Form.read_overflow read).of_mem hitem).of_member found
  · cases h

theorem read_wellFormed {v : Json} {s : ClPositionSnapshot} (h : read v = .value s) : s.WellFormed := by
  rw [read] at h
  split at h
  · obtain ⟨⟨⟨position, pool, ⟨⟩⟩, infos⟩, both, rfl⟩ := Reading.map_eq_value.mp h
    exact readRewardInfos_wellFormed (Reading.under_eq_value.mp (Reading.both_eq_value.mp both).2)
  · cases h

theorem read_overflow {v : Json} (h : read v = .overflow) : v.HoldsHuge := by
  rw [read] at h
  split at h
  · rcases Reading.both_eq_overflow.mp (Reading.map_eq_overflow.mp h) with head | slots
    · exact headShape.read_overflow head
    · exact readRewardInfos_overflow (Reading.under_eq_overflow.mp slots)
  · cases h

end ClPositionSnapshot

/-! ### All kinds -/

namespace RecordKind

variable {kind : RecordKind} {v : Json}

theorem read_wellFormed {a : kind.Carrier} (h : kind.read v = .value a) : kind.WellFormed a := by
  have byForm : ∀ form : Form kind.Carrier, kind.form? = some form → form.read v = .value a →
      kind.brokenRule? a = none → kind.WellFormed a := fun form formed found unbroken =>
    (wellFormed_iff formed a).mpr ⟨Form.read_inRange found, unbroken⟩
  cases kind
  case clPositionSnapshot => exact ClPositionSnapshot.read_wellFormed h
  case reactor =>
    exact byForm _ rfl (Reactor.read_value h).1 (brokenRule?_reactor a |>.mpr (Reactor.backed_of_read h))
  all_goals exact byForm _ rfl h rfl

theorem read_overflow (h : kind.read v = .overflow) : v.HoldsHuge := by
  cases kind
  case clPositionSnapshot => exact ClPositionSnapshot.read_overflow h
  case reactor => exact Reactor.read_overflow h
  all_goals exact Form.read_overflow h

/-- **What validation ends with.** Data of any form is validated to a well-formed record, or it is
rejected with a list of complaints, or some text in it spells a decimal too large to scale and the
validation ends with that fault. Whatever else is wrong with data for a number is an invalid value, which
is listed. -/
theorem validation_outcomes (kind : RecordKind) (v : Json) :
    ((∃ a, kind.validate v = .ok a ∧ kind.WellFormed a) ∨
      (∃ items, kind.validate v = .error (.rejected kind items)) ∨
      kind.validate v = .error .decimalOverflow ∧ v.HoldsHuge) ∧
    ∀ data e, Number.ofJson data = .error e →
      e.kind = .invalidValue ∨ e = .decimalOverflow ∧ Number.SpellsHuge data := by
  constructor
  · rw [validate]
    cases h : kind.read v with
    | value a => exact .inl ⟨a, rfl, read_wellFormed h⟩
    | refused items => exact .inr (.inl ⟨items, rfl⟩)
    | overflow => exact .inr (.inr ⟨rfl, read_overflow h⟩)
  · intro data e h
    rcases Number.ofJson_faults data e h with huge | invalid
    · exact .inr huge
    · rcases e.kind_eq with same | unwritable
      · exact .inl (same.trans invalid)
      · exact .inl unwritable

/-- A reward index of `10 ^ 999990` is neither read nor listed as a complaint. -/
theorem validation_escapes :
    let v : Json := .obj [("last_seen_index", .str "1E999990")]
    ¬((∃ a, rayStakeRewards.validate v = .ok a ∧ rayStakeRewards.WellFormed a) ∨
      ∃ items, rayStakeRewards.validate v = .error (.rejected .rayStakeRewards items)) := by
  intro v
  have escapes : rayStakeRewards.validate v = .error .decimalOverflow := by rfl
  rintro (⟨a, answered, -⟩ | ⟨items, rejected⟩)
  · rw [escapes] at answered
    cases answered
  · rw [escapes] at rejected
    cases rejected

end RecordKind

end EmissionLedger
