import EmissionLedger.Layout.Codec
import EmissionLedger.Proofs.Layout.Bytes

/-!
Rows and bytes are in bijection. A row in range is written in the bytes of its size and read back, and
any bytes of that size are read as a row in range whose bytes they are. Both are inductions over the
shape: a field's value stands in front of the rest, so writing appends and reading cuts at the size
of the field.

Main statements: `Shape.encode_of_inRange`, `Shape.inRange_of_encode` and `Shape.decode?_of_length`.
-/

namespace EmissionLedger.Shape

/-! ### Values -/

theorem encodeCounter_of_lt {width n : Nat} (fits : n < Nat.pow 256 width) :
    encodeCounter width n = some (littleEndian width n) := if_pos fits

/-- The bytes of a counter are written for the counter read from them. -/
theorem encodeCounter_ofLittleEndian {width : Nat} {data : List UInt8} (hlen : data.length = width) :
    encodeCounter width (ofLittleEndian data) = some data := by
  subst hlen
  rw [encodeCounter_of_lt (ofLittleEndian_lt data), littleEndian_ofLittleEndian]

theorem ofLittleEndian_lt_of_length {width : Nat} {data : List UInt8} (hlen : data.length = width) :
    ofLittleEndian data < Nat.pow 256 width := hlen ▸ ofLittleEndian_lt data

/-- A number is read back from its bytes. -/
theorem decodeNumber?_bytes (a : Number) : decodeNumber? a.bytes = some a := by
  have fits : a.raw < Nat.pow 256 Number.byteCount :=
    Nat.lt_of_le_of_lt a.raw_le (by decide +kernel)
  have back : ofLittleEndian a.bytes = a.raw := ofLittleEndian_littleEndian fits
  rw [decodeNumber?, dif_pos (by rw [back]; exact a.raw_le)]
  exact congrArg some (Number.ext back)

/-- Every 32 bytes are the bytes of a number. -/
theorem decodeNumber?_of_length {data : List UInt8} (hlen : data.length = Number.byteCount) :
    ∃ a, decodeNumber? data = some a ∧ a.bytes = data := by
  have fits : ofLittleEndian data ≤ maxRaw :=
    Nat.le_sub_one_of_lt (Nat.lt_of_lt_of_le (ofLittleEndian_lt_of_length hlen) (by decide +kernel))
  refine ⟨⟨ofLittleEndian data, fits⟩, dif_pos fits, ?_⟩
  rw [Number.bytes, ← hlen, littleEndian_ofLittleEndian]

/-! ### Rows -/

/-- The bytes of a row are those of its first field and those of the others. -/
theorem decode?_field {name : String} {optional : Bool} {head : Shape .value} {rest : Shape .fields}
    {data : List UInt8} {row : (field name optional head rest).Row} :
    (field name optional head rest).decode? data = some row ↔
      head.decode? (data.take head.size) = some row.1 ∧ rest.decode? (data.drop head.size) = some row.2 := by
  simp only [decode?, Option.bind_eq_bind, Option.bind_eq_some_iff, Option.pure_def, Option.some.injEq]
  constructor
  · rintro ⟨first, readFirst, others, readRest, rfl⟩
    exact ⟨readFirst, readRest⟩
  · rintro ⟨readFirst, readRest⟩
    exact ⟨row.1, readFirst, row.2, readRest, rfl⟩

/-- A row in range has bytes, as many as its size, from which it is read back. -/
theorem encode_of_inRange : ∀ {s : ShapeSort} (shape : Shape s) {row : shape.Row}, shape.InRange row →
    ∃ data, shape.encode row = some data ∧ data.length = shape.size ∧ shape.decode? data = some row
  | _, address, a, _ => ⟨Address.bytes a, rfl, Address.ofBytes?_bytes a⟩
  | _, u64, n, range => by
    have fits : (n : Nat) < Nat.pow 256 8 := Nat.lt_of_le_of_lt range (by decide)
    exact ⟨littleEndian 8 n, encodeCounter_of_lt fits, length_littleEndian .., congrArg some
      (ofLittleEndian_littleEndian fits)⟩
  | _, u16, n, range => by
    have fits : (n : Nat) < Nat.pow 256 2 := Nat.lt_of_le_of_lt range (by decide)
    exact ⟨littleEndian 2 n, encodeCounter_of_lt fits, length_littleEndian .., congrArg some
      (ofLittleEndian_littleEndian fits)⟩
  | _, number, a, _ => ⟨Number.bytes a, rfl, length_littleEndian .., decodeNumber?_bytes a⟩
  | _, record _ fields, _, range => encode_of_inRange fields range
  | _, done, _, _ => ⟨[], rfl, rfl, rfl⟩
  | _, field _ _ head rest, row, range => by
    obtain ⟨first, writtenFirst, sizeFirst, readFirst⟩ := encode_of_inRange head range.1
    obtain ⟨others, writtenRest, sizeRest, readRest⟩ := encode_of_inRange rest range.2
    refine ⟨first ++ others, ?_, ?_, ?_⟩
    · simp only [encode, writtenFirst, writtenRest, Option.bind_eq_bind, Option.bind_some, Option.pure_def]
    · simp only [List.length_append, sizeFirst, sizeRest, size]
    · rw [decode?_field, List.take_left' sizeFirst, List.drop_left' sizeFirst]
      exact ⟨readFirst, readRest⟩

/-- A row that has bytes is in range. -/
theorem inRange_of_encode : ∀ {s : ShapeSort} (shape : Shape s) {row : shape.Row} {data : List UInt8},
    shape.encode row = some data → shape.InRange row
  | _, address, _, _, _ => trivial
  | _, u64, _, _, h => Nat.le_of_lt_succ (Option.ite_none_right_eq_some.mp h).1
  | _, u16, _, _, h => Nat.le_of_lt_succ (Option.ite_none_right_eq_some.mp h).1
  | _, number, _, _, _ => trivial
  | _, record _ fields, _, _, h => inRange_of_encode fields h
  | _, done, _, _, _ => trivial
  | _, field _ _ head rest, row, _, h => by
    simp only [encode, Option.bind_eq_bind, Option.bind_eq_some_iff] at h
    obtain ⟨first, writtenFirst, others, writtenRest, -⟩ := h
    exact ⟨inRange_of_encode head writtenFirst, inRange_of_encode rest writtenRest⟩

/-- Bytes of a row's size are read as a row in range, and are the bytes of that row. -/
theorem decode?_of_length : ∀ {s : ShapeSort} (shape : Shape s) {data : List UInt8},
    data.length = shape.size →
    ∃ row, shape.decode? data = some row ∧ shape.InRange row ∧ shape.encode row = some data
  | _, address, _, hlen => by
    obtain ⟨a, read, written⟩ := Address.ofBytes?_of_length hlen
    exact ⟨a, read, trivial, congrArg some written⟩
  | _, u64, data, hlen => by
    have below : ofLittleEndian data < Nat.pow 256 8 := ofLittleEndian_lt_of_length hlen
    exact ⟨ofLittleEndian data, rfl, Nat.le_of_lt_succ (Nat.lt_of_lt_of_le below (by decide)),
      encodeCounter_ofLittleEndian hlen⟩
  | _, u16, data, hlen => by
    have below : ofLittleEndian data < Nat.pow 256 2 := ofLittleEndian_lt_of_length hlen
    exact ⟨ofLittleEndian data, rfl, Nat.le_of_lt_succ (Nat.lt_of_lt_of_le below (by decide)),
      encodeCounter_ofLittleEndian hlen⟩
  | _, number, _, hlen => by
    obtain ⟨a, read, written⟩ := decodeNumber?_of_length hlen
    exact ⟨a, read, trivial, congrArg some written⟩
  | _, record _ fields, _, hlen => decode?_of_length fields hlen
  | _, done, _, hlen => ⟨(), rfl, trivial, congrArg some (List.eq_nil_of_length_eq_zero hlen).symm⟩
  | _, field _ _ head rest, data, hlen => by
    have cutFirst : (data.take head.size).length = head.size := by
      simp only [List.length_take, hlen, size]; omega
    have cutRest : (data.drop head.size).length = rest.size := by
      simp only [List.length_drop, hlen, size]; omega
    obtain ⟨first, readFirst, rangeFirst, writtenFirst⟩ := decode?_of_length head cutFirst
    obtain ⟨others, readRest, rangeRest, writtenRest⟩ := decode?_of_length rest cutRest
    refine ⟨(first, others), decode?_field.mpr ⟨readFirst, readRest⟩, ⟨rangeFirst, rangeRest⟩, ?_⟩
    simp only [encode, writtenFirst, writtenRest, Option.bind_eq_bind, Option.bind_some,
      Option.pure_def, List.take_append_drop]

end EmissionLedger.Shape
