import EmissionLedger.Number.Bytes
import EmissionLedger.Record.Shape

/-!
The byte form of a row: its values one after the other in the order of the fields, without gaps,
each in a fixed number of bytes with the least significant first. A record inside another stands in
its field's place.
-/

namespace EmissionLedger.Shape

/-- How many bytes a row takes. -/
def size : {s : ShapeSort} → Shape s → Nat
  | _, address => addressBytes
  | _, u64 => 8
  | _, u16 => 2
  | _, number => Number.byteCount
  | _, record _ fields => fields.size
  | _, done => 0
  | _, field _ _ head rest => head.size + rest.size

/-- The names of the fields with the bytes they take. -/
def fieldSizes : Shape .fields → List (String × Nat)
  | done => []
  | field name _ head rest => (name, head.size) :: fieldSizes rest

/-- The bytes of a natural number, if it fits. -/
def encodeCounter (width n : Nat) : Option (List UInt8) :=
  if n < Nat.pow 256 width then some (littleEndian width n) else none

/-- The bytes of a row, if its counters fit. -/
def encode : {s : ShapeSort} → (shape : Shape s) → shape.Row → Option (List UInt8)
  | _, address, a => some (Address.bytes a)
  | _, u64, n => encodeCounter 8 n
  | _, u16, n => encodeCounter 2 n
  | _, number, a => some (Number.bytes a)
  | _, record _ fields, row => fields.encode row
  | _, done, _ => some []
  | _, field _ _ head rest, row => do
    let first ← head.encode row.1
    let others ← rest.encode row.2
    return first ++ others

/-- The number with the given bytes, if it is in range. -/
def decodeNumber? (data : List UInt8) : Option Number :=
  if h : ofLittleEndian data ≤ maxRaw then some ⟨ofLittleEndian data, h⟩ else none

/-- The row of the given bytes, which are as many as the row takes. -/
def decode? : {s : ShapeSort} → (shape : Shape s) → List UInt8 → Option shape.Row
  | _, address, data => Address.ofBytes? data
  | _, u64, data => some (ofLittleEndian data)
  | _, u16, data => some (ofLittleEndian data)
  | _, number, data => decodeNumber? data
  | _, record _ fields, data => fields.decode? data
  | _, done, _ => some ()
  | _, field _ _ head rest, data => do
    let first ← head.decode? (data.take head.size)
    let others ← rest.decode? (data.drop head.size)
    return (first, others)

end EmissionLedger.Shape
