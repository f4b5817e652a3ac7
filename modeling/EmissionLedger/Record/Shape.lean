import EmissionLedger.Record.Basic
import EmissionLedger.Record.Kind

/-!
Shapes: the fields of a record with their names and what they hold, as data. The JSON form, the byte
form and the JSON contract of a record are all functions of its shape, so a law about shapes is a law
about every kind of record.

`Shape .value` describes what a field holds and `Shape .fields` the fields of a record. A `Row` holds
what the shape describes, field by field.
-/

namespace EmissionLedger

/-- Whether a shape describes one value or the fields of a record. -/
inductive ShapeSort where
  | value
  | fields

/-- The shape of a value, or of the fields of a record. A field that is `optional` may be missing
from JSON data, and is then zero; `definition?` is the name under which contracts define a record
inside another, if they define it apart. -/
inductive Shape : ShapeSort → Type where
  | address : Shape .value
  | u64 : Shape .value
  | u16 : Shape .value
  | number : Shape .value
  | record (definition? : Option String) (fields : Shape .fields) : Shape .value
  | done : Shape .fields
  | field (name : String) (optional : Bool) (head : Shape .value) (rest : Shape .fields) : Shape .fields

namespace Shape

/-- What a shape describes. -/
@[reducible] def Row : {s : ShapeSort} → Shape s → Type
  | _, address => Address
  | _, u64 => Nat
  | _, u16 => Nat
  | _, number => Number
  | _, record _ fields => fields.Row
  | _, done => Unit
  | _, field _ _ head rest => head.Row × rest.Row

/-- The row of zeros. -/
def zero : {s : ShapeSort} → (shape : Shape s) → shape.Row
  | _, address => Address.zero
  | _, u64 => (0 : Nat)
  | _, u16 => (0 : Nat)
  | _, number => Number.zero
  | _, record _ fields => fields.zero
  | _, done => ()
  | _, field _ _ head rest => (head.zero, rest.zero)

/-- Whether every counter of a row keeps within its width. -/
def InRange : {s : ShapeSort} → (shape : Shape s) → shape.Row → Prop
  | _, address, _ => True
  | _, u64, n => (n : Nat) ≤ maxU64
  | _, u16, n => (n : Nat) ≤ maxU16
  | _, number, _ => True
  | _, record _ fields, row => fields.InRange row
  | _, done, _ => True
  | _, field _ _ head rest, row => head.InRange row.1 ∧ rest.InRange row.2

end Shape

end EmissionLedger
