import EmissionLedger.Number.Operand
import EmissionLedger.Record.Form
import EmissionLedger.Text.Integer

/-!
The JSON form of records. Reading data by a shape looks at every field and lists all complaints in
the order of the fields, each with the path to its value; members that the shape does not name are
ignored. A decimal literal too large for any complaint ends the reading at once.
-/

namespace EmissionLedger

/-- The outcome of reading data. -/
inductive Reading (α : Type) where
  | value (a : α)
  | refused (items : List Item)
  | overflow

namespace Reading

/-- The complaints of a reading. -/
def items {α : Type} : Reading α → List Item
  | refused items => items
  | _ => []

def map {α β : Type} (f : α → β) : Reading α → Reading β
  | value a => value (f a)
  | refused items => refused items
  | overflow => overflow

/-- Both of two readings. -/
def both {α β : Type} : Reading α → Reading β → Reading (α × β)
  | overflow, _ => overflow
  | _, overflow => overflow
  | value a, value b => value (a, b)
  | x, y => refused (x.items ++ y.items)

/-- One complaint about the value at hand. -/
def complain {α : Type} (complaint : Complaint) : Reading α := refused [⟨[], complaint⟩]

/-- A reading of a part of the data. -/
def under {α : Type} (step : PathStep) : Reading α → Reading α
  | refused items => refused (items.map fun item => { item with path := step :: item.path })
  | r => r

end Reading

/-- The integer that a text in JSON data spells. -/
def integerOfText (s : String) : Except Complaint Int :=
  match Text.integer s with
  | .value n => .ok n
  | .tooLong => .error .oversizedInteger
  | .unreadable => .error .unreadableInteger

/-- The integer that a number written with a fraction equals. It is taken only if it lies strictly
between `-2 ^ 63` and `2 ^ 63`. -/
def integerOfFloat (x : Binary64) : Except Complaint Int :=
  match x with
  | .finite .. =>
    match x.toInt? with
    | some n => if n.natAbs < Nat.pow 2 63 then .ok n else .error .oversizedInteger
    | none => .error .fractional
  | _ => .error .notFinite

/-- The integer that data stands for: truth values count as 0 and 1, whole numbers may be written
with a fraction or as text. -/
def integerOfJson : Json → Except Complaint Int
  | .int n => .ok n
  | .bool b => .ok (if b then 1 else 0)
  | .float x => integerOfFloat x
  | .str s => integerOfText s
  | _ => .error .notAnInteger

/-- A counter of at most `limit`. -/
def readCounter (limit : Nat) (v : Json) : Reading Nat :=
  match integerOfJson v with
  | .error complaint => .complain complaint
  | .ok n =>
    if n < 0 then .complain .belowRange
    else if (limit : Int) < n then .complain .aboveRange
    else .value n.toNat

def readAddress : Json → Reading Address
  | .str s =>
    match Address.ofText? s with
    | some a => .value a
    | none => .complain .patternMismatch
  | _ => .complain .notAString

def readNumber (v : Json) : Reading Number :=
  match Number.ofJson v with
  | .ok a => .value a
  | .error .decimalOverflow => .overflow
  | .error fault => .complain (.refused fault.wording)

namespace Shape

/-- Reads data by a shape. -/
def read : {s : ShapeSort} → (shape : Shape s) → Json → Reading shape.Row
  | _, address, v => readAddress v
  | _, u64, v => readCounter maxU64 v
  | _, u16, v => readCounter maxU16 v
  | _, number, v => readNumber v
  | _, record _ fields, v => if v.isObject then fields.read v else .complain .notARecord
  | _, done, _ => .value ()
  | _, field name optional head rest, v =>
    let first := match v.member? name with
      | some member => head.read member
      | none => if optional then .value head.zero else .complain .missing
    (first.under (.field name)).both (rest.read v)

/-- The JSON form of a value, or of the members of an object. -/
@[reducible] def Written : ShapeSort → Type
  | .value => Json
  | .fields => List (String × Json)

/-- The JSON form of a row. Counters are integers, addresses and numbers are texts. -/
def write : {s : ShapeSort} → (shape : Shape s) → shape.Row → Written s
  | _, address, a => Json.str (Address.text a)
  | _, u64, n => Json.int (n : Nat)
  | _, u16, n => Json.int (n : Nat)
  | _, number, a => Json.str (Number.text a)
  | _, record _ fields, row => Json.obj (fields.write row)
  | _, done, _ => ([] : List (String × Json))
  | _, field name _ head rest, row => (name, head.write row.1) :: rest.write row.2

end Shape

namespace Form

/-- Reads a record. -/
def read {α : Type} (form : Form α) (v : Json) : Reading α :=
  ((Shape.record none form.shape).read v).map form.ofRow

/-- The JSON form of a record. -/
def toJson {α : Type} (form : Form α) (a : α) : Json := .obj (form.shape.write (form.toRow a))

end Form

end EmissionLedger
