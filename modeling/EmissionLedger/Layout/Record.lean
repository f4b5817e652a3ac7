import EmissionLedger.Layout.Codec
import EmissionLedger.Layout.Discriminator
import EmissionLedger.Record.Any

/-!
The byte form of records: the discriminator of the kind, then the row. Reading asks for the exact
length, the discriminator, and a record that breaks no rule of its kind.
-/

namespace EmissionLedger

namespace Form

/-- How many bytes a record takes with its discriminator. -/
def recordSize {α : Type} (form : Form α) : Nat := discriminatorBytes + form.shape.size

/-- The bytes of a record. -/
def encode {α : Type} (form : Form α) (a : α) : Result (List UInt8) :=
  match form.shape.encode (form.toRow a) with
  | some row => .ok (discriminator form.kind.name ++ row)
  | none => .error .fieldTooWide

/-- The record of a row of bytes behind a discriminator, before the rule of its kind is asked. -/
def decode {α : Type} (form : Form α) (data : List UInt8) : Result α :=
  if data.length ≠ form.recordSize then
    .error (.argument (.recordSize form.kind form.recordSize data.length))
  else if data.take discriminatorBytes ≠ discriminator form.kind.name then
    .error (.argument (.foreignDiscriminator form.kind))
  else match form.shape.decode? (data.drop discriminatorBytes) with
    | some row => .ok (form.ofRow row)
    | none => .error (.argument (.recordSize form.kind form.recordSize data.length))

end Form

namespace RecordKind

/-- The form by which a kind is laid out in bytes, on its own or inside another record. -/
def layout (kind : RecordKind) : Result (Form kind.Carrier) :=
  match kind.hasLayout, kind.form? with
  | true, some form => .ok form
  | _, _ => .error .noLayout

/-- The form by which a stored kind is laid out in bytes. -/
def storedLayout (kind : RecordKind) : Result (Form kind.Carrier) :=
  if kind.isStored then kind.layout else .error .noLayout

/-- The record of a kind that bytes stand for. -/
def decodeBy (kind : RecordKind) (form : Form kind.Carrier) (data : List UInt8) :
    Result kind.Carrier := do
  let a ← form.decode data
  match kind.brokenRule? a with
  | none => return a
  | some item => .error (.rejected kind [item])

end RecordKind

namespace Record

/-- The bytes of a stored record. -/
def encode (r : Record) : Result (List UInt8) := do
  let form ← r.kind.storedLayout
  form.encode r.value

/-- The stored record of a kind that bytes stand for. -/
def decode (kind : RecordKind) (data : List UInt8) : Result Record := do
  let form ← kind.storedLayout
  let value ← kind.decodeBy form data
  return { kind, value }

/-- The bytes of a stored record, the record they stand for, and whether it is the same. -/
def roundTrip (r : Record) : Result (List UInt8 × Record × Bool) := do
  let form ← r.kind.storedLayout
  let bytes ← form.encode r.value
  let value ← r.kind.decodeBy form bytes
  return (bytes, { kind := r.kind, value }, decide (value = r.value))

/-- The bytes of a record of the expected kind, whether it is stored on its own or not. -/
def encodeAs (expected : RecordKind) (r : Record) : Result (List UInt8) := do
  let _ ← expected.layout
  if r.kind = expected then
    let form ← r.kind.layout
    form.encode r.value
  else .error (.argument (.otherKind expected.name r.kind.name))

/-- The record of a kind that bytes stand for, whether it is stored on its own or not. -/
def decodeAs (kind : RecordKind) (data : List UInt8) : Result Record := do
  let form ← kind.layout
  let value ← kind.decodeBy form data
  return { kind, value }

end Record

end EmissionLedger
