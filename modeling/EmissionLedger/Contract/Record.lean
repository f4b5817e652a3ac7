import EmissionLedger.Contract.Check
import EmissionLedger.Contract.Document
import EmissionLedger.Record.Any

/-!
The JSON contracts of the nine kinds of stored record: finding them by name, checking data against
them, and passing records through them in both directions.
-/

namespace EmissionLedger

/-- The JSON contract of a kind of record. -/
structure Contract where
  kind : RecordKind
  name : String
  shape : Shape .fields

namespace Contract

/-- The contract of a kind. -/
def ofKind (kind : RecordKind) : Result Contract :=
  match kind.contractName?, kind.form? with
  | some name, some form => .ok { kind, name, shape := form.shape }
  | _, _ => .error .noContract

/-- The contract of that name. -/
def ofName (name : String) : Result Contract :=
  match RecordKind.ofContractName? name with
  | some kind => ofKind kind
  | none => .error .unknownContract

/-- The contract as a document. -/
def document (c : Contract) : Json :=
  contractDocument c.kind.name c.name c.shape PersonalRewarderState.form.shape

/-- What is wrong with data, in order. -/
def violations (c : Contract) (v : Json) : List Violation :=
  Violation.sort ((Shape.record none c.shape).check v)

/-- Whether data keeps the contract. -/
def accepts (c : Contract) (v : Json) : Bool := ((Shape.record none c.shape).check v).isEmpty

/-- Refuses data that breaks the contract. -/
def validate (c : Contract) (v : Json) : Result Unit :=
  if c.accepts v then .ok () else .error (.contractBroken (c.violations v))

/-- Where contracts lie, as a path without empty and `.` parts. -/
def plainPath (path : String) : String :=
  let parts := (path.splitOn "/").filter fun part => part ≠ "" ∧ part ≠ "."
  let slashes := path.toList.takeWhile (· == '/')
  let root := if slashes.isEmpty then "" else if slashes.length = 2 then "//" else "/"
  let joined := root ++ "/".intercalate parts
  if joined = "" then "." else joined

/-- Contracts are not looked for in a directory that does not exist. -/
def missingDirectory {α : Type} (path : String) : Result α :=
  .error (.argument (.missingDirectory (plainPath path)))

end Contract

namespace Record

/-- The JSON form of a record, which its contract accepts. -/
def toContractJson (r : Record) : Result Json := do
  let contract ← Contract.ofKind r.kind
  contract.validate r.toJson
  return r.toJson

/-- The record of a kind that data stands for, if its contract accepts the data. -/
def load (kind : RecordKind) (v : Json) : Result Record := do
  let contract ← Contract.ofKind kind
  contract.validate v
  let value ← kind.validate v
  return { kind, value }

end Record

end EmissionLedger
