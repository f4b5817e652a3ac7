import EmissionLedger.Json.Basic
import EmissionLedger.Record.Shape

/-!
JSON contracts as documents in the vocabulary of JSON Schema, draft 2020-12. Values are described
under shared definitions; a record inside another is described in place unless its shape names a
definition.
-/

namespace EmissionLedger

/-- The pattern of addresses. -/
def addressPattern : String := "^[0-9a-f]\x7b64\x7d$"

/-- The pattern of numbers. -/
def numberPattern : String := "^[0-9]+(\\.[0-9]\x7b1,12\x7d)?$"

/-- The description of texts that match a pattern. -/
def textDescription (pattern : String) : Json := .obj [("type", .str "string"), ("pattern", .str pattern)]

/-- The description of counters of at most `limit`. -/
def counterDescription (limit : Nat) : Json :=
  .obj [("type", .str "integer"), ("minimum", .int 0), ("maximum", .int limit)]

/-- A reference to a shared definition. -/
def reference (definition : String) : Json := .obj [("$ref", .str ("#/$defs/" ++ definition))]

/-- What every description of an object with exactly the given members says. -/
def objectDescription (members : List (String × Json)) : List (String × Json) :=
  [("type", .str "object"), ("additionalProperties", .bool false),
    ("required", .arr (members.map fun m => .str m.1)), ("properties", .obj members)]

namespace Shape

/-- The description of a value, or of the members of an object. -/
@[reducible] def Description : ShapeSort → Type
  | .value => Json
  | .fields => List (String × Json)

/-- The description of what a shape describes. -/
def describe : {s : ShapeSort} → Shape s → Description s
  | _, address => reference "address"
  | _, u64 => reference "u64"
  | _, u16 => reference "u16"
  | _, number => reference "number"
  | _, record (some definition) _ => reference definition
  | _, record none fields => Json.obj (objectDescription fields.describe)
  | _, done => ([] : List (String × Json))
  | _, field name _ head rest => (name, head.describe) :: rest.describe

end Shape

/-- The definitions that all contracts share; `state` is the shape of a rewarder's state. -/
def sharedDefinitions (state : Shape .fields) : List (String × Json) :=
  [("address", textDescription addressPattern), ("u64", counterDescription maxU64),
    ("u16", counterDescription maxU16), ("number", textDescription numberPattern),
    ("rewarder_state", .obj (objectDescription state.describe))]

/-- The contract of a record as a document. -/
def contractDocument (title name : String) (shape state : Shape .fields) : Json :=
  .obj ([("$schema", .str "https://json-schema.org/draft/2020-12/schema"),
      ("$id", .str ("https://raygauge.local/contracts/" ++ name ++ ".json")), ("title", .str title)] ++
    objectDescription shape.describe ++ [("$defs", .obj (sharedDefinitions state))])

end EmissionLedger
