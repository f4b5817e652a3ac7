import EmissionLedger.Json.Binary64

/-!
JSON data. Integers have any size and are kept apart from numbers written with a fraction or an
exponent; an object is the list of its members.
-/

namespace EmissionLedger

/-- A JSON value. -/
inductive Json where
  | null
  | bool (b : Bool)
  | int (n : Int)
  | float (x : Binary64)
  | str (s : String)
  | arr (items : List Json)
  | obj (members : List (String × Json))

namespace Json

/-- What messages call the kind of a value. -/
def kindName : Json → String
  | .null => "NoneType"
  | .bool _ => "bool"
  | .int _ => "int"
  | .float _ => "float"
  | .str _ => "str"
  | .arr _ => "list"
  | .obj _ => "dict"

/-- The member of that name; data of any other kind has no members. -/
def member? (name : String) : Json → Option Json
  | .obj members => members.lookup name
  | _ => none

def isObject : Json → Bool
  | .obj _ => true
  | _ => false

/-- Whether the value equals the integer zero; `false` counts as zero. -/
def isZero : Json → Bool
  | .int n => n == 0
  | .bool b => !b
  | .float x => x.isZero
  | _ => false

end Json

end EmissionLedger
