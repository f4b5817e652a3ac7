import EmissionLedger.Json.Basic
import EmissionLedger.Text.Quoted

/-!
JSON data as one line of ASCII: members are sorted by name, a blank follows each comma and colon,
and every character outside printable ASCII is escaped by its UTF-16 units.
-/

namespace EmissionLedger.Json

/-- One UTF-16 unit as an escape. -/
def escapedUnit (unit : Nat) : List Char := '\\' :: 'u' :: Text.hexDigits 4 unit

/-- One character inside a JSON string. -/
def escapedChar (c : Char) : List Char :=
  if c = '\x22' ∨ c = '\\' then ['\\', c]
  else if c = '\n' then ['\\', 'n']
  else if c = '\r' then ['\\', 'r']
  else if c = '\t' then ['\\', 't']
  else if c.toNat = 0x08 then ['\\', 'b']
  else if c.toNat = 0x0C then ['\\', 'f']
  else if 0x20 ≤ c.toNat ∧ c.toNat < 0x7F then [c]
  else if c.toNat < 0x10000 then escapedUnit c.toNat
  else escapedUnit (0xD800 + (c.toNat - 0x10000) / 0x400) ++
    escapedUnit (0xDC00 + (c.toNat - 0x10000) % 0x400)

/-- A JSON string literal. -/
def stringText (s : String) : String :=
  String.ofList ('\x22' :: s.toList.flatMap escapedChar ++ ['\x22'])

mutual

/-- The text of a value. -/
def text : Json → String
  | .null => "null"
  | .bool b => if b then "true" else "false"
  | .int n => toString n
  | .float x => x.text
  | .str s => stringText s
  | .arr items => "[" ++ ", ".intercalate (itemTexts items) ++ "]"
  | .obj members =>
    let written := (memberTexts members).mergeSort fun a b => decide (a.1 ≤ b.1)
    "\x7b" ++ ", ".intercalate (written.map fun m => stringText m.1 ++ ": " ++ m.2) ++ "\x7d"

/-- The texts of the items of an array. -/
def itemTexts : List Json → List String
  | [] => []
  | item :: rest => item.text :: itemTexts rest

/-- The members of an object with their values written. -/
def memberTexts : List (String × Json) → List (String × String)
  | [] => []
  | (name, value) :: rest => (name, value.text) :: memberTexts rest

end

end EmissionLedger.Json
