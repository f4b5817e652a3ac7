import EmissionLedger.Json.Text
import EmissionLedger.Record.Shape
import EmissionLedger.Text.Hex

/-!
What a JSON contract asks of data. A contract follows the shape of its record: every member that the
shape names is required and no other is allowed, counters are integers in range (a number with a
fraction of zero is one), and texts match a pattern. A pattern's end also matches before one last
line feed.
-/

namespace EmissionLedger

namespace Violation

/-- A violation of a part of the data. -/
def under (name : String) (v : Violation) : Violation := { v with path := name :: v.path }

/-- A violation without a message at the value at hand. -/
def here (keyword : Keyword) : Violation := { path := [], keyword, message := none }

/-- The JSON form of a violation. -/
def toJson (v : Violation) : Json :=
  let members := [("keyword", Json.str v.keyword.name), ("path", .arr (v.path.map .str))]
  match v.message with
  | none => .obj members
  | some message => .obj (("message", .str message) :: members)

/-- Violations in the order of their JSON text. -/
def sort (vs : List Violation) : List Violation :=
  vs.mergeSort fun a b => decide (a.toJson.text ≤ b.toJson.text)

end Violation

/-! ### Patterns -/

/-- A text without one last line feed. -/
def dropLineEnd (cs : List Char) : List Char :=
  if cs.getLast? = some '\n' then cs.dropLast else cs

/-- An ASCII digit. -/
def isAsciiDigit (c : Char) : Bool := '0' ≤ c && c ≤ '9'

/-- Digits, and after a point one to twelve more. -/
def isDecimalText (cs : List Char) : Bool :=
  let whole := cs.takeWhile isAsciiDigit
  let fraction := cs.dropWhile isAsciiDigit
  !whole.isEmpty && match fraction with
    | [] => true
    | '.' :: digits => digits.all isAsciiDigit && 1 ≤ digits.length && digits.length ≤ 12
    | _ => false

/-- Whether a text matches the pattern of addresses. -/
def matchesAddress (s : String) : Bool :=
  let cs := dropLineEnd s.toList
  cs.length == 64 && cs.all Hex.isLowerDigit

/-- Whether a text matches the pattern of numbers. -/
def matchesNumber (s : String) : Bool := isDecimalText (dropLineEnd s.toList)

/-! ### Checking data -/

/-- The violation of the rule of a kind of value, unless it holds. -/
def expect (ok : Bool) (keyword : Keyword) : List Violation := if ok then [] else [.here keyword]

/-- What is wrong with data for a counter of at most `limit`. The range is asked of every number,
whole or not. -/
def checkCounter (limit : Nat) : Json → List Violation
  | .int n => expect (decide (0 ≤ n)) .minimum ++ expect (decide (n ≤ limit)) .maximum
  | .float x =>
    expect x.toInt?.isSome .type ++ expect (!x.ltInt 0) .minimum ++ expect (!x.gtInt limit) .maximum
  | _ => [.here .type]

/-- What is wrong with data for a text. -/
def checkText (matchesPattern : String → Bool) : Json → List Violation
  | .str s => expect (matchesPattern s) .pattern
  | _ => [.here .type]

/-- The wording for members that no shape names. -/
def unexpectedMessage (names : List String) : String :=
  let quotedNames := names.map Text.quoted
  "Additional properties are not allowed (" ++ ", ".intercalate quotedNames ++
    (if names.length = 1 then " was" else " were") ++ " unexpected)"

/-- The violation by members that are not among `known`. -/
def checkUnexpected (known : List String) (members : List (String × Json)) : List Violation :=
  let names := (members.map (·.1)).filter fun name => !known.contains name
  if names.isEmpty then []
  else
    let sorted := names.mergeSort fun a b => decide (a ≤ b)
    [{ path := [], keyword := .additionalProperties, message := some (unexpectedMessage sorted) }]

namespace Shape

/-- The names of the fields. -/
def names : Shape .fields → List String
  | done => []
  | field name _ _ rest => name :: names rest

/-- What is wrong with data for a value, or with the members that the fields name. -/
def check : {s : ShapeSort} → Shape s → Json → List Violation
  | _, address, v => checkText matchesAddress v
  | _, u64, v => checkCounter maxU64 v
  | _, u16, v => checkCounter maxU16 v
  | _, number, v => checkText matchesNumber v
  | _, record _ fields, v =>
    match v with
    | .obj members => checkUnexpected fields.names members ++ fields.check v
    | _ => [.here .type]
  | _, done, _ => []
  | _, field name _ head rest, v =>
    (match v.member? name with
      | some member => (head.check member).map (.under name)
      | none => [{ path := [], keyword := .required
                   message := some (Text.quoted name ++ " is a required property") }]) ++ rest.check v

end Shape

end EmissionLedger
