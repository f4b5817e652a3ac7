import EmissionLedger.Json.Basic
import EmissionLedger.Number.Bytes
import EmissionLedger.Number.Decimal

/-!
Numbers from JSON data that nobody has looked at yet: raw values, natural numbers, ratios, words and
decimal literals. A truth value is no integer here.
-/

namespace EmissionLedger.Number

/-- The number of raw units given as data. -/
def ofRawJson : Json → Result Number
  | .int n => ofRaw n
  | v => .error (.argument (.rawNotInteger v.kindName))

/-- A natural number given as data. -/
def naturalOfJson : Json → Result Nat
  | .int n => if n < 0 then .error (.argument (.naturalNegative n)) else .ok n.toNat
  | v => .error (.argument (.naturalNotInteger v.kindName))

/-- A natural number given as data, as a fixed-point number. -/
def ofNaturalJson (v : Json) : Result Number := do
  let n ← naturalOfJson v
  ofNatural n

/-- The quotient of two natural numbers given as data. -/
def ofRatioJson (numerator denominator : Json) : Result Number := do
  let n ← ofNaturalJson numerator
  let d ← ofNaturalJson denominator
  n.div d

/-- Basis points given as data. -/
def ofBasisPointsJson (v : Json) : Result Number := ofRatioJson v (.int basisPoints)

/-- The words given as data; `i` is the place of the first. -/
def wordsOfJson : Nat → List Json → Result (List Nat)
  | _, [] => .ok []
  | i, .int n :: rest =>
    if n < 0 ∨ (wordBase : Int) ≤ n then .error (.argument (.wordOutOfRange i n))
    else do
      let others ← wordsOfJson (i + 1) rest
      return n.toNat :: others
  | i, v :: _ => .error (.argument (.wordNotInteger i v.kindName))

/-- The number with the four words given as data. -/
def ofWordsJson (items : List Json) : Result Number :=
  if items.length = 4 then do
    let words ← wordsOfJson 0 items
    ofRaw (ofWords words)
  else .error (.argument (.wordCount items.length))

/-- A decimal literal given as data: a text, an integer, or a truth value as 0 or 1. -/
def ofDecimalJson : Json → Result Number
  | .str s => parse s
  | .int n => ofDecimal n ⟨decide (n < 0), n.natAbs, 0⟩
  | .bool b => ofDecimal (if b then "True" else "False") ⟨false, if b then 1 else 0, 0⟩
  | .null => .error (.argument (.decimalInvalid "None"))
  | v => .error (.argument (.decimalInvalid v.kindName))

/-- Restates a fatal fault as an invalid value with the same message: data that spells no number is
bad data, not a broken invariant. -/
def restate (fault : Fault) : Fault :=
  if fault.isFatal then .argument (.restated fault.wording) else fault

/-- The number that data stands for: a decimal literal or four words. -/
def ofJson : Json → Result Number
  | .str s => (parse s).mapError restate
  | .arr items => (ofWordsJson items).mapError restate
  | v => .error (.argument (.notBuildable v.kindName))

end EmissionLedger.Number
