import EmissionLedger.Text.Blank
import EmissionLedger.Text.DecimalDigit

/-!
Decimal literals. Blanks around a literal and underscores inside it are ignored, the digits of any
script count, and letters may be of either case:

    [+-]? (digits [. digits?] | . digits) (e [+-]? digits)?  |  [+-]? inf(inity)?  |  [+-]? s?nan digits?

A number is refused when its leading digit or its last digit stands too far from the point.
-/

namespace EmissionLedger

/-- The number `± coefficient · 10 ^ exponent`, as its literal spells it. -/
structure Decimal where
  negative : Bool
  coefficient : Nat
  exponent : Int

namespace Decimal

/-- What a decimal literal stands for. -/
inductive Literal where
  | finite (d : Decimal)
  | infinite (negative : Bool)
  | notANumber

/-- The largest exponent of ten that a leading digit may have. -/
def maxLeading : Int := 999999999999999999

/-- The smallest exponent of ten that a last digit may have. -/
def minLast : Int := -1999999999999999997

/-- A character of a literal in ASCII. -/
def asciiChar? (c : Char) : Option Char :=
  if 0 < c.toNat ∧ c.toNat < 128 then some c
  else if Text.isBlank c then some ' '
  else (Text.decimalValue? c).map Nat.digitChar

/-- The literal in ASCII, without the blanks around it and without underscores. -/
def plain? (cs : List Char) : Option (List Char) :=
  ((Text.trim Text.isBlank cs).filter (· ≠ '_')).mapM asciiChar?

/-- Takes the sign off: whether it is a minus, and what follows. -/
def splitSign : List Char → Bool × List Char
  | '+' :: rest => (false, rest)
  | '-' :: rest => (true, rest)
  | rest => (false, rest)

/-- Digits and what follows them. -/
def spanDigits (cs : List Char) : List Char × List Char :=
  (cs.takeWhile Char.isDigit, cs.dropWhile Char.isDigit)

/-- The part after the whole digits: a fraction, if a point leads it, and what follows. -/
def splitFraction : List Char → List Char × List Char
  | '.' :: rest => spanDigits rest
  | rest => ([], rest)

/-- Signed digits that make up the whole text. -/
def signedDigits? (cs : List Char) : Option Int :=
  let (negative, digits) := splitSign cs
  if digits ≠ [] ∧ digits.all Char.isDigit then
    let n : Int := Nat.ofDigitChars 10 digits 0
    some (if negative then -n else n)
  else none

/-- The exponent that ends a literal, zero if there is none. -/
def exponent? : List Char → Option Int
  | [] => some 0
  | mark :: rest => if mark = 'e' ∨ mark = 'E' then signedDigits? rest else none

/-- How many digits a number has; zero has one. -/
def digitCount (n : Nat) : Nat := (Nat.toDigits 10 n).length

/-- Whether the leading and the last digit stand where a literal may have them. -/
def admissible (d : Decimal) : Bool :=
  decide (d.exponent + digitCount d.coefficient - 1 ≤ maxLeading) && decide (minLast ≤ d.exponent)

/-- A finite number without its sign. -/
def magnitude? (negative : Bool) (cs : List Char) : Option Decimal := do
  let (whole, afterWhole) := spanDigits cs
  let (fraction, afterFraction) := splitFraction afterWhole
  if whole ++ fraction = [] then none
  else
    let exponent ← exponent? afterFraction
    let d : Decimal := ⟨negative, Nat.ofDigitChars 10 (whole ++ fraction) 0, exponent - fraction.length⟩
    if d.admissible then some d else none

/-- Whether a text in lower case is a not-a-number with or without a payload. -/
def spellsNaN (cs : List Char) : Bool :=
  match if cs.head? = some 's' then cs.tail else cs with
  | 'n' :: 'a' :: 'n' :: payload => payload.all Char.isDigit
  | _ => false

/-- The meaning of a literal in ASCII. -/
def ofPlain? (cs : List Char) : Option Literal :=
  let (negative, body) := splitSign cs
  let lower := body.map Char.toLower
  if lower = "inf".toList ∨ lower = "infinity".toList then some (.infinite negative)
  else if spellsNaN lower then some .notANumber
  else (magnitude? negative body).map .finite

/-- The meaning of a decimal literal. -/
def parse? (s : String) : Option Literal := (plain? s.toList).bind ofPlain?

end Decimal

end EmissionLedger
