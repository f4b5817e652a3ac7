import EmissionLedger.Decimal.Rounding
import EmissionLedger.Number.Arithmetic
import EmissionLedger.Text.Quoted

/-!
Numbers from decimal literals. A literal is taken only if it spells a finite number that is not
below zero and has at most twelve decimal places, so that its value is exact; a value beyond
256 bits is refused by the range of numbers. On the way a value is held to 100 significant digits
and to exponents of ten up to 999999.
-/

namespace EmissionLedger.Number

/-- The significant digits that a scaled value is held to. -/
def decimalDigits : Nat := 100

/-- The largest exponent of ten of a scaled value. -/
def maxDecimalExponent : Int := 999999

/-- The whole part of `m · 10 ^ e`. -/
def scaledWhole (m : Nat) (e : Int) : Nat :=
  if m = 0 then 0 else m * Nat.pow 10 e.toNat / Nat.pow 10 (-e).toNat

/-- The number that a decimal stands for; `shown` is the argument as messages show it. -/
def ofDecimal (shown : Piece) (d : Decimal) : Result Number :=
  if d.negative = true ∧ d.coefficient ≠ 0 then .error (.argument (.decimalNegative shown))
  else if d.exponent < -(places : Int) then .error (.argument (.decimalTooFine shown))
  else
    let (m, cut) := Decimal.roundTo decimalDigits (d.coefficient * scale)
    let e := d.exponent + cut
    if m ≠ 0 ∧ maxDecimalExponent < e + Decimal.digitCount m - 1 then .error .decimalOverflow
    else ofRaw (scaledWhole m e)

/-- The number that a literal stands for. -/
def ofLiteral (shown : Piece) : Option Decimal.Literal → Result Number
  | none => .error (.argument (.decimalInvalid shown))
  | some (.finite d) => ofDecimal shown d
  | some _ => .error (.argument (.decimalInfinite shown))

/-- The number that a text spells. -/
def parse (s : String) : Result Number := ofLiteral (Text.quoted s) (Decimal.parse? s)

end EmissionLedger.Number
