/-!
Numbers with a fraction as JSON data holds them: a finite value is `± m · 2 ^ e` exactly. What is
asked of such a number is whether it is whole, how it compares with an integer, and its shortest
text: the fewest decimal digits that no other 64-bit binary number is nearer to.
-/

namespace EmissionLedger

/-- A 64-bit binary floating-point number, by value. -/
inductive Binary64 where
  | finite (negative : Bool) (mantissa : Nat) (exponent : Int)
  | infinite (negative : Bool)
  | nan
deriving DecidableEq

namespace Binary64

/-- The number with the given bits: sign, 11 bits of exponent, 52 bits of fraction. -/
def ofBits (bits : Nat) : Binary64 :=
  let negative := bits / Nat.pow 2 63 % 2 = 1
  let exponent : Nat := bits / Nat.pow 2 52 % Nat.pow 2 11
  let fraction := bits % Nat.pow 2 52
  if exponent = 2047 then
    if fraction = 0 then .infinite negative else .nan
  else if exponent = 0 then .finite negative fraction (-1074)
  else .finite negative (fraction + Nat.pow 2 52) ((exponent : Int) - 1075)

/-- The sign applied to a magnitude. -/
def signed (negative : Bool) (n : Nat) : Int := if negative then -n else n

/-- The integer that a number equals, if it is whole. -/
def toInt? : Binary64 → Option Int
  | .finite negative m e =>
    if 0 ≤ e then some (signed negative (m * Nat.pow 2 e.toNat))
    else if m % Nat.pow 2 (-e).toNat = 0 then
      some (signed negative (m / Nat.pow 2 (-e).toNat))
    else none
  | _ => none

/-- Whether the number is less than an integer. -/
def ltInt : Binary64 → Int → Bool
  | .finite negative m e, n =>
    decide (signed negative m * Nat.pow 2 e.toNat < n * Nat.pow 2 (-e).toNat)
  | .infinite negative, _ => negative
  | .nan, _ => false

/-- Whether the number is greater than an integer. -/
def gtInt : Binary64 → Int → Bool
  | .finite negative m e, n =>
    decide (n * Nat.pow 2 (-e).toNat < signed negative m * Nat.pow 2 e.toNat)
  | .infinite negative, _ => !negative
  | .nan, _ => false

/-- Whether the number is zero, of either sign. -/
def isZero : Binary64 → Bool
  | .finite _ m _ => m == 0
  | _ => false

/-- A positive rational `num / den` times `10 ^ shift`, as a fraction. -/
def shiftTen (num den : Nat) (shift : Int) : Nat × Nat :=
  if 0 ≤ shift then (num * Nat.pow 10 shift.toNat, den)
  else (num, den * Nat.pow 10 (-shift).toNat)

/-- The ends of the interval of reals that round to `m · 2 ^ e`, and the number itself, all in
units of `2 ^ (e - 2)`. The interval is narrower below a power of two. -/
def roundingEnds (m : Nat) (e : Int) : Nat × Nat × Nat :=
  let low := if m = Nat.pow 2 52 ∧ -1074 < e then 4 * m - 1 else 4 * m - 2
  (low, 4 * m, 4 * m + 2)

/-- The decimal `d · 10 ^ s` nearest to `m · 2 ^ e` on the grid of multiples of `10 ^ s`, if one of
the two neighbours there rounds to `m · 2 ^ e`. -/
def onGrid (m : Nat) (e s : Int) : Option Nat :=
  let (low, mid, high) := roundingEnds m e
  -- everything in units of 2 ^ (e - 2) · 10 ^ -s, over one denominator
  let (unitNum, unitDen) := shiftTen (Nat.pow 2 (e - 2).toNat) (Nat.pow 2 (2 - e).toNat) (-s)
  let inside := fun d : Nat =>
    let x := d * unitDen
    if m % 2 = 0 then low * unitNum ≤ x && x ≤ high * unitNum
    else low * unitNum < x && x < high * unitNum
  let floor := mid * unitNum / unitDen
  let twiceRest := 2 * (mid * unitNum % unitDen)
  let nearUp := decide (unitDen < twiceRest) || (decide (twiceRest = unitDen) && floor % 2 == 1)
  let first := if nearUp then floor + 1 else floor
  let second := if nearUp then floor else floor + 1
  if inside first then some first else if inside second then some second else none

/-- The first power of ten above `m · 2 ^ e`, searched upwards from a start below it. -/
def decimalPoint (m : Nat) (e : Int) : Nat → Int → Int
  | 0, p => p
  | fuel + 1, p =>
    let (num, den) := shiftTen (m * Nat.pow 2 e.toNat) (Nat.pow 2 (-e).toNat) (-p)
    if num < den then p else decimalPoint m e fuel (p + 1)

/-- The shortest digits `d` and the point `p` with `m · 2 ^ e` written as `0.d · 10 ^ p`: the grids
of 1 to 17 digits are tried in turn. -/
def shortest (m : Nat) (e : Int) : List Char × Int :=
  let p := decimalPoint m e 700 (-330)
  let hit := (List.range 17).findSome? fun (k : Nat) =>
    (onGrid m e (p - (k + 1))).map fun d => (d, p - (k + 1))
  match hit with
  | none => (['0'], 1)
  | some (d, s) =>
    let digits := Nat.toDigits 10 d
    ((digits.reverse.dropWhile (· == '0')).reverse, s + digits.length)

/-- Pads an exponent to two digits. -/
def exponentText (n : Nat) : List Char :=
  if n < 10 then '0' :: Nat.toDigits 10 n else Nat.toDigits 10 n

/-- Digits with the point at `p`: in full when `-4 < p ≤ 16`, with an exponent elsewhere. -/
def layOut (digits : List Char) (p : Int) : List Char :=
  if 0 < p ∧ p ≤ 16 then
    let whole := digits.take p.toNat
    let fraction := digits.drop p.toNat
    whole ++ List.replicate (p.toNat - whole.length) '0' ++
      '.' :: (if fraction.isEmpty then ['0'] else fraction)
  else if -4 < p ∧ p ≤ 0 then '0' :: '.' :: List.replicate (-p).toNat '0' ++ digits
  else
    let scientific := p - 1
    digits.take 1 ++ (if digits.length ≤ 1 then [] else '.' :: digits.drop 1) ++
      'e' :: (if scientific < 0 then '-' else '+') :: exponentText scientific.natAbs

/-- The shortest text of a number. -/
def text : Binary64 → String
  | .finite negative m e =>
    let body := if m = 0 then ['0', '.', '0'] else let (digits, p) := shortest m e; layOut digits p
    String.ofList (if negative then '-' :: body else body)
  | .infinite negative => if negative then "-inf" else "inf"
  | .nan => "nan"

end Binary64

end EmissionLedger
