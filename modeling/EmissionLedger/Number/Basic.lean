/-!
Fixed-point numbers: unsigned, 256 bits wide, with twelve decimal places. A number holds `raw`
units of `10 ^ -12`, and no number outside the range can be made. The text of a number is its exact
decimal value without superfluous zeros.
-/

namespace EmissionLedger

/-- The raw value of one. -/
def scale : Nat := 1000000000000

-- `Nat.pow` and not `^`, whose instance would depend on what else is imported.
/-- The largest raw value. -/
def maxRaw : Nat := Nat.pow 2 256 - 1

/-- A fixed-point number of `raw` units of `10 ^ -12`. -/
structure Number where
  raw : Nat
  raw_le : raw ≤ maxRaw
deriving DecidableEq

namespace Number

/-- How many decimal places a number has. -/
def places : Nat := 12

def zero : Number := ⟨0, by decide⟩

def one : Number := ⟨scale, by decide⟩

instance : LE Number := ⟨fun a b => a.raw ≤ b.raw⟩

instance : LT Number := ⟨fun a b => a.raw < b.raw⟩

instance (a b : Number) : Decidable (a ≤ b) := inferInstanceAs (Decidable (a.raw ≤ b.raw))

instance (a b : Number) : Decidable (a < b) := inferInstanceAs (Decidable (a.raw < b.raw))

theorem le_iff {a b : Number} : a ≤ b ↔ a.raw ≤ b.raw := Iff.rfl

theorem lt_iff {a b : Number} : a < b ↔ a.raw < b.raw := Iff.rfl

@[ext] theorem ext {a b : Number} (h : a.raw = b.raw) : a = b := by
  cases a; cases b; simp_all

@[simp] theorem raw_zero : zero.raw = 0 := rfl

@[simp] theorem raw_one : one.raw = scale := rfl

/-- The twelve digits after the point, without the zeros that end them. -/
def fractionDigits (fraction : Nat) : List Char :=
  let digits := Nat.toDigits 10 fraction
  ((List.replicate (places - digits.length) '0' ++ digits).reverse.dropWhile (· == '0')).reverse

/-- The exact decimal value. -/
def digits (a : Number) : List Char :=
  let whole := Nat.toDigits 10 (a.raw / scale)
  if a.raw % scale = 0 then whole else whole ++ '.' :: fractionDigits (a.raw % scale)

/-- The exact decimal value as text. -/
def text (a : Number) : String := String.ofList a.digits

/-- The exact decimal value, said to be a number's. -/
def labelled (a : Number) : String := "Number('" ++ a.text ++ "')"

/-- The smaller of two numbers, the first if they are equal. -/
def min (a b : Number) : Number := if a ≤ b then a else b

/-- The larger of two numbers, the first if they are equal. -/
def max (a b : Number) : Number := if b ≤ a then a else b

/-- The largest whole number not above. -/
def floor (a : Number) : Number :=
  ⟨a.raw - a.raw % scale, Nat.le_trans (Nat.sub_le ..) a.raw_le⟩

end Number

end EmissionLedger
