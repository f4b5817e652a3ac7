import EmissionLedger.Decimal.Literal

/-!
Rounding to a number of significant digits, a half going to the even neighbour.
-/

namespace EmissionLedger.Decimal

/-- `n / unit` rounded to the nearest integer, a half to the even one. -/
def divHalfEven (n unit : Nat) : Nat :=
  let rest := 2 * (n % unit)
  if unit < rest ∨ (rest = unit ∧ n / unit % 2 = 1) then n / unit + 1 else n / unit

/-- The digits left of `n` rounded to `places` significant digits, and the power of ten they are
multiplied by. -/
def roundTo (places n : Nat) : Nat × Nat :=
  let cut := digitCount n - places
  (divHalfEven n (Nat.pow 10 cut), cut)

theorem roundTo_of_le {places n : Nat} (h : digitCount n ≤ places) : roundTo places n = (n, 0) := by
  have hcut : digitCount n - places = 0 := by omega
  simp only [roundTo, hcut, divHalfEven, Nat.pow_eq, Nat.pow_zero, Nat.mod_one, Nat.div_one]
  simp

end EmissionLedger.Decimal
