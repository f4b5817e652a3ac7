import EmissionLedger.Number.Decimal
import EmissionLedger.Proofs.Decimal.Grammar
import Mathlib.Algebra.Group.Nat.Defs
import Mathlib.Algebra.Order.Monoid.Unbundled.Pow

/-!
Decimals become numbers exactly. A scaled value is held to 100 significant digits on the way, which is
more than any number has: a value in range has fewer and is not rounded, and a value that is rounded is so
large that it stays out of range.

Main statements: `ofDecimal_eq_ok`, `parse_eq_ok`.
-/

namespace EmissionLedger

namespace Decimal

/-! ### Digits -/

theorem digitCount_le {n k : ℕ} (hk : 0 < k) (h : n < 10 ^ k) : digitCount n ≤ k :=
  (Nat.length_toDigits_le_iff (by decide) hk).mpr h

theorem lt_pow_digitCount (n : ℕ) : n < 10 ^ digitCount n := by
  have hpos : 0 < digitCount n := List.length_pos_iff.mpr Nat.toDigits_ne_nil
  exact (Nat.length_toDigits_le_iff (by decide) hpos).mp (Nat.le_refl _)

theorem pow_le_of_lt_digitCount {n k : ℕ} (hk : 0 < k) (h : k < digitCount n) : 10 ^ k ≤ n := by
  by_contra hlt
  exact absurd (digitCount_le hk (Nat.lt_of_not_le hlt)) (Nat.not_le.mpr h)

theorem digitValue_le {c : Char} (h : c.isDigit = true) : c.toNat - '0'.toNat ≤ 9 := by
  have hdigit := toNat_of_isDigit h
  have hzero : '0'.toNat = 48 := rfl
  omega

/-- The first digit counts for as many tens as digits follow. -/
theorem ofDigitChars_cons (c : Char) (rest : List Char) : Nat.ofDigitChars 10 (c :: rest) 0 =
    10 ^ rest.length * (c.toNat - '0'.toNat) + Nat.ofDigitChars 10 rest 0 := by
  rw [Nat.ofDigitChars_cons, Nat.ofDigitChars_eq_ofDigitChars_zero, Nat.mul_zero, Nat.zero_add]

theorem ofDigitChars_lt {cs : List Char} (h : Digits cs) : Nat.ofDigitChars 10 cs 0 < 10 ^ cs.length := by
  induction cs with
  | nil => decide
  | cons c rest ih =>
      obtain ⟨hc, hrest⟩ := List.forall_mem_cons.mp h
      have hfirst := Nat.mul_le_mul_left (10 ^ rest.length) (digitValue_le hc)
      have hothers := ih hrest
      rw [ofDigitChars_cons, List.length_cons, Nat.pow_succ]
      omega

/-- Rounding takes a number for no smaller power of ten than its leading digit stands for. -/
theorem pow_le_roundTo {places n : ℕ} (hplaces : 1 < places) (h : places ≤ digitCount n) :
    10 ^ (places - 1) ≤ (roundTo places n).1 := by
  let cut := digitCount n - places
  have hlarge : 10 ^ (places - 1 + cut) ≤ n := pow_le_of_lt_digitCount (by omega) (by omega)
  have hdiv : 10 ^ (places - 1) ≤ n / 10 ^ cut := by
    rw [Nat.le_div_iff_mul_le (Nat.pow_pos (by decide)), ← Nat.pow_add]
    exact hlarge
  refine hdiv.trans ?_
  show n / 10 ^ cut ≤ divHalfEven n (10 ^ cut)
  rw [divHalfEven]
  split
  · exact Nat.le_succ _
  · exact Nat.le_refl _

end Decimal

namespace Number

theorem ofRaw_eq_ok {n : ℕ} {a : Number} : ofRaw n = .ok a ↔ a.raw = n := by
  have ha := a.raw_le
  rw [ofRaw, if_neg (by omega), Int.toNat_natCast]
  split
  · simp only [Except.ok.injEq, Number.ext_iff, eq_comm]
  · constructor
    · intro h
      cases h
    · intro h
      omega

/-! ### Values in range -/

/-- The scale takes up as many negative exponents as a number has places. -/
theorem scaledWhole_mul_scale (m : ℕ) {e : ℤ} (h : -(places : ℤ) ≤ e) :
    scaledWhole (m * scale) e = m * 10 ^ (e + places).toNat := by
  have hscale : ∀ {k : ℕ}, k ≤ places → scale = 10 ^ (places - k) * 10 ^ k := fun hk => by
    rw [← Nat.pow_add, Nat.sub_add_cancel hk]
    rfl
  rw [scaledWhole, Nat.pow_eq, Nat.pow_eq]
  split
  · rename_i hzero
    rw [(Nat.mul_eq_zero.mp hzero).resolve_right (by decide), Nat.zero_mul]
  · obtain ⟨k, rfl | rfl⟩ := e.eq_nat_or_neg
    · have hnone : (-(k : ℤ)).toNat = 0 := by omega
      have hsum : ((k : ℤ) + places).toNat = places + k := by omega
      rw [hnone, hsum, Int.toNat_natCast, Nat.pow_zero, Nat.div_one, Nat.mul_assoc, Nat.pow_add]
      rfl
    · have hk : k ≤ places := by omega
      have hnone : (-(k : ℤ)).toNat = 0 := by omega
      have hrest : (-(k : ℤ) + places).toNat = places - k := by omega
      rw [hnone, hrest, Int.neg_neg, Int.toNat_natCast, Nat.pow_zero, Nat.mul_one, hscale hk,
        ← Nat.mul_assoc, Nat.mul_div_cancel _ (Nat.pow_pos (by decide))]

/-- A decimal in range has few digits, also when it is scaled. -/
theorem digitCount_scaled_le {m k : ℕ} (h : m * 10 ^ k ≤ maxRaw) :
    Decimal.digitCount (m * scale) ≤ decimalDigits := by
  have hm : m ≤ maxRaw := (Nat.le_mul_of_pos_right m (Nat.pow_pos (by decide))).trans h
  have hscaled : m * scale ≤ maxRaw * scale := Nat.mul_le_mul_right scale hm
  exact Decimal.digitCount_le (by decide) (Nat.lt_of_le_of_lt hscaled (by decide))

/-- A decimal in range is not rounded on the way. -/
theorem roundTo_scaled {m k : ℕ} (h : m * 10 ^ k ≤ maxRaw) :
    Decimal.roundTo decimalDigits (m * scale) = (m * scale, 0) :=
  Decimal.roundTo_of_le (digitCount_scaled_le h)

/-- In range, a decimal that is not zero has a small exponent. -/
theorem exponent_le_of_value_le {m k : ℕ} (hm : m ≠ 0) (h : m * 10 ^ k ≤ maxRaw) : k ≤ 78 := by
  have hpow : 10 ^ k ≤ maxRaw := (Nat.le_mul_of_pos_left _ (Nat.pos_of_ne_zero hm)).trans h
  have hlt : 10 ^ k < 10 ^ 78 := Nat.lt_of_le_of_lt hpow (by decide)
  exact ((Nat.pow_lt_pow_iff_right (by decide)).mp hlt).le

/-! ### Values that are rounded -/

/-- A scaled value of so many digits that it is rounded is beyond every number. -/
theorem maxRaw_lt_of_rounded {n : ℕ} {e : ℤ} (hn : decimalDigits ≤ Decimal.digitCount n)
    (he : -(places : ℤ) ≤ e) :
    maxRaw < scaledWhole (Decimal.roundTo decimalDigits n).1 e := by
  have hround := Decimal.pow_le_roundTo (by decide) hn
  generalize (Decimal.roundTo decimalDigits n).1 = m at hround ⊢
  have hm : m ≠ 0 := (Nat.lt_of_lt_of_le (by decide) hround).ne'
  have hdivisor : 10 ^ (-e).toNat ≤ 10 ^ places := Nat.pow_le_pow_right (by decide) (by omega)
  rw [scaledWhole, if_neg hm, Nat.pow_eq, Nat.pow_eq]
  calc maxRaw < 10 ^ (decimalDigits - 1) / 10 ^ places := by decide
    _ ≤ m / 10 ^ places := Nat.div_le_div_right hround
    _ ≤ m / 10 ^ (-e).toNat := Nat.div_le_div_left hdivisor (Nat.pow_pos (by decide))
    _ ≤ m * 10 ^ e.toNat / 10 ^ (-e).toNat :=
        Nat.div_le_div_right (Nat.le_mul_of_pos_right m (Nat.pow_pos (by decide)))

/-! ### Decimals -/

/-- In range, a scaled value stays below the largest exponent. -/
theorem scaled_exponent_le {m : ℕ} {e : ℤ} (hm : m * scale ≠ 0) (he : -(places : ℤ) ≤ e)
    (h : m * 10 ^ (e + places).toNat ≤ maxRaw) :
    e + Decimal.digitCount (m * scale) - 1 ≤ maxDecimalExponent := by
  have hcount := digitCount_scaled_le h
  have hexponent := exponent_le_of_value_le (Nat.ne_zero_of_mul_ne_zero_left hm) h
  rw [decimalDigits] at hcount
  rw [maxDecimalExponent]
  omega

/-- In range and without an exponent of its own, a decimal has its digits where it may. -/
theorem admissible_of_value_le {d : Decimal} (hplaces : -(places : ℤ) ≤ d.exponent) (hplain : d.exponent ≤ 0)
    (h : d.coefficient * 10 ^ (d.exponent + places).toNat ≤ maxRaw) : d.admissible = true := by
  have hle : d.coefficient ≤ maxRaw := (Nat.le_mul_of_pos_right _ (Nat.pow_pos (by decide))).trans h
  have hcount := Decimal.digitCount_le (k := 78) (by decide) (Nat.lt_of_le_of_lt hle (by decide))
  rw [places] at hplaces
  rw [Decimal.admissible, Bool.and_eq_true, decide_eq_true_eq, decide_eq_true_eq, Decimal.maxLeading,
    Decimal.minLast]
  omega

/-- **Decimals are taken exactly.** A decimal stands for a number exactly if it is not below zero, has at
most twelve places, and its value is that of the number. -/
theorem ofDecimal_eq_ok {shown : Piece} {d : Decimal} {a : Number} :
    ofDecimal shown d = .ok a ↔ ¬(d.negative = true ∧ d.coefficient ≠ 0) ∧ -(places : ℤ) ≤ d.exponent ∧
      a.raw = d.coefficient * 10 ^ (d.exponent + places).toNat := by
  have ha := a.raw_le
  rw [ofDecimal]
  by_cases hnegative : d.negative = true ∧ d.coefficient ≠ 0
  · rw [if_pos hnegative]
    exact iff_of_false nofun fun h => h.1 hnegative
  by_cases hfine : d.exponent < -(places : ℤ)
  · rw [if_neg hnegative, if_pos hfine]
    exact iff_of_false nofun fun h => absurd hfine (not_lt.mpr h.2.1)
  rw [if_neg hnegative, if_neg hfine]
  have hplaces : -(places : ℤ) ≤ d.exponent := not_lt.mp hfine
  simp only [hnegative, hplaces, not_false_eq_true, true_and]
  by_cases hfew : Decimal.digitCount (d.coefficient * scale) ≤ decimalDigits
  · rw [Decimal.roundTo_of_le hfew]
    dsimp only
    rw [Int.natCast_zero, Int.add_zero]
    split
    · rename_i hover
      refine iff_of_false nofun fun hraw => ?_
      exact absurd hover.2 (not_lt.mpr (scaled_exponent_le hover.1 hplaces (hraw ▸ ha)))
    · rw [ofRaw_eq_ok, scaledWhole_mul_scale _ hplaces]
  · -- a value of so many digits is out of range, rounded or not
    have hlarge := maxRaw_lt_of_rounded (Nat.le_of_not_le hfew)
      (show -(places : ℤ) ≤ d.exponent + (Decimal.roundTo decimalDigits (d.coefficient * scale)).2 by omega)
    refine iff_of_false (fun h => ?_) fun hraw => hfew (digitCount_scaled_le (hraw ▸ ha))
    split at h
    · cases h
    · rw [ofRaw_eq_ok] at h
      omega

/-- **Texts are read exactly.** -/
theorem parse_eq_ok {s : String} {a : Number} : parse s = .ok a ↔ ∃ d : Decimal, d.SpelledBy s ∧
    d.admissible = true ∧ ¬(d.negative = true ∧ d.coefficient ≠ 0) ∧ -(places : ℤ) ≤ d.exponent ∧
      a.raw = d.coefficient * 10 ^ (d.exponent + places).toNat := by
  constructor
  · intro h
    rw [parse] at h
    cases hread : Decimal.parse? s with
    | none =>
        rw [hread] at h
        cases h
    | some literal =>
        rw [hread] at h
        cases literal with
        | infinite negative => cases h
        | notANumber => cases h
        | finite d =>
            obtain ⟨hspelled, hadmissible⟩ := Decimal.parse?_eq_finite.mp hread
            exact ⟨d, hspelled, hadmissible, ofDecimal_eq_ok.mp h⟩
  · rintro ⟨d, hspelled, hadmissible, hvalue⟩
    rw [parse, Decimal.parse?_eq_finite.mpr ⟨hspelled, hadmissible⟩]
    exact ofDecimal_eq_ok.mpr hvalue

end Number

end EmissionLedger
