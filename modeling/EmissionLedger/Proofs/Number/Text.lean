import EmissionLedger.Proofs.Contract.Acceptance
import EmissionLedger.Proofs.Number.Exactness
import Mathlib.Algebra.Group.Nat.Defs

/-!
The text of a number is read back as the number. It is a plain decimal, digits with or without a point
and more digits, and a plain decimal spells the digits without the point, with as many places as stand
after it. The zeros that the text leaves out at its end are those that the scale adds again.

Main statements: `spelledBy_of_matches` for plain decimals; `Number.parse_text`.
-/

namespace EmissionLedger

/-! ### Plain decimals -/

/-- What a text may have behind its line is one line feed. -/
theorem dropLineEnd_spec (cs : List Char) :
    ∃ right, cs = dropLineEnd cs ++ right ∧ ∀ c ∈ right, c = '\n' := by
  rw [dropLineEnd]
  split
  · rename_i hlast
    obtain ⟨front, rfl⟩ := List.getLast?_eq_some_iff.mp hlast
    exact ⟨['\n'], by rw [List.dropLast_concat], fun c hc => List.mem_singleton.mp hc⟩
  · exact ⟨[], (List.append_nil cs).symm, List.forall_mem_nil _⟩

namespace Decimal

/-- What stands after the whole digits of a plain decimal: nothing, or a point and the fraction. -/
def pointed : List Char → List Char
  | [] => []
  | fraction => '.' :: fraction

theorem pointed_cons (c : Char) (rest : List Char) : pointed (c :: rest) = '.' :: c :: rest := rfl

theorem fractionText_pointed {fraction : List Char} (h : Digits fraction) :
    FractionText fraction (pointed fraction) := by
  cases fraction with
  | nil => exact .omitted
  | cons c rest => exact .pointed h

/-- Digits with a point spell the digits without the point, with as many places as stand after it. A line
feed may stand behind them. -/
theorem spelledBy_pointed {s : String} {whole fraction : List Char}
    (hs : dropLineEnd s.toList = whole ++ pointed fraction) (hsome : whole ≠ []) (hwhole : Digits whole)
    (hfraction : Digits fraction) :
    SpelledBy ⟨false, Nat.ofDigitChars 10 (whole ++ fraction) 0, -fraction.length⟩ s := by
  have hmagnitude : MagnitudeText (Nat.ofDigitChars 10 (whole ++ fraction) 0) (0 - fraction.length)
      (whole ++ (pointed fraction ++ [])) :=
    .parts hwhole (fractionText_pointed hfraction) (by simp [hsome]) .omitted
  rw [Int.zero_sub, List.append_nil, ← hs] at hmagnitude
  obtain ⟨right, hright, hfeed⟩ := dropLineEnd_spec s.toList
  have hparts : s.toList = [] ++ dropLineEnd s.toList ++ right := hright
  refine Spelled.spelledBy (.signed .omitted hmagnitude) hparts (List.forall_mem_nil _) ?_
  intro c hc
  rw [hfeed c hc]
  decide

end Decimal

namespace Number

/-! ### The pattern of numbers -/

/-- What the pattern of numbers describes is digits with at most twelve more behind a point. -/
theorem pointed_of_isDecimalText {cs : List Char} (h : isDecimalText cs = true) :
    ∃ whole fraction, cs = whole ++ Decimal.pointed fraction ∧ whole ≠ [] ∧ Decimal.Digits whole ∧
      Decimal.Digits fraction ∧ fraction.length ≤ places := by
  simp only [isDecimalText, Bool.and_eq_true, Bool.not_eq_true', List.isEmpty_eq_false_iff] at h
  obtain ⟨hsome, hfraction⟩ := h
  have hwhole : Decimal.Digits (cs.takeWhile isAsciiDigit) := fun c hc =>
    List.mem_takeWhile_imp (p := isAsciiDigit) hc
  have hsplit := List.takeWhile_append_dropWhile (p := isAsciiDigit) (l := cs)
  split at hfraction
  · rename_i hnone
    rw [hnone] at hsplit
    exact ⟨_, [], hsplit.symm, hsome, hwhole, List.forall_mem_nil _, Nat.zero_le _⟩
  · rename_i digits hpoint
    simp only [Bool.and_eq_true, List.all_eq_true, decide_eq_true_eq] at hfraction
    obtain ⟨⟨hdigits, hone⟩, htwelve⟩ := hfraction
    rw [hpoint] at hsplit
    refine ⟨_, digits, hsplit.symm.trans ?_, hsome, hwhole, hdigits, htwelve⟩
    cases digits with
    | nil => cases hone
    | cons c rest => rfl
  · cases hfraction

/-- A text that matches the pattern of numbers spells a decimal without a sign and without an exponent. -/
theorem spelledBy_of_matches {s : String} (h : matchesNumber s = true) :
    ∃ d : Decimal, d.SpelledBy s ∧ d.negative = false ∧ -(places : ℤ) ≤ d.exponent ∧ d.exponent ≤ 0 := by
  obtain ⟨whole, fraction, hs, hsome, hwhole, hfraction, hplaces⟩ := pointed_of_isDecimalText h
  refine ⟨_, Decimal.spelledBy_pointed hs hsome hwhole hfraction, rfl, ?_, ?_⟩ <;> dsimp only <;> omega

/-! ### Texts of numbers -/

/-- The fraction of a number as its text shows it. -/
def shownFraction (a : Number) : List Char :=
  if a.raw % scale = 0 then [] else fractionDigits (a.raw % scale)

theorem fractionDigits_zero : fractionDigits 0 = [] := by
  decide

theorem shownFraction_eq (a : Number) : a.shownFraction = fractionDigits (a.raw % scale) := by
  rw [shownFraction]
  split
  · rename_i hzero
    rw [hzero, fractionDigits_zero]
  · rfl

theorem digits_eq_pointed (a : Number) :
    a.digits = Nat.toDigits 10 (a.raw / scale) ++ Decimal.pointed a.shownFraction := by
  rw [digits, shownFraction]
  split
  · exact (List.append_nil _).symm
  · rename_i hfraction
    obtain ⟨-, hone, -⟩ := fractionDigits_spec hfraction (Nat.mod_lt a.raw (by decide))
    cases hdigits : fractionDigits (a.raw % scale) with
    | nil =>
        rw [hdigits] at hone
        cases hone
    | cons c rest => rfl

/-- With the zeros that end it, a fraction has its twelve digits. -/
theorem fractionDigits_append (fraction : ℕ) :
    ∃ n, fractionDigits fraction ++ List.replicate n '0' =
      List.replicate (places - (Nat.toDigits 10 fraction).length) '0' ++ Nat.toDigits 10 fraction := by
  let padded := List.replicate (places - (Nat.toDigits 10 fraction).length) '0' ++ Nat.toDigits 10 fraction
  let zeros := padded.reverse.takeWhile (· == '0')
  have hzeros : zeros = List.replicate zeros.length '0' := by
    refine List.eq_replicate_iff.mpr ⟨rfl, fun c hc => ?_⟩
    have hzero := List.mem_takeWhile_imp (p := (· == '0')) hc
    exact eq_of_beq hzero
  refine ⟨zeros.length, ?_⟩
  have hsplit : (padded.reverse.takeWhile (· == '0') ++ padded.reverse.dropWhile (· == '0')).reverse =
      padded := by
    rw [List.takeWhile_append_dropWhile, List.reverse_reverse]
  rw [List.reverse_append] at hsplit
  rw [← List.reverse_replicate, ← hzeros]
  exact hsplit

theorem isDigit_shownFraction {a : Number} : ∀ c ∈ a.shownFraction, c.isDigit = true := by
  rw [shownFraction]
  split
  · simp
  · exact (fractionDigits_spec ‹_› (Nat.mod_lt a.raw (by decide))).1

theorem length_shownFraction_le (a : Number) : a.shownFraction.length ≤ places := by
  rw [shownFraction]
  split
  · exact Nat.zero_le _
  · exact (fractionDigits_spec ‹_› (Nat.mod_lt a.raw (by decide))).2.2

/-- The digits of a fraction with the places that are not shown make up the fraction. -/
theorem ofDigitChars_fractionDigits {fraction : ℕ} (h : fraction < scale) :
    Nat.ofDigitChars 10 (fractionDigits fraction) 0 * 10 ^ (places - (fractionDigits fraction).length) =
      fraction := by
  obtain ⟨n, hpadded⟩ := fractionDigits_append fraction
  have hfew : (Nat.toDigits 10 fraction).length ≤ places :=
    (Nat.length_toDigits_le_iff (by decide) (by decide)).mpr h
  have hlength := congrArg List.length hpadded
  simp only [List.length_append, List.length_replicate] at hlength
  have hn : places - (fractionDigits fraction).length = n := by omega
  calc Nat.ofDigitChars 10 (fractionDigits fraction) 0 * 10 ^ (places - (fractionDigits fraction).length)
      = Nat.ofDigitChars 10 (fractionDigits fraction ++ List.replicate n '0') 0 := by
        rw [Nat.ofDigitChars_append, Nat.ofDigitChars_replicate_zero, hn, Nat.mul_comm]
    _ = Nat.ofDigitChars 10 (List.replicate (places - (Nat.toDigits 10 fraction).length) '0' ++
          Nat.toDigits 10 fraction) 0 := by rw [hpadded]
    _ = fraction := by
        rw [Nat.ofDigitChars_append, Nat.ofDigitChars_replicate_zero, Nat.mul_zero,
          Nat.ofDigitChars_ten_toDigits]

/-- The digits of a number make up its whole part and its fraction. -/
theorem ofDigitChars_parts (whole : List Char) {fraction : List Char} (hfew : fraction.length ≤ places) :
    Nat.ofDigitChars 10 (whole ++ fraction) 0 * 10 ^ (places - fraction.length) =
      scale * Nat.ofDigitChars 10 whole 0 +
        Nat.ofDigitChars 10 fraction 0 * 10 ^ (places - fraction.length) := by
  have hscale : scale = 10 ^ fraction.length * 10 ^ (places - fraction.length) := by
    rw [← Nat.pow_add, Nat.add_sub_cancel' hfew]
    rfl
  rw [Nat.ofDigitChars_append, Nat.ofDigitChars_eq_ofDigitChars_zero (l := fraction), Nat.add_mul, hscale]
  congr 1
  exact Nat.mul_right_comm ..

/-- The digits of a number with the places that are not shown make up its raw value. -/
theorem ofDigitChars_shown (a : Number) :
    Nat.ofDigitChars 10 (Nat.toDigits 10 (a.raw / scale) ++ a.shownFraction) 0 *
      10 ^ (places - a.shownFraction.length) = a.raw := by
  rw [ofDigitChars_parts _ a.length_shownFraction_le, shownFraction_eq,
    ofDigitChars_fractionDigits (Nat.mod_lt _ (by decide)), Nat.ofDigitChars_ten_toDigits, Nat.div_add_mod]

/-- **The text of a number is read back as the number.** -/
theorem parse_text (a : Number) : parse a.text = .ok a := by
  have hdigits : Decimal.Digits (Nat.toDigits 10 (a.raw / scale)) :=
    fun c => isAsciiDigit_of_mem_toDigits
  have hs : dropLineEnd a.text.toList =
      Nat.toDigits 10 (a.raw / scale) ++ Decimal.pointed a.shownFraction := by
    rw [text, String.toList_ofList, dropLineEnd_of_ne (plain_of_isDecimalText a.isDecimalText_digits),
      digits_eq_pointed]
  have hspelled := Decimal.spelledBy_pointed hs Nat.toDigits_ne_nil hdigits isDigit_shownFraction
  have hplaces := a.length_shownFraction_le
  have hfine : -(places : ℤ) ≤ -(a.shownFraction.length : ℤ) := by omega
  have hrest : (-(a.shownFraction.length : ℤ) + places).toNat = places - a.shownFraction.length := by omega
  have hraw := a.ofDigitChars_shown
  rw [← hrest] at hraw
  have hadmissible := admissible_of_value_le (d := ⟨false, _, _⟩) hfine (by dsimp only; omega)
    (hraw ▸ a.raw_le)
  exact parse_eq_ok.mpr ⟨_, hspelled, hadmissible, by simp, hfine, hraw.symm⟩

end Number

end EmissionLedger
