import EmissionLedger.Proofs.Number.Reading

/-!
The text of a number has no superfluous zero, and there is no other such text for it. A text is canonical
if it matches the pattern of numbers, does not start with a zero that another digit follows, and does not
end with a zero behind a point. Digits without a leading zero are those of their value, and so are twelve
digits behind a point, less the zeros at their end; so the two parts of a canonical text are found again
in the number that it is read as.

Main statements: `text_canonical`; `eq_text_of_canonical`, that no other canonical text is read as the
number.
-/

namespace EmissionLedger

/-! ### Digits and their value -/

namespace Decimal

theorem digitChar_digitValue {c : Char} (h : c.isDigit = true) : Nat.digitChar (c.toNat - '0'.toNat) = c := by
  obtain ⟨hlow, hhigh⟩ := toNat_of_isDigit h
  have hzero : '0'.toNat = 48 := rfl
  apply Char.toNat_inj.mp
  rw [Nat.toNat_digitChar_of_lt_ten (by omega)]
  omega

/-- Digits behind a number that is not zero are the last digits of what they make up together. -/
theorem toDigits_append {cs : List Char} (h : Digits cs) {n : ℕ} (hn : 0 < n) :
    Nat.toDigits 10 n ++ cs = Nat.toDigits 10 (Nat.ofDigitChars 10 cs n) := by
  induction cs generalizing n with
  | nil => rw [List.append_nil, Nat.ofDigitChars_nil]
  | cons c rest ih =>
      obtain ⟨hc, hrest⟩ := List.forall_mem_cons.mp h
      have hvalue : c.toNat - '0'.toNat < 10 := Nat.lt_succ_of_le (digitValue_le hc)
      have hdigit : Nat.toDigits 10 (c.toNat - '0'.toNat) = [c] := by
        rw [Nat.toDigits_of_lt_base hvalue, digitChar_digitValue hc]
      calc Nat.toDigits 10 n ++ c :: rest = Nat.toDigits 10 n ++ [c] ++ rest := List.append_cons ..
        _ = Nat.toDigits 10 (10 * n + (c.toNat - '0'.toNat)) ++ rest := by
            rw [← hdigit, Nat.toDigits_append_toDigits (by decide) hn hvalue]
        _ = Nat.toDigits 10 (Nat.ofDigitChars 10 (c :: rest) n) := by
            rw [ih hrest (by omega), Nat.ofDigitChars_cons]

/-- Digits that do not start with a superfluous zero are those of their value. -/
theorem toDigits_ofDigitChars {cs : List Char} (h : Digits cs) (hsome : cs ≠ [])
    (hleading : ∀ c rest, cs ≠ '0' :: c :: rest) : Nat.toDigits 10 (Nat.ofDigitChars 10 cs 0) = cs := by
  obtain ⟨c, rest, rfl⟩ := List.exists_cons_of_ne_nil hsome
  obtain ⟨hc, hrest⟩ := List.forall_mem_cons.mp h
  have hdigit := Nat.toDigits_of_lt_base (Nat.lt_succ_of_le (digitValue_le hc))
  rw [digitChar_digitValue hc] at hdigit
  rw [Nat.ofDigitChars_cons, Nat.mul_zero, Nat.zero_add]
  by_cases hpos : 0 < c.toNat - '0'.toNat
  · rw [← toDigits_append hrest hpos, hdigit, List.singleton_append]
  · -- a first digit that is zero is the only one
    have hzero : c = '0' := by
      rw [← digitChar_digitValue hc, Nat.eq_zero_of_not_pos hpos]
      rfl
    cases rest with
    | nil => rw [Nat.ofDigitChars_nil, hdigit]
    | cons c' rest => exact absurd (congrArg (· :: c' :: rest) hzero) (hleading c' rest)

/-- As many digits with the same value are the same digits. -/
theorem eq_of_ofDigitChars_eq {cs cs' : List Char} (h : Digits cs) (h' : Digits cs')
    (hlength : cs.length = cs'.length) (hvalue : Nat.ofDigitChars 10 cs 0 = Nat.ofDigitChars 10 cs' 0) :
    cs = cs' := by
  -- the digit before them keeps the leading zeros
  have hone := toDigits_append h Nat.one_pos
  rw [Nat.ofDigitChars_eq_ofDigitChars_zero, hlength, hvalue, ← Nat.ofDigitChars_eq_ofDigitChars_zero,
    ← toDigits_append h' Nat.one_pos] at hone
  exact List.append_cancel_left hone

end Decimal

namespace Number

/-! ### Fractions -/

theorem getLast?_fractionDigits (fraction : ℕ) : (fractionDigits fraction).getLast? ≠ some '0' := by
  rw [fractionDigits, List.getLast?_reverse]
  intro hlast
  have hstop := List.head?_dropWhile_not (· == '0')
    (List.replicate (places - (Nat.toDigits 10 fraction).length) '0' ++ Nat.toDigits 10 fraction).reverse
  rw [hlast] at hstop
  cases hstop

/-- The zeros behind digits that do not end with one are dropped. -/
theorem dropZeros_append {cs : List Char} (h : cs.getLast? ≠ some '0') (n : ℕ) :
    ((cs ++ List.replicate n '0').reverse.dropWhile (· == '0')).reverse = cs := by
  have hzeros : ∀ c ∈ List.replicate n '0', (c == '0') = true := fun c hc =>
    beq_iff_eq.mpr (List.eq_of_mem_replicate hc)
  rw [List.reverse_append, List.reverse_replicate, List.dropWhile_append_of_pos hzeros]
  rw [← List.head?_reverse] at h
  cases hcs : cs.reverse with
  | nil => rw [List.dropWhile_nil, List.reverse_eq_nil_iff.mp hcs, List.reverse_nil]
  | cons c rest =>
      rw [hcs, List.head?_cons] at h
      have hc : ¬(c == '0') = true := fun hzero => h (congrArg some (eq_of_beq hzero))
      rw [List.dropWhile_cons_of_neg (p := (· == '0')) hc, ← hcs, List.reverse_reverse]

theorem fraction_lt {cs : List Char} (h : Decimal.Digits cs) (hfew : cs.length ≤ places) :
    Nat.ofDigitChars 10 cs 0 * 10 ^ (places - cs.length) < scale := by
  calc Nat.ofDigitChars 10 cs 0 * 10 ^ (places - cs.length)
      < 10 ^ cs.length * 10 ^ (places - cs.length) :=
        Nat.mul_lt_mul_of_pos_right (Decimal.ofDigitChars_lt h) (Nat.pow_pos (by decide))
    _ = 10 ^ places := by rw [← Nat.pow_add, Nat.add_sub_cancel' hfew]

/-- Digits that do not end with a zero are those of the fraction that they stand for. -/
theorem fractionDigits_ofDigitChars {cs : List Char} (h : Decimal.Digits cs)
    (hfew : cs.length ≤ places) (hlast : cs.getLast? ≠ some '0') :
    fractionDigits (Nat.ofDigitChars 10 cs 0 * 10 ^ (places - cs.length)) = cs := by
  let fraction := Nat.ofDigitChars 10 cs 0 * 10 ^ (places - cs.length)
  have hlength : (Nat.toDigits 10 fraction).length ≤ places :=
    (Nat.length_toDigits_le_iff (by decide) (by decide)).mpr (fraction_lt h hfew)
  have hzero : ∀ {n : ℕ}, ∀ c ∈ List.replicate n '0', c.isDigit = true := fun c hc => by
    rw [List.eq_of_mem_replicate hc]
    rfl
  have hpadded : List.replicate (places - (Nat.toDigits 10 fraction).length) '0' ++
      Nat.toDigits 10 fraction = cs ++ List.replicate (places - cs.length) '0' := by
    refine Decimal.eq_of_ofDigitChars_eq ?_ ?_ ?_ ?_
    · exact List.forall_mem_append.mpr ⟨hzero, fun c => isAsciiDigit_of_mem_toDigits⟩
    · exact List.forall_mem_append.mpr ⟨h, hzero⟩
    · simp only [List.length_append, List.length_replicate]
      omega
    · rw [Nat.ofDigitChars_append, Nat.ofDigitChars_append, Nat.ofDigitChars_replicate_zero, Nat.mul_zero,
        Nat.ofDigitChars_ten_toDigits, Nat.ofDigitChars_replicate_zero]
      exact Nat.mul_comm ..
  show ((List.replicate (places - (Nat.toDigits 10 fraction).length) '0' ++
    Nat.toDigits 10 fraction).reverse.dropWhile (· == '0')).reverse = cs
  rw [hpadded]
  exact dropZeros_append hlast _

/-! ### Canonical texts -/

/-- A decimal text without superfluous zeros. -/
structure Canonical (cs : List Char) : Prop where
  decimal : isDecimalText cs = true
  leading : ∀ c rest, cs = '0' :: c :: rest → c = '.'
  trailing : '.' ∈ cs → cs.getLast? ≠ some '0'

/-- A number that is not zero does not start with a zero. -/
theorem head?_toDigits {n : ℕ} (h : n ≠ 0) : (Nat.toDigits 10 n).head? ≠ some '0' := by
  induction n using Nat.strongRecOn with
  | ind n ih =>
    by_cases hsmall : n < 10
    · have byDigit : ∀ n < 10, n ≠ 0 → Nat.digitChar n ≠ '0' := by decide
      rw [Nat.toDigits_of_lt_base hsmall]
      exact fun hhead => byDigit n hsmall h (Option.some.inj hhead)
    · rw [Nat.toDigits_of_base_le (by decide) (Nat.le_of_not_lt hsmall),
        List.head?_append_of_ne_nil _ Nat.toDigits_ne_nil]
      exact ih (n / 10) (by omega) (by omega)

/-- What makes a decimal text canonical, part by part. -/
theorem canonical_pointed {whole fraction : List Char} (hwhole : Decimal.Digits whole)
    (h : isDecimalText (whole ++ Decimal.pointed fraction) = true) :
    Canonical (whole ++ Decimal.pointed fraction) ↔
      (∀ c rest, whole ≠ '0' :: c :: rest) ∧ fraction.getLast? ≠ some '0' := by
  have hpoint : '.' ∉ whole := fun hmem => absurd (hwhole '.' hmem) (by decide)
  constructor
  · rintro ⟨-, hleading, htrailing⟩
    constructor
    · rintro c rest rfl
      have hc := hwhole c (List.mem_cons_of_mem _ (List.mem_cons_self ..))
      rw [hleading c _ rfl] at hc
      cases hc
    · cases fraction with
      | nil => nofun
      | cons c rest =>
          have hlast := htrailing (List.mem_append_right _ (List.mem_cons_self ..))
          rwa [Decimal.pointed_cons, List.getLast?_append_cons, List.getLast?_cons_cons] at hlast
  · rintro ⟨hleading, htrailing⟩
    refine ⟨h, fun c rest hcs => ?_, fun hmem => ?_⟩
    · rcases whole with _ | ⟨d, _ | ⟨d', others⟩⟩
      · cases fraction <;> cases hcs
      · cases fraction <;> cases hcs
        rfl
      · cases hcs
        exact absurd rfl (hleading _ others)
    · cases fraction with
      | nil =>
          rw [Decimal.pointed, List.append_nil] at hmem
          exact absurd hmem hpoint
      | cons c rest => rwa [Decimal.pointed_cons, List.getLast?_append_cons, List.getLast?_cons_cons]

theorem canonical_text (a : Number) : Canonical a.text.toList := by
  have hdecimal := a.isDecimalText_digits
  have hdigits : Decimal.Digits (Nat.toDigits 10 (a.raw / scale)) :=
    fun c => isAsciiDigit_of_mem_toDigits
  rw [text, String.toList_ofList]
  rw [digits_eq_pointed] at hdecimal ⊢
  refine (canonical_pointed hdigits hdecimal).mpr ⟨fun c rest hwhole => ?_, ?_⟩
  · by_cases hzero : a.raw / scale = 0
    · rw [hzero, Nat.toDigits_zero] at hwhole
      cases hwhole
    · exact head?_toDigits hzero (by rw [hwhole, List.head?_cons])
  · rw [shownFraction_eq]
    exact getLast?_fractionDigits _

/-- No other canonical text is read as the number. -/
theorem eq_text_of_canonical {s : String} {a : Number} (hcanonical : Canonical s.toList)
    (h : parse s = .ok a) : s = a.text := by
  have hdecimal := hcanonical.decimal
  obtain ⟨whole, fraction, hs, hsome, hwhole, hfraction, hfew⟩ := pointed_of_isDecimalText hdecimal
  rw [hs] at hcanonical hdecimal
  obtain ⟨hleading, htrailing⟩ := (canonical_pointed hwhole hdecimal).mp hcanonical
  have hplain : dropLineEnd s.toList = whole ++ Decimal.pointed fraction := by
    rw [hs]
    exact dropLineEnd_of_ne (plain_of_isDecimalText hdecimal)
  have hraw := value_of_parse (Decimal.spelledBy_pointed hplain hsome hwhole hfraction) h
  have hrest : (-(fraction.length : ℤ) + places).toNat = places - fraction.length := by omega
  dsimp only at hraw
  rw [hrest, ofDigitChars_parts whole hfew] at hraw
  have hlt := fraction_lt hfraction hfew
  apply String.toList_inj.mp
  rw [text, String.toList_ofList, digits_eq_pointed, shownFraction_eq, hs, hraw,
    Nat.mul_add_div (by decide), Nat.div_eq_of_lt hlt, Nat.add_zero, Nat.mul_add_mod,
    Nat.mod_eq_of_lt hlt, Decimal.toDigits_ofDigitChars hwhole hsome hleading,
    fractionDigits_ofDigitChars hfraction hfew htrailing]

/-- **Texts of numbers.** The text of a number matches the pattern of numbers, has no superfluous zero at
either end and is read back as the number; so two numbers never have the same text. -/
theorem text_canonical :
    (∀ a : Number, matchesNumber a.text = true ∧ Canonical a.text.toList ∧ parse a.text = .ok a) ∧
      Function.Injective text := by
  refine ⟨fun a => ⟨a.matchesNumber_text, a.canonical_text, a.parse_text⟩, fun a b htext => ?_⟩
  have hread := a.parse_text
  rw [htext, b.parse_text] at hread
  exact (Except.ok.inj hread).symm

end Number

end EmissionLedger
