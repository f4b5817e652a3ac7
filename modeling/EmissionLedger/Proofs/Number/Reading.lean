import EmissionLedger.Proofs.Number.Text
import EmissionLedger.Proofs.Outcome

/-!
Which texts are read as numbers, and as which. A text is read exactly if it spells a decimal that is not
below zero, has at most twelve places and is in range, and the number is the decimal's value; the 100
digits that a value is held to round none of them, and round no other into range. The pattern of numbers
describes texts that all spell a decimal, and those of them in range are read.

Main statement: `parse_exact`.
-/

namespace EmissionLedger.Number

theorem value_of_parse {s : String} {d : Decimal} {a : Number} (hspelled : d.SpelledBy s)
    (h : parse s = .ok a) : a.raw = d.coefficient * 10 ^ (d.exponent + places).toNat := by
  obtain ⟨d', hspelled', -, -, -, hraw⟩ := parse_eq_ok.mp h
  rwa [hspelled.unique hspelled']

/-- A text that matches the pattern of numbers is read exactly if its value is in range. -/
theorem parse_answered_of_matches {s : String} (h : matchesNumber s = true) :
    ∃ d : Decimal, d.SpelledBy s ∧ d.negative = false ∧ -(places : ℤ) ≤ d.exponent ∧
      ((∃ a, parse s = .ok a) ↔ d.coefficient * 10 ^ (d.exponent + places).toNat ≤ maxRaw) := by
  obtain ⟨d, hspelled, hpositive, hplaces, hplain⟩ := spelledBy_of_matches h
  refine ⟨d, hspelled, hpositive, hplaces, ?_, fun hle => ?_⟩
  · rintro ⟨a, ha⟩
    exact value_of_parse hspelled ha ▸ a.raw_le
  · let a : Number := ⟨d.coefficient * 10 ^ (d.exponent + places).toNat, hle⟩
    refine ⟨a, parse_eq_ok.mpr ⟨d, hspelled, admissible_of_value_le hplaces hplain hle, ?_, hplaces, rfl⟩⟩
    simp [hpositive]

/-- **Texts are read exactly.** A text spells one decimal at most. It is read as a number if and only if it
spells one, with its digits where a literal may have them, that is not below zero, has at most twelve
places and is at most the largest number; the raw value is then the decimal's, and nothing was rounded on
the way. Every text that matches the pattern of numbers spells a decimal, and is read if that is in
range. -/
theorem parse_exact (s : String) :
    (∀ d d' : Decimal, d.SpelledBy s → d'.SpelledBy s → d = d') ∧
    ((∃ a, parse s = .ok a) ↔ ∃ d : Decimal, d.SpelledBy s ∧ d.admissible = true ∧
      ¬(d.negative = true ∧ d.coefficient ≠ 0) ∧ -12 ≤ d.exponent ∧
      d.coefficient * 10 ^ (d.exponent + 12).toNat ≤ 2 ^ 256 - 1) ∧
    (∀ (d : Decimal) a, d.SpelledBy s → parse s = .ok a →
      a.raw = d.coefficient * 10 ^ (d.exponent + 12).toNat ∧
      Decimal.roundTo decimalDigits (d.coefficient * scale) = (d.coefficient * scale, 0)) ∧
    (matchesNumber s = true → ∃ d : Decimal, d.SpelledBy s ∧ d.negative = false ∧ -12 ≤ d.exponent ∧
      ((∃ a, parse s = .ok a) ↔ d.coefficient * 10 ^ (d.exponent + 12).toNat ≤ 2 ^ 256 - 1)) := by
  refine ⟨fun d d' h h' => h.unique h', ⟨?_, ?_⟩, fun d a hspelled ha => ?_, parse_answered_of_matches⟩
  · rintro ⟨a, ha⟩
    obtain ⟨d, hspelled, hadmissible, hpositive, hplaces, hraw⟩ := parse_eq_ok.mp ha
    exact ⟨d, hspelled, hadmissible, hpositive, hplaces, hraw ▸ a.raw_le⟩
  · rintro ⟨d, hspelled, hadmissible, hpositive, hplaces, hle⟩
    let a : Number := ⟨d.coefficient * 10 ^ (d.exponent + places).toNat, hle⟩
    exact ⟨a, parse_eq_ok.mpr ⟨d, hspelled, hadmissible, hpositive, hplaces, rfl⟩⟩
  · have hraw := value_of_parse hspelled ha
    exact ⟨hraw, roundTo_scaled (hraw ▸ a.raw_le)⟩

/-- Seven and a half with zeros and a line feed around it matches the pattern and is read, and so is one
and a quarter with a blank, an Arabic digit, an underscore and an exponent, which does not match it. -/
theorem parse_exact_spaced :
    matchesNumber "007.50\n" = true ∧ (∃ a, parse "007.50\n" = .ok a) ∧
      ∃ d : Decimal, d.SpelledBy "\u00a0+\u0661_2.50E-1" ∧
        d.coefficient * 10 ^ (d.exponent + 12).toNat = 1250000000000 ∧
        Decimal.roundTo decimalDigits (d.coefficient * scale) = (d.coefficient * scale, 0) := by
  have hmatches : matchesNumber "007.50\n" = true := by decide
  have hread : parse "\u00a0+\u0661_2.50E-1" = .ok ⟨1250000000000, by decide⟩ :=
    toOption_eq_some.mp (by decide +kernel)
  have hparts : dropLineEnd "007.50\n".toList = "007".toList ++ Decimal.pointed "50".toList := by decide
  have hseven : Decimal.SpelledBy ⟨false, 750, -2⟩ "007.50\n" :=
    Decimal.spelledBy_pointed hparts (by decide) (by decide) (by decide)
  obtain ⟨hunique, -, -, hpattern⟩ := parse_exact "007.50\n"
  obtain ⟨d', hspelled', -, -, hanswered⟩ := hpattern hmatches
  obtain rfl := hunique _ _ hseven hspelled'
  obtain ⟨-, haccepted, hvalue, -⟩ := parse_exact "\u00a0+\u0661_2.50E-1"
  obtain ⟨d, hspelled, -⟩ := haccepted.mp ⟨_, hread⟩
  obtain ⟨hraw, hexact⟩ := hvalue d _ hspelled hread
  exact ⟨hmatches, hanswered.mpr (by decide), d, hspelled, hraw.symm, hexact⟩

end EmissionLedger.Number
