import EmissionLedger.Decimal.Literal
import Mathlib.Data.List.TakeWhile

/-!
The grammar of decimal literals, as relations between a text and what it stands for. They say which
texts there are and not how to read one, and the reader answers exactly by them: it finds the decimal
that a text spells, which is one at most, and refuses it only for digits too far from the point.

Main statements: `parse?_eq_finite`, `SpelledBy.unique`.
-/

namespace EmissionLedger

/-- What trimming drops is of the class. -/
theorem Text.trim_spec (p : Char → Bool) (cs : List Char) : ∃ left right,
    cs = left ++ trim p cs ++ right ∧ (∀ c ∈ left, p c = true) ∧ ∀ c ∈ right, p c = true := by
  let rest := (cs.dropWhile p).reverse
  have hrest : (rest.dropWhile p).reverse ++ (rest.takeWhile p).reverse = cs.dropWhile p := by
    rw [← List.reverse_append, List.takeWhile_append_dropWhile, List.reverse_reverse]
  refine ⟨cs.takeWhile p, (rest.takeWhile p).reverse, ?_, fun c hc => List.mem_takeWhile_imp hc, ?_⟩
  · show cs = cs.takeWhile p ++ (rest.dropWhile p).reverse ++ (rest.takeWhile p).reverse
    rw [List.append_assoc, hrest, List.takeWhile_append_dropWhile]
  · intro c hc
    exact List.mem_takeWhile_imp (List.mem_reverse.mp hc)

/-- What stands between characters of the class and has none itself is what trimming leaves. -/
theorem Text.trim_append {p : Char → Bool} {left body right : List Char} (hleft : ∀ c ∈ left, p c = true)
    (hbody : ∀ c ∈ body, p c = false) (hright : ∀ c ∈ right, p c = true) :
    trim p (left ++ body ++ right) = body := by
  cases body with
  | nil =>
      have hall : ∀ c ∈ left ++ right, p c = true := fun c hc =>
        (List.mem_append.mp hc).elim (hleft c) (hright c)
      rw [trim, List.append_nil, List.dropWhile_eq_nil_iff.mpr hall]
      rfl
  | cons c rest =>
      have keep : ∀ {cs : List Char} (tail : List Char), (∀ d ∈ cs.head?, p d = false) → cs ≠ [] →
          (cs ++ tail).dropWhile p = cs ++ tail := by
        intro cs tail hhead hsome
        obtain ⟨d, cs, rfl⟩ := List.exists_cons_of_ne_nil hsome
        exact List.dropWhile_cons_of_neg (by simp [hhead d rfl])
      have hfirst : (c :: rest ++ right).dropWhile p = c :: rest ++ right :=
        keep right (fun d hd => hbody d (List.mem_of_mem_head? hd)) (List.cons_ne_nil _ _)
      have hlast : (c :: rest).reverse.dropWhile p = (c :: rest).reverse := by
        rw [← List.append_nil (c :: rest).reverse]
        refine keep [] (fun d hd => hbody d ?_) (by simp)
        exact List.mem_reverse.mp (List.mem_of_mem_head? hd)
      have hreverse : ∀ d ∈ right.reverse, p d = true := fun d hd => hright d (List.mem_reverse.mp hd)
      rw [trim, List.append_assoc, List.dropWhile_append_of_pos hleft, hfirst, List.reverse_append,
        List.dropWhile_append_of_pos hreverse, hlast, List.reverse_reverse]

namespace Decimal

/-! ### The grammar -/

/-- ASCII digits, as many as there are. -/
def Digits (cs : List Char) : Prop := ∀ c ∈ cs, c.isDigit = true

instance (cs : List Char) : Decidable (Digits cs) :=
  decidable_of_iff (cs.all Char.isDigit = true) List.all_eq_true

/-- A sign, which may be left out, and whether it is a minus. -/
inductive SignText : Bool → List Char → Prop
  | omitted : SignText false []
  | plus : SignText false ['+']
  | minus : SignText true ['-']

/-- A fraction, which may be left out: a point and digits. -/
inductive FractionText : List Char → List Char → Prop
  | omitted : FractionText [] []
  | pointed {digits : List Char} : Digits digits → FractionText digits ('.' :: digits)

/-- An exponent, which may be left out: a mark, a sign and at least one digit. -/
inductive ExponentText : Int → List Char → Prop
  | omitted : ExponentText 0 []
  | marked {mark : Char} {negative : Bool} {sign digits : List Char} : mark = 'e' ∨ mark = 'E' →
      SignText negative sign → Digits digits → digits ≠ [] →
      ExponentText (if negative then -(Nat.ofDigitChars 10 digits 0 : Int) else Nat.ofDigitChars 10 digits 0)
        (mark :: (sign ++ digits))

/-- A number without its sign. The digits on both sides of the point make up the coefficient, and each
digit after the point takes one off the exponent. -/
inductive MagnitudeText : Nat → Int → List Char → Prop
  | parts {whole fraction point tail : List Char} {e : Int} : Digits whole → FractionText fraction point →
      whole ++ fraction ≠ [] → ExponentText e tail →
      MagnitudeText (Nat.ofDigitChars 10 (whole ++ fraction) 0) (e - fraction.length)
        (whole ++ (point ++ tail))

/-- The ASCII text spells the decimal. -/
inductive Spelled : Decimal → List Char → Prop
  | signed {d : Decimal} {sign body : List Char} : SignText d.negative sign →
      MagnitudeText d.coefficient d.exponent body → Spelled d (sign ++ body)

/-- The text spells the decimal, with blanks around it, underscores anywhere inside, and its digits in any
script. -/
def SpelledBy (d : Decimal) (s : String) : Prop :=
  ∃ left body right plain, s.toList = left ++ body ++ right ∧
    (∀ c ∈ left, Text.isBlank c = true) ∧ (∀ c ∈ right, Text.isBlank c = true) ∧
    (body.filter (· ≠ '_')).mapM asciiChar? = some plain ∧ d.Spelled plain

/-! ### Signs and digits -/

theorem toNat_of_isDigit {c : Char} (h : c.isDigit = true) : 48 ≤ c.toNat ∧ c.toNat ≤ 57 :=
  Char.isDigit_iff_toNat.mp h

theorem splitSign_append {negative : Bool} {sign rest : List Char} (h : SignText negative sign)
    (hrest : ∀ c ∈ rest.head?, c ≠ '+' ∧ c ≠ '-') : splitSign (sign ++ rest) = (negative, rest) := by
  cases h with
  | omitted =>
      rw [List.nil_append, splitSign.eq_def]
      split
      · exact absurd rfl (hrest '+' rfl).1
      · exact absurd rfl (hrest '-' rfl).2
      · rfl
  | plus => rfl
  | minus => rfl

theorem splitSign_spec (cs : List Char) :
    ∃ sign, SignText (splitSign cs).1 sign ∧ sign ++ (splitSign cs).2 = cs := by
  rw [splitSign.eq_def]
  split
  · exact ⟨_, .plus, rfl⟩
  · exact ⟨_, .minus, rfl⟩
  · exact ⟨_, .omitted, rfl⟩

theorem spanDigits_append {whole tail : List Char} (hwhole : Digits whole)
    (htail : ∀ c ∈ tail.head?, c.isDigit = false) : spanDigits (whole ++ tail) = (whole, tail) := by
  have hstop : tail.takeWhile Char.isDigit = [] ∧ tail.dropWhile Char.isDigit = tail := by
    cases tail with
    | nil => exact ⟨rfl, rfl⟩
    | cons c rest =>
        have hc : ¬c.isDigit = true := by simp [htail c rfl]
        exact ⟨List.takeWhile_cons_of_neg hc, List.dropWhile_cons_of_neg hc⟩
  rw [spanDigits, List.takeWhile_append_of_pos hwhole, List.dropWhile_append_of_pos hwhole, hstop.1,
    hstop.2, List.append_nil]

theorem spanDigits_spec (cs : List Char) :
    Digits (spanDigits cs).1 ∧ (spanDigits cs).1 ++ (spanDigits cs).2 = cs :=
  ⟨fun _ hc => List.mem_takeWhile_imp hc, List.takeWhile_append_dropWhile⟩

theorem splitFraction_append {fraction point tail : List Char} (h : FractionText fraction point)
    (htail : ∀ c ∈ tail.head?, c.isDigit = false ∧ c ≠ '.') :
    splitFraction (point ++ tail) = (fraction, tail) := by
  cases h with
  | omitted =>
      rw [List.nil_append, splitFraction.eq_def]
      split
      · exact absurd rfl (htail '.' rfl).2
      · rfl
  | pointed hdigits => exact spanDigits_append hdigits fun c hc => (htail c hc).1

theorem splitFraction_spec (cs : List Char) :
    ∃ point, FractionText (splitFraction cs).1 point ∧ point ++ (splitFraction cs).2 = cs := by
  rw [splitFraction.eq_def]
  split
  · rename_i rest
    obtain ⟨hdigits, hsplit⟩ := spanDigits_spec rest
    exact ⟨_, .pointed hdigits, congrArg ('.' :: ·) hsplit⟩
  · exact ⟨_, .omitted, rfl⟩

/-! ### Exponents -/

theorem signedDigits?_append {negative : Bool} {sign digits : List Char} (hsign : SignText negative sign)
    (hdigits : Digits digits) (hsome : digits ≠ []) : signedDigits? (sign ++ digits) =
      some (if negative then -(Nat.ofDigitChars 10 digits 0 : Int) else Nat.ofDigitChars 10 digits 0) := by
  have hhead : ∀ c ∈ digits.head?, c ≠ '+' ∧ c ≠ '-' := by
    intro c hc
    have hdigit := hdigits c (List.mem_of_mem_head? hc)
    constructor <;> rintro rfl <;> cases hdigit
  rw [signedDigits?, splitSign_append hsign hhead]
  exact if_pos ⟨hsome, List.all_eq_true.mpr hdigits⟩

/-- The exponent that ends a literal is what its text stands for. -/
theorem exponent?_eq_some {cs : List Char} {e : Int} : exponent? cs = some e ↔ ExponentText e cs := by
  constructor
  · intro h
    rw [exponent?.eq_def] at h
    split at h
    · cases h
      exact .omitted
    · rename_i mark rest
      rw [Option.ite_none_right_eq_some] at h
      obtain ⟨hmark, h⟩ := h
      obtain ⟨sign, hsign, hsplit⟩ := splitSign_spec rest
      simp only [signedDigits?, Option.ite_none_right_eq_some, Option.some.injEq] at h
      obtain ⟨⟨hsome, hdigits⟩, rfl⟩ := h
      have hexponent := ExponentText.marked hmark hsign (List.all_eq_true.mp hdigits) hsome
      rwa [hsplit] at hexponent
  · intro h
    cases h with
    | omitted => rfl
    | marked hmark hsign hdigits hsome =>
        rw [exponent?, if_pos hmark]
        exact signedDigits?_append hsign hdigits hsome

theorem ExponentText.head {e : Int} {tail : List Char} (h : ExponentText e tail) :
    ∀ c ∈ tail.head?, c.isDigit = false ∧ c ≠ '.' := by
  intro c hc
  cases h with
  | omitted => cases hc
  | marked hmark =>
      obtain rfl := Option.some.inj hc
      rcases hmark with rfl | rfl <;> decide

/-! ### Numbers -/

/-- The reader takes a number without its sign apart where its text has its parts. -/
theorem MagnitudeText.read {m : Nat} {e : Int} {cs : List Char} (h : MagnitudeText m e cs) :
    ∃ whole fraction afterWhole tail exponent, spanDigits cs = (whole, afterWhole) ∧
      splitFraction afterWhole = (fraction, tail) ∧ exponent? tail = some exponent ∧
      whole ++ fraction ≠ [] ∧ m = Nat.ofDigitChars 10 (whole ++ fraction) 0 ∧
      e = exponent - fraction.length := by
  cases h with
  | @parts whole fraction point tail exponent hwhole hfraction hsome hexponent =>
      refine ⟨whole, fraction, point ++ tail, tail, exponent, spanDigits_append hwhole ?_,
        splitFraction_append hfraction hexponent.head, exponent?_eq_some.mpr hexponent, hsome, rfl, rfl⟩
      intro c hc
      cases hfraction with
      | omitted => exact (hexponent.head c hc).1
      | pointed =>
          obtain rfl := Option.some.inj hc
          decide

/-- A number without its sign is read as what its text stands for, if its digits stand where they may. -/
theorem magnitude?_of_text {m : Nat} {e : Int} {cs : List Char} (h : MagnitudeText m e cs)
    (negative : Bool) :
    let d : Decimal := ⟨negative, m, e⟩
    magnitude? negative cs = if d.admissible = true then some d else none := by
  obtain ⟨whole, fraction, afterWhole, tail, exponent, hwhole, hfraction, hexponent, hsome, rfl, rfl⟩ :=
    h.read
  simp only [magnitude?, hwhole, hfraction, if_neg hsome, hexponent, Option.bind_eq_bind, Option.bind_some]

theorem text_of_magnitude? {negative : Bool} {cs : List Char} {d : Decimal}
    (h : magnitude? negative cs = some d) :
    d.negative = negative ∧ MagnitudeText d.coefficient d.exponent cs ∧ d.admissible = true := by
  obtain ⟨hwhole, hrest⟩ := spanDigits_spec cs
  obtain ⟨point, hfraction, htail⟩ := splitFraction_spec (spanDigits cs).2
  simp only [magnitude?, Option.ite_none_left_eq_some, Option.bind_eq_bind, Option.bind_eq_some_iff] at h
  obtain ⟨hsome, exponent, hexponent, h⟩ := h
  rw [Option.ite_none_right_eq_some, Option.some.injEq] at h
  obtain ⟨hadmissible, rfl⟩ := h
  refine ⟨rfl, ?_, hadmissible⟩
  have hparts := MagnitudeText.parts hwhole hfraction hsome (exponent?_eq_some.mp hexponent)
  rwa [htail, hrest] at hparts

/-- A number without its sign starts with a digit or with a point. -/
theorem MagnitudeText.head {m : Nat} {e : Int} {cs : List Char} (h : MagnitudeText m e cs) :
    ∃ c rest, cs = c :: rest ∧ (c.isDigit = true ∨ c = '.') := by
  cases h with
  | @parts whole fraction point tail exponent hwhole hfraction hsome hexponent =>
      cases whole with
      | cons c rest => exact ⟨c, _, rfl, .inl (hwhole c List.mem_cons_self)⟩
      | nil =>
          cases hfraction with
          | omitted => exact absurd rfl hsome
          | pointed => exact ⟨'.', _, rfl, .inr rfl⟩

/-- A text that starts with a digit or with a point has no sign and is no name of a special value. -/
theorem ofPlain?_signed {negative : Bool} {sign rest : List Char} {c : Char} (hsign : SignText negative sign)
    (hc : c.isDigit = true ∨ c = '.') :
    ofPlain? (sign ++ c :: rest) = (magnitude? negative (c :: rest)).map .finite := by
  have other : ∀ d : Char, d.isDigit = false → d ≠ '.' → c ≠ d := by
    rintro d hd hpoint rfl
    rcases hc with hc | hc
    · rw [hc] at hd
      cases hd
    · exact hpoint hc
  have lower : c.toLower = c := by
    refine dif_neg fun hupper => ?_
    have hA : 65 ≤ c.toNat := hupper.1
    rcases hc with hc | rfl
    · have := toNat_of_isDigit hc
      omega
    · exact absurd hA (by decide)
  have unsigned : ∀ d ∈ (c :: rest).head?, d ≠ '+' ∧ d ≠ '-' := by
    intro d hd
    obtain rfl := Option.some.inj hd
    exact ⟨other '+' (by decide) (by decide), other '-' (by decide) (by decide)⟩
  have notInfinite : ¬(c :: rest.map Char.toLower = "inf".toList ∨
      c :: rest.map Char.toLower = "infinity".toList) := by
    rintro (h | h) <;> exact other 'i' (by decide) (by decide) (List.cons.inj h).1
  have notNaN : spellsNaN (c :: rest.map Char.toLower) = false := by
    have unsignalled : ¬(c :: rest.map Char.toLower).head? = some 's' := fun h =>
      other 's' (by decide) (by decide) (Option.some.inj h)
    rw [spellsNaN, if_neg unsignalled]
    split
    · exact absurd (List.cons.inj ‹_›).1 (other 'n' (by decide) (by decide))
    · rfl
  simp only [ofPlain?, splitSign_append hsign unsigned, List.map_cons, lower, notNaN]
  rw [if_neg notInfinite]
  rfl

/-- A literal in ASCII is read as the decimal that it spells, if its digits stand where they may. -/
theorem ofPlain?_of_spelled {d : Decimal} {cs : List Char} (h : d.Spelled cs) :
    ofPlain? cs = if d.admissible = true then some (.finite d) else none := by
  obtain ⟨hsign, hmagnitude⟩ := h
  obtain ⟨c, rest, rfl, hc⟩ := hmagnitude.head
  rw [ofPlain?_signed hsign hc, magnitude?_of_text hmagnitude]
  split <;> rfl

theorem spelled_of_ofPlain? {cs : List Char} {d : Decimal} (h : ofPlain? cs = some (.finite d)) :
    d.Spelled cs ∧ d.admissible = true := by
  obtain ⟨sign, hsign, hsplit⟩ := splitSign_spec cs
  simp only [ofPlain?] at h
  split at h
  · cases h
  split at h
  · cases h
  obtain ⟨d', hd, hsame⟩ := Option.map_eq_some_iff.mp h
  cases hsame
  obtain ⟨hnegative, hmagnitude, hadmissible⟩ := text_of_magnitude? hd
  rw [← hnegative] at hsign
  exact ⟨hsplit ▸ .signed hsign hmagnitude, hadmissible⟩

/-- The reader takes the sign off where the text has it. -/
theorem Spelled.read {d : Decimal} {cs : List Char} (h : d.Spelled cs) :
    ∃ body, splitSign cs = (d.negative, body) ∧ MagnitudeText d.coefficient d.exponent body := by
  obtain ⟨hsign, hmagnitude⟩ := h
  refine ⟨_, splitSign_append hsign fun c hc => ?_, hmagnitude⟩
  obtain ⟨first, rest, rfl, hfirst⟩ := hmagnitude.head
  obtain rfl := Option.some.inj hc
  rcases hfirst with hdigit | rfl
  · constructor <;> rintro rfl <;> cases hdigit
  · decide

theorem MagnitudeText.unique {m m' : Nat} {e e' : Int} {cs : List Char} (h : MagnitudeText m e cs)
    (h' : MagnitudeText m' e' cs) : m = m' ∧ e = e' := by
  obtain ⟨whole, fraction, afterWhole, tail, exponent, hwhole, hfraction, hexponent, -, rfl, rfl⟩ := h.read
  obtain ⟨whole', fraction', afterWhole', tail', exponent', hwhole', hfraction', hexponent', -, rfl, rfl⟩ :=
    h'.read
  obtain ⟨rfl, rfl⟩ := Prod.mk.inj (hwhole.symm.trans hwhole')
  obtain ⟨rfl, rfl⟩ := Prod.mk.inj (hfraction.symm.trans hfraction')
  obtain rfl := Option.some.inj (hexponent.symm.trans hexponent')
  exact ⟨rfl, rfl⟩

/-- An ASCII text spells one decimal at most. -/
theorem Spelled.unique {d d' : Decimal} {cs : List Char} (h : d.Spelled cs) (h' : d'.Spelled cs) :
    d = d' := by
  obtain ⟨body, hbody, hmagnitude⟩ := h.read
  obtain ⟨body', hbody', hmagnitude'⟩ := h'.read
  obtain ⟨hnegative, rfl⟩ := Prod.mk.inj (hbody.symm.trans hbody')
  obtain ⟨hcoefficient, hexponent⟩ := hmagnitude.unique hmagnitude'
  obtain ⟨negative, m, e⟩ := d
  obtain ⟨negative', m', e'⟩ := d'
  obtain rfl : negative = negative' := hnegative
  obtain rfl : m = m' := hcoefficient
  obtain rfl : e = e' := hexponent
  rfl

/-! ### Characters -/

/-- A character of a decimal in ASCII. -/
def IsLiteralChar (c : Char) : Prop := c.isDigit = true ∨ c ∈ ['+', '-', '.', 'e', 'E']

theorem Digits.chars {cs : List Char} (h : Digits cs) : ∀ c ∈ cs, IsLiteralChar c :=
  fun c hc => .inl (h c hc)

theorem SignText.chars {negative : Bool} {sign : List Char} (h : SignText negative sign) :
    ∀ c ∈ sign, IsLiteralChar c := by
  intro c hc
  cases h with
  | omitted => cases hc
  | plus => exact .inr (by simp [List.mem_singleton.mp hc])
  | minus => exact .inr (by simp [List.mem_singleton.mp hc])

theorem FractionText.chars {fraction point : List Char} (h : FractionText fraction point) :
    ∀ c ∈ point, IsLiteralChar c := by
  cases h with
  | omitted => exact List.forall_mem_nil _
  | pointed hdigits => exact List.forall_mem_cons.mpr ⟨.inr (by decide), hdigits.chars⟩

theorem ExponentText.chars {e : Int} {tail : List Char} (h : ExponentText e tail) :
    ∀ c ∈ tail, IsLiteralChar c := by
  cases h with
  | omitted => exact List.forall_mem_nil _
  | marked hmark hsign hdigits =>
      refine List.forall_mem_cons.mpr ⟨.inr ?_, List.forall_mem_append.mpr ⟨hsign.chars, hdigits.chars⟩⟩
      rcases hmark with rfl | rfl <;> decide

theorem MagnitudeText.chars {m : Nat} {e : Int} {cs : List Char} (h : MagnitudeText m e cs) :
    ∀ c ∈ cs, IsLiteralChar c := by
  cases h with
  | parts hwhole hfraction hsome hexponent =>
      exact List.forall_mem_append.mpr
        ⟨hwhole.chars, List.forall_mem_append.mpr ⟨hfraction.chars, hexponent.chars⟩⟩

theorem Spelled.chars {d : Decimal} {cs : List Char} (h : d.Spelled cs) : ∀ c ∈ cs, IsLiteralChar c := by
  obtain ⟨hsign, hmagnitude⟩ := h
  exact List.forall_mem_append.mpr ⟨hsign.chars, hmagnitude.chars⟩

namespace IsLiteralChar

variable {c : Char}

theorem not_blank (h : IsLiteralChar c) : Text.isBlank c = false := by
  rcases h with hdigit | hmark
  · have := toNat_of_isDigit hdigit
    simp only [Text.isBlank, Text.isWhiteSpace, Bool.or_eq_false_iff, Bool.and_eq_false_iff,
      decide_eq_false_iff_not, beq_eq_false_iff_ne]
    omega
  · have hmarks : ['+', '-', '.', 'e', 'E'].all (fun c => !Text.isBlank c) = true := by decide
    have hc := List.all_eq_true.mp hmarks c hmark
    rwa [Bool.not_eq_true'] at hc

theorem asciiChar?_eq (h : IsLiteralChar c) : asciiChar? c = some c := by
  rcases h with hdigit | hmark
  · have := toNat_of_isDigit hdigit
    exact if_pos (by omega)
  · have hmarks : ['+', '-', '.', 'e', 'E'].all (fun c => asciiChar? c == some c) = true := by decide
    exact eq_of_beq (List.all_eq_true.mp hmarks c hmark)

theorem ne_underscore (h : IsLiteralChar c) : c ≠ '_' := by
  rintro rfl
  rcases h with hdigit | hmark
  · cases hdigit
  · exact absurd hmark (by decide)

end IsLiteralChar

/-- A blank is no character of a decimal in ASCII either. -/
theorem isBlank_of_asciiChar? {c a : Char} (h : asciiChar? c = some a) (hblank : Text.isBlank c = true) :
    Text.isBlank a = true := by
  rw [asciiChar?, if_pos hblank] at h
  split at h
  · exact Option.some.inj h ▸ hblank
  · exact Option.some.inj h ▸ rfl

theorem mem_of_mapM_eq_some {α β : Type} {f : α → Option β} {xs : List α} {ys : List β}
    (h : xs.mapM f = some ys) : ∀ x ∈ xs, ∃ y ∈ ys, f x = some y := by
  induction xs generalizing ys with
  | nil => exact List.forall_mem_nil _
  | cons x rest ih =>
      simp only [List.mapM_cons, Option.bind_eq_bind, Option.bind_eq_some_iff, Option.pure_def,
        Option.some.injEq] at h
      obtain ⟨y, hy, others, hothers, rfl⟩ := h
      refine List.forall_mem_cons.mpr ⟨⟨y, List.mem_cons_self, hy⟩, fun x' hx' => ?_⟩
      obtain ⟨y', hmem, hy'⟩ := ih hothers x' hx'
      exact ⟨y', List.mem_cons_of_mem _ hmem, hy'⟩

theorem mapM_asciiChar? {cs : List Char} (h : ∀ c ∈ cs, IsLiteralChar c) : cs.mapM asciiChar? = some cs := by
  induction cs with
  | nil => rfl
  | cons c rest ih =>
      obtain ⟨hc, hrest⟩ := List.forall_mem_cons.mp h
      rw [List.mapM_cons, hc.asciiChar?_eq, ih hrest]
      rfl

/-! ### Texts -/

/-- Between blanks, a decimal in ASCII spells itself. -/
theorem Spelled.spelledBy {d : Decimal} {cs left right : List Char} {s : String} (h : d.Spelled cs)
    (hs : s.toList = left ++ cs ++ right) (hleft : ∀ c ∈ left, Text.isBlank c = true)
    (hright : ∀ c ∈ right, Text.isBlank c = true) : d.SpelledBy s := by
  refine ⟨left, cs, right, cs, hs, hleft, hright, ?_, h⟩
  have kept : cs.filter (· ≠ '_') = cs :=
    List.filter_eq_self.mpr fun c hc => decide_eq_true (h.chars c hc).ne_underscore
  rw [kept, mapM_asciiChar? h.chars]

/-- The ASCII form of a text is what its blanks and underscores leave. -/
theorem SpelledBy.plain {d : Decimal} {s : String} (h : d.SpelledBy s) :
    ∃ cs, plain? s.toList = some cs ∧ d.Spelled cs := by
  obtain ⟨left, body, right, plain, hs, hleft, hright, hplain, hspelled⟩ := h
  refine ⟨plain, ?_, hspelled⟩
  have hbody : ∀ c ∈ body, Text.isBlank c = false := by
    intro c hc
    by_cases hline : c = '_'
    · subst hline
      decide
    · obtain ⟨a, ha, hascii⟩ :=
        mem_of_mapM_eq_some hplain c (List.mem_filter.mpr ⟨hc, decide_eq_true hline⟩)
      by_contra hblank
      have hblank' := isBlank_of_asciiChar? hascii (by simpa using hblank)
      rw [(hspelled.chars a ha).not_blank] at hblank'
      cases hblank'
  rw [plain?, hs, Text.trim_append hleft hbody hright, hplain]

theorem spelledBy_of_plain {d : Decimal} {s : String} {cs : List Char} (h : plain? s.toList = some cs)
    (hspelled : d.Spelled cs) : d.SpelledBy s := by
  obtain ⟨left, right, hs, hleft, hright⟩ := Text.trim_spec Text.isBlank s.toList
  exact ⟨left, _, right, cs, hs, hleft, hright, h, hspelled⟩

/-- A text spells one decimal at most. -/
theorem SpelledBy.unique {d d' : Decimal} {s : String} (h : d.SpelledBy s) (h' : d'.SpelledBy s) :
    d = d' := by
  obtain ⟨cs, hplain, hspelled⟩ := h.plain
  obtain ⟨cs', hplain', hspelled'⟩ := h'.plain
  obtain rfl := Option.some.inj (hplain.symm.trans hplain')
  exact hspelled.unique hspelled'

/-- A text is read as the decimal that it spells, if the digits stand where they may. -/
theorem parse?_of_spelledBy {d : Decimal} {s : String} (h : d.SpelledBy s) :
    parse? s = if d.admissible = true then some (.finite d) else none := by
  obtain ⟨cs, hplain, hspelled⟩ := h.plain
  rw [parse?, hplain, Option.bind_some, ofPlain?_of_spelled hspelled]

/-- **Reading a literal.** A text is read as a decimal exactly if it spells the decimal and the digits
stand where they may. -/
theorem parse?_eq_finite {s : String} {d : Decimal} :
    parse? s = some (.finite d) ↔ d.SpelledBy s ∧ d.admissible = true := by
  constructor
  · intro h
    obtain ⟨cs, hplain, hread⟩ := Option.bind_eq_some_iff.mp h
    obtain ⟨hspelled, hadmissible⟩ := spelled_of_ofPlain? hread
    exact ⟨spelledBy_of_plain hplain hspelled, hadmissible⟩
  · rintro ⟨hspelled, hadmissible⟩
    rw [parse?_of_spelledBy hspelled, if_pos hadmissible]

end Decimal

end EmissionLedger
