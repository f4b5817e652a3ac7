import EmissionLedger.Contract.Record
import EmissionLedger.Proofs.Layout.Record
import Mathlib.Data.List.TakeWhile

/-!
The JSON form of a well-formed record keeps its contract. Texts of addresses and numbers match their
patterns, counters in range are integers in range, and the members written for a shape are the members
that its check asks for.

Main statements: `Record.toContractJson_of_inRange`, `Record.toContractJson_of_not_inRange`.
-/

namespace EmissionLedger

/-! ### Texts -/

theorem dropLineEnd_of_ne {cs : List Char} (h : '\n' ∉ cs) : dropLineEnd cs = cs := by
  rw [dropLineEnd, if_neg]
  exact fun hlast => h (List.mem_of_getLast? hlast)

theorem matchesAddress_text (a : Address) : matchesAddress a.text = true := by
  have written := a.wellFormed
  simp only [isAddressText, Bool.and_eq_true, List.all_eq_true] at written
  have plain : '\n' ∉ a.text.toList := fun hmem =>
    absurd (written.2 _ hmem) (by decide)
  simp only [matchesAddress, dropLineEnd_of_ne plain, Bool.and_eq_true, List.all_eq_true]
  exact written

namespace Number

theorem isAsciiDigit_of_mem_toDigits {n : ℕ} {c : Char} (h : c ∈ Nat.toDigits 10 n) :
    isAsciiDigit c = true :=
  Nat.isDigit_of_mem_toDigits (by decide) (by decide) h

/-- A number that is not zero has a digit that is not zero. -/
theorem exists_digit_ne_zero {n : ℕ} (h : n ≠ 0) : ∃ c ∈ Nat.toDigits 10 n, c ≠ '0' := by
  induction n using Nat.strongRecOn with
  | ind n ih =>
    rw [Nat.toDigits_eq_if (by decide)]
    split
    · next small =>
      have byDigit : ∀ n < 10, n ≠ 0 → Nat.digitChar n ≠ '0' := by decide
      exact ⟨_, List.mem_singleton_self _, byDigit n small h⟩
    · obtain ⟨c, hmem, hne⟩ := ih (n / 10) (by omega) (by omega)
      exact ⟨c, List.mem_append_left _ hmem, hne⟩

/-- What stands after the point: at least one digit and at most twelve. -/
theorem fractionDigits_spec {fraction : ℕ} (hpos : fraction ≠ 0) (hlt : fraction < scale) :
    (∀ c ∈ fractionDigits fraction, isAsciiDigit c = true) ∧
      1 ≤ (fractionDigits fraction).length ∧ (fractionDigits fraction).length ≤ 12 := by
  let padded := List.replicate (places - (Nat.toDigits 10 fraction).length) '0' ++ Nat.toDigits 10 fraction
  have hdigits : ∀ c ∈ padded, isAsciiDigit c = true := by
    intro c hc
    rcases List.mem_append.mp hc with hc | hc
    · rw [List.eq_of_mem_replicate hc]; rfl
    · exact isAsciiDigit_of_mem_toDigits hc
  have hfew : (Nat.toDigits 10 fraction).length ≤ 12 :=
    (Nat.length_toDigits_le_iff (by decide) (by decide)).mpr hlt
  have hlen : padded.length = 12 := by
    simp only [padded, List.length_append, List.length_replicate, places]; omega
  have hsub : (padded.reverse.dropWhile (· == '0')).Sublist padded.reverse :=
    List.dropWhile_sublist _
  refine ⟨fun c hc => ?_, ?_, ?_⟩
  · exact hdigits c (List.mem_reverse.mp (hsub.subset (List.mem_reverse.mp hc)))
  · obtain ⟨c, hmem, hne⟩ := exists_digit_ne_zero hpos
    show 1 ≤ (padded.reverse.dropWhile (· == '0')).reverse.length
    rw [List.length_reverse, Nat.one_le_iff_ne_zero, ne_eq, List.length_eq_zero_iff,
      List.dropWhile_eq_nil_iff]
    intro hall
    have hzero := hall c (List.mem_reverse.mpr (List.mem_append_right _ hmem))
    exact hne (eq_of_beq hzero)
  · show (padded.reverse.dropWhile (· == '0')).reverse.length ≤ 12
    rw [List.length_reverse]
    exact hsub.length_le.trans (by rw [List.length_reverse, hlen])

/-- A decimal has digits and a point, so it has no line feed. -/
theorem plain_of_isDecimalText {cs : List Char} (h : isDecimalText cs = true) : '\n' ∉ cs := by
  have feed : isAsciiDigit '\n' = false := by decide
  simp only [isDecimalText, Bool.and_eq_true] at h
  intro hmem
  rw [← List.takeWhile_append_dropWhile (p := isAsciiDigit) (l := cs)] at hmem
  rcases List.mem_append.mp hmem with hwhole | hrest
  · exact absurd (List.mem_takeWhile_imp hwhole) (by decide)
  · cases hfraction : cs.dropWhile isAsciiDigit with
    | nil => rw [hfraction] at hrest; cases hrest
    | cons c digits =>
      rw [hfraction] at hrest h
      split at h
      · next heq => cases heq
      · next heq =>
        cases heq
        simp only [Bool.and_eq_true, List.all_eq_true] at h
        rcases List.mem_cons.mp hrest with hpoint | hdigit
        · exact absurd hpoint (by decide)
        · exact absurd (h.2.1.1 _ hdigit) (by decide)
      · exact absurd h.2 (by decide)

/-- The text of a number is that of a decimal. -/
theorem isDecimalText_digits (a : Number) : isDecimalText a.digits = true := by
  have hwhole : ∀ c ∈ Nat.toDigits 10 (a.raw / scale), isAsciiDigit c = true :=
    fun c => isAsciiDigit_of_mem_toDigits
  have hsome : (Nat.toDigits 10 (a.raw / scale)).isEmpty = false :=
    List.isEmpty_eq_false_iff.mpr Nat.toDigits_ne_nil
  rw [digits]
  split
  · have htake := List.takeWhile_eq_self_iff.mpr hwhole
    have hdrop := List.dropWhile_eq_nil_iff.mpr hwhole
    simp [isDecimalText, htake, hdrop, hsome]
  · next hfraction =>
    obtain ⟨hdigits, hone, htwelve⟩ :=
      fractionDigits_spec hfraction (Nat.mod_lt a.raw (by decide))
    have hpoint : isAsciiDigit '.' = false := by decide
    simp [isDecimalText, List.takeWhile_append_of_pos hwhole, List.dropWhile_append_of_pos hwhole,
      hpoint, hsome, hone, htwelve, List.all_eq_true.mpr hdigits]

theorem matchesNumber_text (a : Number) : matchesNumber a.text = true := by
  have decimal := a.isDecimalText_digits
  rw [matchesNumber, text, String.toList_ofList, dropLineEnd_of_ne (plain_of_isDecimalText decimal)]
  exact decimal

end Number

/-! ### Shapes -/

namespace Shape

/-- Whether no record names two fields alike, on any level. -/
def distinct : {s : ShapeSort} → Shape s → Bool
  | _, record _ fields => fields.distinct
  | _, field name _ head rest => !rest.names.contains name && head.distinct && rest.distinct
  | _, _ => true

/-- What is written for a shape as one piece of data. -/
def document : {s : ShapeSort} → Written s → Json
  | .value, v => v
  | .fields, members => .obj members

theorem names_write : ∀ (fields : Shape .fields) (row : fields.Row),
    (fields.write row).map (·.1) = fields.names
  | done, _ => by rw [names, write, List.map_nil]
  | field _ _ _ rest, row => by rw [names, write, List.map_cons, names_write rest row.2]

/-- The first member of fields with distinct names is none of those that the other fields name. -/
theorem distinct_field {name : String} {optional : Bool} {head : Shape .value} {rest : Shape .fields}
    (apart : (field name optional head rest).distinct = true) :
    (∀ (member : Json) (members : List (String × Json)), ∀ n ∈ rest.names,
      ((name, member) :: members).lookup n = members.lookup n) ∧
      head.distinct = true ∧ rest.distinct = true := by
  simp only [distinct, Bool.and_eq_true, Bool.not_eq_true', List.contains_eq_mem,
    decide_eq_false_iff_not] at apart
  obtain ⟨⟨other, apartHead⟩, apartRest⟩ := apart
  refine ⟨fun member members n hn => ?_, apartHead, apartRest⟩
  have hne : (n == name) = false := beq_eq_false_iff_ne.mpr fun heq => other (heq ▸ hn)
  rw [List.lookup_cons, hne]

/-- The check of fields asks only for the members that they name. -/
theorem check_congr : ∀ (fields : Shape .fields) {members members' : List (String × Json)},
    (∀ name ∈ fields.names, members.lookup name = members'.lookup name) →
    fields.check (.obj members) = fields.check (.obj members')
  | done, _, _, _ => rfl
  | field name _ head rest, members, members', same => by
    rw [names, List.forall_mem_cons] at same
    obtain ⟨first, others⟩ := same
    have others := check_congr rest others
    simp only [check, Json.member?, first, others]

theorem checkCounter_of_le {limit n : ℕ} (h : n ≤ limit) : checkCounter limit (.int n) = [] := by
  have low : (0 : Int) ≤ n := Int.natCast_nonneg n
  have high : (n : Int) ≤ limit := Int.ofNat_le.mpr h
  simp only [checkCounter, expect, low, high, decide_true, if_true, List.append_nil]

theorem le_of_checkCounter {limit n : ℕ} (clean : checkCounter limit (.int n) = []) : n ≤ limit := by
  simpa [checkCounter, expect] using clean

theorem checkText_of_matches {pattern : String → Bool} {s : String} (h : pattern s = true) :
    checkText pattern (.str s) = [] := by
  simp only [checkText, expect, h, if_true]

theorem checkUnexpected_write (fields : Shape .fields) (row : fields.Row) :
    checkUnexpected fields.names (fields.write row) = [] := by
  simp [checkUnexpected, names_write]

/-- The check of a shape finds nothing wrong with what is written for a row in range. -/
theorem check_write : ∀ {s : ShapeSort} (shape : Shape s) {row : shape.Row},
    shape.distinct = true → shape.InRange row → shape.check (document (shape.write row)) = []
  | _, address, a, _, _ => checkText_of_matches (matchesAddress_text a)
  | _, u64, _, _, range => checkCounter_of_le range
  | _, u16, _, _, range => checkCounter_of_le range
  | _, number, a, _, _ => checkText_of_matches (Number.matchesNumber_text a)
  | _, record _ fields, row, apart, range => by
    have inner : fields.check (.obj (fields.write row)) = [] := check_write fields apart range
    show checkUnexpected fields.names (fields.write row) ++ fields.check (.obj (fields.write row)) = []
    rw [checkUnexpected_write, inner, List.append_nil]
  | _, done, _, _, _ => rfl
  | _, field name _ head rest, row, apart, range => by
    obtain ⟨other, apartHead, apartRest⟩ := distinct_field apart
    have first : head.check (head.write row.1) = [] := check_write head apartHead range.1
    have others : rest.check (.obj (rest.write row.2)) = [] := check_write rest apartRest range.2
    have skip : rest.check (.obj ((name, head.write row.1) :: rest.write row.2)) =
        rest.check (.obj (rest.write row.2)) := check_congr rest (other _ _)
    simp only [document, write, check, Json.member?, List.lookup_cons, beq_self_eq_true, first, skip,
      others, List.map_nil, List.append_nil]

/-- A row is in range if the check finds nothing wrong with what is written for it. -/
theorem inRange_of_check : ∀ {s : ShapeSort} (shape : Shape s) {row : shape.Row},
    shape.distinct = true → shape.check (document (shape.write row)) = [] → shape.InRange row
  | _, address, _, _, _ => trivial
  | _, u64, _, _, clean => le_of_checkCounter clean
  | _, u16, _, _, clean => le_of_checkCounter clean
  | _, number, _, _, _ => trivial
  | _, record _ fields, _, apart, clean =>
    inRange_of_check fields apart (List.append_eq_nil_iff.mp clean).2
  | _, done, _, _, _ => trivial
  | _, field name _ head rest, row, apart, clean => by
    obtain ⟨other, apartHead, apartRest⟩ := distinct_field apart
    have skip : rest.check (.obj ((name, head.write row.1) :: rest.write row.2)) =
        rest.check (.obj (rest.write row.2)) := check_congr rest (other _ _)
    simp only [document, write, check, Json.member?, List.lookup_cons, beq_self_eq_true, skip,
      List.append_eq_nil_iff, List.map_eq_nil_iff] at clean
    exact ⟨inRange_of_check head apartHead clean.1, inRange_of_check rest apartRest clean.2⟩

end Shape

/-! ### Records -/

theorem RecordKind.distinct_of_form? {kind : RecordKind} {form : Form kind.Carrier}
    (formed : kind.form? = some form) : form.shape.distinct = true := by
  cases kind <;> cases formed <;>
    simp [Shape.distinct, Shape.names, TimeTracker.form, PersonalPosition.form, GaugeConfig.form,
      Gauge.form, PersonalGauge.form, PersonalRewarderState.form, PersonalRewarderCp.form,
      PersonalRewarderCl.form, ClRewardInfo.form, ReactorConfig.form, RayStakeRewards.form,
      Reactor.form]

theorem RecordKind.toJson_of_form? {kind : RecordKind} {form : Form kind.Carrier}
    (formed : kind.form? = some form) (a : kind.Carrier) : kind.toJson a = form.toJson a := by
  cases kind <;> cases formed <;> rfl

theorem Contract.ofKind_of_form? {kind : RecordKind} {form : Form kind.Carrier}
    (stored : kind.isStored = true) (formed : kind.form? = some form) :
    ∃ name, Contract.ofKind kind = .ok { kind, name, shape := form.shape } := by
  obtain ⟨name, named⟩ := Option.isSome_iff_exists.mp stored
  exact ⟨name, by rw [Contract.ofKind, named, formed]⟩

/-- The contract of a stored kind accepts a record whose row is in range. -/
theorem Record.toContractJson_of_inRange {kind : RecordKind} {form : Form kind.Carrier}
    (stored : kind.isStored = true) (formed : kind.form? = some form) {a : kind.Carrier}
    (range : form.shape.InRange (form.toRow a)) :
    Record.toContractJson ⟨kind, a⟩ = .ok (Record.toJson ⟨kind, a⟩) := by
  have written : Record.toJson ⟨kind, a⟩ = form.toJson a := RecordKind.toJson_of_form? formed a
  have apart : form.shape.distinct = true := RecordKind.distinct_of_form? formed
  obtain ⟨name, contract⟩ := Contract.ofKind_of_form? stored formed
  have clean : (Shape.record none form.shape).check (form.toJson a) = [] :=
    (Shape.record none form.shape).check_write apart range
  have accepted : ({ kind, name, shape := form.shape } : Contract).accepts (form.toJson a) = true := by
    rw [Contract.accepts, clean]; rfl
  simp only [Record.toContractJson, contract, written, ok_bind, Contract.validate, accepted, if_true]
  rfl

/-- It refuses a record whose row is not. -/
theorem Record.toContractJson_of_not_inRange {kind : RecordKind} {form : Form kind.Carrier}
    (stored : kind.isStored = true) (formed : kind.form? = some form) {a : kind.Carrier}
    (outside : ¬form.shape.InRange (form.toRow a)) :
    ∃ violations, Record.toContractJson ⟨kind, a⟩ = .error (.contractBroken violations) := by
  have written : Record.toJson ⟨kind, a⟩ = form.toJson a := RecordKind.toJson_of_form? formed a
  have apart : form.shape.distinct = true := RecordKind.distinct_of_form? formed
  obtain ⟨name, contract⟩ := Contract.ofKind_of_form? stored formed
  have refused : ({ kind, name, shape := form.shape } : Contract).accepts (form.toJson a) = false := by
    rw [Contract.accepts, List.isEmpty_eq_false_iff]
    exact fun clean => outside (Shape.inRange_of_check (Shape.record none form.shape) apart clean)
  refine ⟨Contract.violations { kind, name, shape := form.shape } (form.toJson a), ?_⟩
  simp only [Record.toContractJson, contract, written, ok_bind, Contract.validate, refused]
  rfl

end EmissionLedger
