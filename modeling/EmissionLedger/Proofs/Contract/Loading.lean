import EmissionLedger.Proofs.Record.Validation

/-!
Loading data that a contract accepts. Contract and record ask nearly the same of data, so nearly all that
is accepted is read: no member is missing or of a wrong kind, and counters are in range. What can still
be refused is a number beyond 256 bits, votes that are not backed, an address with a line feed behind it,
which the end of the contract's pattern lets pass, and a whole number of at least `2 ^ 63` written with a
fraction, which the contract takes for an integer in range.

Main statements: `load_of_accepted`; `load_refuses_accepted`, data that is accepted and refused in the
last two ways.
-/

namespace EmissionLedger

/-! ### Texts -/

theorem length_dropLineEnd_le (cs : List Char) : (dropLineEnd cs).length ≤ cs.length := by
  rw [dropLineEnd]
  split
  · rw [List.length_dropLast]
    exact Nat.sub_le _ _
  · exact Nat.le_refl _

/-- A text that matches the pattern of addresses is an address, or one with a line feed behind it. -/
theorem address_of_matches {s : String} (h : matchesAddress s = true) :
    ∃ a : Address, s = a.text ∨ s = a.text ++ "\n" := by
  rw [matchesAddress] at h
  have written : isAddressText (String.ofList (dropLineEnd s.toList)) = true := by
    rw [isAddressText, String.toList_ofList]
    exact h
  refine ⟨⟨String.ofList (dropLineEnd s.toList), written⟩, ?_⟩
  dsimp only
  rw [dropLineEnd]
  split
  · rename_i hlast
    obtain ⟨front, hfront⟩ := List.getLast?_eq_some_iff.mp hlast
    refine .inr (String.toList_injective ?_)
    rw [hfront, List.dropLast_concat, String.toList_append, String.toList_ofList]
    rfl
  · exact .inl String.ofList_toList.symm

namespace Number

/-- What a text that matches the pattern of numbers can be refused for: its value is beyond 256 bits or
too large to scale, or it is longer than any text that there is. -/
theorem parse_of_matches {s : String} (h : matchesNumber s = true) :
    (∃ a, parse s = .ok a) ∨
      (∃ raw : ℕ, maxRaw < raw ∧ parse s = .error (.number (.tooLarge raw))) ∨
      parse s = .error .decimalOverflow ∨
      Decimal.maxLeading < s.toList.length ∧
        parse s = .error (.argument (.decimalInvalid (Text.quoted s))) := by
  obtain ⟨whole, fraction, hs, hsome, hwhole, hfraction, hplaces⟩ := pointed_of_isDecimalText h
  rw [parse, Decimal.parse?_of_spelledBy (Decimal.spelledBy_pointed hs hsome hwhole hfraction)]
  split
  · have hfine : ¬(-(fraction.length : Int) < -(places : Int)) := by omega
    rw [ofLiteral, ofDecimal, if_neg (by simp), if_neg hfine]
    dsimp only
    split
    · exact .inr (.inr (.inl rfl))
    · rw [ofRaw, if_neg (by omega), Int.toNat_natCast]
      split
      · exact .inl ⟨_, rfl⟩
      · exact .inr (.inl ⟨_, by omega, rfl⟩)
  · rename_i hinadmissible
    refine .inr (.inr (.inr ⟨?_, rfl⟩))
    have hdigits : ∀ c ∈ whole ++ fraction, c.isDigit = true := fun c hc =>
      (List.mem_append.mp hc).elim (hwhole c) (hfraction c)
    have hpos : 0 < (whole ++ fraction).length := by
      rw [List.length_append]
      exact Nat.add_pos_left (List.length_pos_of_ne_nil hsome) _
    have hcount := Decimal.digitCount_le hpos (Decimal.ofDigitChars_lt hdigits)
    have hlength : (whole ++ fraction).length ≤ s.toList.length := by
      refine Nat.le_trans ?_ (length_dropLineEnd_le s.toList)
      rw [hs]
      cases fraction <;> simp [Decimal.pointed]
    -- the last digit stands where it may, so the leading one does not
    rw [places] at hplaces
    simp only [Decimal.admissible, Bool.and_eq_true, decide_eq_true_eq] at hinadmissible
    simp only [Decimal.maxLeading, Decimal.minLast] at hinadmissible ⊢
    omega

end Number

/-! ### Whole numbers with a fraction -/

namespace Binary64

theorem signed_mul (negative : Bool) (m k : ℕ) : signed negative m * k = signed negative (m * k) := by
  cases negative
  · exact (Int.natCast_mul m k).symm
  · show -(m : ℤ) * k = -((m * k : ℕ) : ℤ)
    rw [Int.natCast_mul, Int.neg_mul]

/-- A whole number `± m · 2 ^ e` compares like the integer that it equals. -/
theorem compare_of_toInt? {x : Binary64} {n : ℤ} (h : x.toInt? = some n) (k : ℤ) :
    x.ltInt k = decide (n < k) ∧ x.gtInt k = decide (k < n) := by
  cases x with
  | infinite negative => cases h
  | nan => cases h
  | finite negative m e =>
      rw [toInt?] at h
      simp only [ltInt, gtInt, Nat.pow_eq, decide_eq_decide]
      split at h
      · rename_i hpos
        have hnone : (-e).toNat = 0 := by omega
        rw [Option.some.injEq, Nat.pow_eq, ← signed_mul] at h
        rw [hnone, Nat.pow_zero, Int.natCast_one, Int.mul_one, h]
        exact ⟨Iff.rfl, Iff.rfl⟩
      · rename_i hneg
        have hnone : e.toNat = 0 := by omega
        split at h
        · rename_i hwhole
          rw [Nat.pow_eq] at h hwhole
          have hscale : (0 : ℤ) < (2 ^ (-e).toNat : ℕ) := Int.natCast_pos.mpr (Nat.pow_pos (by decide))
          have hm : signed negative m = n * (2 ^ (-e).toNat : ℕ) := by
            rw [← Option.some.inj h, signed_mul, Nat.div_mul_cancel (Nat.dvd_of_mod_eq_zero hwhole)]
          rw [hnone, Nat.pow_zero, Int.natCast_one, Int.mul_one, hm]
          exact ⟨Int.mul_lt_mul_right hscale, Int.mul_lt_mul_right hscale⟩
        · cases h

end Binary64

/-! ### Complaints about accepted data -/

/-- What can be wrong with a value although its contract accepts it: a number beyond 256 bits, or longer
than any text that there is; an address with a line feed behind it; a whole number of at least `2 ^ 63`
written with a fraction. -/
inductive PastContract (v : Json) : Item → Prop where
  | tooLarge {path : List PathStep} {s : String} {raw : ℕ} (place : v.at? path = some (.str s))
      (large : maxRaw < raw) : PastContract v ⟨path, .refused (NumberFault.tooLarge raw).wording⟩
  | tooLong {path : List PathStep} {s : String} (place : v.at? path = some (.str s))
      (long : Decimal.maxLeading < s.toList.length) :
      PastContract v ⟨path, .refused (ArgumentFault.decimalInvalid (Text.quoted s)).wording⟩
  | lineFeed {path : List PathStep} {a : Address} (place : v.at? path = some (.str (a.text ++ "\n"))) :
      PastContract v ⟨path, .patternMismatch⟩
  | wideFloat {path : List PathStep} {x : Binary64} {n : ℤ} (place : v.at? path = some (.float x))
      (whole : x.toInt? = some n) (wide : maxI64 < n) (fits : n ≤ maxU64) :
      PastContract v ⟨path, .oversizedInteger⟩

theorem PastContract.of_member {v member : Json} {name : String} {item : Item}
    (found : v.member? name = some member) (h : PastContract member item) :
    PastContract v { item with path := .field name :: item.path } := by
  have step : ∀ path, v.at? (.field name :: path) = member.at? path := fun path => by
    rw [Json.at?, found, Option.bind_some]
  cases h with
  | tooLarge place large => exact .tooLarge ((step _).trans place) large
  | tooLong place long => exact .tooLong ((step _).trans place) long
  | lineFeed place => exact .lineFeed ((step _).trans place)
  | wideFloat place whole wide fits => exact .wideFloat ((step _).trans place) whole wide fits

theorem expect_eq_nil {ok : Bool} {keyword : Keyword} : expect ok keyword = [] ↔ ok = true := by
  cases ok <;> simp [expect]

theorem readAddress_past {v : Json} (accepted : checkText matchesAddress v = []) :
    ∀ item ∈ (readAddress v).items, PastContract v item := by
  cases v with
  | str s =>
      obtain ⟨a, rfl | rfl⟩ := address_of_matches (expect_eq_nil.mp accepted)
      · rw [readAddress_text]
        exact List.forall_mem_nil _
      · have refused : Address.ofText? (a.text ++ "\n") = none := by
          refine dif_neg fun written => ?_
          simp only [isAddressText, Bool.and_eq_true, List.all_eq_true, String.toList_append] at written
          exact absurd (written.2 '\n' (List.mem_append_right _ (by decide))) (by decide)
        simp only [readAddress, refused]
        exact Reading.forall_complain (.lineFeed rfl)
  | _ => cases accepted

theorem readNumber_past {v : Json} (accepted : checkText matchesNumber v = []) :
    ∀ item ∈ (readNumber v).items, PastContract v item := by
  cases v with
  | str s =>
      rw [readNumber, Number.ofJson]
      rcases Number.parse_of_matches (expect_eq_nil.mp accepted) with
        ⟨a, h⟩ | ⟨raw, large, h⟩ | h | ⟨long, h⟩
      · rw [h]
        exact List.forall_mem_nil _
      · rw [h]
        exact Reading.forall_complain (.tooLarge rfl large)
      · rw [h]
        exact List.forall_mem_nil _
      · rw [h]
        exact Reading.forall_complain (.tooLong rfl long)
  | _ => cases accepted

theorem integerOfFloat_whole {x : Binary64} {n : ℤ} (whole : x.toInt? = some n) :
    integerOfFloat x = if n.natAbs < Nat.pow 2 63 then .ok n else .error .oversizedInteger := by
  cases x with
  | finite negative m e => simp only [integerOfFloat, whole]
  | infinite negative => cases whole
  | nan => cases whole

theorem readCounter_past {limit : ℕ} (narrow : limit ≤ maxU64) {v : Json}
    (accepted : checkCounter limit v = []) :
    ∀ item ∈ (readCounter limit v).items, PastContract v item := by
  cases v with
  | int n =>
      simp only [checkCounter, List.append_eq_nil_iff, expect_eq_nil, decide_eq_true_eq] at accepted
      have natural : n = (n.toNat : ℕ) := by omega
      rw [natural, readCounter_of_le (by omega)]
      exact List.forall_mem_nil _
  | float x =>
      simp only [checkCounter, List.append_eq_nil_iff, expect_eq_nil] at accepted
      obtain ⟨⟨whole, low⟩, high⟩ := accepted
      obtain ⟨n, whole⟩ := Option.isSome_iff_exists.mp whole
      rw [(Binary64.compare_of_toInt? whole _).1, Bool.not_eq_true', decide_eq_false_iff_not] at low
      rw [(Binary64.compare_of_toInt? whole _).2, Bool.not_eq_true', decide_eq_false_iff_not] at high
      simp only [readCounter, integerOfJson, integerOfFloat_whole whole]
      by_cases wide : n.natAbs < Nat.pow 2 63
      · simp only [if_pos wide, if_neg low, if_neg high]
        exact List.forall_mem_nil _
      · simp only [if_neg wide]
        have least : maxI64 < n := by
          rw [maxI64]
          omega
        exact Reading.forall_complain (.wideFloat rfl whole least (by omega))
  | _ => cases accepted

/-! ### Shapes -/

/-- Data that a shape's check finds nothing wrong with is read, but for few complaints. -/
theorem Shape.read_past : ∀ {s : ShapeSort} (shape : Shape s) {v : Json}, shape.check v = [] →
    ∀ item ∈ (shape.read v).items, PastContract v item
  | _, address, _, accepted => readAddress_past accepted
  | _, u64, _, accepted => readCounter_past (Nat.le_refl _) accepted
  | _, u16, _, accepted => readCounter_past (by decide) accepted
  | _, number, _, accepted => readNumber_past accepted
  | _, record _ fields, v, accepted => by
    cases v with
    | obj members =>
        rw [check, List.append_eq_nil_iff] at accepted
        exact read_past fields accepted.2
    | _ => cases accepted
  | _, done, _, _ => List.forall_mem_nil _
  | _, field name optional head rest, v, accepted => by
    rw [check, List.append_eq_nil_iff] at accepted
    obtain ⟨first, others⟩ := accepted
    cases found : v.member? name with
    | none =>
        rw [found] at first
        cases first
    | some member =>
        rw [found] at first
        have past := read_past head (List.map_eq_nil_iff.mp first)
        rw [read, found]
        exact Reading.forall_items_both
          (Reading.forall_items_under fun item h => (past item h).of_member found)
          (read_past rest others)

/-! ### Records -/

theorem Reactor.read_items {v : Json} {item : Item} (h : item ∈ (Reactor.read v).items) :
    item ∈ (Reactor.form.read v).items ∨ unbackedIn? v = some item := by
  rw [Reactor.read] at h
  split at h
  · cases h
  · exact .inl h
  · rename_i other found _
    simp only [List.partition_eq_filter_filter, Reading.items, List.mem_append, List.mem_cons,
      List.mem_filter] at h
    rcases h with ⟨h, -⟩ | rfl | ⟨h, -⟩
    · exact .inl h
    · exact .inr found
    · exact .inl h

/-- The complaint about a reactor whose data gives more locked votes than stake. -/
def Reactor.UnbackedIn (v : Json) (item : Item) : Prop :=
  ∃ ray isoRay lockedVotes, stakeShape.read v = .value (ray, isoRay, lockedVotes, ()) ∧
    ray + isoRay < lockedVotes ∧ item = unbackedItem ray isoRay lockedVotes

theorem Reactor.unbackedIn_of_eq_some {v : Json} {item : Item} (h : unbackedIn? v = some item) :
    UnbackedIn v item := by
  rw [unbackedIn?] at h
  split at h
  · rename_i ray isoRay lockedVotes found
    split at h
    · cases h
    · rename_i unbacked
      exact ⟨ray, isoRay, lockedVotes, found, Nat.lt_of_not_le unbacked, (Option.some.inj h).symm⟩
  · cases h

theorem RecordKind.read_past {kind : RecordKind} {form : Form kind.Carrier}
    (formed : kind.form? = some form) {v : Json}
    (accepted : (Shape.record none form.shape).check v = []) :
    ∀ item ∈ (kind.read v).items, PastContract v item ∨ kind = .reactor ∧ Reactor.UnbackedIn v item := by
  have past : ∀ item ∈ (form.read v).items, PastContract v item := by
    rw [Form.read, Reading.items_map]
    exact Shape.read_past _ accepted
  cases kind <;> cases formed
  case reactor =>
    intro item h
    rcases Reactor.read_items h with h | unbacked
    · exact .inl (past item h)
    · exact .inr ⟨rfl, Reactor.unbackedIn_of_eq_some unbacked⟩
  all_goals exact fun item h => .inl (past item h)

theorem Contract.ofKind_ok {kind : RecordKind} {contract : Contract}
    (found : ofKind kind = .ok contract) :
    ∃ form, kind.form? = some form ∧ contract.shape = form.shape := by
  rw [ofKind] at found
  split at found
  · rename_i form _ formed
    cases found
    exact ⟨form, formed, rfl⟩
  · cases found

/-- Only what a record is made of is asked of data that its contract accepts. -/
theorem Record.load_of_accepts {kind : RecordKind} {contract : Contract} {v : Json}
    (found : Contract.ofKind kind = .ok contract) (accepted : contract.accepts v = true) :
    load kind v = (kind.validate v).map (mk kind) := by
  have passed : contract.validate v = .ok () := if_pos accepted
  rw [load, found]
  change (contract.validate v >>= fun _ => kind.validate v >>= fun a => pure (mk kind a)) = _
  rw [passed]
  cases kind.validate v <;> rfl

theorem Contract.accepts_of_check {contract : Contract} {members : List (String × Json)}
    (known : checkUnexpected contract.shape.names members = [])
    (clean : contract.shape.check (.obj members) = []) : contract.accepts (.obj members) = true := by
  rw [accepts, Shape.check, known, clean]
  rfl

/-- **What contracts leave to the records.** Data that the contract of a kind accepts is loaded as a
well-formed record, or it is rejected. It is rejected for numbers beyond 256 bits and for votes that are
not backed, and also for addresses with a line feed behind them and for whole numbers of at least `2 ^ 63`
that are written with a fraction, and for nothing else; and a text of so many digits that it cannot be
scaled ends the loading with a fault of its own. -/
theorem load_of_accepted {kind : RecordKind} {contract : Contract} {v : Json}
    (found : Contract.ofKind kind = .ok contract) (accepted : contract.accepts v = true) :
    (∃ a, Record.load kind v = .ok ⟨kind, a⟩ ∧ kind.WellFormed a) ∨
      (∃ items, Record.load kind v = .error (.rejected kind items) ∧
        ∀ item ∈ items, PastContract v item ∨ kind = .reactor ∧ Reactor.UnbackedIn v item) ∨
      Record.load kind v = .error .decimalOverflow ∧ v.HoldsHuge := by
  obtain ⟨form, formed, shape⟩ := Contract.ofKind_ok found
  have clean : (Shape.record none form.shape).check v = [] := by
    rw [← shape]
    exact List.isEmpty_iff.mp accepted
  have past := RecordKind.read_past formed clean
  rw [Record.load_of_accepts found accepted, RecordKind.validate]
  cases h : kind.read v with
  | value a => exact .inl ⟨a, rfl, RecordKind.read_wellFormed h⟩
  | refused items =>
      rw [h] at past
      exact .inr (.inl ⟨items, rfl, past⟩)
  | overflow => exact .inr (.inr ⟨rfl, RecordKind.read_overflow h⟩)

/-- Votes locked without stake, in data that the contract of reactors accepts. -/
theorem load_of_accepted_unbacked :
    let zero : Json := .str "0"
    let v : Json := .obj [("owner", .str Address.zero.text), ("ray", .int 0), ("iso_ray", .int 0),
      ("locked_votes", .int 1), ("last_seen_index_iso_ray", zero),
      ("ray_stake_rewards", .obj [("last_seen_index", zero), ("uncollected_ray_reward", .int 0)])]
    ∃ contract, Contract.ofKind .reactor = .ok contract ∧ contract.accepts v = true ∧
      ∃ items, Record.load .reactor v = .error (.rejected .reactor items) ∧
        ∀ item ∈ items, PastContract v item ∨ Reactor.UnbackedIn v item := by
  intro zero v
  let contract : Contract := ⟨.reactor, "reactor", Reactor.form.shape⟩
  have found : Contract.ofKind .reactor = .ok contract := rfl
  have accepted : contract.accepts v = true := by
    refine Contract.accepts_of_check ?_ ?_
    · simp only [contract, Reactor.form, Shape.names]
      rfl
    · simp only [contract, Reactor.form, Shape.check]
      simp only [RayStakeRewards.form, Shape.names]
      rfl
  have refused : Record.load .reactor v = .error (.rejected .reactor [Reactor.unbackedItem 0 0 1]) :=
    Record.load_of_accepts found accepted
  refine ⟨contract, found, accepted, _, refused, ?_⟩
  rcases load_of_accepted found accepted with ⟨a, answered, -⟩ | ⟨items, rejected, past⟩ | ⟨fault, -⟩
  · rw [refused] at answered
    cases answered
  · rw [refused] at rejected
    cases rejected
    exact fun item h => (past item h).imp_right And.right
  · rw [refused] at fault
    cases fault

/-- Of the data that the contract accepts, an owner with a line feed behind it is refused for its pattern,
and votes of `2 ^ 63` written with a fraction are refused as too large. -/
theorem load_refuses_accepted :
    let votes (owner : String) (count : Json) : Json :=
      .obj [("owner", .str owner), ("pool_gauge", .str Address.zero.text), ("votes", count)]
    let fed := votes (Address.zero.text ++ "\n") (.int 0)
    let wide := votes Address.zero.text (.float (.finite false (Nat.pow 2 52) 11))
    ∃ contract, Contract.ofKind .personalGauge = .ok contract ∧
      contract.accepts fed = true ∧ Record.load .personalGauge fed =
        .error (.rejected .personalGauge [⟨[.field "owner"], .patternMismatch⟩]) ∧
      contract.accepts wide = true ∧ Record.load .personalGauge wide =
        .error (.rejected .personalGauge [⟨[.field "votes"], .oversizedInteger⟩]) := by
  intro votes fed wide
  let contract : Contract := ⟨.personalGauge, "personal_gauge", PersonalGauge.form.shape⟩
  have found : Contract.ofKind .personalGauge = .ok contract := rfl
  have acceptedFed : contract.accepts fed = true := by
    refine Contract.accepts_of_check ?_ rfl
    simp only [contract, PersonalGauge.form, Shape.names]
    rfl
  have acceptedWide : contract.accepts wide = true := by
    refine Contract.accepts_of_check ?_ rfl
    simp only [contract, PersonalGauge.form, Shape.names]
    rfl
  exact ⟨contract, found, acceptedFed, Record.load_of_accepts found acceptedFed, acceptedWide,
    Record.load_of_accepts found acceptedWide⟩

end EmissionLedger
