import EmissionLedger.Proofs.Timing.Stretch

/-!
Share accrual in parts. A share may be held by several accounts, and an account may look at its index
several times: every part of the share earns over every link of the chain of index values that were seen.
What the parts earn adds up to what the whole share earns over the whole chain, since a product with a
natural number loses nothing to rounding and the growth of the links telescopes. Whole units are rounded
down in every part, so together the parts miss less than one unit each.

Main statement: `accrueShare_additive`.
-/

namespace EmissionLedger

/-! ### Sums -/

/-- The sum of numbers, added one after the other. -/
def Number.total (numbers : List Number) : Result Number := numbers.foldlM add .zero

theorem Number.foldlM_add_eq_ok {numbers : List Number} {a b : Number} :
    numbers.foldlM add a = .ok b ↔ b.raw = a.raw + (numbers.map raw).sum := by
  induction numbers generalizing a with
  | nil =>
      rw [List.foldlM_nil, pure_eq_ok, Number.ext_iff]
      exact eq_comm
  | cons x rest ih =>
      rw [List.foldlM_cons, List.map_cons, List.sum_cons]
      simp only [bind_eq_ok, add_eq_ok, ih]
      constructor
      · rintro ⟨c, hc, hb⟩
        omega
      · intro hb
        have hfits : a.raw + x.raw ≤ maxRaw := by
          have hlimit := b.raw_le
          omega
        exact ⟨⟨a.raw + x.raw, hfits⟩, rfl, by dsimp only; omega⟩

theorem Number.total_eq_ok {numbers : List Number} {a : Number} :
    total numbers = .ok a ↔ a.raw = (numbers.map raw).sum := by
  rw [total, foldlM_add_eq_ok, raw_zero, Nat.zero_add]

theorem sum_div_add_sum_mod (d : ℕ) (ns : List ℕ) :
    ns.sum = d * (ns.map (· / d)).sum + (ns.map (· % d)).sum := by
  induction ns with
  | nil => rfl
  | cons n rest ih =>
      have hn := Nat.div_add_mod n d
      simp only [List.map_cons, List.sum_cons, Nat.mul_add]
      omega

theorem sum_mod_lt {d : ℕ} (hd : 0 < d) {ns : List ℕ} (hsome : ns ≠ []) :
    (ns.map (· % d)).sum < d * ns.length := by
  induction ns with
  | nil => exact absurd rfl hsome
  | cons n rest ih =>
      have hn := Nat.mod_lt n hd
      rw [List.map_cons, List.sum_cons, List.length_cons, Nat.mul_succ]
      by_cases hrest : rest = []
      · subst hrest
        simpa using hn
      · have hothers := ih hrest
        omega

/-- Floors miss less than one each. -/
theorem sum_floors_bounds {d : ℕ} (hd : 0 < d) (ns : List ℕ) :
    (ns.map (· / d)).sum ≤ ns.sum / d ∧
      (ns ≠ [] → ns.sum / d < (ns.map (· / d)).sum + ns.length) := by
  have hsplit := sum_div_add_sum_mod d ns
  constructor
  · rw [Nat.le_div_iff_mul_le hd, Nat.mul_comm]
    omega
  · intro hsome
    have hmod := sum_mod_lt hd hsome
    rw [Nat.div_lt_iff_lt_mul hd, Nat.mul_comm, Nat.mul_add]
    omega

/-! ### Chains of index values -/

/-- The neighbours in a chain of index values. -/
def chainLinks : List Number → List (Number × Number)
  | [] => []
  | first :: rest => (first :: rest).zip rest

@[simp] theorem chainLinks_single (first : Number) : chainLinks [first] = [] := rfl

@[simp] theorem chainLinks_cons_cons (first next : Number) (rest : List Number) :
    chainLinks (first :: next :: rest) = (first, next) :: chainLinks (next :: rest) := rfl

theorem length_chainLinks (first : Number) (rest : List Number) :
    (chainLinks (first :: rest)).length = rest.length := by
  rw [chainLinks, List.length_zip, List.length_cons, Nat.min_eq_right (Nat.le_succ _)]

theorem le_getLastD {first : Number} {rest : List Number} (h : (first :: rest).IsChain (· ≤ ·)) :
    first ≤ rest.getLastD first := by
  induction rest generalizing first with
  | nil => exact Nat.le_refl _
  | cons next rest ih =>
      rw [List.isChain_cons_cons] at h
      rw [List.getLastD_cons]
      exact Nat.le_trans h.1 (ih h.2)

/-- Every link of a chain that does not fall lies between its ends. -/
theorem chainLinks_within {first : Number} {rest : List Number} (h : (first :: rest).IsChain (· ≤ ·)) :
    ∀ link ∈ chainLinks (first :: rest),
      first ≤ link.1 ∧ link.1 ≤ link.2 ∧ link.2 ≤ rest.getLastD first := by
  induction rest generalizing first with
  | nil => simp
  | cons next rest ih =>
      rw [List.isChain_cons_cons] at h
      obtain ⟨hstep, hrest⟩ := h
      rw [chainLinks_cons_cons, List.getLastD_cons, List.forall_mem_cons]
      refine ⟨⟨Nat.le_refl _, hstep, le_getLastD hrest⟩, fun link hlink => ?_⟩
      obtain ⟨hlow, hlink, hhigh⟩ := ih hrest link hlink
      exact ⟨Nat.le_trans hstep hlow, hlink, hhigh⟩

/-- The growth of the links is the growth of the chain. -/
theorem sum_chainLinks {first : Number} {rest : List Number} (h : (first :: rest).IsChain (· ≤ ·)) :
    ((chainLinks (first :: rest)).map fun link => link.2.raw - link.1.raw).sum =
      (rest.getLastD first).raw - first.raw := by
  induction rest generalizing first with
  | nil => simp
  | cons next rest ih =>
      rw [List.isChain_cons_cons] at h
      obtain ⟨hstep, hrest⟩ := h
      have hreach := le_getLastD hrest
      rw [Number.le_iff] at hstep hreach
      rw [chainLinks_cons_cons, List.map_cons, List.sum_cons, ih hrest, List.getLastD_cons]
      dsimp only
      omega

/-! ### Parts -/

/-- A part of a share over a link of a chain. -/
structure SharePart where
  share : ℕ
  last : Number
  current : Number

namespace SharePart

/-- What the part earns. -/
def accrue (what : String) (part : SharePart) : Result ShareAccrual :=
  accrueShare what part.share part.last part.current

/-- Every one of some shares over every link of a chain. -/
def all (shares : List ℕ) (chain : List Number) : List SharePart :=
  shares.flatMap fun share => (chainLinks chain).map fun link => ⟨share, link.1, link.2⟩

theorem length_all (shares : List ℕ) (first : Number) (rest : List Number) :
    (all shares (first :: rest)).length = shares.length * rest.length := by
  simp only [all, List.length_flatMap, List.length_map, length_chainLinks, List.map_const', List.sum_replicate,
    Nat.nsmul_eq_mul]

/-- The raw amount that the part earns. -/
def worth (part : SharePart) : ℕ := part.share * (part.current.raw - part.last.raw)

/-- All parts together earn what the sum of the shares earns over the whole chain. -/
theorem sum_worth_all (shares : List ℕ) {first : Number} {rest : List Number}
    (h : (first :: rest).IsChain (· ≤ ·)) :
    ((all shares (first :: rest)).map worth).sum =
      shares.sum * ((rest.getLastD first).raw - first.raw) := by
  induction shares with
  | nil => simp [all]
  | cons share shares ih =>
      have hshare : ((chainLinks (first :: rest)).map fun link => share * (link.2.raw - link.1.raw)).sum =
          share * ((rest.getLastD first).raw - first.raw) := by
        rw [List.sum_map_mul_left, sum_chainLinks h]
      rw [all, List.flatMap_cons, List.map_append, List.sum_append, List.map_map, List.sum_cons,
        Nat.add_mul, ← hshare, ← ih]
      rfl

/-- Where the whole share can be settled over the whole chain, every part can over its link. -/
theorem accrue_answered {what : String} {shares : List ℕ} {first : Number} {rest : List Number}
    {whole : ShareAccrual} (hchain : (first :: rest).IsChain (· ≤ ·))
    (h : accrueShare what shares.sum first (rest.getLastD first) = .ok whole) :
    ∀ part ∈ all shares (first :: rest), ∃ accrual, part.accrue what = .ok accrual := by
  intro part hpart
  simp only [all, List.mem_flatMap, List.mem_map] at hpart
  obtain ⟨share, hshare, link, hlink, rfl⟩ := hpart
  obtain ⟨hlow, hle, hhigh⟩ := chainLinks_within hchain link hlink
  exact accrueShare_part h (List.single_le_sum (fun _ _ => Nat.zero_le _) _ hshare) hlow hle hhigh

end SharePart

/-- Amounts whose sum has few enough whole units have few enough each. -/
theorem ShareAccrual.units_answered {accruals : List ShareAccrual}
    (h : (accruals.map (·.accrued.raw)).sum / scale ≤ maxU64) :
    ∃ partUnits, accruals.mapM units = .ok partUnits ∧
      partUnits = (accruals.map (·.accrued.raw)).map (· / scale) := by
  have hunits : ∀ accrual ∈ accruals, ∃ n, accrual.units = .ok n := by
    intro accrual haccrual
    have hle : accrual.accrued.raw ≤ (accruals.map (·.accrued.raw)).sum :=
      List.single_le_sum (fun _ _ => Nat.zero_le _) _ (List.mem_map_of_mem haccrual)
    exact ⟨_, Number.wholePart_eq_ok.mpr ⟨(Nat.div_le_div_right hle).trans h, rfl⟩⟩
  obtain ⟨partUnits, hpartUnits⟩ := mapM_answered hunits
  have hfloors := map_of_mapM hpartUnits fun accrual n hn => (Number.wholePart_eq_ok.mp hn).2
  rw [List.map_id'] at hfloors
  exact ⟨partUnits, hpartUnits, by rw [hfloors, List.map_map]; rfl⟩

/-- **Share accrual is additive.** Let a share be split into parts, and let an index pass through a chain
of values that does not fall. If the whole share can be settled from the first value to the last one, every
part can be settled over every link, and sees the end of it. What the parts earn adds up to what the whole
earns, exactly. If that has at most 64 bits of whole units, so has what every part earns; together the parts
have no more whole units, and miss less than one for each part. -/
theorem accrueShare_additive {what : String} (shares : List ℕ) {first : Number} {rest : List Number}
    {whole : ShareAccrual} (hchain : (first :: rest).IsChain (· ≤ ·))
    (h : accrueShare what shares.sum first (rest.getLastD first) = .ok whole) :
    ∃ accruals, (SharePart.all shares (first :: rest)).mapM (SharePart.accrue what) = .ok accruals ∧
      accruals.length = shares.length * rest.length ∧
      accruals.map (·.lastSeen) = (SharePart.all shares (first :: rest)).map (·.current) ∧
      Number.total (accruals.map (·.accrued)) = .ok whole.accrued ∧
      ∀ units, whole.units = .ok units →
        ∃ partUnits, accruals.mapM ShareAccrual.units = .ok partUnits ∧ partUnits.sum ≤ units ∧
          (accruals ≠ [] → units < partUnits.sum + accruals.length) := by
  have hscale : 0 < scale := by decide
  obtain ⟨accruals, haccruals⟩ := mapM_answered (SharePart.accrue_answered hchain h)
  have hseen := map_of_mapM haccruals fun part accrual hpart => (accrueShare_ok hpart).2.2
  have hworth := map_of_mapM haccruals fun part accrual hpart => (accrueShare_ok hpart).2.1
  have hsum : (accruals.map (·.accrued.raw)).sum = whole.accrued.raw := by
    rw [hworth, (accrueShare_ok h).2.1]
    exact SharePart.sum_worth_all shares hchain
  refine ⟨accruals, haccruals, ?_, hseen, ?_, fun units hunits => ?_⟩
  · have hlength := congrArg List.length hseen
    rwa [List.length_map, List.length_map, SharePart.length_all] at hlength
  · rw [Number.total_eq_ok, List.map_map]
    exact hsum.symm
  · obtain ⟨hfits, rfl⟩ := Number.wholePart_eq_ok.mp hunits
    rw [← hsum] at hfits ⊢
    obtain ⟨partUnits, hpartUnits, rfl⟩ := ShareAccrual.units_answered hfits
    obtain ⟨hle, hlt⟩ := sum_floors_bounds hscale (accruals.map (·.accrued.raw))
    refine ⟨_, hpartUnits, hle, fun hsome => ?_⟩
    simpa using hlt (by simpa using hsome)

/-- Three accounts of one share each look at an index when it stands at a half, once more then, and when it
stands at one. They earn three ones together, as an account of three shares does that looks once. -/
theorem accrueShare_additive_halves :
    let half : Number := ⟨scale / 2, by decide⟩
    ∃ whole accruals partUnits, accrueShare "account" 3 .zero .one = .ok whole ∧
      (SharePart.all [1, 1, 1] [.zero, half, half, .one]).mapM (SharePart.accrue "account") =
        .ok accruals ∧
      Number.total (accruals.map (·.accrued)) = .ok whole.accrued ∧ whole.units = .ok 3 ∧
      accruals.mapM ShareAccrual.units = .ok partUnits ∧ partUnits.sum ≤ 3 ∧ 3 < partUnits.sum + 9 := by
  intro half
  obtain ⟨whole, hwhole, hunits⟩ := Option.map_eq_some_iff.mp (show
    (accrueShare "account" 3 .zero .one).toOption.map (·.units.toOption) = some (some 3) by
      decide +kernel)
  rw [toOption_eq_some] at hwhole hunits
  obtain ⟨accruals, haccruals, hlength, -, htotal, hparts⟩ :=
    accrueShare_additive [1, 1, 1]
      (show [Number.zero, half, half, .one].IsChain (· ≤ ·) by decide +kernel) hwhole
  obtain ⟨partUnits, hpartUnits, hle, hlt⟩ := hparts 3 hunits
  have hsome : accruals ≠ [] := List.ne_nil_of_length_pos (by rw [hlength]; decide)
  rw [hlength] at hlt
  exact ⟨whole, accruals, partUnits, hwhole, haccruals, htotal, hunits, hpartUnits, hle, hlt hsome⟩

end EmissionLedger
