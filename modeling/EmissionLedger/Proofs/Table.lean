import Mathlib.Algebra.BigOperators.Ring.Multiset
import Mathlib.Algebra.Order.BigOperators.Group.Finset
import Mathlib.Data.Finmap
import Mathlib.Data.Nat.Cast.Basic

/-!
Tables of records: which record stands under which key, and sums over all of them. Entering a record
changes a sum by what the new record adds and the old one, if there was any, had added. A quantity of
the record under a key is zero where there is none, so the sum over any keys is at most that over all
records.
-/

namespace EmissionLedger

/-- A finite table of records, at most one under each key. -/
abbrev Table (κ α : Type) := Finmap fun _ : κ => α

namespace Table

variable {κ α M : Type}

/-- What is asked of all records of a table can be decided record by record. -/
instance [DecidableEq κ] (t : Table κ α) (P : κ → α → Prop) [∀ k a, Decidable (P k a)] :
    Decidable (∀ k a, t.lookup k = some a → P k a) :=
  decidable_of_iff (∀ e ∈ t.entries, P e.1 e.2)
    ⟨fun h k a hk => h ⟨k, a⟩ (Finmap.mem_lookup_iff.mp hk),
      fun h e he => h e.1 e.2 (Finmap.mem_lookup_iff.mpr he)⟩

/-- The sum of a quantity over all records of a table. -/
def total [AddCommMonoid M] (t : Table κ α) (f : κ → α → M) : M :=
  (t.entries.map fun e => f e.1 e.2).sum

section Sums

variable [AddCommMonoid M] {f g : κ → α → M} (t : Table κ α)

@[simp] theorem total_empty : total (∅ : Table κ α) f = 0 := rfl

@[simp] theorem total_zero : t.total (fun _ _ => (0 : M)) = 0 := by
  simp [total]

theorem total_add : t.total (fun k a => f k a + g k a) = t.total f + t.total g :=
  Multiset.sum_map_add

theorem total_congr [DecidableEq κ] (h : ∀ k a, t.lookup k = some a → f k a = g k a) :
    t.total f = t.total g := by
  refine congrArg Multiset.sum (Multiset.map_congr rfl ?_)
  rintro ⟨k, a⟩ hmem
  exact h k a (Finmap.mem_lookup_iff.mpr hmem)

theorem map_total {N : Type} [AddCommMonoid N] (φ : M →+ N) :
    φ (t.total f) = t.total fun k a => φ (f k a) := by
  rw [total, total, AddMonoidHom.map_multiset_sum, Multiset.map_map]
  rfl

theorem natCast_total {R : Type} [AddCommMonoidWithOne R] {f : κ → α → ℕ} :
    ((t.total f : ℕ) : R) = t.total fun k a => (f k a : R) :=
  map_total t (Nat.castAddMonoidHom R)

theorem total_mul {R : Type} [NonUnitalNonAssocSemiring R] {f : κ → α → R} (c : R) :
    (t.total fun k a => f k a * c) = t.total f * c :=
  Multiset.sum_map_mul_right

/-- A sum in which every term has grown by a multiple of one number. -/
theorem total_eq_add_mul [DecidableEq κ] {R : Type} [NonUnitalNonAssocSemiring R]
    {f g shares : κ → α → R} {growth : R}
    (h : ∀ k a, t.lookup k = some a → g k a = f k a + shares k a * growth) :
    t.total g = t.total f + t.total shares * growth := by
  rw [← total_mul, ← total_add]
  exact total_congr t h

theorem total_keys (f : κ → M) : (t.total fun k _ => f k) = ∑ k ∈ t.keys, f k := by
  show (t.entries.map fun e => f e.1).sum = ((t.entries.map Sigma.fst).map f).sum
  rw [Multiset.map_map]
  rfl

variable {t} [DecidableEq κ] {k : κ} {a old : α}

/-- A new record adds its quantity. -/
theorem total_insert_new (h : t.lookup k = none) :
    total (t.insert k a) f = f k a + t.total f := by
  rw [total, Finmap.entries_insert_of_notMem (Finmap.lookup_eq_none.mp h), Multiset.map_cons,
    Multiset.sum_cons]
  rfl

private theorem insert_erase (a : α) : Finmap.insert k a (t.erase k) = t.insert k a := by
  apply Finmap.ext_lookup
  intro x
  by_cases hx : x = k
  · subst hx
    rw [Finmap.lookup_insert, Finmap.lookup_insert]
  · rw [Finmap.lookup_insert_of_ne _ hx, Finmap.lookup_insert_of_ne _ hx, Finmap.lookup_erase_ne hx]

theorem eq_empty (h : ∀ k a, t.lookup k ≠ some a) : t = ∅ :=
  Finmap.ext_lookup fun k => Option.eq_none_iff_forall_ne_some.mpr (h k)

theorem insert_of_lookup (h : t.lookup k = some old) : t.insert k old = t := by
  apply Finmap.ext_lookup
  intro x
  by_cases hx : x = k
  · subst hx
    rw [Finmap.lookup_insert, h]
  · rw [Finmap.lookup_insert_of_ne _ hx]

/-- A record in another's place adds its quantity and takes the other's away. -/
theorem total_insert (h : t.lookup k = some old) :
    total (t.insert k a) f + f k old = f k a + t.total f := by
  have hnone : (t.erase k).lookup k = none := Finmap.lookup_erase k t
  have hnew := total_insert_new (f := f) (a := a) hnone
  have hold := total_insert_new (f := f) (a := old) hnone
  rw [insert_erase] at hnew hold
  rw [insert_of_lookup h] at hold
  rw [hnew, hold, add_assoc, add_comm (total (t.erase k) f)]

/-- A record in another's place changes a sum of natural numbers by what its own term changes. -/
theorem total_insert_change {f : κ → α → ℕ} {change : ℤ} (h : t.lookup k = some old)
    (hchange : (f k a : ℤ) = f k old + change) :
    ((total (t.insert k a) f : ℕ) : ℤ) = t.total f + change := by
  have hsum := total_insert (f := f) (a := a) h
  omega

theorem lookup_insert_eq_some {x : κ} {b : α} (h : Finmap.lookup x (t.insert k a) = some b) :
    x = k ∧ b = a ∨ x ≠ k ∧ t.lookup x = some b := by
  by_cases hx : x = k
  · subst hx
    rw [Finmap.lookup_insert, Option.some.injEq] at h
    exact .inl ⟨rfl, h.symm⟩
  · rw [Finmap.lookup_insert_of_ne _ hx] at h
    exact .inr ⟨hx, h⟩

/-- What is among the records of another table still is, after a record was entered in both. -/
theorem lookup_insert_among {κ' β : Type} [DecidableEq κ'] {t' : Table κ' β} {key : κ → κ'} {f : α → β}
    (h : ∀ x b, t.lookup x = some b → t'.lookup (key x) = some (f b)) (hkey : Function.Injective key) :
    ∀ x b, Finmap.lookup x (t.insert k a) = some b →
      Finmap.lookup (key x) (t'.insert (key k) (f a)) = some (f b) := by
  intro x b hx
  rcases lookup_insert_eq_some hx with ⟨rfl, rfl⟩ | ⟨hne, hold⟩
  · exact Finmap.lookup_insert _
  · exact (Finmap.lookup_insert_of_ne _ fun heq => hne (hkey heq)).trans (h x b hold)

/-- Every record is still there, or related to the one that was entered in its place. -/
theorem lookup_insert_related {R : α → α → Prop} {x : κ} {b : α} (hsame : R b b)
    (hnew : ∀ old, t.lookup k = some old → R old a) (h : t.lookup x = some b) :
    ∃ b', Finmap.lookup x (t.insert k a) = some b' ∧ R b b' := by
  by_cases hx : x = k
  · subst hx
    exact ⟨a, Finmap.lookup_insert _, hnew b h⟩
  · exact ⟨b, (Finmap.lookup_insert_of_ne _ hx).trans h, hsame⟩

/-- What holds of every old record and of the new one holds of every record afterwards. -/
theorem forall_insert {P : κ → α → Prop} (hold : ∀ x b, t.lookup x = some b → P x b) (hnew : P k a) :
    ∀ x b, Finmap.lookup x (t.insert k a) = some b → P x b := by
  intro x b h
  rcases lookup_insert_eq_some h with ⟨rfl, rfl⟩ | ⟨-, h⟩
  · exact hnew
  · exact hold x b h

end Sums

/-! ### The quantity under a key -/

/-- A quantity of the record under a key, zero if there is none. -/
def valueAt [DecidableEq κ] [Zero M] (t : Table κ α) (f : α → M) (k : κ) : M := (t.lookup k).elim 0 f

section Values

variable [DecidableEq κ] {t : Table κ α} {f : α → M} {k x : κ} {a : α}

theorem valueAt_of_lookup [Zero M] (h : t.lookup k = some a) : t.valueAt f k = f a := by
  rw [valueAt, h, Option.elim_some]

theorem valueAt_of_none [Zero M] (h : t.lookup k = none) : t.valueAt f k = 0 := by
  rw [valueAt, h, Option.elim_none]

@[simp] theorem valueAt_insert_self [Zero M] : valueAt (t.insert k a) f k = f a :=
  valueAt_of_lookup (Finmap.lookup_insert _)

theorem valueAt_insert_of_ne [Zero M] (h : x ≠ k) : valueAt (t.insert k a) f x = t.valueAt f x := by
  rw [valueAt, Finmap.lookup_insert_of_ne _ h, valueAt]

theorem total_eq_sum_valueAt [AddCommMonoid M] :
    (t.total fun _ a => f a) = ∑ k ∈ t.keys, t.valueAt f k := by
  rw [← total_keys]
  exact total_congr t fun k a h => (valueAt_of_lookup h).symm

/-- The quantities under any keys are at most those of all records. -/
theorem sum_valueAt_le {f : α → ℕ} (keys : Finset κ) :
    ∑ k ∈ keys, t.valueAt f k ≤ t.total fun _ a => f a := by
  have hzero : ∀ k ∈ keys ∪ t.keys, k ∉ t.keys → t.valueAt f k = 0 := by
    intro k _ hk
    exact valueAt_of_none (Finmap.lookup_eq_none.mpr (mt Finmap.mem_keys.mpr hk))
  rw [total_eq_sum_valueAt, Finset.sum_subset Finset.subset_union_right hzero]
  exact Finset.sum_le_sum_of_subset Finset.subset_union_left

end Values

section Order

variable [AddCommMonoid M] [PartialOrder M] [IsOrderedAddMonoid M] [DecidableEq κ]
variable {f g : κ → α → M} {t : Table κ α}

theorem total_le_total (h : ∀ k a, t.lookup k = some a → f k a ≤ g k a) : t.total f ≤ t.total g := by
  refine Multiset.sum_map_le_sum_map _ _ ?_
  rintro ⟨k, a⟩ hmem
  exact h k a (Finmap.mem_lookup_iff.mpr hmem)

omit [DecidableEq κ] in
theorem total_le_total_of_subset {β : Type} {u : Table κ β} {f : κ → M} (hsub : t.keys ⊆ u.keys)
    (h0 : ∀ k, 0 ≤ f k) : (t.total fun k _ => f k) ≤ u.total fun k _ => f k := by
  rw [total_keys, total_keys]
  exact Finset.sum_le_sum_of_subset_of_nonneg hsub fun k _ _ => h0 k

theorem le_total {k : κ} {a : α} (h : t.lookup k = some a)
    (h0 : ∀ k a, t.lookup k = some a → 0 ≤ f k a) : f k a ≤ t.total f := by
  have hnone : (t.erase k).lookup k = none := Finmap.lookup_erase k t
  have hsum := total_insert_new (f := f) (a := a) hnone
  rw [insert_erase, insert_of_lookup h] at hsum
  have hrest : 0 ≤ total (t.erase k) f := by
    rw [← total_zero (M := M) (t.erase k)]
    refine total_le_total fun x b hx => h0 x b ?_
    by_cases hne : x = k
    · subst hne
      rw [Finmap.lookup_erase] at hx
      cases hx
    · rwa [Finmap.lookup_erase_ne hne] at hx
  rw [hsum]
  exact le_add_of_nonneg_right hrest

end Order

end Table

end EmissionLedger
