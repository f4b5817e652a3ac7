import EmissionLedger.Proofs.Run
import EmissionLedger.Proofs.Table
import Mathlib.Algebra.Group.Pi.Lemmas

/-!
Runs compared with runs that differ from them by more calls. A second run inserts calls at some places
of a first one and makes other calls in the place of some; it is watched next to the first, call by call.

Payments are such calls. A table is ahead of another if each of its records has paid out more and has
that much less left to pay, and is the same record otherwise.

Main statement: what both runs keep up, each call of the first next to its counterpart and every
inserted call alone, holds at their ends, and the second run is answered if the first is
(`Interspersed.simulates`).
-/

namespace EmissionLedger

variable {σ κ M : Type}

/-- The calls of the second list are those of the first, made from a state, with calls inserted and
replaced: `extra` says what may be inserted where, `instead` what may stand in a call's place. -/
inductive Interspersed (step : σ → κ → Option σ) (extra : σ → κ → Prop) (instead : κ → κ → Prop) :
    σ → List κ → List κ → Prop
  | done (s : σ) : Interspersed step extra instead s [] []
  | inserted {s : σ} {calls calls' : List κ} {call' : κ} (hextra : extra s call')
      (hrest : Interspersed step extra instead s calls calls') :
      Interspersed step extra instead s calls (call' :: calls')
  | kept {s : σ} {call call' : κ} {rest rest' : List κ} (hcall : call' = call ∨ instead call call')
      (hrest : Interspersed step extra instead ((step s call).getD s) rest rest') :
      Interspersed step extra instead s (call :: rest) (call' :: rest')

/-- What relates the states and the tallies of two runs, and is kept by every call of the first next to
its counterpart and by every inserted call, holds at the ends of both. -/
theorem Interspersed.simulates [AddMonoid M] {step : σ → κ → Option σ} {extra : σ → κ → Prop}
    {instead : κ → κ → Prop} {f : σ → κ → σ → M} {R : σ → M → σ → M → Prop}
    (hkept : ∀ s m s' m' call call' t, R s m s' m' → (call' = call ∨ instead call call') →
      step s call = some t →
      ∃ t', step s' call' = some t' ∧ R t (m + f s call t) t' (m' + f s' call' t'))
    (hinserted : ∀ s m s' m' call', R s m s' m' → extra s call' →
      ∃ t', step s' call' = some t' ∧ R s m t' (m' + f s' call' t'))
    {s s' last : σ} {m m' : M} {calls calls' : List κ}
    (hcalls : Interspersed step extra instead s calls calls') (h : R s m s' m')
    (hrun : calls.foldlM step s = some last) :
    ∃ last', calls'.foldlM step s' = some last' ∧
      R last (m + tally step f s calls) last' (m' + tally step f s' calls') := by
  induction hcalls generalizing s' m m' with
  | done s =>
      obtain rfl : s = last := Option.some.inj hrun
      exact ⟨s', rfl, by simpa only [tally, add_zero] using h⟩
  | inserted hextra _ ih =>
      obtain ⟨t', hstep, ht⟩ := hinserted _ _ _ _ _ h hextra
      obtain ⟨last', hrun', hlast⟩ := ih ht hrun
      refine ⟨last', foldlM_cons_eq_some.mpr ⟨t', hstep, hrun'⟩, ?_⟩
      rw [tally, hstep, ← add_assoc]
      exact hlast
  | kept hcall _ ih =>
      obtain ⟨t, ht, hrest⟩ := foldlM_cons_eq_some.mp hrun
      obtain ⟨t', hstep, hR⟩ := hkept _ _ _ _ _ _ _ h hcall ht
      rw [ht, Option.getD_some] at ih
      obtain ⟨last', hrun', hlast⟩ := ih hR hrest
      refine ⟨last', foldlM_cons_eq_some.mpr ⟨t', hstep, hrun'⟩, ?_⟩
      rw [tally, ht, Option.elim_some, Option.getD_some, ← add_assoc, tally, hstep, ← add_assoc]
      exact hlast

theorem tally_apply {ι : Type} [AddMonoid M] {step : σ → κ → Option σ} (f : σ → κ → σ → ι → M) (s : σ)
    (calls : List κ) (i : ι) :
    tally step f s calls i = tally step (fun s call s' => f s call s' i) s calls :=
  map_tally (Pi.evalAddMonoidHom (fun _ => M) i) f s calls

/-! ### Tables that have paid out more -/

variable {α : Type} [DecidableEq κ]

/-- The table `t'` is ahead of `t`: of the same records each has paid out `paid'` and not `paid`, and
`owing` turns it back into the record of `t`, with what it has paid out more still to pay. -/
structure Ahead (owing : α → ℕ → α) (t : Table κ α) (paid : κ → ℕ) (t' : Table κ α)
    (paid' : κ → ℕ) : Prop where
  absent : ∀ k, t.lookup k = none → t'.lookup k = none ∧ paid' k = paid k
  present : ∀ k a, t.lookup k = some a →
    ∃ a' n, t'.lookup k = some a' ∧ a = owing a' n ∧ paid' k = paid k + n

namespace Ahead

variable {owing : α → ℕ → α} {t t' : Table κ α} {paid paid' : κ → ℕ} {k : κ}

theorem refl (hzero : ∀ a, owing a 0 = a) (t : Table κ α) (paid : κ → ℕ) :
    Ahead owing t paid t paid :=
  ⟨fun _ h => ⟨h, rfl⟩, fun _ a h => ⟨a, 0, h, (hzero a).symm, rfl⟩⟩

/-- Records entered in both tables keep the second ahead. -/
theorem enter (h : Ahead owing t paid t' paid') {a' : α} {n p p' : ℕ}
    (hpaid : paid' k + p' = paid k + p + n) :
    Ahead owing (t.insert k (owing a' n)) (paid + Pi.single k p) (t'.insert k a')
      (paid' + Pi.single k p') := by
  have hself : (paid' + Pi.single k p' : κ → ℕ) k = (paid + Pi.single k p : κ → ℕ) k + n := by
    rw [Pi.add_apply, Pi.add_apply, Pi.single_eq_same, Pi.single_eq_same, hpaid]
  have hother : ∀ x, x ≠ k → (paid + Pi.single k p : κ → ℕ) x = paid x ∧
      (paid' + Pi.single k p' : κ → ℕ) x = paid' x := by
    intro x hx
    rw [Pi.add_apply, Pi.add_apply, Pi.single_eq_of_ne hx, Pi.single_eq_of_ne hx]
    exact ⟨rfl, rfl⟩
  constructor
  · intro x hx
    by_cases hne : x = k
    · subst hne
      rw [Finmap.lookup_insert] at hx
      cases hx
    · rw [Finmap.lookup_insert_of_ne _ hne] at hx ⊢
      rw [(hother x hne).1, (hother x hne).2]
      exact h.absent x hx
  · intro x a hx
    rcases Table.lookup_insert_eq_some hx with ⟨rfl, rfl⟩ | ⟨hne, hx⟩
    · exact ⟨a', n, Finmap.lookup_insert _, rfl, hself⟩
    · rw [Finmap.lookup_insert_of_ne _ hne, (hother x hne).1, (hother x hne).2]
      exact h.present x a hx

/-- A record that pays in the second table alone keeps it ahead. -/
theorem pay (h : Ahead owing t paid t' paid') {a' : α} {n p' : ℕ} (ha : t.lookup k = some (owing a' n))
    (hpaid : paid' k + p' = paid k + n) :
    Ahead owing t paid (t'.insert k a') (paid' + Pi.single k p') := by
  have hentered : Ahead owing (t.insert k (owing a' n)) (paid + Pi.single k 0) (t'.insert k a')
      (paid' + Pi.single k p') := h.enter hpaid
  rwa [Table.insert_of_lookup ha, Pi.single_zero, add_zero] at hentered

end Ahead

end EmissionLedger
