import Mathlib.Algebra.Group.Hom.Defs
import Mathlib.Algebra.Group.Basic
import Mathlib.Algebra.Group.Nat.Defs

/-!
Runs: calls made one after another, each answered from the records that the last answered call left
behind. A call that is not answered changes nothing. A quantity that every answered call adds to is
tallied over a run.

Main statements: what relates the state and the amount tallied so far, and is kept by every answered
call, holds at the end of every run (`run_tally`); a balance that every answered call settles up to a
loss is settled over a run up to all its losses (`run_balance`); where every answered call shows as a
call on another system or not at all, a run shows as a run of it (`run_shows`).
-/

namespace EmissionLedger

variable {σ κ M : Type}

/-- The state after calls made one after another. -/
def run (step : σ → κ → Option σ) : σ → List κ → σ
  | s, [] => s
  | s, call :: rest => run step ((step s call).getD s) rest

/-- The sum, over the answered calls of a run, of a quantity of the state before, the call and the
state after. -/
def tally [AddMonoid M] (step : σ → κ → Option σ) (f : σ → κ → σ → M) : σ → List κ → M
  | _, [] => 0
  | s, call :: rest => (step s call).elim 0 (f s call) + tally step f ((step s call).getD s) rest

/-- Every answered call of a run is allowed. -/
def Throughout (step : σ → κ → Option σ) (allowed : σ → κ → σ → Prop) : σ → List κ → Prop
  | _, [] => True
  | s, call :: rest => (∀ s', step s call = some s' → allowed s call s') ∧
      Throughout step allowed ((step s call).getD s) rest

/-- Whether every answered call of a run is allowed is found out by making the run. -/
instance Throughout.decidable {step : σ → κ → Option σ} {allowed : σ → κ → σ → Prop}
    [∀ s call s', Decidable (allowed s call s')] :
    (s : σ) → (calls : List κ) → Decidable (Throughout step allowed s calls)
  | _, [] => inferInstanceAs (Decidable True)
  | s, call :: rest =>
    have : Decidable (Throughout step allowed ((step s call).getD s) rest) := decidable _ rest
    inferInstanceAs (Decidable ((∀ s' ∈ step s call, allowed s call s') ∧ _))

variable {step : σ → κ → Option σ}

theorem run_append (s : σ) (calls later : List κ) :
    run step s (calls ++ later) = run step (run step s calls) later := by
  induction calls generalizing s with
  | nil => rfl
  | cons call rest ih => exact ih _

theorem run_concat {s s' : σ} {calls : List κ} {call : κ}
    (h : step (run step s calls) call = some s') : run step s (calls ++ [call]) = s' := by
  induction calls generalizing s with
  | nil => exact congrArg (Option.getD · s) h
  | cons first rest ih => exact ih h

/-- A run in which every call is answered. -/
theorem foldlM_cons_eq_some {s last : σ} {call : κ} {rest : List κ} :
    (call :: rest).foldlM step s = some last ↔
      ∃ t, step s call = some t ∧ rest.foldlM step t = some last := by
  rw [List.foldlM_cons]
  exact Option.bind_eq_some_iff

/-- A run in which every call is answered ends where it ends by skipping the others. -/
theorem run_of_foldlM {s last : σ} {calls : List κ} (h : calls.foldlM step s = some last) :
    run step s calls = last := by
  induction calls generalizing s with
  | nil => exact Option.some.inj h
  | cons call rest ih =>
      obtain ⟨t, ht, hrest⟩ := foldlM_cons_eq_some.mp h
      rw [run, ht]
      exact ih hrest

theorem throughout_of_forall {allowed : σ → κ → σ → Prop}
    (h : ∀ s call s', step s call = some s' → allowed s call s') (s : σ) (calls : List κ) :
    Throughout step allowed s calls := by
  induction calls generalizing s with
  | nil => trivial
  | cons call rest ih => exact ⟨h s call, ih _⟩

theorem throughout_of_mem {P : κ → Prop} {calls : List κ} (h : ∀ call ∈ calls, P call) (s : σ) :
    Throughout step (fun _ call _ => P call) s calls := by
  induction calls generalizing s with
  | nil => trivial
  | cons call rest ih =>
      obtain ⟨hcall, hrest⟩ := List.forall_mem_cons.mp h
      exact ⟨fun _ _ => hcall, ih hrest _⟩

theorem run_tally_of_throughout [AddMonoid M] {allowed : σ → κ → σ → Prop} {f : σ → κ → σ → M}
    {P : σ → M → Prop}
    (hstep : ∀ s m call s', P s m → step s call = some s' → allowed s call s' → P s' (m + f s call s'))
    {s : σ} {m : M} (calls : List κ) (hallowed : Throughout step allowed s calls) (h : P s m) :
    P (run step s calls) (m + tally step f s calls) := by
  induction calls generalizing s m with
  | nil => rwa [tally, add_zero]
  | cons call rest ih =>
      obtain ⟨hcall, hrest⟩ := hallowed
      rw [run, tally, ← add_assoc]
      cases hs : step s call with
      | none =>
          rw [hs] at hrest
          rw [Option.elim_none, add_zero]
          exact ih hrest h
      | some s' =>
          rw [hs] at hrest
          exact ih hrest (hstep s m call s' h hs (hcall s' hs))

/-- What every answered call keeps between the state and the amount tallied holds after a run. -/
theorem run_tally [AddMonoid M] {f : σ → κ → σ → M} {P : σ → M → Prop}
    (hstep : ∀ s m call s', P s m → step s call = some s' → P s' (m + f s call s'))
    {s : σ} {m : M} (calls : List κ) (h : P s m) :
    P (run step s calls) (m + tally step f s calls) :=
  have hall : Throughout step (fun _ _ _ => True) s calls :=
    throughout_of_forall (fun _ _ _ _ => trivial) s calls
  run_tally_of_throughout (fun s m call s' hP hs _ => hstep s m call s' hP hs) calls hall h

/-- What every allowed call keeps holds after a run of allowed calls. -/
theorem run_invariant_of_throughout {allowed : σ → κ → σ → Prop} {P : σ → Prop}
    (hstep : ∀ s call s', P s → step s call = some s' → allowed s call s' → P s') {s : σ}
    (calls : List κ) (hallowed : Throughout step allowed s calls) (h : P s) : P (run step s calls) :=
  run_tally_of_throughout (M := ℕ) (f := fun _ _ _ => 0) (P := fun s _ => P s) (m := 0)
    (fun s _ call s' hP hs ha => hstep s call s' hP hs ha) calls hallowed h

/-- What every answered call keeps holds after a run. -/
theorem run_invariant {P : σ → Prop} (hstep : ∀ s call s', P s → step s call = some s' → P s')
    {s : σ} (calls : List κ) (h : P s) : P (run step s calls) :=
  run_tally (M := ℕ) (f := fun _ _ _ => 0) (P := fun s _ => P s) (m := 0)
    (fun s _ call s' hP hs => hstep s call s' hP hs) calls h

/-- A run shows as a run of another kind if every allowed call that is answered shows as an answered call
or not at all. -/
theorem run_shows_of_throughout {τ μ : Type} {step' : τ → μ → Option τ} {allowed : σ → κ → σ → Prop}
    {Shows : σ → τ → Prop}
    (hstep : ∀ s call s' t, Shows s t → step s call = some s' → allowed s call s' →
      Shows s' t ∨ ∃ shown t', step' t shown = some t' ∧ Shows s' t')
    {s : σ} {t : τ} (calls : List κ) (hallowed : Throughout step allowed s calls) (h : Shows s t) :
    ∃ shown, Shows (run step s calls) (run step' t shown) := by
  refine run_invariant_of_throughout (P := fun s => ∃ shown, Shows s (run step' t shown))
    ?_ calls hallowed ⟨[], h⟩
  rintro s call s' ⟨shown, hs⟩ hcall hallow
  rcases hstep s call s' _ hs hcall hallow with hsame | ⟨next, t', hnext, hs'⟩
  · exact ⟨shown, hsame⟩
  · exact ⟨shown ++ [next], run_concat hnext ▸ hs'⟩

/-- A run shows as a run of another kind if every answered call shows as an answered call or not at all. -/
theorem run_shows {τ μ : Type} {step' : τ → μ → Option τ} {Shows : σ → τ → Prop}
    (hstep : ∀ s call s' t, Shows s t → step s call = some s' →
      Shows s' t ∨ ∃ shown t', step' t shown = some t' ∧ Shows s' t')
    {s : σ} {t : τ} (calls : List κ) (h : Shows s t) :
    ∃ shown, Shows (run step s calls) (run step' t shown) :=
  have hall : Throughout step (fun _ _ _ => True) s calls :=
    throughout_of_forall (fun _ _ _ _ => trivial) s calls
  run_shows_of_throughout (fun s call s' t h hs _ => hstep s call s' t h hs) calls hall h

theorem map_tally {N : Type} [AddMonoid M] [AddMonoid N] (φ : M →+ N) (f : σ → κ → σ → M) (s : σ)
    (calls : List κ) :
    φ (tally step f s calls) = tally step (fun s call s' => φ (f s call s')) s calls := by
  induction calls generalizing s with
  | nil => exact map_zero φ
  | cons call rest ih =>
      rw [tally, tally, map_add, ih]
      cases step s call with
      | none => rw [Option.elim_none, Option.elim_none, map_zero]
      | some s' => rfl

theorem tally_sub [AddCommGroup M] (f g : σ → κ → σ → M) (s : σ) (calls : List κ) :
    tally step (fun s call s' => f s call s' - g s call s') s calls =
      tally step f s calls - tally step g s calls := by
  induction calls generalizing s with
  | nil => exact (sub_zero 0).symm
  | cons call rest ih =>
      rw [tally, tally, tally, ih, add_sub_add_comm]
      cases step s call with
      | none => rw [Option.elim_none, Option.elim_none, Option.elim_none, sub_zero]
      | some s' => rfl

theorem tally_zero [AddMonoid M] (s : σ) (calls : List κ) :
    tally step (fun _ _ _ => (0 : M)) s calls = 0 := by
  induction calls generalizing s with
  | nil => rfl
  | cons call rest ih =>
      rw [tally, ih, add_zero]
      cases step s call <;> rfl

theorem tally_mul (f : σ → κ → σ → ℕ) (c : ℕ) (s : σ) (calls : List κ) :
    tally step (fun s call s' => f s call s' * c) s calls = tally step f s calls * c := by
  let scaled : ℕ →+ ℕ := ⟨⟨(· * c), Nat.zero_mul c⟩, fun m n => Nat.add_mul m n c⟩
  exact (map_tally scaled f s calls).symm

/-- What every answered call bounds is bounded over a run. -/
theorem tally_le {P : σ → Prop} {f g : σ → κ → σ → ℕ}
    (hP : ∀ s call s', P s → step s call = some s' → P s')
    (hstep : ∀ s call s', P s → step s call = some s' → f s call s' ≤ g s call s') {s : σ}
    (calls : List κ) (h : P s) : tally step f s calls ≤ tally step g s calls := by
  induction calls generalizing s with
  | nil => exact Nat.le_refl 0
  | cons call rest ih =>
      rw [tally, tally]
      cases hs : step s call with
      | none => exact Nat.add_le_add_left (ih h) _
      | some s' => exact Nat.add_le_add (hstep s call s' h hs) (ih (hP s call s' h hs))

theorem mul_tally_le {P : σ → Prop} {f g : σ → κ → σ → ℕ} (c d : ℕ)
    (hP : ∀ s call s', P s → step s call = some s' → P s')
    (hstep : ∀ s call s', P s → step s call = some s' → c * f s call s' ≤ d * g s call s')
    {s : σ} (calls : List κ) (h : P s) : c * tally step f s calls ≤ d * tally step g s calls := by
  rw [Nat.mul_comm c, Nat.mul_comm d, ← tally_mul, ← tally_mul]
  refine tally_le hP (fun s call s' hs hcall => ?_) calls h
  rw [Nat.mul_comm _ c, Nat.mul_comm _ d]
  exact hstep s call s' hs hcall

/-- A quantity of the state that grows in every answered call by what it gains less what it gives out,
but for some loss, does so over a run. -/
theorem run_balance {P : σ → Prop} {f : σ → ℤ} {gain out loss : σ → κ → σ → ℕ}
    (hP : ∀ s call s', P s → step s call = some s' → P s')
    (hstep : ∀ s call s', P s → step s call = some s' →
      f s' + out s call s' ≤ f s + gain s call s' ∧
        f s + gain s call s' ≤ f s' + out s call s' + loss s call s')
    {s : σ} (calls : List κ) (h : P s) :
    f (run step s calls) + tally step out s calls ≤ f s + tally step gain s calls ∧
      f s + tally step gain s calls ≤
        f (run step s calls) + tally step out s calls + tally step loss s calls := by
  induction calls generalizing s with
  | nil => simp [run, tally]
  | cons call rest ih =>
      rw [run, tally, tally, tally]
      cases hs : step s call with
      | none =>
          simp only [Option.getD_none, Option.elim_none, Nat.zero_add]
          exact ih h
      | some s' =>
          obtain ⟨hle, hge⟩ := hstep s call s' h hs
          obtain ⟨hle', hge'⟩ := ih (hP s call s' h hs)
          simp only [Option.getD_some, Option.elim_some, Int.natCast_add]
          omega

end EmissionLedger
