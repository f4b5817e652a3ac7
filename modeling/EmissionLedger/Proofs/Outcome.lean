import EmissionLedger.Counter

/-!
Outcomes taken apart. An operation is a chain of smaller ones; it is answered when each link is, and
refused with the fault of the first link that is refused. So a fact about all faults of an operation
follows from the same fact about its links.
-/

namespace EmissionLedger

variable {α β : Type}

theorem bind_eq_ok {x : Result α} {f : α → Result β} {b : β} :
    x >>= f = .ok b ↔ ∃ a, x = .ok a ∧ f a = .ok b := by
  cases x <;> simp [bind, Except.bind]

theorem ok_bind {a : α} {f : α → Result β} : (.ok a : Result α) >>= f = f a := rfl

/-- A chain is answered link by link. -/
theorem bind_ok {x : Result α} {f : α → Result β} {a : α} {b : β} (hx : x = .ok a)
    (hf : f a = .ok b) : x >>= f = .ok b :=
  bind_eq_ok.mpr ⟨a, hx, hf⟩

/-- A chain is answered when its first link is and the rest is answered from what that returns. -/
theorem bind_answered {x : Result α} {f : α → Result β} {a : α} (hx : x = .ok a)
    (hf : ∃ b, f a = .ok b) : ∃ b, x >>= f = .ok b := by
  obtain ⟨b, hb⟩ := hf
  exact ⟨b, bind_ok hx hb⟩

theorem bind_eq_error {x : Result α} {f : α → Result β} {e : Fault} :
    x >>= f = .error e ↔ x = .error e ∨ ∃ a, x = .ok a ∧ f a = .error e := by
  cases x <;> simp [bind, Except.bind]

theorem pure_eq_ok {a b : α} : (pure a : Result α) = .ok b ↔ a = b := by
  simp [pure, Except.pure]

theorem return_eq_ok {x : Result α} {f : α → β} {b : β} :
    (do let a ← x; return f a) = .ok b ↔ ∃ a, x = .ok a ∧ f a = b := by
  simp only [bind_eq_ok, pure_eq_ok]

theorem map_eq_ok {x : Result α} {f : α → β} {b : β} : x.map f = .ok b ↔ ∃ a, x = .ok a ∧ f a = b := by
  cases x <;> simp [Except.map]

@[simp] theorem toOption_eq_some {x : Result α} {a : α} : x.toOption = some a ↔ x = .ok a := by
  cases x <;> simp [Except.toOption]

/-- The fault of an operation that is refused. -/
def fault? : Result α → Option Fault
  | .ok _ => none
  | .error e => some e

theorem fault?_eq_some {x : Result α} {e : Fault} : fault? x = some e ↔ x = .error e := by
  cases x <;> simp [fault?]

/-- Every fault that an outcome can be is allowed. -/
def FaultsIn (allowed : Fault → Prop) (x : Result α) : Prop := ∀ e, x = .error e → allowed e

namespace FaultsIn

variable {allowed : Fault → Prop}

theorem ok {a : α} : FaultsIn allowed (.ok a : Result α) := by
  intro e h
  cases h

theorem pure {a : α} : FaultsIn allowed (Pure.pure a : Result α) := ok

theorem error {e : Fault} (h : allowed e) : FaultsIn allowed (.error e : Result α) := by
  rintro _ ⟨⟩
  exact h

/-- What is answered has no fault. -/
theorem of_answered {x : Result α} (h : ∃ a, x = .ok a) : FaultsIn allowed x := by
  obtain ⟨a, rfl⟩ := h
  exact ok

theorem bind {x : Result α} {f : α → Result β} (hx : FaultsIn allowed x)
    (hf : ∀ a, x = .ok a → FaultsIn allowed (f a)) : FaultsIn allowed (x >>= f) := by
  intro e h
  rcases bind_eq_error.mp h with h | ⟨a, ha, h⟩
  · exact hx e h
  · exact hf a ha e h

theorem map {x : Result α} {f : α → β} (h : FaultsIn allowed x) : FaultsIn allowed (x.map f) := by
  intro e he
  cases x with
  | ok a => cases he
  | error e' =>
      cases he
      exact h e rfl

theorem mapError {x : Result α} {f : Fault → Fault} (h : FaultsIn (fun e => allowed (f e)) x) :
    FaultsIn allowed (x.mapError f) := by
  intro e he
  cases x with
  | ok a => cases he
  | error e' =>
      cases he
      exact h e' rfl

theorem ite {p : Prop} [Decidable p] {x y : Result α} (hx : p → FaultsIn allowed x)
    (hy : ¬p → FaultsIn allowed y) : FaultsIn allowed (if p then x else y) := by
  by_cases hp : p
  · rw [if_pos hp]
    exact hx hp
  · rw [if_neg hp]
    exact hy hp

theorem dite {p : Prop} [Decidable p] {x : p → Result α} {y : ¬p → Result α}
    (hx : ∀ hp, FaultsIn allowed (x hp)) (hy : ∀ hp, FaultsIn allowed (y hp)) :
    FaultsIn allowed (if hp : p then x hp else y hp) := by
  by_cases hp : p
  · rw [dif_pos hp]
    exact hx hp
  · rw [dif_neg hp]
    exact hy hp

theorem mono {allowed' : Fault → Prop} {x : Result α} (h : FaultsIn allowed x)
    (hmono : ∀ e, allowed e → allowed' e) : FaultsIn allowed' x :=
  fun e he => hmono e (h e he)

end FaultsIn

/-! ### Lists of outcomes -/

section

variable {γ : Type} {f : α → Result β}

theorem mapM_answered {xs : List α} (h : ∀ x ∈ xs, ∃ y, f x = .ok y) : ∃ ys, xs.mapM f = .ok ys := by
  induction xs with
  | nil => exact ⟨[], rfl⟩
  | cons x rest ih =>
      obtain ⟨⟨y, hy⟩, hrest⟩ := List.forall_mem_cons.mp h
      obtain ⟨ys, hys⟩ := ih hrest
      rw [List.mapM_cons]
      exact bind_answered hy (bind_answered hys ⟨_, rfl⟩)

/-- What is known of every answer is known of the list of them. -/
theorem map_of_mapM {xs : List α} {ys : List β} {g : β → γ} {k : α → γ} (h : xs.mapM f = .ok ys)
    (hf : ∀ x y, f x = .ok y → g y = k x) : ys.map g = xs.map k := by
  induction xs generalizing ys with
  | nil =>
      cases h
      rfl
  | cons x rest ih =>
      rw [List.mapM_cons] at h
      simp only [bind_eq_ok, pure_eq_ok] at h
      obtain ⟨y, hy, others, hothers, rfl⟩ := h
      rw [List.map_cons, List.map_cons, hf x y hy, ih hothers]

end

/-! ### Reports -/

/-- A fault is reported under its cause's kind, or as an invalid value if its message cannot be
written. -/
theorem Fault.kind_eq (e : Fault) : e.kind = e.causeKind ∨ e.kind = .invalidValue := by
  rw [Fault.kind]
  split
  · exact .inl rfl
  · exact .inr rfl

/-! ### Messages that can be written -/

theorem Wording.text?_isSome {w : Wording} (h : ∀ piece ∈ w, piece.text?.isSome) : w.text?.isSome := by
  rw [text?, Option.isSome_map]
  induction w with
  | nil => rfl
  | cons piece rest ih =>
      obtain ⟨hpiece, hrest⟩ := List.forall_mem_cons.mp h
      obtain ⟨said, hsaid⟩ := Option.isSome_iff_exists.mp hpiece
      obtain ⟨others, hothers⟩ := Option.isSome_iff_exists.mp (ih hrest)
      rw [List.mapM_cons, hsaid, hothers]
      rfl

/-- Numbers about as long as a counter can be written. -/
theorem Piece.text?_isSome_of_natAbs_le {n : Int} (h : n.natAbs ≤ 2 * maxU64) :
    (Piece.int n).text?.isSome := by
  have hwidth : 2 * maxU64 < Nat.pow 10 maxMessageDigits := by decide +kernel
  rw [text?, if_pos (Nat.lt_of_le_of_lt h hwidth)]
  rfl

theorem Piece.text?_isSome_of_le {n : Nat} (h : n ≤ maxU64) : (Piece.int n).text?.isSome :=
  text?_isSome_of_natAbs_le (Nat.le_trans h (Nat.le_mul_of_pos_left _ Nat.zero_lt_two))

/-- A fault whose message can be written is reported under its cause's kind. -/
theorem Fault.kind_of_writable {e : Fault} (h : ∀ piece ∈ e.wording, piece.text?.isSome) :
    e.kind = e.causeKind := by
  rw [Fault.kind, if_pos (Wording.text?_isSome h)]

/-- A sum of two counters that is too large is reported as an overflow. -/
theorem Fault.kind_counterOverflow (what : String) {a b : Nat} (ha : a ≤ maxU64) (hb : b ≤ maxU64) :
    (Fault.counterOverflow what a b maxU64).kind = .arithmeticOverflow := by
  refine kind_of_writable fun piece hpiece => ?_
  simp only [wording, List.mem_cons, List.not_mem_nil, or_false] at hpiece
  rcases hpiece with rfl | rfl | rfl | rfl | rfl | rfl | rfl
  · rfl
  · rfl
  · exact Piece.text?_isSome_of_le ha
  · rfl
  · exact Piece.text?_isSome_of_le hb
  · rfl
  · exact Piece.text?_isSome_of_le (Nat.le_refl _)

/-- A number that is too wide for a counter is reported as an overflow. -/
theorem Fault.kind_tooWide (a : Number) : (Fault.number (.tooWide a 64)).kind = .arithmeticOverflow := by
  refine kind_of_writable fun piece hpiece => ?_
  simp only [wording, NumberFault.wording, List.mem_cons, List.not_mem_nil, or_false] at hpiece
  rcases hpiece with rfl | rfl | rfl | rfl
  · rfl
  · rfl
  · rfl
  · exact Piece.text?_isSome_of_le (by decide)

/-- A shortage among counters is reported as one. -/
theorem Fault.kind_shortage (cause : Shortage) {requested available : Int}
    (hrequested : requested.natAbs ≤ 2 * maxU64) (havailable : available.natAbs ≤ 2 * maxU64) :
    (Fault.shortage cause requested available none).kind = .shortage cause := by
  have hcode : cause.code ≤ maxU64 := by cases cause <;> decide
  refine kind_of_writable fun piece hpiece => ?_
  simp only [wording, Shortage.wording, List.mem_cons, List.not_mem_nil, or_false] at hpiece
  rcases hpiece with rfl | rfl | rfl | rfl | rfl | rfl | rfl | rfl
  · exact Piece.text?_isSome_of_le hcode
  · rfl
  · rfl
  · rfl
  · exact Piece.text?_isSome_of_natAbs_le hrequested
  · rfl
  · exact Piece.text?_isSome_of_natAbs_le havailable
  · rfl

end EmissionLedger
