import EmissionLedger.Record.Any

/-!
Readings taken apart. A reading of two parts has a value when both have, is cut short when either is, and
complains of what either complains of; a counter that is read keeps within its limit.
-/

namespace EmissionLedger

namespace Reading

variable {α β : Type} {x : Reading α} {y : Reading β} {step : PathStep} {P : Item → Prop}

theorem both_eq_value {a : α} {b : β} : x.both y = .value (a, b) ↔ x = .value a ∧ y = .value b := by
  cases x <;> cases y <;> simp [both]

theorem both_eq_overflow : x.both y = .overflow ↔ x = .overflow ∨ y = .overflow := by
  cases x <;> cases y <;> simp [both]

theorem under_eq_value {a : α} : x.under step = .value a ↔ x = .value a := by
  cases x <;> simp [under]

theorem under_eq_overflow : x.under step = .overflow ↔ x = .overflow := by
  cases x <;> simp [under]

theorem map_eq_value {f : α → β} {b : β} : x.map f = .value b ↔ ∃ a, x = .value a ∧ f a = b := by
  cases x <;> simp [map]

theorem map_eq_overflow {f : α → β} : x.map f = .overflow ↔ x = .overflow := by
  cases x <;> simp [map]

theorem forall_complain {complaint : Complaint} (h : P ⟨[], complaint⟩) :
    ∀ item ∈ (complain complaint : Reading α).items, P item :=
  List.forall_mem_singleton.mpr h

theorem forall_items_both (hx : ∀ item ∈ x.items, P item) (hy : ∀ item ∈ y.items, P item) :
    ∀ item ∈ (x.both y).items, P item := by
  intro item h
  cases x <;> cases y <;>
    simp only [both, items, List.mem_append, List.not_mem_nil, false_or, or_false] at h
  · exact hy item h
  · exact hx item h
  · exact h.elim (hx item) (hy item)

theorem forall_items_under (h : ∀ item ∈ x.items, P { item with path := step :: item.path }) :
    ∀ item ∈ (x.under step).items, P item := by
  cases x with
  | refused items => exact List.forall_mem_map.mpr h
  | _ => exact List.forall_mem_nil _

theorem items_map (f : α → β) (x : Reading α) : (x.map f).items = x.items := by
  cases x <;> rfl

end Reading

/-! ### Values -/

theorem readCounter_le {limit : Nat} {v : Json} {n : Nat} (h : readCounter limit v = .value n) :
    n ≤ limit := by
  rw [readCounter] at h
  split at h
  · cases h
  split at h
  · cases h
  split at h
  · cases h
  · cases h
    omega

theorem readCounter_ne_overflow (limit : Nat) (v : Json) : readCounter limit v ≠ .overflow := by
  rw [readCounter]
  split
  · exact nofun
  split
  · exact nofun
  split <;> exact nofun

theorem readCounter_of_le {limit n : Nat} (h : n ≤ limit) : readCounter limit (.int n) = .value n := by
  have low : ¬(n : Int) < 0 := by omega
  have high : ¬(limit : Int) < n := by omega
  simp only [readCounter, integerOfJson, if_neg low, if_neg high, Int.toNat_natCast]

theorem readAddress_text (a : Address) : readAddress (.str a.text) = .value a := by
  have found : Address.ofText? a.text = some a := dif_pos a.wellFormed
  simp only [readAddress, found]

theorem readAddress_ne_overflow (v : Json) : readAddress v ≠ .overflow := by
  rw [readAddress.eq_def]
  split
  · split <;> exact nofun
  · exact nofun

end EmissionLedger
