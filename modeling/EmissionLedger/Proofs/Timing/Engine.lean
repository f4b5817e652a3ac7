import EmissionLedger.Proofs.Accrual
import Mathlib.Data.Nat.Notation

/-!
An engine keeps a shared record that is moved on in time and accounts that earn by its indices. Where what
an index grows by and what an account earns round down, a stretch of time that is taken in two parts is
answered if it is at once, and gives no more (`RoundsDown.split`).
-/

namespace EmissionLedger

/-- A shared record that is moved on in time, and the accounts that earn by its indices. -/
structure Engine (σ α ε : Type) where
  advance : Int → σ → Result σ
  clock : σ → ℕ
  index : ε → σ → Number
  /-- The shared record but for its clock and its indices. -/
  terms : σ → σ
  /-- What an index grows by in some seconds, on some terms. -/
  growth : ε → σ → ℕ → ℕ
  settle : σ → α → Result α
  lastSeen : ε → α → Number
  earned : ε → α → ℕ
  /-- The account but for what it has seen and earned. -/
  holding : α → α
  /-- What a holding earns by some growth of an index. -/
  worth : ε → α → ℕ → ℕ

namespace Engine

variable {σ α ε : Type} (engine : Engine σ α ε)

/-- The shared record `s'` is `s` moved on by some seconds. -/
structure Advanced (s s' : σ) (elapsed : ℕ) : Prop where
  terms : engine.terms s' = engine.terms s
  clock : engine.clock s' = engine.clock s + elapsed
  index : ∀ e, (engine.index e s').raw =
    (engine.index e s).raw + engine.growth e (engine.terms s) elapsed

/-- The account `a'` is `a` with all credited that it has earned up to the indices of `s`. -/
structure Settled (a a' : α) (s : σ) : Prop where
  holding : engine.holding a' = engine.holding a
  lastSeen : ∀ e, engine.lastSeen e a' = engine.index e s
  earned : ∀ e, engine.earned e a' = engine.earned e a +
    engine.worth e (engine.holding a) ((engine.index e s).raw - (engine.lastSeen e a).raw)

/-- Growth and worth round down, and where a long stretch is answered, so is a shorter one in which the
indices and earnings end no higher. -/
structure RoundsDown : Prop where
  growth_add_le : ∀ e s m n,
    engine.growth e s m + engine.growth e s n ≤ engine.growth e s (m + n)
  worth_add_le : ∀ e a m n, engine.worth e a m + engine.worth e a n ≤ engine.worth e a (m + n)
  advance_ok : ∀ {now s s'}, engine.advance now s = .ok s' →
    ∃ elapsed : ℕ, now = engine.clock s + elapsed ∧ engine.Advanced s s' elapsed
  settle_ok : ∀ {s a a'}, engine.settle s a = .ok a' → engine.Settled a a' s
  advance_within : ∀ {now now' : Int} {s s' d} {m n : ℕ}, engine.advance now s = .ok d →
    now = engine.clock s + n → engine.terms s' = engine.terms s → now' = engine.clock s' + m → m ≤ n →
    (∀ e, (engine.index e s').raw + engine.growth e (engine.terms s) m ≤ (engine.index e d).raw) →
    ∃ next, engine.advance now' s' = .ok next
  settle_within : ∀ {s d a a' b}, engine.settle d a = .ok b → engine.terms s = engine.terms d →
    engine.holding a' = engine.holding a → (∀ e, engine.lastSeen e a ≤ engine.lastSeen e a') →
    (∀ e, engine.lastSeen e a' ≤ engine.index e s) → (∀ e, engine.index e s ≤ engine.index e d) →
    (∀ e, engine.earned e a' + engine.worth e (engine.holding a)
      ((engine.index e s).raw - (engine.lastSeen e a').raw) ≤ engine.earned e b) →
    ∃ next, engine.settle s a' = .ok next

/-- The same clock, terms and holding, with no higher indices and earnings. -/
structure AtMost (s : σ) (a : α) (d : σ) (b : α) : Prop where
  clock : engine.clock s = engine.clock d
  terms : engine.terms s = engine.terms d
  index : ∀ e, engine.index e s ≤ engine.index e d
  holding : engine.holding a = engine.holding b
  earned : ∀ e, engine.earned e a ≤ engine.earned e b

variable {engine} {s s' s₁ s₂ d : σ} {a b : α} {now between : Int}

theorem Advanced.index_le {n : ℕ} (h : engine.Advanced s s' n) (e : ε) :
    engine.index e s ≤ engine.index e s' := by
  rw [Number.le_iff, h.index e]
  exact Nat.le_add_right _ _

/-- What is earned between three indices is at most what is earned between the first and a fourth, which
is not below them. -/
theorem RoundsDown.worth_parts_le (h : engine.RoundsDown) (e : ε) (a : α)
    {last first second reached : Number} (hfirst : last ≤ first) (hsecond : first ≤ second)
    (hreached : second ≤ reached) :
    engine.worth e a (first.raw - last.raw) + engine.worth e a (second.raw - first.raw) ≤
      engine.worth e a (reached.raw - last.raw) := by
  rw [Number.le_iff] at hfirst hsecond hreached
  obtain ⟨rest, hrest⟩ := Nat.exists_eq_add_of_le (show
    (first.raw - last.raw) + (second.raw - first.raw) ≤ reached.raw - last.raw by omega)
  calc engine.worth e a (first.raw - last.raw) + engine.worth e a (second.raw - first.raw)
      ≤ engine.worth e a ((first.raw - last.raw) + (second.raw - first.raw)) := h.worth_add_le e a _ _
    _ ≤ engine.worth e a ((first.raw - last.raw) + (second.raw - first.raw) + rest) :=
        Nat.le_trans (Nat.le_add_right _ _) (h.worth_add_le e a _ rest)
    _ = engine.worth e a (reached.raw - last.raw) := by rw [hrest]

/-- A shared record that was moved on at once can be moved on in two steps, to no higher indices. -/
theorem RoundsDown.advance_split (h : engine.RoundsDown) (hadvance : engine.advance now s = .ok d)
    (hclock : (engine.clock s : Int) ≤ between) (hnow : between ≤ now) :
    ∃ s₁ s₂ m n, (engine.advance between s = .ok s₁ ∧ engine.advance now s₁ = .ok s₂) ∧
      (engine.Advanced s s₁ m ∧ engine.Advanced s₁ s₂ n ∧ engine.Advanced s d (m + n)) ∧
      between = engine.clock s + m ∧ ∀ e, engine.index e s₂ ≤ engine.index e d := by
  obtain ⟨elapsed, helapsed, hadv⟩ := h.advance_ok hadvance
  obtain ⟨m, hm⟩ := Int.eq_ofNat_of_zero_le (show 0 ≤ between - engine.clock s by omega)
  obtain ⟨n, rfl⟩ := Nat.exists_eq_add_of_le (show m ≤ elapsed by omega)
  have hparts (e : ε) : (engine.index e s).raw + (engine.growth e (engine.terms s) m +
      engine.growth e (engine.terms s) n) ≤ (engine.index e d).raw := by
    rw [hadv.index e]
    exact Nat.add_le_add_left (h.growth_add_le e _ m n) _
  obtain ⟨s₁, hs₁⟩ : ∃ s₁, engine.advance between s = .ok s₁ :=
    h.advance_within hadvance helapsed rfl (by omega) (Nat.le_add_right m n)
      fun e => Nat.le_trans (Nat.add_le_add_left (Nat.le_add_right _ _) _) (hparts e)
  obtain ⟨m', hm', hadv₁⟩ := h.advance_ok hs₁
  obtain rfl : m' = m := by omega
  have hrest (e : ε) : (engine.index e s₁).raw + engine.growth e (engine.terms s) n ≤
      (engine.index e d).raw := by
    rw [hadv₁.index e, Nat.add_assoc]
    exact hparts e
  have hclock₁ := hadv₁.clock
  obtain ⟨s₂, hs₂⟩ : ∃ s₂, engine.advance now s₁ = .ok s₂ :=
    h.advance_within hadvance helapsed hadv₁.terms (by omega) (Nat.le_add_left n m') hrest
  obtain ⟨n', hn', hadv₂⟩ := h.advance_ok hs₂
  obtain rfl : n' = n := by omega
  refine ⟨s₁, s₂, m', n', ⟨hs₁, hs₂⟩, ⟨hadv₁, hadv₂, hadv⟩, hm', fun e => ?_⟩
  rw [Number.le_iff, hadv₂.index e, hadv₁.terms]
  exact hrest e

/-- An account that was settled at once can be settled in two steps, with no more earned. -/
theorem RoundsDown.settle_split (h : engine.RoundsDown) (hsettle : engine.settle d a = .ok b)
    (hterms₁ : engine.terms s₁ = engine.terms d) (hterms₂ : engine.terms s₂ = engine.terms d)
    (hlast : ∀ e, engine.lastSeen e a ≤ engine.index e s₁)
    (hle : ∀ e, engine.index e s₁ ≤ engine.index e s₂)
    (hindex : ∀ e, engine.index e s₂ ≤ engine.index e d) :
    ∃ a₁ a₂, (engine.settle s₁ a = .ok a₁ ∧ engine.settle s₂ a₁ = .ok a₂) ∧
      (engine.Settled a a₁ s₁ ∧ engine.Settled a₁ a₂ s₂ ∧ engine.Settled a b d) ∧
      ∀ e, engine.earned e a₂ ≤ engine.earned e b := by
  have hset := h.settle_ok hsettle
  have hparts (e : ε) : engine.earned e a +
      (engine.worth e (engine.holding a) ((engine.index e s₁).raw - (engine.lastSeen e a).raw) +
        engine.worth e (engine.holding a) ((engine.index e s₂).raw - (engine.index e s₁).raw)) ≤
      engine.earned e b := by
    rw [hset.earned e]
    exact Nat.add_le_add_left (h.worth_parts_le e _ (hlast e) (hle e) (hindex e)) _
  obtain ⟨a₁, ha₁⟩ : ∃ a₁, engine.settle s₁ a = .ok a₁ :=
    h.settle_within hsettle hterms₁ rfl (fun _ => Nat.le_refl _) hlast
      (fun e => Nat.le_trans (hle e) (hindex e))
      fun e => Nat.le_trans (Nat.add_le_add_left (Nat.le_add_right _ _) _) (hparts e)
  have hset₁ := h.settle_ok ha₁
  have hrest (e : ε) : engine.earned e a₁ + engine.worth e (engine.holding a)
      ((engine.index e s₂).raw - (engine.lastSeen e a₁).raw) ≤ engine.earned e b := by
    rw [hset₁.earned e, hset₁.lastSeen e, Nat.add_assoc]
    exact hparts e
  obtain ⟨a₂, ha₂⟩ : ∃ a₂, engine.settle s₂ a₁ = .ok a₂ :=
    h.settle_within hsettle hterms₂ hset₁.holding (fun e => hset₁.lastSeen e ▸ hlast e)
      (fun e => hset₁.lastSeen e ▸ hle e) hindex hrest
  have hset₂ := h.settle_ok ha₂
  refine ⟨a₁, a₂, ⟨ha₁, ha₂⟩, ⟨hset₁, hset₂, hset⟩, fun e => ?_⟩
  rw [hset₂.earned e, hset₁.holding]
  exact hrest e

/-- What a shared record and an account are after one stretch, they are at least after the same stretch in
two parts. -/
theorem RoundsDown.split (h : engine.RoundsDown) (hadvance : engine.advance now s = .ok d)
    (hsettle : engine.settle d a = .ok b) (hseen : ∀ e, engine.lastSeen e a ≤ engine.index e s)
    (hclock : (engine.clock s : Int) ≤ between) (hnow : between ≤ now) :
    ∃ s₁ a₁ s₂ a₂, (engine.advance between s = .ok s₁ ∧ engine.settle s₁ a = .ok a₁) ∧
      (engine.advance now s₁ = .ok s₂ ∧ engine.settle s₂ a₁ = .ok a₂) ∧
      (engine.Settled a a₁ s₁ ∧ engine.terms s₁ = engine.terms d ∧ (engine.clock s₁ : Int) = between) ∧
      engine.AtMost s₂ a₂ d b := by
  obtain ⟨s₁, s₂, m, n, ⟨hs₁, hs₂⟩, ⟨hadv₁, hadv₂, hadv⟩, hbetween, hindex⟩ :=
    h.advance_split hadvance hclock hnow
  have hterms₁ : engine.terms s₁ = engine.terms d := hadv₁.terms.trans hadv.terms.symm
  have hterms₂ : engine.terms s₂ = engine.terms d := hadv₂.terms.trans hterms₁
  obtain ⟨a₁, a₂, ⟨ha₁, ha₂⟩, ⟨hset₁, hset₂, hset⟩, hearned⟩ := h.settle_split hsettle hterms₁ hterms₂
    (fun e => Nat.le_trans (hseen e) (hadv₁.index_le e)) hadv₂.index_le hindex
  have hclock₁ := hadv₁.clock
  have hclock₂ : engine.clock s₂ = engine.clock d := by
    rw [hadv₂.clock, hclock₁, Nat.add_assoc, hadv.clock]
  have hholding : engine.holding a₂ = engine.holding b :=
    hset₂.holding.trans (hset₁.holding.trans hset.holding.symm)
  exact ⟨s₁, a₁, s₂, a₂, ⟨hs₁, ha₁⟩, ⟨hs₂, ha₂⟩, ⟨hset₁, hterms₁, by omega⟩,
    hclock₂, hterms₂, hindex, hholding, hearned⟩

end Engine

end EmissionLedger
