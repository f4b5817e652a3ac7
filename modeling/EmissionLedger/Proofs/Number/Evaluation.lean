import EmissionLedger.Number.Expr
import EmissionLedger.Proofs.Accrual.Faults
import Mathlib.Data.Nat.Cast.Order.Field
import Mathlib.Data.Rat.Floor

/-!
Expressions in fixed point beside their exact values. No operation gives more than its exact result for
the same operands. Where an expression grows with each of its numbers, divisors apart, a part that comes
out too small can only make the whole smaller: the answer is at most the exact value. If some of the
numbers are raised, the answer is no smaller and refusals are no rarer, since all that can go wrong is a
result that is too large, which takes a part whose exact value is too large.

Main statements: `Expr.Growing.eval_le_exact`, `Expr.Growing.eval_noLarger`,
`Expr.Growing.eval_overflows` and `Expr.Growing.eval_answered`; together `Expr.eval_from_below`.
-/

namespace EmissionLedger

/-! ### Exact values -/

/-- The exact value of a number. -/
def Number.toRat (a : Number) : ℚ := a.raw / scale

/-- The exact result of an operation on one number. -/
def UnaryOp.exact : UnaryOp → ℚ → ℚ
  | floor, p => ⌊p⌋
  | ceil, p => ⌈p⌉

/-- The exact result of an operation on two numbers. -/
def BinaryOp.exact : BinaryOp → ℚ → ℚ → ℚ
  | add, p, q => p + q
  | sub, p, q => p - q
  | mul, p, q => p * q
  | div, p, q => p / q
  | min, p, q => Min.min p q
  | max, p, q => Max.max p q

/-- The exact value of an expression. -/
def Expr.exact : Expr Number → ℚ
  | leaf a => a.toRat
  | unary op x => op.exact x.exact
  | binary op x y => op.exact x.exact y.exact

theorem scale_pos : (0 : ℚ) < scale := by norm_num [scale]

theorem Number.toRat_nonneg (a : Number) : 0 ≤ a.toRat :=
  div_nonneg (Nat.cast_nonneg _) scale_pos.le

/-- The raw value of a number is its exact value in raw units. -/
theorem Number.toRat_mul_scale (a : Number) : a.toRat * scale = a.raw :=
  div_mul_cancel₀ _ scale_pos.ne'

/-- The exact value of the largest number. -/
def Number.largest : ℚ := maxRaw / scale

theorem le_maxRaw_of_le_largest {n : ℕ} (h : (n : ℚ) / scale ≤ Number.largest) : n ≤ maxRaw :=
  Nat.cast_le.mp ((div_le_div_iff_of_pos_right scale_pos).mp h)

/-! ### One operation on one number -/

theorem Number.floor_raw (a : Number) : a.floor.raw = a.raw / scale * scale := by
  simp only [Number.floor, scale]
  omega

namespace UnaryOp

/-- The raw result of an operation, in range or not. -/
def raw : UnaryOp → ℕ → ℕ
  | floor, m => m / scale * scale
  | ceil, m => (m + (scale - 1)) / scale * scale

theorem apply_eq_ok {op : UnaryOp} {a c : Number} : op.apply a = .ok c ↔ c.raw = op.raw a.raw := by
  cases op with
  | floor =>
      rw [apply, Except.ok.injEq, Number.ext_iff, Number.floor_raw]
      exact eq_comm
  | ceil => exact Number.ceil_eq_ok

theorem raw_mono (op : UnaryOp) {m n : ℕ} (h : m ≤ n) : op.raw m ≤ op.raw n := by
  cases op with
  | floor => exact Nat.mul_le_mul_right _ (Nat.div_le_div_right h)
  | ceil => exact Nat.mul_le_mul_right _ (Nat.div_le_div_right (Nat.add_le_add_right h _))

theorem exact_mono (op : UnaryOp) {p q : ℚ} (h : p ≤ q) : op.exact p ≤ op.exact q := by
  cases op with
  | floor => exact Int.cast_le.mpr (Int.floor_le_floor h)
  | ceil => exact Int.cast_le.mpr (Int.ceil_le_ceil h)

theorem raw_le_exact (op : UnaryOp) (a : Number) : (op.raw a.raw : ℚ) / scale ≤ op.exact a.toRat := by
  have hwhole (k : ℕ) : ((k * scale : ℕ) : ℚ) / scale = k := by
    rw [Nat.cast_mul, mul_div_cancel_right₀ _ scale_pos.ne']
  cases op with
  | floor =>
      rw [raw, exact, hwhole, Number.toRat, Rat.floor_natCast_div_natCast]
      exact le_rfl
  | ceil =>
      have hbelow : (a.raw + (scale - 1)) / scale * scale < a.raw + scale := by
        simp only [scale]
        omega
      rw [raw, exact, hwhole]
      generalize (a.raw + (scale - 1)) / scale = k at hbelow ⊢
      have hnext : ((k : ℤ) : ℚ) - 1 < a.toRat := by
        rw [Number.toRat, lt_div_iff₀ scale_pos, sub_one_mul, sub_lt_iff_lt_add]
        exact_mod_cast hbelow
      exact Int.cast_le.mpr (Int.le_ceil_iff.mpr hnext)

theorem apply_le_exact {op : UnaryOp} {a c : Number} (h : op.apply a = .ok c) :
    c.toRat ≤ op.exact a.toRat := by
  rw [Number.toRat, apply_eq_ok.mp h]
  exact op.raw_le_exact a

theorem apply_answered (op : UnaryOp) {a : Number} (h : op.exact a.toRat ≤ Number.largest) :
    ∃ c, op.apply a = .ok c :=
  ⟨⟨op.raw a.raw, le_maxRaw_of_le_largest ((op.raw_le_exact a).trans h)⟩, apply_eq_ok.mpr rfl⟩

theorem apply_overflows (op : UnaryOp) (a : Number) :
    FaultsIn (fun fault => fault.kind = .arithmeticOverflow) (op.apply a) := by
  cases op with
  | floor => exact .ok
  | ceil => exact Number.ceil_faultsIn (if_pos rfl)

end UnaryOp

/-! ### One operation on two numbers -/

/-- Operations that grow with both of their operands. -/
inductive BinaryOp.Growing : BinaryOp → Prop
  | add : Growing add
  | mul : Growing mul
  | min : Growing min
  | max : Growing max

namespace BinaryOp

/-- Whether an operation has a result, in range or not. -/
def Defined : BinaryOp → Number → Number → Prop
  | sub, a, b => b ≤ a
  | div, _, b => b.raw ≠ 0
  | add, _, _ | mul, _, _ | min, _, _ | max, _, _ => True

/-- The raw result of an operation, cut off, in range or not. -/
def raw : BinaryOp → ℕ → ℕ → ℕ
  | add, m, n => m + n
  | sub, m, n => m - n
  | mul, m, n => m * n / scale
  | div, m, n => m * scale / n
  | min, m, n => Min.min m n
  | max, m, n => Max.max m n

theorem Growing.defined {op : BinaryOp} (h : op.Growing) (a b : Number) : op.Defined a b := by
  cases h <;> exact trivial

theorem apply_eq_ok {op : BinaryOp} {a b c : Number} :
    op.apply a b = .ok c ↔ op.Defined a b ∧ c.raw = op.raw a.raw b.raw := by
  cases op with
  | add => rw [apply, Number.add_eq_ok, Defined, true_and, raw]
  | sub =>
      rw [apply, Number.sub_eq_ok, Defined, raw, Number.le_iff]
      omega
  | mul => rw [apply, Number.mul_eq_ok, Defined, true_and, raw]
  | div => exact Number.div_eq_ok
  | min =>
      rw [apply, Except.ok.injEq, Number.ext_iff, Number.min, apply_ite Number.raw, Defined, true_and]
      exact eq_comm
  | max =>
      -- of two equal numbers the first is taken, where `Nat.max` takes the second
      rw [apply, Except.ok.injEq, Number.ext_iff, Number.max, apply_ite Number.raw, Defined, true_and,
        raw, max_def']
      exact eq_comm

theorem raw_mono_left (op : BinaryOp) {m m' : ℕ} (n : ℕ) (h : m ≤ m') : op.raw m n ≤ op.raw m' n := by
  cases op with
  | add => exact Nat.add_le_add_right h n
  | sub => exact Nat.sub_le_sub_right h n
  | mul => exact Nat.div_le_div_right (Nat.mul_le_mul_right n h)
  | div => exact Nat.div_le_div_right (Nat.mul_le_mul_right scale h)
  | min => exact min_le_min_right n h
  | max => exact max_le_max_right n h

theorem Growing.raw_mono {op : BinaryOp} (hop : op.Growing) {m m' n n' : ℕ} (hm : m ≤ m')
    (hn : n ≤ n') : op.raw m n ≤ op.raw m' n' := by
  refine (op.raw_mono_left n hm).trans ?_
  cases hop with
  | add => exact Nat.add_le_add_left hn m'
  | mul => exact Nat.div_le_div_right (Nat.mul_le_mul_left m' hn)
  | min => exact min_le_min_left m' hn
  | max => exact max_le_max_left m' hn

theorem exact_mono_left (op : BinaryOp) {p p' q : ℚ} (hq : 0 ≤ q) (h : p ≤ p') :
    op.exact p q ≤ op.exact p' q := by
  cases op with
  | add => exact add_le_add_left h q
  | sub => exact sub_le_sub_right h q
  | mul => exact mul_le_mul_of_nonneg_right h hq
  | div => exact div_le_div_of_nonneg_right h hq
  | min => exact min_le_min_right q h
  | max => exact max_le_max_right q h

theorem Growing.exact_mono {op : BinaryOp} (hop : op.Growing) {p p' q q' : ℚ} (hp : 0 ≤ p) (hq : 0 ≤ q)
    (hpp : p ≤ p') (hqq : q ≤ q') : op.exact p q ≤ op.exact p' q' := by
  refine (op.exact_mono_left hq hpp).trans ?_
  cases hop with
  | add => exact add_le_add_right hqq p'
  | mul => exact mul_le_mul_of_nonneg_left hqq (hp.trans hpp)
  | min => exact min_le_min_left p' hqq
  | max => exact max_le_max_left p' hqq

theorem raw_le_exact {op : BinaryOp} {a b : Number} (h : op.Defined a b) :
    (op.raw a.raw b.raw : ℚ) / scale ≤ op.exact a.toRat b.toRat := by
  rw [div_le_iff₀ scale_pos]
  cases op with
  | add =>
      rw [raw, exact, Nat.cast_add, add_mul, a.toRat_mul_scale, b.toRat_mul_scale]
  | sub =>
      rw [raw, exact, Nat.cast_sub h, sub_mul, a.toRat_mul_scale, b.toRat_mul_scale]
  | mul =>
      rw [raw, exact, mul_assoc, b.toRat_mul_scale, Number.toRat, div_mul_eq_mul_div, ← Nat.cast_mul]
      exact Nat.cast_div_le
  | div =>
      rw [raw, exact, Number.toRat, Number.toRat, div_div_div_cancel_right₀ scale_pos.ne',
        div_mul_eq_mul_div, ← Nat.cast_mul]
      exact Nat.cast_div_le
  | min =>
      rw [raw, exact, Nat.cast_min, min_mul_of_nonneg _ _ scale_pos.le, a.toRat_mul_scale,
        b.toRat_mul_scale]
  | max =>
      rw [raw, exact, Nat.cast_max, max_mul_of_nonneg _ _ scale_pos.le, a.toRat_mul_scale,
        b.toRat_mul_scale]

theorem apply_le_exact {op : BinaryOp} {a b c : Number} (h : op.apply a b = .ok c) :
    c.toRat ≤ op.exact a.toRat b.toRat := by
  obtain ⟨hdefined, hraw⟩ := apply_eq_ok.mp h
  rw [Number.toRat, hraw]
  exact raw_le_exact hdefined

theorem apply_answered (op : BinaryOp) {a b : Number} (hdefined : op.Defined a b)
    (h : op.exact a.toRat b.toRat ≤ Number.largest) : ∃ c, op.apply a b = .ok c :=
  ⟨⟨op.raw a.raw b.raw, le_maxRaw_of_le_largest ((raw_le_exact hdefined).trans h)⟩,
    apply_eq_ok.mpr ⟨hdefined, rfl⟩⟩

theorem apply_overflows (op : BinaryOp) {a b : Number} (h : op.Defined a b) :
    FaultsIn (fun fault => fault.kind = .arithmeticOverflow) (op.apply a b) := by
  cases op with
  | add => exact Number.add_faultsIn (if_pos rfl)
  | sub => exact Number.sub_faultsIn fun hlt => absurd hlt (Nat.not_lt.mpr h)
  | mul => exact Number.mul_faultsIn (if_pos rfl)
  | div => exact Number.div_faultsIn (fun hzero => absurd hzero h) (if_pos rfl)
  | min => exact .ok
  | max => exact .ok

end BinaryOp

/-! ### Outcomes that are no larger -/

/-- Answered wherever `y` is, with a number that is no larger. -/
def NoLarger (x y : Result Number) : Prop := ∀ b, y = .ok b → ∃ a, x = .ok a ∧ a ≤ b

theorem NoLarger.bind {x y : Result Number} {f g : Number → Result Number} (h : NoLarger x y)
    (hfg : ∀ a b, a ≤ b → NoLarger (f a) (g b)) : NoLarger (x >>= f) (y >>= g) := by
  intro d hd
  obtain ⟨b, hb, hg⟩ := bind_eq_ok.mp hd
  obtain ⟨a, ha, hle⟩ := h b hb
  obtain ⟨c, hc, hcd⟩ := hfg a b hle d hg
  exact ⟨c, bind_ok ha hc, hcd⟩

theorem UnaryOp.apply_noLarger (op : UnaryOp) {a b : Number} (h : a ≤ b) :
    NoLarger (op.apply a) (op.apply b) := by
  intro d hd
  have hraw : op.raw a.raw ≤ d.raw := apply_eq_ok.mp hd ▸ op.raw_mono h
  exact ⟨⟨op.raw a.raw, hraw.trans d.raw_le⟩, apply_eq_ok.mpr rfl, hraw⟩

theorem BinaryOp.apply_noLarger (op : BinaryOp) {a a' b b' : Number} (hdefined : op.Defined a b)
    (h : op.raw a.raw b.raw ≤ op.raw a'.raw b'.raw) : NoLarger (op.apply a b) (op.apply a' b') := by
  intro d hd
  have hraw : op.raw a.raw b.raw ≤ d.raw := (apply_eq_ok.mp hd).2 ▸ h
  exact ⟨⟨op.raw a.raw b.raw, hraw.trans d.raw_le⟩, apply_eq_ok.mpr ⟨hdefined, rfl⟩, hraw⟩

/-! ### Expressions -/

namespace Expr

/-- Expressions that grow with each of their numbers, divisors apart: nothing is subtracted, and what is
divided by is a number that is not zero. -/
inductive Growing : Expr Number → Prop
  | leaf (a : Number) : Growing (leaf a)
  | unary (op : UnaryOp) {x : Expr Number} (hx : Growing x) : Growing (unary op x)
  | binary {op : BinaryOp} (hop : op.Growing) {x y : Expr Number} (hx : Growing x) (hy : Growing y) :
      Growing (binary op x y)
  | quotient {x : Expr Number} (hx : Growing x) {d : Number} (hd : d.raw ≠ 0) :
      Growing (binary .div x (.leaf d))

/-- The second expression is the first with some of its numbers raised, divisors apart. -/
inductive RaisedTo : Expr Number → Expr Number → Prop
  | leaf {a b : Number} (h : a ≤ b) : RaisedTo (leaf a) (leaf b)
  | unary (op : UnaryOp) {x x' : Expr Number} (hx : RaisedTo x x') : RaisedTo (unary op x) (unary op x')
  | binary {op : BinaryOp} (hop : op ≠ .div) {x x' y y' : Expr Number} (hx : RaisedTo x x')
      (hy : RaisedTo y y') : RaisedTo (binary op x y) (binary op x' y')
  | quotient {x x' : Expr Number} (hx : RaisedTo x x') (y : Expr Number) :
      RaisedTo (binary .div x y) (binary .div x' y)

/-- An expression is raised to itself, with no number raised. -/
theorem RaisedTo.refl (e : Expr Number) : e.RaisedTo e := by
  induction e with
  | leaf a => exact .leaf (Nat.le_refl _)
  | unary op x ih => exact .unary op ih
  | binary op x y ihx ihy =>
      cases op with
      | div => exact .quotient ihx y
      | _ => exact .binary (by nofun) ihx ihy

/-- The parts of an expression, itself among them. -/
def parts {α : Type} : Expr α → List (Expr α)
  | leaf a => [leaf a]
  | unary op x => unary op x :: x.parts
  | binary op x y => binary op x y :: (x.parts ++ y.parts)

namespace Growing

variable {e e' : Expr Number}

theorem eval_le_exact (he : e.Growing) {a : Number} (h : e.eval .ok = .ok a) : a.toRat ≤ e.exact := by
  induction he generalizing a with
  | leaf b =>
      cases h
      exact le_rfl
  | unary op hx ih =>
      obtain ⟨b, hb, h⟩ := bind_eq_ok.mp h
      exact (UnaryOp.apply_le_exact h).trans (op.exact_mono (ih hb))
  | @binary op hop x y hx hy ihx ihy =>
      obtain ⟨b, hb, h⟩ := bind_eq_ok.mp h
      obtain ⟨c, hc, h⟩ := bind_eq_ok.mp h
      calc a.toRat ≤ op.exact b.toRat c.toRat := BinaryOp.apply_le_exact h
        _ ≤ op.exact x.exact y.exact :=
          hop.exact_mono b.toRat_nonneg c.toRat_nonneg (ihx hb) (ihy hc)
  | @quotient x hx d hd ih =>
      obtain ⟨b, hb, h⟩ := bind_eq_ok.mp h
      calc a.toRat ≤ BinaryOp.div.exact b.toRat d.toRat := BinaryOp.apply_le_exact h
        _ ≤ BinaryOp.div.exact x.exact d.toRat := BinaryOp.div.exact_mono_left d.toRat_nonneg (ih hb)

theorem eval_noLarger (he : e.Growing) (h : e.RaisedTo e') : NoLarger (e.eval .ok) (e'.eval .ok) := by
  induction he generalizing e' with
  | leaf a =>
      cases h with
      | leaf hle =>
          rintro b ⟨⟩
          exact ⟨a, rfl, hle⟩
  | unary op hx ih =>
      cases h with
      | unary _ hx' => exact (ih hx').bind fun a b hle => op.apply_noLarger hle
  | @binary op hop x y hx hy ihx ihy =>
      cases h with
      | binary _ hx' hy' =>
          refine (ihx hx').bind fun a a' ha => (ihy hy').bind fun b b' hb => ?_
          exact op.apply_noLarger (hop.defined a b) (hop.raw_mono ha hb)
      | quotient => cases hop -- a quotient is not among the operations that grow with both operands
  | @quotient x hx d hd ih =>
      cases h with
      | binary hop => exact absurd rfl hop
      | quotient hx' =>
          refine (ih hx').bind fun a b hle => ?_
          exact BinaryOp.div.apply_noLarger hd (BinaryOp.div.raw_mono_left d.raw hle)

theorem eval_overflows (he : e.Growing) :
    FaultsIn (fun fault => fault.kind = .arithmeticOverflow) (e.eval .ok) := by
  induction he with
  | leaf a => exact .ok
  | unary op hx ih => exact .bind ih fun a _ => op.apply_overflows a
  | @binary op hop x y hx hy ihx ihy =>
      exact .bind ihx fun a _ => .bind ihy fun b _ => op.apply_overflows (hop.defined a b)
  | quotient hx hd ih => exact .bind ih fun a _ => BinaryOp.div.apply_overflows hd

/-- An expression is answered if none of its parts is worth more than the largest number. -/
theorem eval_answered (he : e.Growing) (h : ∀ x ∈ e.parts, x.exact ≤ Number.largest) :
    ∃ a, e.eval .ok = .ok a := by
  induction he with
  | leaf a => exact ⟨a, rfl⟩
  | @unary op x hx ih =>
      obtain ⟨hself, hrest⟩ := List.forall_mem_cons.mp h
      obtain ⟨a, ha⟩ := ih hrest
      apply bind_answered ha
      exact op.apply_answered ((op.exact_mono (hx.eval_le_exact ha)).trans hself)
  | @binary op hop x y hx hy ihx ihy =>
      obtain ⟨hself, hrest⟩ := List.forall_mem_cons.mp h
      rw [List.forall_mem_append] at hrest
      obtain ⟨a, ha⟩ := ihx hrest.1
      obtain ⟨b, hb⟩ := ihy hrest.2
      have hle : op.exact a.toRat b.toRat ≤ op.exact x.exact y.exact :=
        hop.exact_mono a.toRat_nonneg b.toRat_nonneg (hx.eval_le_exact ha) (hy.eval_le_exact hb)
      apply bind_answered ha
      apply bind_answered hb
      exact op.apply_answered (hop.defined a b) (hle.trans hself)
  | @quotient x hx d hd ih =>
      obtain ⟨hself, hrest⟩ := List.forall_mem_cons.mp h
      obtain ⟨a, ha⟩ := ih (List.forall_mem_append.mp hrest).1
      have hle : BinaryOp.div.exact a.toRat d.toRat ≤ BinaryOp.div.exact x.exact d.toRat :=
        BinaryOp.div.exact_mono_left d.toRat_nonneg (hx.eval_le_exact ha)
      apply bind_answered ha
      exact BinaryOp.div.apply_answered hd (hle.trans hself)

end Growing

/-- **Evaluation from below.** An expression that grows with its numbers, divisors apart, is answered with
at most its exact value. Wherever it is answered after some of its numbers are raised, divisors apart, it
is answered as it is, with a number that is no larger. If it is refused, then because of an overflow, and
it is not refused if none of its parts is worth more than the largest number. -/
theorem eval_from_below {e : Expr Number} (he : e.Growing) :
    (∀ a, e.eval .ok = .ok a → a.toRat ≤ e.exact) ∧
    (∀ e' b, e.RaisedTo e' → e'.eval .ok = .ok b → ∃ a, e.eval .ok = .ok a ∧ a ≤ b) ∧
    (∀ fault, e.eval .ok = .error fault → fault.kind = .arithmeticOverflow) ∧
    ((∀ x ∈ e.parts, x.exact ≤ Number.largest) → ∃ a, e.eval .ok = .ok a) :=
  ⟨fun _ => he.eval_le_exact, fun _ b hraised => he.eval_noLarger hraised b, he.eval_overflows,
    he.eval_answered⟩

/-- Three times a third of one, and one more, has a whole part of one instead of two. Starting from two, it
is two; and the largest number cannot be doubled. -/
theorem eval_from_below_thirds :
    let two : Number := ⟨2 * scale, by decide⟩
    let three : Number := ⟨3 * scale, by decide⟩
    let e (n : Number) : Expr Number := .unary .floor (.binary .add
      (.binary .mul (.binary .div (.leaf n) (.leaf three)) (.leaf three))
      (.binary .max (.binary .min (.leaf .one) (.leaf three)) (.leaf .zero)))
    let doubled : Expr Number := .binary .mul (.leaf ⟨maxRaw, Nat.le_refl _⟩) (.leaf two)
    (e .one).Growing ∧ (e .one).RaisedTo (e two) ∧ doubled.Growing ∧
    (e .one).exact = 2 ∧ (e .one).eval .ok = .ok .one ∧ Number.one.toRat ≤ (e .one).exact ∧
    (e two).eval .ok = .ok two ∧ (∃ a, (e .one).eval .ok = .ok a ∧ a ≤ two) ∧
    (∃ fault, doubled.eval .ok = .error fault ∧ fault.kind = .arithmeticOverflow) ∧
    (∀ x ∈ (e .one).parts, x.exact ≤ Number.largest) ∧ ∃ a, (e .one).eval .ok = .ok a := by
  intro two three e doubled
  have hgrowing (n : Number) : (e n).Growing :=
    .unary _ (.binary .add (.binary .mul (.quotient (.leaf n) (by decide)) (.leaf _))
      (.binary .max (.binary .min (.leaf _) (.leaf _)) (.leaf _)))
  have hraised : (e .one).RaisedTo (e two) := by
    have hthird : RaisedTo (.binary .div (.leaf .one) (.leaf three))
        (.binary .div (.leaf two) (.leaf three)) := .quotient (.leaf (by decide)) _
    exact .unary _ (.binary (by nofun) (.binary (by nofun) hthird (.refl _)) (.refl _))
  have hdoubled : doubled.Growing := .binary .mul (.leaf _) (.leaf _)
  have hone : (e .one).eval .ok = .ok .one := toOption_eq_some.mp (by decide +kernel)
  have htwo : (e two).eval .ok = .ok two := toOption_eq_some.mp (by decide +kernel)
  have hrefused : (fault? (doubled.eval .ok)).isSome := by decide +kernel
  obtain ⟨fault, hfault⟩ := Option.isSome_iff_exists.mp hrefused
  rw [fault?_eq_some] at hfault
  have hparts : ∀ x ∈ (e .one).parts, x.exact ≤ Number.largest := by decide +kernel
  obtain ⟨hle, hraise, -, hanswered⟩ := eval_from_below (hgrowing .one)
  obtain ⟨-, -, hoverflow, -⟩ := eval_from_below hdoubled
  exact ⟨hgrowing _, hraised, hdoubled, by decide +kernel, hone, hle _ hone, htwo, hraise _ _ hraised htwo,
    ⟨fault, hfault, hoverflow _ hfault⟩, hparts, hanswered hparts⟩

end Expr

end EmissionLedger
