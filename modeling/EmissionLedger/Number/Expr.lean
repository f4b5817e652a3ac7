import EmissionLedger.Number.Arithmetic

/-!
Expressions over fixed-point numbers. The operands of a node are evaluated from left to right before
the node, and the first fault is the outcome.
-/

namespace EmissionLedger

/-- Operations on one number. -/
inductive UnaryOp where
  | floor
  | ceil

/-- Operations on two numbers. -/
inductive BinaryOp where
  | add
  | sub
  | mul
  | div
  | min
  | max

def UnaryOp.apply : UnaryOp → Number → Result Number
  | floor, a => .ok a.floor
  | ceil, a => a.ceil

def BinaryOp.apply : BinaryOp → Number → Number → Result Number
  | add, a, b => a.add b
  | sub, a, b => a.sub b
  | mul, a, b => a.mul b
  | div, a, b => a.div b
  | min, a, b => .ok (a.min b)
  | max, a, b => .ok (a.max b)

/-- An expression with leaves of type `α`. -/
inductive Expr (α : Type) where
  | leaf (a : α)
  | unary (op : UnaryOp) (x : Expr α)
  | binary (op : BinaryOp) (x y : Expr α)

namespace Expr

/-- The value of an expression, given the values of its leaves. -/
def eval {α : Type} (value : α → Result Number) : Expr α → Result Number
  | leaf a => value a
  | unary op x => do
    let a ← eval value x
    op.apply a
  | binary op x y => do
    let a ← eval value x
    let b ← eval value y
    op.apply a b

end Expr

end EmissionLedger
