import EmissionLedger.Number.Expr
import EmissionLedger.Number.Operand

/-!
Arithmetic on operands that have not been looked at: an operand may be plain data in the place of a
number, and the leaves of an expression name how their numbers are made.
-/

namespace EmissionLedger

/-- An operand as it comes in. -/
inductive Operand where
  | number (a : Number)
  | plain (v : Json)

namespace Operand

/-- What messages call the kind of an operand. -/
def kindName : Operand → String
  | number _ => "Number"
  | plain v => v.kindName

/-- Whether the operand is plain data that can be joined and repeated. -/
def isSequence : Operand → Bool
  | plain (.str _) | plain (.arr _) => true
  | _ => false

/-- Why two operands that are not both numbers are refused. -/
def misfit (op : BinaryOp) (x y : Operand) : Fault :=
  let symbol := match op with
    | .add => "+"
    | .sub => "-"
    | .mul => "*"
    | .div => "/"
    | .min => "min"
    | .max => "max"
  .argument <| match op, x.isSequence, y.isSequence with
    | .add, true, _ => .unjoinable x.kindName y.kindName
    | .mul, true, _ => .unrepeatable y.kindName
    | .mul, _, true => .unrepeatable x.kindName
    | _, _, _ => .operands symbol x.kindName y.kindName

/-- An operation on two operands. -/
def apply (op : BinaryOp) : Operand → Operand → Result Number
  | number a, number b => op.apply a b
  | x, y => .error (misfit op x y)

/-- Whether two operands are equal; plain data equals no number. -/
def equal : Operand → Operand → Bool
  | number a, number b => decide (a = b)
  | _, _ => false

end Operand

/-- The ways to compare the order of two numbers. -/
inductive Comparison where
  | lt
  | le
  | gt
  | ge

namespace Comparison

def symbol : Comparison → String
  | lt => "<"
  | le => "<="
  | gt => ">"
  | ge => ">="

def holds : Comparison → Number → Number → Bool
  | lt, a, b => decide (a < b)
  | le, a, b => decide (a ≤ b)
  | gt, a, b => decide (b < a)
  | ge, a, b => decide (b ≤ a)

/-- Compares two operands; plain data has no place in the order of numbers. -/
def apply (c : Comparison) : Operand → Operand → Result Bool
  | .number a, .number b => .ok (c.holds a b)
  | x, y => .error (.argument (.unordered c.symbol x.kindName y.kindName))

end Comparison

/-- How the number at a leaf of an expression is made. -/
inductive Leaf where
  | raw (v : Json)
  | natural (v : Json)
  | ratio (numerator denominator : Json)
  | basisPoints (v : Json)
  | decimal (v : Json)

def Leaf.value : Leaf → Result Number
  | raw v => Number.ofRawJson v
  | natural v => Number.ofNaturalJson v
  | ratio n d => Number.ofRatioJson n d
  | basisPoints v => Number.ofBasisPointsJson v
  | decimal v => Number.ofDecimalJson v

/-- The whole part of a number in a width that may be given below zero. -/
def Number.wholePartOfInt (a : Number) (bits : Int) : Result Nat :=
  if bits < 0 then .error (.argument .negativeWidth) else a.wholePart bits.toNat

/-- Numbers in ascending order. -/
def Number.sort (as : List Number) : List Number := as.mergeSort fun a b => decide (a ≤ b)

end EmissionLedger
