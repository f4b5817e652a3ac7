import EmissionLedger.Fault

/-!
Checked arithmetic of fixed-point numbers. Sums and differences are exact, a product and a quotient
are cut off at the twelfth decimal place, and a result outside 256 bits is a fault, never a wrapped
or clamped number.
-/

namespace EmissionLedger.Number

/-- The number of `raw` units. -/
def ofRaw (raw : Int) : Result Number :=
  if raw < 0 then .error (.number (.negative raw))
  else if h : raw.toNat ≤ maxRaw then .ok ⟨raw.toNat, h⟩
  else .error (.number (.tooLarge raw))

/-- A natural number. -/
def ofNatural (n : Nat) : Result Number :=
  if h : n * scale ≤ maxRaw then .ok ⟨n * scale, h⟩ else .error (.number (.tooLarge (n * scale : Nat)))

def add (a b : Number) : Result Number :=
  if h : a.raw + b.raw ≤ maxRaw then .ok ⟨a.raw + b.raw, h⟩ else .error (.number (.addOverflow a b))

def sub (a b : Number) : Result Number :=
  if a.raw < b.raw then .error (.number (.subUnderflow a b))
  else .ok ⟨a.raw - b.raw, Nat.le_trans (Nat.sub_le ..) a.raw_le⟩

/-- The product, cut off: the exact raw product is divided by the scale once. -/
def mul (a b : Number) : Result Number :=
  if h : a.raw * b.raw / scale ≤ maxRaw then .ok ⟨a.raw * b.raw / scale, h⟩
  else .error (.number (.mulOverflow a b))

/-- The quotient, cut off. -/
def div (a b : Number) : Result Number :=
  if b.raw = 0 then .error (.number (.divByZero a))
  else if h : a.raw * scale / b.raw ≤ maxRaw then .ok ⟨a.raw * scale / b.raw, h⟩
  else .error (.number (.divOverflow a b))

/-- The quotient of two natural numbers, cut off. -/
def ofRatio (numerator denominator : Nat) : Result Number := do
  let n ← ofNatural numerator
  let d ← ofNatural denominator
  n.div d

/-- How many basis points make one. -/
def basisPoints : Nat := 10000

/-- Basis points as a fraction of one. -/
def ofBasisPoints (n : Nat) : Result Number := ofRatio n basisPoints

/-- The smallest whole number not below. -/
def ceil (a : Number) : Result Number :=
  if a.raw % scale = 0 then .ok a
  else if h : a.raw - a.raw % scale + scale ≤ maxRaw then .ok ⟨a.raw - a.raw % scale + scale, h⟩
  else .error (.number (.ceilOverflow a))

/-- The whole part as an unsigned integer of `bits` bits. Every whole part has fewer than 256 bits. -/
def wholePart (a : Number) (bits : Nat) : Result Nat :=
  if 256 ≤ bits ∨ a.raw / scale < Nat.pow 2 bits then .ok (a.raw / scale)
  else .error (.number (.tooWide a bits))

end EmissionLedger.Number
