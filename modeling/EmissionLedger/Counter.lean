import EmissionLedger.Fault
import EmissionLedger.Json.Basic

/-!
Counters of fixed width and clocks. A counter holds a natural number of 64 bits, a rate in basis
points one of 16; an addition past the width or a subtraction below zero is a fault. Time may stand
still but not run backwards.
-/

namespace EmissionLedger

def maxU16 : Nat := Nat.pow 2 16 - 1

def maxU64 : Nat := Nat.pow 2 64 - 1

def minI64 : Int := -Nat.pow 2 63

def maxI64 : Int := Nat.pow 2 63 - 1

/-- A sum of at most `limit`. -/
def checkedAdd (what : String) (a b limit : Int) : Result Int :=
  if limit < a + b then .error (.counterOverflow what a b limit) else .ok (a + b)

/-- A difference of at least zero. -/
def checkedSub (what : String) (a b : Int) : Result Int :=
  if a < b then .error (.counterUnderflow what a b) else .ok (a - b)

namespace Counter

/-- Adds to a 64-bit counter. -/
def add (what : String) (a b : Nat) : Result Nat :=
  if a + b ≤ maxU64 then .ok (a + b) else .error (.counterOverflow what a b maxU64)

/-- Takes from a counter. -/
def sub (what : String) (a b : Nat) : Result Nat :=
  if a < b then .error (.counterUnderflow what a b) else .ok (a - b)

/-- Adds a signed change to a 64-bit counter. -/
def change (what : String) (a : Nat) (delta : Int) : Result Nat :=
  if 0 ≤ delta then add what a delta.toNat else sub what a (-delta).toNat

end Counter

/-- The time that has passed since `last`, which lies not after `now`. -/
def elapsedSeconds (what : String) (last now : Int) : Result Nat :=
  if now < last then .error (.timestampRegression what now last) else .ok (now - last).toNat

/-- An argument that has to be an unsigned 64-bit integer. -/
def requireU64 (name : String) (n : Int) : Result Nat :=
  if n < 0 ∨ (maxU64 : Int) < n then .error (.argument (.outOfRange name 0 maxU64 n)) else .ok n.toNat

/-- An argument that has to be a signed 64-bit integer. -/
def requireI64 (name : String) (n : Int) : Result Int :=
  if n < minI64 ∨ maxI64 < n then .error (.argument (.outOfRange name minI64 maxI64 n)) else .ok n

/-- An argument that has to be an integer; a truth value is none. -/
def requireInteger (name : String) : Json → Result Int
  | .int n => .ok n
  | v => .error (.argument (.notInteger name v.kindName))

end EmissionLedger
