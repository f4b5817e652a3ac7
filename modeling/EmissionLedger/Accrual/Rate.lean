import EmissionLedger.Number.Arithmetic

/-!
Rates: what a stretch of seconds is worth to an index. The share of the day or year is cut off
before it is multiplied, so a rate never pays more than its exact value.
-/

namespace EmissionLedger

def secondsPerDay : Nat := 86400

def secondsPerYear : Nat := 31536000

/-- Where the growth of an index comes from. -/
inductive Rate where
  /-- One unit a second. -/
  | perSecond
  /-- An emission spread evenly over the day. -/
  | perDay (emission : Number)
  /-- A fraction earned over the year. -/
  | perYear (fraction : Number)

namespace Rate

/-- A daily emission. -/
def daily (emission : Nat) : Result Rate := do
  let amount ← Number.ofNatural emission
  return perDay amount

/-- An annual rate in basis points. -/
def annual (basisPoints : Nat) : Result Rate := do
  let fraction ← Number.ofBasisPoints basisPoints
  return perYear fraction

/-- The worth of a stretch of seconds. -/
def worth (rate : Rate) (seconds : Nat) : Result Number :=
  match rate with
  | perSecond => Number.ofNatural seconds
  | perDay emission => do
    let share ← Number.ofRatio seconds secondsPerDay
    emission.mul share
  | perYear fraction => do
    let share ← Number.ofRatio seconds secondsPerYear
    share.mul fraction

end Rate

end EmissionLedger
