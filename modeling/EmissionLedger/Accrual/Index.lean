import EmissionLedger.Accrual.Rate
import EmissionLedger.Counter

/-!
Indices: how much one share has earned since the start. An index grows by the worth of the time that
has passed, divided among the shares, and stands still while there are none.
-/

namespace EmissionLedger

/-- What an index that is divided among `shares` gains over `elapsed` seconds. -/
def sharedIndexDelta (elapsed shares : Nat) (rate : Rate) : Result Number :=
  if elapsed = 0 ∨ shares = 0 then .ok .zero
  else do
    let worth ← rate.worth elapsed
    let divisor ← Number.ofNatural shares
    worth.div divisor

/-- An index moved on to a new time. -/
structure IndexAdvance where
  index : Number
  lastUpdated : Int
  elapsed : Nat
  delta : Number

/-- Moves an index that is divided among `shares` on to `now`. -/
def advanceSharedIndex (what : String) (index : Number) (last now : Int) (shares : Nat)
    (rate : Rate) : Result IndexAdvance := do
  let elapsed ← elapsedSeconds what last now
  let delta ← sharedIndexDelta elapsed shares rate
  let index ← index.add delta
  return { index, lastUpdated := now, elapsed, delta }

/-- Moves an index on whose rate every share earns in full. -/
def advanceRateIndex (index : Number) (elapsed shares : Nat) (rate : Rate) : Result Number :=
  if elapsed = 0 ∨ shares = 0 then .ok index
  else do
    let worth ← rate.worth elapsed
    index.add worth

end EmissionLedger
