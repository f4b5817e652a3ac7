import EmissionLedger.Accrual.Index
import EmissionLedger.Accrual.Share
import EmissionLedger.Number.Operand
import EmissionLedger.Slashing

/-!
Accrual on arguments that have not been looked at. An argument is asked to be a natural number only
where its value is needed: no time, no shares or an index that stands still need none.
-/

namespace EmissionLedger

namespace Rate

/-- A daily emission given as data. -/
def dailyOfJson (emission : Json) : Result Rate := do
  let amount ← Number.ofNaturalJson emission
  return perDay amount

/-- An annual rate in basis points given as data. -/
def annualOfJson (basisPoints : Json) : Result Rate := do
  let fraction ← Number.ofBasisPointsJson basisPoints
  return perYear fraction

/-- The worth of a stretch of seconds given as data. -/
def worthOfJson (rate : Rate) (seconds : Json) : Result Number := do
  let n ← Number.naturalOfJson seconds
  rate.worth n

end Rate

def sharedIndexDeltaOfJson (elapsed shares : Json) (rate : Rate) : Result Number :=
  if elapsed.isZero || shares.isZero then .ok .zero
  else do
    let worth ← rate.worthOfJson elapsed
    let divisor ← Number.ofNaturalJson shares
    worth.div divisor

def advanceSharedIndexOfJson (what : String) (index : Number) (last now : Int) (shares : Json)
    (rate : Rate) : Result IndexAdvance := do
  let elapsed ← elapsedSeconds what last now
  let delta ← sharedIndexDeltaOfJson (.int elapsed) shares rate
  let index ← index.add delta
  return { index, lastUpdated := now, elapsed, delta }

def advanceRateIndexOfJson (index : Number) (elapsed shares : Json) (rate : Rate) : Result Number :=
  if elapsed.isZero || shares.isZero then .ok index
  else do
    let worth ← rate.worthOfJson elapsed
    index.add worth

/-- Share accrual where the share is data. A share that is no natural number is refused once the index
has moved. -/
def accrueShareOfJson (what : String) (share : Json) (lastSeen current : Number) :
    Result ShareAccrual :=
  match Number.naturalOfJson share with
  | .ok n => accrueShare what n lastSeen current
  | .error fault => do
    let idle ← accrueShare what 0 lastSeen current
    if idle.lastSeen = lastSeen then return idle else .error fault

/-- The part of a stake that is taken out, of integers. -/
def slashRatioOfInt (balance decrease : Int) : Result Number :=
  if balance = 0 ∨ decrease = 0 then .ok .zero
  else if decrease = balance then .ok .one
  else Number.ofRatioJson (.int decrease) (.int balance)

/-- The isoRAY that is lost, of integers. -/
def slashAmountOfInt (balance decrease isoRay : Int) : Result Nat := do
  let ratio ← slashRatioOfInt balance decrease
  let whole ← Number.ofNaturalJson (.int isoRay)
  roundedLoss ratio whole

end EmissionLedger
