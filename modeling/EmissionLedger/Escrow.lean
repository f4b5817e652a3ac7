import EmissionLedger.Accrual.Index
import EmissionLedger.Accrual.Share
import EmissionLedger.Record.Basic

/-!
The escrow of a pool. Every deposited token earns time units, one for each second divided among all
tokens. Whoever changes a deposit first moves the tracker on to the present, under the old total, and
settles the position, under the old amount; only then do the amounts change.
-/

namespace EmissionLedger

namespace TimeTracker

/-- Moves the tracker on to `now`. -/
def advance (tracker : TimeTracker) (now : Int) : Result TimeTracker := do
  let step ← advanceSharedIndex "time tracker" tracker.index tracker.lastSeenTs now
    tracker.totalLpDeposited .perSecond
  return { tracker with index := step.index, lastSeenTs := now.toNat }

end TimeTracker

namespace PersonalPosition

/-- Refuses a tracker that the position does not belong to. -/
def checkTracker (position : PersonalPosition) (tracker : TimeTracker) : Result Unit :=
  if position.timeTracker = tracker.poolId then .ok ()
  else .error (.mismatch (.position position.owner position.timeTracker tracker.poolId))

/-- Credits the position with what it has earned up to the tracker's index. -/
def settle (position : PersonalPosition) (tracker : TimeTracker) : Result PersonalPosition := do
  position.checkTracker tracker
  let accrual ← accrueShare "personal position" position.amount position.lastSeenIndex tracker.index
  if accrual.accrued = .zero ∧ accrual.lastSeen = position.lastSeenIndex then return position
  else
    let earned ← position.earnedTimeUnits.add accrual.accrued
    return { position with lastSeenIndex := accrual.lastSeen, earnedTimeUnits := earned }

end PersonalPosition

namespace Escrow

/-- The records after an operation, and the tokens to move: into the escrow by a deposit, to the
owner by a withdrawal. -/
structure Outcome where
  timeTracker : TimeTracker
  position : PersonalPosition
  transferAmount : Nat

/-- The tracker of a new pool. -/
def initTimeTracker (now : Int) (poolId escrowAccount : Address) : Result TimeTracker := do
  let start ← requireU64 "now" now
  return { poolId, escrowAccount, index := .zero, totalLpDeposited := 0, lastSeenTs := start }

/-- An empty position that earns from `now` on. -/
def initPersonalPosition (now : Int) (tracker : TimeTracker) (owner : Address) : Result Outcome := do
  let tracker ← tracker.advance now
  return {
    timeTracker := tracker
    position := {
      owner, timeTracker := tracker.poolId, amount := 0, lastSeenIndex := tracker.index
      earnedTimeUnits := .zero }
    transferAmount := 0 }

/-- Moves the tracker on to `now` and settles the position. -/
def sync (now : Int) (tracker : TimeTracker) (position : PersonalPosition) :
    Result (TimeTracker × PersonalPosition) := do
  position.checkTracker tracker
  let tracker ← tracker.advance now
  let position ← position.settle tracker
  return (tracker, position)

/-- Puts tokens into the escrow. -/
def deposit (now : Int) (tracker : TimeTracker) (position : PersonalPosition) (amount : Int) :
    Result Outcome := do
  let amount ← requireU64 "amount" amount
  let (tracker, position) ← sync now tracker position
  let own ← Counter.add "position amount" position.amount amount
  let total ← Counter.add "total_lp_deposited" tracker.totalLpDeposited amount
  return {
    timeTracker := { tracker with totalLpDeposited := total }
    position := { position with amount := own }
    transferAmount := amount }

/-- Takes tokens out of the escrow. -/
def withdraw (now : Int) (tracker : TimeTracker) (position : PersonalPosition) (amount : Int) :
    Result Outcome := do
  let amount ← requireU64 "amount" amount
  let (tracker, position) ← sync now tracker position
  let own ← Counter.sub "position amount" position.amount amount
  let total ← Counter.sub "total_lp_deposited" tracker.totalLpDeposited amount
  return {
    timeTracker := { tracker with totalLpDeposited := total }
    position := { position with amount := own }
    transferAmount := amount }

/-- Settles a position without moving tokens. -/
def updatePersonal (now : Int) (tracker : TimeTracker) (position : PersonalPosition) :
    Result Outcome := do
  let (tracker, position) ← sync now tracker position
  return { timeTracker := tracker, position, transferAmount := 0 }

end Escrow

end EmissionLedger
