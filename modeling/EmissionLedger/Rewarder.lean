import EmissionLedger.Emission
import EmissionLedger.Escrow

/-!
Paying a pool's emission to its positions. A rewarder watches two totals that only grow, the RAY
emitted to the pool and the time units earned by its position; over the time between two looks the
position gets the pool's RAY a second for each time unit. The total of all time units is not needed.

Positions of constant-product pools earn their time units in the escrow; those of
concentrated-liquidity pools earn them in the reward slot of their pool's time-unit mint.
-/

namespace EmissionLedger

namespace PersonalRewarderState

/-- A state and the RAY newly staged in it. -/
structure Staged where
  state : PersonalRewarderState
  collected : Nat

/-- Refuses totals and times before those seen last. -/
def checkProgress (state : PersonalRewarderState) (now emitted : Int) (units : Number) :
    Result Unit :=
  if emitted < state.lastSeenTotalEmittedRay then
    .error (.indexRegression (.emitted emitted state.lastSeenTotalEmittedRay))
  else if now < state.lastUpdatedTs then
    .error (.timestampRegression "rewarder" now state.lastUpdatedTs)
  else if units < state.lastSeenTimeUnits then
    .error (.indexRegression (.timeUnits units state.lastSeenTimeUnits))
  else .ok ()

/-- The whole RAY for `units` time units when `emitted` RAY went to the pool in `seconds`. -/
def reward (emitted seconds : Nat) (units : Number) : Result Nat := do
  let rate ← Number.ofRatio emitted seconds
  let exact ← rate.mul units
  exact.wholePart 64

/-- Stages the RAY earned since the last look. When no time has passed nothing is staged and nothing
counts as seen. -/
def syncAndStage (state : PersonalRewarderState) (now emitted : Int) (units : Number) :
    Result Staged := do
  state.checkProgress now emitted units
  let seconds := (now - state.lastUpdatedTs).toNat
  if seconds = 0 then return { state, collected := 0 }
  else
    let newUnits ← units.sub state.lastSeenTimeUnits
    let collected ← reward (emitted - state.lastSeenTotalEmittedRay).toNat seconds newUnits
    let staged ← Counter.add "staged_ray" state.stagedRay collected
    return {
      state := {
        lastSeenTimeUnits := units, lastSeenTotalEmittedRay := emitted.toNat
        lastUpdatedTs := now.toNat, stagedRay := staged }
      collected }

/-- Pays out the staged RAY. -/
def collect (state : PersonalRewarderState) : PersonalRewarderState × Nat :=
  ({ state with stagedRay := 0 }, state.stagedRay)

/-- A new state, for which the past does not count. -/
def start (now : Int) (gauge : Gauge) (units : Number) : Result PersonalRewarderState :=
  if now < 0 then
    .error (.rejected .personalRewarderState [⟨[.field "last_updated_ts"], .belowRange⟩])
  else if (maxU64 : Int) < now then
    .error (.rejected .personalRewarderState [⟨[.field "last_updated_ts"], .aboveRange⟩])
  else .ok {
    lastSeenTimeUnits := units, lastSeenTotalEmittedRay := gauge.totalRayEmitted
    lastUpdatedTs := now.toNat, stagedRay := 0 }

end PersonalRewarderState

namespace ClPositionSnapshot

/-- The place of the reward slot whose mint is `mint`. -/
def findSlot (snapshot : ClPositionSnapshot) (mint : String) : Result Nat :=
  match snapshot.rewardInfos.findIdx? fun info => info.mint.text == mint with
  | some i => .ok i
  | none => .error (.noRewardSlot snapshot.position mint)

/-- The time units earned in the reward slot whose mint is `mint`. -/
def earnedTimeUnits (snapshot : ClPositionSnapshot) (mint : String) : Result Number :=
  match snapshot.rewardInfos.find? fun info => info.mint.text == mint with
  | some info => Number.ofNatural info.rewardAmountOwed
  | none => .error (.noRewardSlot snapshot.position mint)

end ClPositionSnapshot

namespace Rewarder

/-- The records after an operation on the rewarder of a position in the escrow. -/
structure CpOutcome where
  config : GaugeConfig
  gauge : Gauge
  timeTracker : TimeTracker
  position : PersonalPosition
  rewarder : PersonalRewarderCp
  collected : Nat

/-- The records after an operation on the rewarder of a concentrated-liquidity position. -/
structure ClOutcome where
  config : GaugeConfig
  gauge : Gauge
  rewarder : PersonalRewarderCl
  collected : Nat

/-! ### Constant-product pools -/

/-- Refuses a tracker of another pool than the gauge's. -/
def checkCpPool (gauge : Gauge) (tracker : TimeTracker) : Result Unit :=
  if gauge.poolId = tracker.poolId then .ok ()
  else .error (.mismatch (.gaugeTracker gauge.poolId tracker.poolId))

/-- Refuses a rewarder of another owner or gauge. -/
def checkCpLinks (gauge : Gauge) (position : PersonalPosition) (rewarder : PersonalRewarderCp) :
    Result Unit :=
  if rewarder.owner ≠ position.owner then
    .error (.mismatch (.rewarderOwner rewarder.owner position.owner))
  else if rewarder.poolGauge ≠ gauge.poolId then
    .error (.mismatch (.rewarderGauge rewarder.poolGauge gauge.poolId))
  else .ok ()

/-- The rewarder of a position, which earns from `now` on. -/
def initCp (now : Int) (config : GaugeConfig) (gauge : Gauge) (tracker : TimeTracker)
    (position : PersonalPosition) : Result CpOutcome := do
  checkCpPool gauge tracker
  let escrow ← Escrow.updatePersonal now tracker position
  let synced ← Emission.syncPoolIndex now config gauge
  let state ← PersonalRewarderState.start now synced.gauge escrow.position.earnedTimeUnits
  return {
    config := synced.config, gauge := synced.gauge, timeTracker := escrow.timeTracker
    position := escrow.position
    rewarder := {
      owner := escrow.position.owner, poolGauge := synced.gauge.poolId, rewarder := state }
    collected := 0 }

/-- Stages the RAY that a position has earned up to `now`. -/
def accrueCp (now : Int) (config : GaugeConfig) (gauge : Gauge) (tracker : TimeTracker)
    (position : PersonalPosition) (rewarder : PersonalRewarderCp) : Result CpOutcome := do
  checkCpPool gauge tracker
  checkCpLinks gauge position rewarder
  let escrow ← Escrow.updatePersonal now tracker position
  let synced ← Emission.syncPoolIndex now config gauge
  let staged ← rewarder.rewarder.syncAndStage now synced.gauge.totalRayEmitted
    escrow.position.earnedTimeUnits
  return {
    config := synced.config, gauge := synced.gauge, timeTracker := escrow.timeTracker
    position := escrow.position
    rewarder := { rewarder with rewarder := staged.state }
    collected := staged.collected }

/-- Pays out the staged RAY. -/
def collectCp (rewarder : PersonalRewarderCp) : PersonalRewarderCp × Nat :=
  let (state, amount) := rewarder.rewarder.collect
  ({ rewarder with rewarder := state }, amount)

/-! ### Concentrated-liquidity pools -/

/-- Refuses a position in another pool than the gauge's. -/
def checkClPool (gauge : Gauge) (snapshot : ClPositionSnapshot) : Result Unit :=
  if gauge.poolId = snapshot.pool then .ok ()
  else .error (.mismatch (.gaugePool gauge.poolId snapshot.pool))

/-- Refuses a rewarder of another position or gauge. -/
def checkClLinks (gauge : Gauge) (snapshot : ClPositionSnapshot) (rewarder : PersonalRewarderCl) :
    Result Unit :=
  if rewarder.poolPosition ≠ snapshot.position then
    .error (.mismatch (.rewarderPosition rewarder.poolPosition snapshot.position))
  else if rewarder.poolGauge ≠ gauge.poolId then
    .error (.mismatch (.rewarderGauge rewarder.poolGauge gauge.poolId))
  else .ok ()

/-- The rewarder of a position, which earns from `now` on. -/
def initCl (now : Int) (config : GaugeConfig) (gauge : Gauge) (snapshot : ClPositionSnapshot)
    (mint : String) : Result ClOutcome := do
  checkClPool gauge snapshot
  let synced ← Emission.syncPoolIndex now config gauge
  let units ← snapshot.earnedTimeUnits mint
  let state ← PersonalRewarderState.start now synced.gauge units
  return {
    config := synced.config, gauge := synced.gauge
    rewarder := {
      poolPosition := snapshot.position, poolGauge := synced.gauge.poolId, pool := snapshot.pool
      rewarder := state }
    collected := 0 }

/-- Stages the RAY that a position has earned up to `now`. -/
def accrueCl (now : Int) (config : GaugeConfig) (gauge : Gauge) (snapshot : ClPositionSnapshot)
    (mint : String) (rewarder : PersonalRewarderCl) : Result ClOutcome := do
  checkClPool gauge snapshot
  checkClLinks gauge snapshot rewarder
  let synced ← Emission.syncPoolIndex now config gauge
  let units ← snapshot.earnedTimeUnits mint
  let staged ← rewarder.rewarder.syncAndStage now synced.gauge.totalRayEmitted units
  return {
    config := synced.config, gauge := synced.gauge
    rewarder := { rewarder with rewarder := staged.state }
    collected := staged.collected }

/-- Pays out the staged RAY. -/
def collectCl (rewarder : PersonalRewarderCl) : PersonalRewarderCl × Nat :=
  let (state, amount) := rewarder.rewarder.collect
  ({ rewarder with rewarder := state }, amount)

end Rewarder

end EmissionLedger
