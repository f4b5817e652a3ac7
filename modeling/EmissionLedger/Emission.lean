import EmissionLedger.Accrual.Index
import EmissionLedger.Accrual.Share
import EmissionLedger.Votes

/-!
The emission of RAY to pools by vote. The config's index is the RAY that one vote has earned; a pool's
gauge is a share account over it with the votes for the pool. Votes change on three levels at once,
after config and gauge were moved on to the present, and stand against votes that the owner's reactor
has locked.
-/

namespace EmissionLedger

namespace GaugeConfig

/-- Moves the index on to `now`. -/
def advance (config : GaugeConfig) (now : Int) : Result GaugeConfig := do
  let emission ← Rate.daily config.rayEmissionPerDay
  let step ← advanceSharedIndex "gauge config" config.index config.lastUpdatedTs now
    config.totalVotes emission
  if step.elapsed = 0 then return config
  else return { config with index := step.index, lastUpdatedTs := now.toNat }

end GaugeConfig

namespace Gauge

/-- Credits the pool with the whole RAY earned up to an index. -/
def settle (gauge : Gauge) (index : Number) : Result Gauge := do
  let accrual ← accrueShare "pool gauge" gauge.totalVotes gauge.lastSeenGlobalIndex index
  if accrual.lastSeen = gauge.lastSeenGlobalIndex then return gauge
  else
    let units ← accrual.units
    let emitted ← Counter.add "total_ray_emitted" gauge.totalRayEmitted units
    return { gauge with lastSeenGlobalIndex := accrual.lastSeen, totalRayEmitted := emitted }

end Gauge

namespace Emission

/-- What a new gauge config emits. -/
structure Settings where
  rayEmissionPerDay : Nat

/-- A config and a gauge that were moved on together. -/
structure Synced where
  config : GaugeConfig
  gauge : Gauge

/-- The records after a change of votes. -/
structure VoteChange where
  config : GaugeConfig
  gauge : Gauge
  personalGauge : PersonalGauge
  reactor : Reactor

/-- A config without votes. -/
def initGaugeConfig (settings : Settings) (now : Int) : Result GaugeConfig := do
  let start ← requireU64 "now" now
  return {
    totalVotes := 0, rayEmissionPerDay := settings.rayEmissionPerDay, index := .zero
    lastUpdatedTs := start }

/-- The gauge of a pool that earns from `now` on. -/
def initPoolGauge (now : Int) (config : GaugeConfig) (poolId : Address) : Result Synced := do
  let config ← config.advance now
  return {
    config
    gauge := { poolId, totalVotes := 0, lastSeenGlobalIndex := config.index, totalRayEmitted := 0 } }

/-- An owner's votes for a pool, none yet. -/
def initPersonalGauge (owner : Address) (gauge : Gauge) : PersonalGauge :=
  { owner, poolGauge := gauge.poolId, votes := 0 }

/-- Moves the config on to `now`, then the gauge on to the config's index. -/
def syncPoolIndex (now : Int) (config : GaugeConfig) (gauge : Gauge) : Result Synced := do
  let config ← config.advance now
  let gauge ← gauge.settle config.index
  return { config, gauge }

/-- Refuses records of different pools or owners. -/
def checkLinks (gauge : Gauge) (personal : PersonalGauge) (reactor : Reactor) : Result Unit :=
  if personal.poolGauge ≠ gauge.poolId then
    .error (.mismatch (.personalGauge personal.owner personal.poolGauge gauge.poolId))
  else if reactor.owner ≠ personal.owner then
    .error (.mismatch (.voter reactor.owner personal.owner))
  else .ok ()

/-- Refuses to pledge more votes than are free, or to take back more than were pledged. -/
def checkPledge (personal : PersonalGauge) (reactor : Reactor) (amount : Int) : Result Unit :=
  if 0 < amount ∧ reactor.freeVotes < amount then
    .error (.shortage .rayToPledge amount reactor.freeVotes none)
  else if amount < 0 ∧ (personal.votes : Int) < -amount then
    .error (.shortage .rayToUnpledge (-amount) personal.votes none)
  else .ok ()

/-- Locks or frees the reactor's votes. -/
def moveLock (reactor : Reactor) (amount : Int) : Result Reactor :=
  if 0 < amount then reactor.lockVotes amount
  else if amount < 0 then reactor.unlockVotes (-amount)
  else .ok reactor

/-- Changes an owner's votes for a pool by a signed amount. -/
def changeVotes (now : Int) (config : GaugeConfig) (gauge : Gauge) (personal : PersonalGauge)
    (amount : Int) (reactor : Reactor) : Result VoteChange := do
  let amount ← requireI64 "amount" amount
  checkLinks gauge personal reactor
  checkPledge personal reactor amount
  let reactor ← moveLock reactor amount
  let synced ← syncPoolIndex now config gauge
  let globalVotes ← Counter.change "total_votes" synced.config.totalVotes amount
  let poolVotes ← Counter.change "pool votes" synced.gauge.totalVotes amount
  let votes ← Counter.change "personal votes" personal.votes amount
  return {
    config := { synced.config with totalVotes := globalVotes }
    gauge := { synced.gauge with totalVotes := poolVotes }
    personalGauge := { personal with votes }
    reactor }

end Emission

end EmissionLedger
