import EmissionLedger.Accrual.Index
import EmissionLedger.Accrual.Share
import EmissionLedger.Slashing
import EmissionLedger.Record.Basic

/-!
Staking RAY. The config keeps two indices over the staked RAY, one for RAY rewards that all stakers
share and one for isoRAY that every staker earns at the same rate; both are moved on to the present
before the total stake changes. A reactor is a share account over both.
-/

namespace EmissionLedger

namespace ReactorConfig

/-- Moves both indices on to `now`. -/
def advance (config : ReactorConfig) (now : Int) : Result ReactorConfig := do
  let elapsed ← elapsedSeconds "reactor rewards" config.rewardsEmittedUntil now
  if elapsed = 0 then return config
  else
    let total := config.totalRayDeposited
    let emission ← Rate.daily config.rayRewardDailyEmission
    let delta ← sharedIndexDelta elapsed total emission
    let rewardIndex ← config.rayRewardIndex.add delta
    let apr ← Rate.annual config.isoRayAprBps
    let isoRayIndex ← advanceRateIndex config.isoRayIndex elapsed total apr
    return {
      config with
      rayRewardIndex := rewardIndex, isoRayIndex, rewardsEmittedUntil := now.toNat }

end ReactorConfig

namespace Reactor

/-- Credits the isoRAY earned up to an index. -/
def accrueIsoRay (r : Reactor) (index : Number) : Result Reactor := do
  let accrual ← accrueShare "reactor isoRAY" r.ray r.lastSeenIndexIsoRay index
  let units ← accrual.units
  let isoRay ← Counter.add "iso_ray" r.isoRay units
  return { r with isoRay, lastSeenIndexIsoRay := accrual.lastSeen }

/-- Credits the RAY rewards earned up to an index. -/
def accrueRayRewards (r : Reactor) (index : Number) : Result Reactor := do
  let rewards := r.rayStakeRewards
  let accrual ← accrueShare "reactor RAY rewards" r.ray rewards.lastSeenIndex index
  if accrual.lastSeen = rewards.lastSeenIndex then return r
  else
    let units ← accrual.units
    let uncollected ← Counter.add "uncollected_ray_reward" rewards.uncollectedRayReward units
    return {
      r with
      rayStakeRewards := {
        lastSeenIndex := accrual.lastSeen, uncollectedRayReward := uncollected } }

/-- Credits all that was earned up to the config's indices. -/
def settle (r : Reactor) (config : ReactorConfig) : Result Reactor := do
  let r ← r.accrueIsoRay config.isoRayIndex
  r.accrueRayRewards config.rayRewardIndex

end Reactor

namespace Staking

/-- What a new reactor config pays. -/
structure Settings where
  rayRewardDailyEmission : Nat
  isoRayAprBps : Nat

/-- The records after an operation, the RAY to move and the isoRAY lost. -/
structure Outcome where
  config : ReactorConfig
  reactor : Reactor
  transferAmount : Nat
  isoRaySlashed : Nat
deriving DecidableEq

/-- A config without stake. -/
def initReactorConfig (settings : Settings) (now : Int) : Result ReactorConfig := do
  let start ← requireU64 "now" now
  return {
    totalRayDeposited := 0, rayRewardDailyEmission := settings.rayRewardDailyEmission
    rayRewardIndex := .zero, isoRayAprBps := settings.isoRayAprBps, isoRayIndex := .zero
    rewardsEmittedUntil := start }

/-- An empty reactor. Its indices are zero: without stake the first settling earns nothing. -/
def initReactor (owner : Address) : Reactor :=
  { owner, ray := 0, isoRay := 0, lockedVotes := 0, lastSeenIndexIsoRay := .zero
    rayStakeRewards := { lastSeenIndex := .zero, uncollectedRayReward := 0 } }

/-- Moves the config on to `now` and settles the reactor. -/
def settleAt (now : Int) (config : ReactorConfig) (r : Reactor) :
    Result (ReactorConfig × Reactor) := do
  let config ← config.advance now
  let r ← r.settle config
  return (config, r)

/-- Puts RAY into a reactor. -/
def depositRay (now : Int) (config : ReactorConfig) (r : Reactor) (amount : Int) :
    Result Outcome := do
  let amount ← requireU64 "amount" amount
  let (config, r) ← settleAt now config r
  let ray ← Counter.add "ray" r.ray amount
  let total ← Counter.add "total_ray_deposited" config.totalRayDeposited amount
  return {
    config := { config with totalRayDeposited := total }
    reactor := { r with ray }
    transferAmount := amount
    isoRaySlashed := 0 }

/-- Takes RAY out of a reactor. IsoRAY is lost in proportion, and the votes of both have to be
free. -/
def withdrawRay (now : Int) (config : ReactorConfig) (r : Reactor) (amount : Int) :
    Result Outcome := do
  let amount ← requireU64 "amount" amount
  let (config, r) ← settleAt now config r
  if r.ray < amount then
    .error (.shortage .rayBalance amount r.ray none)
  else
    let loss ← isoRaySlashAmount r.ray amount r.isoRay
    if r.freeVotes < (amount + loss : Nat) then
      .error (.shortage .votesToWithdraw (amount + loss : Nat) r.freeVotes none)
    else
      let ray ← Counter.sub "ray" r.ray amount
      let isoRay ← Counter.sub "iso_ray" r.isoRay loss
      let total ← Counter.sub "total_ray_deposited" config.totalRayDeposited amount
      return {
        config := { config with totalRayDeposited := total }
        reactor := { r with ray, isoRay }
        transferAmount := amount
        isoRaySlashed := loss }

/-- Settles a reactor without moving RAY. -/
def syncReactor (now : Int) (config : ReactorConfig) (r : Reactor) : Result Outcome :=
  depositRay now config r 0

/-- Pays out the RAY rewards credited so far. -/
def collectRayRewards (r : Reactor) : Reactor × Nat :=
  ({ r with rayStakeRewards := { r.rayStakeRewards with uncollectedRayReward := 0 } },
    r.rayStakeRewards.uncollectedRayReward)

/-- Settles a reactor and pays out its RAY rewards. -/
def syncAndCollectRayRewards (now : Int) (config : ReactorConfig) (r : Reactor) :
    Result Outcome := do
  let synced ← syncReactor now config r
  let (reactor, amount) := collectRayRewards synced.reactor
  return { config := synced.config, reactor, transferAmount := amount, isoRaySlashed := 0 }

end Staking

end EmissionLedger
