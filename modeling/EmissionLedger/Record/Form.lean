import EmissionLedger.Record.Shape

/-!
The forms of the records: for each kind with a fixed set of fields, its shape and the passage between
its records and the rows of the shape.
-/

namespace EmissionLedger

/-- How a type of record is seen as rows of a shape: each record is one row, and each row one
record. -/
structure Form (α : Type) where
  kind : RecordKind
  shape : Shape .fields
  toRow : α → shape.Row
  ofRow : shape.Row → α
  ofRow_toRow : ∀ a, ofRow (toRow a) = a
  toRow_ofRow : ∀ row, toRow (ofRow row) = row

def TimeTracker.form : Form TimeTracker where
  kind := .timeTracker
  shape := .field "pool_id" false .address <| .field "escrow_account" false .address <|
    .field "index" true .number <| .field "total_lp_deposited" true .u64 <|
    .field "last_seen_ts" false .u64 .done
  toRow t := (t.poolId, t.escrowAccount, t.index, t.totalLpDeposited, t.lastSeenTs, ())
  ofRow := fun (poolId, escrowAccount, index, totalLpDeposited, lastSeenTs, ()) =>
    { poolId, escrowAccount, index, totalLpDeposited, lastSeenTs }
  ofRow_toRow _ := rfl
  toRow_ofRow _ := rfl

def PersonalPosition.form : Form PersonalPosition where
  kind := .personalPosition
  shape := .field "owner" false .address <| .field "time_tracker" false .address <|
    .field "amount" true .u64 <| .field "last_seen_index" false .number <|
    .field "earned_time_units" true .number .done
  toRow p := (p.owner, p.timeTracker, p.amount, p.lastSeenIndex, p.earnedTimeUnits, ())
  ofRow := fun (owner, timeTracker, amount, lastSeenIndex, earnedTimeUnits, ()) =>
    { owner, timeTracker, amount, lastSeenIndex, earnedTimeUnits }
  ofRow_toRow _ := rfl
  toRow_ofRow _ := rfl

def GaugeConfig.form : Form GaugeConfig where
  kind := .gaugeConfig
  shape := .field "total_votes" true .u64 <| .field "ray_emission_per_day" false .u64 <|
    .field "index" true .number <| .field "last_updated_ts" false .u64 .done
  toRow c := (c.totalVotes, c.rayEmissionPerDay, c.index, c.lastUpdatedTs, ())
  ofRow := fun (totalVotes, rayEmissionPerDay, index, lastUpdatedTs, ()) =>
    { totalVotes, rayEmissionPerDay, index, lastUpdatedTs }
  ofRow_toRow _ := rfl
  toRow_ofRow _ := rfl

def Gauge.form : Form Gauge where
  kind := .gauge
  shape := .field "pool_id" false .address <| .field "total_votes" true .u64 <|
    .field "last_seen_global_index" false .number <| .field "total_ray_emitted" true .u64 .done
  toRow g := (g.poolId, g.totalVotes, g.lastSeenGlobalIndex, g.totalRayEmitted, ())
  ofRow := fun (poolId, totalVotes, lastSeenGlobalIndex, totalRayEmitted, ()) =>
    { poolId, totalVotes, lastSeenGlobalIndex, totalRayEmitted }
  ofRow_toRow _ := rfl
  toRow_ofRow _ := rfl

def PersonalGauge.form : Form PersonalGauge where
  kind := .personalGauge
  shape := .field "owner" false .address <| .field "pool_gauge" false .address <|
    .field "votes" true .u64 .done
  toRow g := (g.owner, g.poolGauge, g.votes, ())
  ofRow := fun (owner, poolGauge, votes, ()) => { owner, poolGauge, votes }
  ofRow_toRow _ := rfl
  toRow_ofRow _ := rfl

def PersonalRewarderState.form : Form PersonalRewarderState where
  kind := .personalRewarderState
  shape := .field "last_seen_time_units" false .number <|
    .field "last_seen_total_emitted_ray" false .u64 <| .field "last_updated_ts" false .u64 <|
    .field "staged_ray" true .u64 .done
  toRow s := (s.lastSeenTimeUnits, s.lastSeenTotalEmittedRay, s.lastUpdatedTs, s.stagedRay, ())
  ofRow := fun (lastSeenTimeUnits, lastSeenTotalEmittedRay, lastUpdatedTs, stagedRay, ()) =>
    { lastSeenTimeUnits, lastSeenTotalEmittedRay, lastUpdatedTs, stagedRay }
  ofRow_toRow _ := rfl
  toRow_ofRow _ := rfl

def PersonalRewarderCp.form : Form PersonalRewarderCp where
  kind := .personalRewarderCp
  shape := .field "owner" false .address <| .field "pool_gauge" false .address <|
    .field "rewarder" false (.record (some "rewarder_state") PersonalRewarderState.form.shape) .done
  toRow r := (r.owner, r.poolGauge, PersonalRewarderState.form.toRow r.rewarder, ())
  ofRow := fun (owner, poolGauge, rewarder, ()) =>
    { owner, poolGauge, rewarder := PersonalRewarderState.form.ofRow rewarder }
  ofRow_toRow _ := rfl
  toRow_ofRow _ := rfl

def PersonalRewarderCl.form : Form PersonalRewarderCl where
  kind := .personalRewarderCl
  shape := .field "pool_position" false .address <| .field "pool_gauge" false .address <|
    .field "pool" false .address <|
    .field "rewarder" false (.record (some "rewarder_state") PersonalRewarderState.form.shape) .done
  toRow r := (r.poolPosition, r.poolGauge, r.pool, PersonalRewarderState.form.toRow r.rewarder, ())
  ofRow := fun (poolPosition, poolGauge, pool, rewarder, ()) =>
    { poolPosition, poolGauge, pool, rewarder := PersonalRewarderState.form.ofRow rewarder }
  ofRow_toRow _ := rfl
  toRow_ofRow _ := rfl

def ClRewardInfo.form : Form ClRewardInfo where
  kind := .clRewardInfo
  shape := .field "mint" false .address <| .field "reward_amount_owed" true .u64 .done
  toRow i := (i.mint, i.rewardAmountOwed, ())
  ofRow := fun (mint, rewardAmountOwed, ()) => { mint, rewardAmountOwed }
  ofRow_toRow _ := rfl
  toRow_ofRow _ := rfl

def ReactorConfig.form : Form ReactorConfig where
  kind := .reactorConfig
  shape := .field "total_ray_deposited" true .u64 <|
    .field "ray_reward_daily_emission" false .u64 <| .field "ray_reward_index" true .number <|
    .field "iso_ray_apr_bps" false .u16 <| .field "iso_ray_index" true .number <|
    .field "rewards_emitted_until" false .u64 .done
  toRow c := (c.totalRayDeposited, c.rayRewardDailyEmission, c.rayRewardIndex, c.isoRayAprBps,
    c.isoRayIndex, c.rewardsEmittedUntil, ())
  ofRow := fun (totalRayDeposited, rayRewardDailyEmission, rayRewardIndex, isoRayAprBps, isoRayIndex,
      rewardsEmittedUntil, ()) =>
    { totalRayDeposited, rayRewardDailyEmission, rayRewardIndex, isoRayAprBps, isoRayIndex,
      rewardsEmittedUntil }
  ofRow_toRow _ := rfl
  toRow_ofRow _ := rfl

def RayStakeRewards.form : Form RayStakeRewards where
  kind := .rayStakeRewards
  shape := .field "last_seen_index" true .number <| .field "uncollected_ray_reward" true .u64 .done
  toRow s := (s.lastSeenIndex, s.uncollectedRayReward, ())
  ofRow := fun (lastSeenIndex, uncollectedRayReward, ()) => { lastSeenIndex, uncollectedRayReward }
  ofRow_toRow _ := rfl
  toRow_ofRow _ := rfl

def Reactor.form : Form Reactor where
  kind := .reactor
  shape := .field "owner" false .address <| .field "ray" true .u64 <| .field "iso_ray" true .u64 <|
    .field "locked_votes" true .u64 <| .field "last_seen_index_iso_ray" true .number <|
    .field "ray_stake_rewards" true (.record none RayStakeRewards.form.shape) .done
  toRow r := (r.owner, r.ray, r.isoRay, r.lockedVotes, r.lastSeenIndexIsoRay,
    RayStakeRewards.form.toRow r.rayStakeRewards, ())
  ofRow := fun (owner, ray, isoRay, lockedVotes, lastSeenIndexIsoRay, rayStakeRewards, ()) =>
    { owner, ray, isoRay, lockedVotes, lastSeenIndexIsoRay,
      rayStakeRewards := RayStakeRewards.form.ofRow rayStakeRewards }
  ofRow_toRow _ := rfl
  toRow_ofRow _ := rfl

end EmissionLedger
