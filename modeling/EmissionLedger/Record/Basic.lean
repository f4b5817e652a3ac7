import EmissionLedger.Counter
import EmissionLedger.Number.Basic
import EmissionLedger.Record.Address

/-!
The records of the ledger. Addresses and numbers are in range by their types; a counter is any
natural number here, and `WellFormed` says which records keep their counters within their width and
their votes within their stake.
-/

namespace EmissionLedger

/-! ### Escrow -/

/-- The clock of a pool's escrow: `index` is the seconds earned by one deposited token. -/
structure TimeTracker where
  poolId : Address
  escrowAccount : Address
  index : Number
  totalLpDeposited : Nat
  lastSeenTs : Nat
deriving DecidableEq

/-- An owner's deposit in the escrow of a pool, a share account over the tracker's index. -/
structure PersonalPosition where
  owner : Address
  timeTracker : Address
  amount : Nat
  lastSeenIndex : Number
  earnedTimeUnits : Number
deriving DecidableEq

/-! ### Emission -/

/-- The emission to all pools: `index` is the RAY earned by one vote. -/
structure GaugeConfig where
  totalVotes : Nat
  rayEmissionPerDay : Nat
  index : Number
  lastUpdatedTs : Nat
deriving DecidableEq

/-- The emission to one pool, a share account over the config's index with the pool's votes. -/
structure Gauge where
  poolId : Address
  totalVotes : Nat
  lastSeenGlobalIndex : Number
  totalRayEmitted : Nat
deriving DecidableEq

/-- An owner's votes for a pool. -/
structure PersonalGauge where
  owner : Address
  poolGauge : Address
  votes : Nat
deriving DecidableEq

/-! ### Rewarders -/

/-- What a rewarder has seen of a pool's emission and of a position's time units, and the RAY it has
ready to pay. -/
structure PersonalRewarderState where
  lastSeenTimeUnits : Number
  lastSeenTotalEmittedRay : Nat
  lastUpdatedTs : Nat
  stagedRay : Nat
deriving DecidableEq

/-- The rewarder of a position in the escrow of a constant-product pool. -/
structure PersonalRewarderCp where
  owner : Address
  poolGauge : Address
  rewarder : PersonalRewarderState
deriving DecidableEq

/-- The rewarder of a position in a concentrated-liquidity pool. -/
structure PersonalRewarderCl where
  poolPosition : Address
  poolGauge : Address
  pool : Address
  rewarder : PersonalRewarderState
deriving DecidableEq

/-- One reward slot of a concentrated-liquidity position. -/
structure ClRewardInfo where
  mint : Address
  rewardAmountOwed : Nat
deriving DecidableEq

/-- A view of a concentrated-liquidity position, which only its pool changes. -/
structure ClPositionSnapshot where
  position : Address
  pool : Address
  rewardInfos : List ClRewardInfo
deriving DecidableEq

/-! ### Staking -/

/-- The reactor's global state: what one staked RAY has earned in RAY and in isoRAY. -/
structure ReactorConfig where
  totalRayDeposited : Nat
  rayRewardDailyEmission : Nat
  rayRewardIndex : Number
  isoRayAprBps : Nat
  isoRayIndex : Number
  rewardsEmittedUntil : Nat
deriving DecidableEq

/-- A share account over the reactor's RAY reward index. -/
structure RayStakeRewards where
  lastSeenIndex : Number
  uncollectedRayReward : Nat
deriving DecidableEq

/-- An owner's stake, the isoRAY earned on it and the votes locked against both. -/
structure Reactor where
  owner : Address
  ray : Nat
  isoRay : Nat
  lockedVotes : Nat
  lastSeenIndexIsoRay : Number
  rayStakeRewards : RayStakeRewards
deriving DecidableEq

namespace Reactor

/-- One vote for each RAY and isoRAY. -/
def votePower (r : Reactor) : Nat := r.ray + r.isoRay

/-- The votes that are not locked; a debt of votes is below zero. -/
def freeVotes (r : Reactor) : Int := (r.votePower : Int) - r.lockedVotes

/-- Whether the locked votes are backed by stake. -/
def Backed (r : Reactor) : Prop := r.lockedVotes ≤ r.votePower

instance (r : Reactor) : Decidable r.Backed := inferInstanceAs (Decidable (_ ≤ _))

end Reactor

/-! ### Well-formed records -/

def TimeTracker.WellFormed (t : TimeTracker) : Prop :=
  t.totalLpDeposited ≤ maxU64 ∧ t.lastSeenTs ≤ maxU64

def PersonalPosition.WellFormed (p : PersonalPosition) : Prop := p.amount ≤ maxU64

def GaugeConfig.WellFormed (c : GaugeConfig) : Prop :=
  c.totalVotes ≤ maxU64 ∧ c.rayEmissionPerDay ≤ maxU64 ∧ c.lastUpdatedTs ≤ maxU64

def Gauge.WellFormed (g : Gauge) : Prop := g.totalVotes ≤ maxU64 ∧ g.totalRayEmitted ≤ maxU64

def PersonalGauge.WellFormed (g : PersonalGauge) : Prop := g.votes ≤ maxU64

def PersonalRewarderState.WellFormed (s : PersonalRewarderState) : Prop :=
  s.lastSeenTotalEmittedRay ≤ maxU64 ∧ s.lastUpdatedTs ≤ maxU64 ∧ s.stagedRay ≤ maxU64

def PersonalRewarderCp.WellFormed (r : PersonalRewarderCp) : Prop := r.rewarder.WellFormed

def PersonalRewarderCl.WellFormed (r : PersonalRewarderCl) : Prop := r.rewarder.WellFormed

def ClRewardInfo.WellFormed (i : ClRewardInfo) : Prop := i.rewardAmountOwed ≤ maxU64

/-- The most reward slots of a concentrated-liquidity position. -/
def maxRewardInfos : Nat := 3

def ClPositionSnapshot.WellFormed (s : ClPositionSnapshot) : Prop :=
  s.rewardInfos.length ≤ maxRewardInfos ∧ ∀ info ∈ s.rewardInfos, info.WellFormed

def ReactorConfig.WellFormed (c : ReactorConfig) : Prop :=
  c.totalRayDeposited ≤ maxU64 ∧ c.rayRewardDailyEmission ≤ maxU64 ∧ c.isoRayAprBps ≤ maxU16 ∧
    c.rewardsEmittedUntil ≤ maxU64

def RayStakeRewards.WellFormed (s : RayStakeRewards) : Prop := s.uncollectedRayReward ≤ maxU64

def Reactor.WellFormed (r : Reactor) : Prop :=
  r.ray ≤ maxU64 ∧ r.isoRay ≤ maxU64 ∧ r.lockedVotes ≤ maxU64 ∧ r.rayStakeRewards.WellFormed ∧
    r.Backed

end EmissionLedger
