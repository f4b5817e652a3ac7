/-!
The kinds of record that the ledger keeps.
-/

namespace EmissionLedger

/-- The kinds of record. -/
inductive RecordKind where
  | timeTracker
  | personalPosition
  | gaugeConfig
  | gauge
  | personalGauge
  | personalRewarderState
  | personalRewarderCp
  | personalRewarderCl
  | clRewardInfo
  | clPositionSnapshot
  | reactorConfig
  | reactor
  | rayStakeRewards
deriving DecidableEq

namespace RecordKind

/-- All kinds of record. -/
def all : List RecordKind :=
  [timeTracker, personalPosition, gaugeConfig, gauge, personalGauge, personalRewarderState,
    personalRewarderCp, personalRewarderCl, clRewardInfo, clPositionSnapshot, reactorConfig, reactor,
    rayStakeRewards]

/-- The name of a kind, in messages and as the source of its discriminator. -/
def name : RecordKind → String
  | timeTracker => "TimeTracker"
  | personalPosition => "PersonalPosition"
  | gaugeConfig => "GaugeConfig"
  | gauge => "Gauge"
  | personalGauge => "PersonalGauge"
  | personalRewarderState => "PersonalRewarderState"
  | personalRewarderCp => "PersonalRewarderCp"
  | personalRewarderCl => "PersonalRewarderCl"
  | clRewardInfo => "ClRewardInfo"
  | clPositionSnapshot => "ClPositionSnapshot"
  | reactorConfig => "ReactorConfig"
  | reactor => "Reactor"
  | rayStakeRewards => "RayStakeRewards"

/-- The kind of that name. -/
def ofName? (s : String) : Option RecordKind := all.find? fun kind => kind.name == s

/-- The name of the JSON contract of a kind, for the nine kinds that have one. -/
def contractName? : RecordKind → Option String
  | timeTracker => some "time_tracker"
  | personalPosition => some "personal_position"
  | gaugeConfig => some "gauge_config"
  | gauge => some "gauge"
  | personalGauge => some "personal_gauge"
  | personalRewarderCp => some "personal_rewarder_cp"
  | personalRewarderCl => some "personal_rewarder_cl"
  | reactorConfig => some "reactor_config"
  | reactor => some "reactor"
  | _ => none

/-- The kind whose contract has that name. -/
def ofContractName? (s : String) : Option RecordKind :=
  all.find? fun kind => kind.contractName? == some s

/-- Whether records of this kind are stored on their own, behind a discriminator: those with a
contract are. -/
def isStored (kind : RecordKind) : Bool := kind.contractName?.isSome

/-- Whether the kind has a byte layout, on its own or inside another record. -/
def hasLayout (kind : RecordKind) : Bool :=
  kind.isStored || kind == personalRewarderState || kind == rayStakeRewards

theorem mem_all (kind : RecordKind) : kind ∈ all := by cases kind <;> decide

end RecordKind

end EmissionLedger
