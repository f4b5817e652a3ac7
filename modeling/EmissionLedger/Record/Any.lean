import EmissionLedger.Record.Json

/-!
Records of any kind. Two kinds ask for more than their shape says: a reactor's locked votes have to be
backed by its stake, and a position snapshot holds a list of at most three reward slots.
-/

namespace EmissionLedger

/-! ### Reactors -/

namespace Reactor

/-- The complaint about votes that are not backed. -/
def unbackedItem (ray isoRay lockedVotes : Nat) : Item :=
  { path := [.field "locked_votes"]
    complaint := .refused
      ["locked_votes ", lockedVotes, " must be <= ray + iso_ray ", (ray + isoRay : Nat)] }

/-- The complaint about a reactor, if its votes are not backed. -/
def unbackedItem? (r : Reactor) : Option Item :=
  if r.Backed then none else some (unbackedItem r.ray r.isoRay r.lockedVotes)

/-- The fields that decide whether votes are backed. -/
def stakeShape : Shape .fields :=
  .field "ray" true .u64 <| .field "iso_ray" true .u64 <| .field "locked_votes" true .u64 .done

/-- The complaint about votes that are not backed, if data gives stake and votes in range. -/
def unbackedIn? (v : Json) : Option Item :=
  match stakeShape.read v with
  | .value (ray, isoRay, lockedVotes, ()) =>
    if lockedVotes ≤ ray + isoRay then none else some (unbackedItem ray isoRay lockedVotes)
  | _ => none

/-- Whether a complaint is about the owner, the one field before stake and votes. -/
def concernsOwner (item : Item) : Bool :=
  match item.path with
  | .field name :: _ => name == "owner"
  | _ => false

/-- Reads a reactor. The complaint about votes stands at its field's place. -/
def read (v : Json) : Reading Reactor :=
  match form.read v, unbackedIn? v with
  | .overflow, _ => .overflow
  | r, none => r
  | r, some item =>
    let (owner, others) := r.items.partition concernsOwner
    .refused (owner ++ item :: others)

end Reactor

/-! ### Position snapshots -/

namespace ClPositionSnapshot

/-- The fields of a snapshot before its reward slots. -/
def headShape : Shape .fields := .field "position" false .address <| .field "pool" false .address .done

/-- The readings of a list as the reading of a list; `i` is the place of the first. -/
def collect {α : Type} : Nat → List (Reading α) → Reading (List α)
  | _, [] => .value []
  | i, r :: rest => ((r.under (.index i)).both (collect (i + 1) rest)).map fun both => both.1 :: both.2

/-- Whether a reading has a value. -/
def succeeds {α : Type} : Reading α → Bool
  | .value _ => true
  | _ => false

/-- Reads the reward slots. More good slots than a position has are one complaint about the list,
whatever is wrong with other slots. -/
def readRewardInfos : Option Json → Reading (List ClRewardInfo)
  | none => .value []
  | some (.arr items) =>
    let readings := items.map ClRewardInfo.form.read
    if maxRewardInfos < readings.countP succeeds then .complain .tooManyItems else collect 0 readings
  | some _ => .complain .notAList

/-- Reads a snapshot. -/
def read (v : Json) : Reading ClPositionSnapshot :=
  if v.isObject then
    ((headShape.read v).both ((readRewardInfos (v.member? "reward_infos")).under
        (.field "reward_infos"))).map fun ((position, pool, ()), rewardInfos) =>
      { position, pool, rewardInfos }
  else .complain .notARecord

/-- The JSON form of a snapshot. -/
def toJson (s : ClPositionSnapshot) : Json :=
  .obj (headShape.write (s.position, s.pool, ()) ++
    [("reward_infos", .arr (s.rewardInfos.map ClRewardInfo.form.toJson))])

end ClPositionSnapshot

/-! ### Any kind -/

namespace RecordKind

/-- The records of a kind. -/
@[reducible] def Carrier : RecordKind → Type
  | timeTracker => TimeTracker
  | personalPosition => PersonalPosition
  | gaugeConfig => GaugeConfig
  | gauge => Gauge
  | personalGauge => PersonalGauge
  | personalRewarderState => PersonalRewarderState
  | personalRewarderCp => PersonalRewarderCp
  | personalRewarderCl => PersonalRewarderCl
  | clRewardInfo => ClRewardInfo
  | clPositionSnapshot => ClPositionSnapshot
  | reactorConfig => ReactorConfig
  | reactor => Reactor
  | rayStakeRewards => RayStakeRewards

instance : (kind : RecordKind) → DecidableEq kind.Carrier
  | timeTracker => inferInstanceAs (DecidableEq TimeTracker)
  | personalPosition => inferInstanceAs (DecidableEq PersonalPosition)
  | gaugeConfig => inferInstanceAs (DecidableEq GaugeConfig)
  | gauge => inferInstanceAs (DecidableEq Gauge)
  | personalGauge => inferInstanceAs (DecidableEq PersonalGauge)
  | personalRewarderState => inferInstanceAs (DecidableEq PersonalRewarderState)
  | personalRewarderCp => inferInstanceAs (DecidableEq PersonalRewarderCp)
  | personalRewarderCl => inferInstanceAs (DecidableEq PersonalRewarderCl)
  | clRewardInfo => inferInstanceAs (DecidableEq ClRewardInfo)
  | clPositionSnapshot => inferInstanceAs (DecidableEq ClPositionSnapshot)
  | reactorConfig => inferInstanceAs (DecidableEq ReactorConfig)
  | reactor => inferInstanceAs (DecidableEq Reactor)
  | rayStakeRewards => inferInstanceAs (DecidableEq RayStakeRewards)

/-- The form of the records of a kind; a snapshot has none, for its list of slots. -/
def form? : (kind : RecordKind) → Option (Form kind.Carrier)
  | timeTracker => some TimeTracker.form
  | personalPosition => some PersonalPosition.form
  | gaugeConfig => some GaugeConfig.form
  | gauge => some Gauge.form
  | personalGauge => some PersonalGauge.form
  | personalRewarderState => some PersonalRewarderState.form
  | personalRewarderCp => some PersonalRewarderCp.form
  | personalRewarderCl => some PersonalRewarderCl.form
  | clRewardInfo => some ClRewardInfo.form
  | clPositionSnapshot => none
  | reactorConfig => some ReactorConfig.form
  | reactor => some Reactor.form
  | rayStakeRewards => some RayStakeRewards.form

/-- Whether a record keeps its counters within their width and its votes within its stake. -/
def WellFormed : (kind : RecordKind) → kind.Carrier → Prop
  | timeTracker => TimeTracker.WellFormed
  | personalPosition => PersonalPosition.WellFormed
  | gaugeConfig => GaugeConfig.WellFormed
  | gauge => Gauge.WellFormed
  | personalGauge => PersonalGauge.WellFormed
  | personalRewarderState => PersonalRewarderState.WellFormed
  | personalRewarderCp => PersonalRewarderCp.WellFormed
  | personalRewarderCl => PersonalRewarderCl.WellFormed
  | clRewardInfo => ClRewardInfo.WellFormed
  | clPositionSnapshot => ClPositionSnapshot.WellFormed
  | reactorConfig => ReactorConfig.WellFormed
  | reactor => Reactor.WellFormed
  | rayStakeRewards => RayStakeRewards.WellFormed

/-- Reads a record of a kind. -/
def read : (kind : RecordKind) → Json → Reading kind.Carrier
  | timeTracker, v => TimeTracker.form.read v
  | personalPosition, v => PersonalPosition.form.read v
  | gaugeConfig, v => GaugeConfig.form.read v
  | gauge, v => Gauge.form.read v
  | personalGauge, v => PersonalGauge.form.read v
  | personalRewarderState, v => PersonalRewarderState.form.read v
  | personalRewarderCp, v => PersonalRewarderCp.form.read v
  | personalRewarderCl, v => PersonalRewarderCl.form.read v
  | clRewardInfo, v => ClRewardInfo.form.read v
  | clPositionSnapshot, v => ClPositionSnapshot.read v
  | reactorConfig, v => ReactorConfig.form.read v
  | reactor, v => Reactor.read v
  | rayStakeRewards, v => RayStakeRewards.form.read v

/-- The JSON form of a record of a kind. -/
def toJson : (kind : RecordKind) → kind.Carrier → Json
  | timeTracker, a => TimeTracker.form.toJson a
  | personalPosition, a => PersonalPosition.form.toJson a
  | gaugeConfig, a => GaugeConfig.form.toJson a
  | gauge, a => Gauge.form.toJson a
  | personalGauge, a => PersonalGauge.form.toJson a
  | personalRewarderState, a => PersonalRewarderState.form.toJson a
  | personalRewarderCp, a => PersonalRewarderCp.form.toJson a
  | personalRewarderCl, a => PersonalRewarderCl.form.toJson a
  | clRewardInfo, a => ClRewardInfo.form.toJson a
  | clPositionSnapshot, a => ClPositionSnapshot.toJson a
  | reactorConfig, a => ReactorConfig.form.toJson a
  | reactor, a => Reactor.form.toJson a
  | rayStakeRewards, a => RayStakeRewards.form.toJson a

/-- The record of a kind that data stands for. -/
def validate (kind : RecordKind) (v : Json) : Result kind.Carrier :=
  match kind.read v with
  | .value a => .ok a
  | .refused items => .error (.rejected kind items)
  | .overflow => .error .decimalOverflow

/-- What is wrong with a record whose fields are each in range. -/
def brokenRule? : (kind : RecordKind) → kind.Carrier → Option Item
  | reactor, r => Reactor.unbackedItem? r
  | _, _ => none

end RecordKind

/-- A record of some kind. -/
structure Record where
  kind : RecordKind
  value : kind.Carrier

/-- The JSON form of a record. -/
def Record.toJson (r : Record) : Json := r.kind.toJson r.value

end EmissionLedger
