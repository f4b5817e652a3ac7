import EmissionLedger.Record.Json
import EmissionLedger.Rewarder
import EmissionLedger.Staking

/-!
The ledger's operations on arguments that have not been looked at. Amounts have to be integers before
anything else is asked of them; addresses are read when the record that will hold them is built.
-/

namespace EmissionLedger

/-- A reading as the outcome of building a record. -/
def Reading.toResult {α : Type} (kind : RecordKind) : Reading α → Result α
  | value a => .ok a
  | refused items => .error (.rejected kind items)
  | overflow => .error .decimalOverflow

/-- An address for a field of a new record. -/
def addressFor (kind : RecordKind) (field : String) (v : Json) : Result Address :=
  ((readAddress v).under (.field field)).toResult kind

/-- An integer of 64 bits without sign, from data. -/
def requireU64Json (name : String) (v : Json) : Result Nat := do
  let n ← requireInteger name v
  requireU64 name n

/-- An integer of 64 bits with sign, from data. -/
def requireI64Json (name : String) (v : Json) : Result Int := do
  let n ← requireInteger name v
  requireI64 name n

namespace Escrow

def initTimeTrackerOfJson (now poolId escrowAccount : Json) : Result TimeTracker := do
  let start ← requireU64Json "now" now
  let addresses := ((readAddress poolId).under (.field "pool_id")).both
    ((readAddress escrowAccount).under (.field "escrow_account"))
  let (poolId, escrowAccount) ← addresses.toResult .timeTracker
  initTimeTracker start poolId escrowAccount

def initPersonalPositionOfJson (now : Int) (tracker : TimeTracker) (owner : Json) : Result Outcome := do
  let _ ← tracker.advance now
  let owner ← addressFor .personalPosition "owner" owner
  initPersonalPosition now tracker owner

def depositOfJson (now : Int) (tracker : TimeTracker) (position : PersonalPosition) (amount : Json) :
    Result Outcome := do
  let n ← requireInteger "amount" amount
  deposit now tracker position n

def withdrawOfJson (now : Int) (tracker : TimeTracker) (position : PersonalPosition)
    (amount : Json) : Result Outcome := do
  let n ← requireInteger "amount" amount
  withdraw now tracker position n

end Escrow

namespace Emission

/-- What a new config emits, from data; nothing if it is not said. -/
def settingsOfJson (perDay : Option Json) : Result Settings := do
  let n ← requireU64Json "ray_emission_per_day" (perDay.getD (.int 0))
  return { rayEmissionPerDay := n }

def initGaugeConfigOfJson (settings : Settings) (now : Json) : Result GaugeConfig := do
  let n ← requireInteger "now" now
  initGaugeConfig settings n

def initPoolGaugeOfJson (now : Int) (config : GaugeConfig) (poolId : Json) : Result Synced := do
  let _ ← config.advance now
  let poolId ← addressFor .gauge "pool_id" poolId
  initPoolGauge now config poolId

def initPersonalGaugeOfJson (owner : Json) (gauge : Gauge) : Result PersonalGauge := do
  let owner ← addressFor .personalGauge "owner" owner
  return initPersonalGauge owner gauge

/-- A change of votes; what is handed over as the reactor may be something else, of a named kind. -/
def changeVotesOfJson (now : Int) (config : GaugeConfig) (gauge : Gauge) (personal : PersonalGauge)
    (amount : Json) (reactor : Reactor ⊕ String) : Result VoteChange := do
  let n ← requireI64Json "amount" amount
  match reactor with
  | .inl reactor => changeVotes now config gauge personal n reactor
  | .inr kind => .error (.argument (.notReactor kind))

end Emission

namespace Rewarder

/-- A new state, where the time is read as a record's field is. -/
def startOfJson (now : Json) (gauge : Gauge) (units : Number) : Result PersonalRewarderState :=
  match integerOfJson now with
  | .ok n => PersonalRewarderState.start n gauge units
  | .error complaint =>
    .error (.rejected .personalRewarderState [⟨[.field "last_updated_ts"], complaint⟩])

end Rewarder

namespace Staking

/-- What a new config pays, as it comes in: the rate is only known to lie in its range. -/
structure RawSettings where
  rayRewardDailyEmission : Nat
  isoRayAprBps : Json

/-- Refuses a rate outside its range. A number with a fraction may pass here. -/
def checkApr : Json → Result Unit
  | .int n => if 0 ≤ n ∧ n ≤ (maxU16 : Int) then .ok () else outside n
  | .bool _ => .ok ()
  | .float x =>
    if x = .nan ∨ x.ltInt 0 = true ∨ x.gtInt maxU16 = true then outside x.text else .ok ()
  | v => .error (.argument (.unordered "<=" "int" v.kindName))
where
  outside (given : Piece) : Result Unit :=
    .error (.argument (.outOfRange "iso_ray_apr_bps" 0 maxU16 given))

/-- What a new config pays, from data; nothing if it is not said. -/
def settingsOfJson (daily apr : Option Json) : Result RawSettings := do
  let n ← requireU64Json "ray_reward_daily_emission" (daily.getD (.int 0))
  let rate := apr.getD (.int 0)
  checkApr rate
  return { rayRewardDailyEmission := n, isoRayAprBps := rate }

def initReactorConfigOfJson (settings : RawSettings) (now : Json) : Result ReactorConfig := do
  let start ← requireU64Json "now" now
  let rate ← ((readCounter maxU16 settings.isoRayAprBps).under (.field "iso_ray_apr_bps")).toResult
    .reactorConfig
  initReactorConfig
    { rayRewardDailyEmission := settings.rayRewardDailyEmission, isoRayAprBps := rate } start

def initReactorOfJson (owner : Json) : Result Reactor := do
  let owner ← addressFor .reactor "owner" owner
  return initReactor owner

def depositRayOfJson (now : Int) (config : ReactorConfig) (r : Reactor) (amount : Json) :
    Result Outcome := do
  let n ← requireInteger "amount" amount
  depositRay now config r n

def withdrawRayOfJson (now : Int) (config : ReactorConfig) (r : Reactor) (amount : Json) :
    Result Outcome := do
  let n ← requireInteger "amount" amount
  withdrawRay now config r n

end Staking

namespace Reactor

def lockVotesOfJson (r : Reactor) (amount : Json) : Result Reactor := do
  let n ← requireInteger "amount" amount
  r.lockVotes n

def unlockVotesOfJson (r : Reactor) (amount : Json) : Result Reactor := do
  let n ← requireInteger "amount" amount
  r.unlockVotes n

end Reactor

end EmissionLedger
