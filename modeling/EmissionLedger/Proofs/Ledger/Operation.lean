import EmissionLedger.Intake.Ledger
import EmissionLedger.Record.Any

/-!
The operations of the ledger as data: which one it is and what is handed to it. Arguments that an
operation looks at itself are raw data; a time is an integer of any size, and only where an operation
checks it is it raw too. The records handed in need not belong together, nor ever have been returned.

What an operation answers with is the list of records that it returns; amounts to move are left out.
-/

namespace EmissionLedger

/-! ### Records returned together -/

def Escrow.Outcome.records (out : Escrow.Outcome) : List Record :=
  [⟨.timeTracker, out.timeTracker⟩, ⟨.personalPosition, out.position⟩]

def Emission.Synced.records (out : Emission.Synced) : List Record :=
  [⟨.gaugeConfig, out.config⟩, ⟨.gauge, out.gauge⟩]

def Emission.VoteChange.records (out : Emission.VoteChange) : List Record :=
  [⟨.gaugeConfig, out.config⟩, ⟨.gauge, out.gauge⟩, ⟨.personalGauge, out.personalGauge⟩,
    ⟨.reactor, out.reactor⟩]

def Rewarder.CpOutcome.records (out : Rewarder.CpOutcome) : List Record :=
  [⟨.gaugeConfig, out.config⟩, ⟨.gauge, out.gauge⟩, ⟨.timeTracker, out.timeTracker⟩,
    ⟨.personalPosition, out.position⟩, ⟨.personalRewarderCp, out.rewarder⟩]

def Rewarder.ClOutcome.records (out : Rewarder.ClOutcome) : List Record :=
  [⟨.gaugeConfig, out.config⟩, ⟨.gauge, out.gauge⟩, ⟨.personalRewarderCl, out.rewarder⟩]

def Staking.Outcome.records (out : Staking.Outcome) : List Record :=
  [⟨.reactorConfig, out.config⟩, ⟨.reactor, out.reactor⟩]

section Records

variable {P : Record → Prop}

theorem Escrow.Outcome.forall_records {out : Escrow.Outcome} : (∀ r ∈ out.records, P r) ↔
    P ⟨.timeTracker, out.timeTracker⟩ ∧ P ⟨.personalPosition, out.position⟩ := by
  simp [records]

theorem Emission.Synced.forall_records {out : Emission.Synced} : (∀ r ∈ out.records, P r) ↔
    P ⟨.gaugeConfig, out.config⟩ ∧ P ⟨.gauge, out.gauge⟩ := by
  simp [records]

theorem Emission.VoteChange.forall_records {out : Emission.VoteChange} : (∀ r ∈ out.records, P r) ↔
    P ⟨.gaugeConfig, out.config⟩ ∧ P ⟨.gauge, out.gauge⟩ ∧ P ⟨.personalGauge, out.personalGauge⟩ ∧
      P ⟨.reactor, out.reactor⟩ := by
  simp [records]

theorem Rewarder.CpOutcome.forall_records {out : Rewarder.CpOutcome} : (∀ r ∈ out.records, P r) ↔
    P ⟨.gaugeConfig, out.config⟩ ∧ P ⟨.gauge, out.gauge⟩ ∧ P ⟨.timeTracker, out.timeTracker⟩ ∧
      P ⟨.personalPosition, out.position⟩ ∧ P ⟨.personalRewarderCp, out.rewarder⟩ := by
  simp [records]

theorem Rewarder.ClOutcome.forall_records {out : Rewarder.ClOutcome} : (∀ r ∈ out.records, P r) ↔
    P ⟨.gaugeConfig, out.config⟩ ∧ P ⟨.gauge, out.gauge⟩ ∧ P ⟨.personalRewarderCl, out.rewarder⟩ := by
  simp [records]

theorem Staking.Outcome.forall_records {out : Staking.Outcome} : (∀ r ∈ out.records, P r) ↔
    P ⟨.reactorConfig, out.config⟩ ∧ P ⟨.reactor, out.reactor⟩ := by
  simp [records]

end Records

/-! ### The escrow -/

namespace Escrow

/-- An operation of the escrow. -/
inductive Operation where
  | initTimeTracker (now poolId escrowAccount : Json)
  | initPersonalPosition (now : Int) (tracker : TimeTracker) (owner : Json)
  | deposit (now : Int) (tracker : TimeTracker) (position : PersonalPosition) (amount : Json)
  | withdraw (now : Int) (tracker : TimeTracker) (position : PersonalPosition) (amount : Json)
  | updatePersonal (now : Int) (tracker : TimeTracker) (position : PersonalPosition)

namespace Operation

def time : Operation → Option Int
  | initTimeTracker .. => none
  | initPersonalPosition now .. | deposit now .. | withdraw now .. | updatePersonal now .. => some now

@[simp] def records : Operation → List Record
  | initTimeTracker .. => []
  | initPersonalPosition _ tracker _ => [⟨.timeTracker, tracker⟩]
  | deposit _ tracker position _ | withdraw _ tracker position _ | updatePersonal _ tracker position =>
    [⟨.timeTracker, tracker⟩, ⟨.personalPosition, position⟩]

def run : Operation → Result (List Record)
  | initTimeTracker now poolId escrowAccount => do
    let tracker ← initTimeTrackerOfJson now poolId escrowAccount
    return [⟨.timeTracker, tracker⟩]
  | initPersonalPosition now tracker owner => do
    let out ← initPersonalPositionOfJson now tracker owner
    return out.records
  | deposit now tracker position amount => do
    let out ← depositOfJson now tracker position amount
    return out.records
  | withdraw now tracker position amount => do
    let out ← withdrawOfJson now tracker position amount
    return out.records
  | updatePersonal now tracker position => do
    let out ← Escrow.updatePersonal now tracker position
    return out.records

end Operation

end Escrow

/-! ### The emission -/

namespace Emission

/-- An operation of the emission. What is handed over as a reactor may be something else. -/
inductive Operation where
  | initGaugeConfig (perDay : Option Json) (now : Json)
  | initPoolGauge (now : Int) (config : GaugeConfig) (poolId : Json)
  | initPersonalGauge (owner : Json) (gauge : Gauge)
  | syncPoolIndex (now : Int) (config : GaugeConfig) (gauge : Gauge)
  | changeVotes (now : Int) (config : GaugeConfig) (gauge : Gauge) (personal : PersonalGauge)
      (amount : Json) (reactor : Reactor ⊕ String)

namespace Operation

def time : Operation → Option Int
  | initGaugeConfig .. | initPersonalGauge .. => none
  | initPoolGauge now .. | syncPoolIndex now .. | changeVotes now .. => some now

@[simp] def records : Operation → List Record
  | initGaugeConfig .. => []
  | initPoolGauge _ config _ => [⟨.gaugeConfig, config⟩]
  | initPersonalGauge _ gauge => [⟨.gauge, gauge⟩]
  | syncPoolIndex _ config gauge => [⟨.gaugeConfig, config⟩, ⟨.gauge, gauge⟩]
  | changeVotes _ config gauge personal _ reactor =>
    [⟨.gaugeConfig, config⟩, ⟨.gauge, gauge⟩, ⟨.personalGauge, personal⟩] ++
      match reactor with
      | .inl r => [⟨.reactor, r⟩]
      | .inr _ => []

def run : Operation → Result (List Record)
  | initGaugeConfig perDay now => do
    let settings ← settingsOfJson perDay
    let config ← initGaugeConfigOfJson settings now
    return [⟨.gaugeConfig, config⟩]
  | initPoolGauge now config poolId => do
    let out ← initPoolGaugeOfJson now config poolId
    return out.records
  | initPersonalGauge owner gauge => do
    let personal ← initPersonalGaugeOfJson owner gauge
    return [⟨.personalGauge, personal⟩]
  | syncPoolIndex now config gauge => do
    let out ← Emission.syncPoolIndex now config gauge
    return out.records
  | changeVotes now config gauge personal amount reactor => do
    let out ← changeVotesOfJson now config gauge personal amount reactor
    return out.records

end Operation

end Emission

/-! ### The rewarders -/

namespace Rewarder

/-- An operation of the rewarders. -/
inductive Operation where
  | initCp (now : Int) (config : GaugeConfig) (gauge : Gauge) (tracker : TimeTracker)
      (position : PersonalPosition)
  | accrueCp (now : Int) (config : GaugeConfig) (gauge : Gauge) (tracker : TimeTracker)
      (position : PersonalPosition) (rewarder : PersonalRewarderCp)
  | collectCp (rewarder : PersonalRewarderCp)
  | initCl (now : Int) (config : GaugeConfig) (gauge : Gauge) (snapshot : ClPositionSnapshot)
      (mint : String)
  | accrueCl (now : Int) (config : GaugeConfig) (gauge : Gauge) (snapshot : ClPositionSnapshot)
      (mint : String) (rewarder : PersonalRewarderCl)
  | collectCl (rewarder : PersonalRewarderCl)

namespace Operation

def time : Operation → Option Int
  | initCp now .. | accrueCp now .. | initCl now .. | accrueCl now .. => some now
  | collectCp _ | collectCl _ => none

@[simp] def records : Operation → List Record
  | initCp _ config gauge tracker position =>
    [⟨.gaugeConfig, config⟩, ⟨.gauge, gauge⟩, ⟨.timeTracker, tracker⟩, ⟨.personalPosition, position⟩]
  | accrueCp _ config gauge tracker position rewarder =>
    [⟨.gaugeConfig, config⟩, ⟨.gauge, gauge⟩, ⟨.timeTracker, tracker⟩, ⟨.personalPosition, position⟩,
      ⟨.personalRewarderCp, rewarder⟩]
  | collectCp rewarder => [⟨.personalRewarderCp, rewarder⟩]
  | initCl _ config gauge snapshot _ =>
    [⟨.gaugeConfig, config⟩, ⟨.gauge, gauge⟩, ⟨.clPositionSnapshot, snapshot⟩]
  | accrueCl _ config gauge snapshot _ rewarder =>
    [⟨.gaugeConfig, config⟩, ⟨.gauge, gauge⟩, ⟨.clPositionSnapshot, snapshot⟩,
      ⟨.personalRewarderCl, rewarder⟩]
  | collectCl rewarder => [⟨.personalRewarderCl, rewarder⟩]

def run : Operation → Result (List Record)
  | initCp now config gauge tracker position => do
    let out ← Rewarder.initCp now config gauge tracker position
    return out.records
  | accrueCp now config gauge tracker position rewarder => do
    let out ← Rewarder.accrueCp now config gauge tracker position rewarder
    return out.records
  | collectCp rewarder => return [⟨.personalRewarderCp, (Rewarder.collectCp rewarder).1⟩]
  | initCl now config gauge snapshot mint => do
    let out ← Rewarder.initCl now config gauge snapshot mint
    return out.records
  | accrueCl now config gauge snapshot mint rewarder => do
    let out ← Rewarder.accrueCl now config gauge snapshot mint rewarder
    return out.records
  | collectCl rewarder => return [⟨.personalRewarderCl, (Rewarder.collectCl rewarder).1⟩]

end Operation

end Rewarder

/-! ### The stake -/

namespace Staking

/-- An operation of the reactors. -/
inductive Operation where
  | initReactorConfig (daily apr : Option Json) (now : Json)
  | initReactor (owner : Json)
  | depositRay (now : Int) (config : ReactorConfig) (r : Reactor) (amount : Json)
  | withdrawRay (now : Int) (config : ReactorConfig) (r : Reactor) (amount : Json)
  | syncReactor (now : Int) (config : ReactorConfig) (r : Reactor)
  | lockVotes (r : Reactor) (amount : Json)
  | unlockVotes (r : Reactor) (amount : Json)
  | collectRayRewards (r : Reactor)
  | syncAndCollectRayRewards (now : Int) (config : ReactorConfig) (r : Reactor)

namespace Operation

def time : Operation → Option Int
  | depositRay now .. | withdrawRay now .. | syncReactor now .. | syncAndCollectRayRewards now .. =>
    some now
  | initReactorConfig .. | initReactor .. | lockVotes .. | unlockVotes .. | collectRayRewards .. => none

@[simp] def records : Operation → List Record
  | initReactorConfig .. | initReactor .. => []
  | depositRay _ config r _ | withdrawRay _ config r _ | syncReactor _ config r
  | syncAndCollectRayRewards _ config r => [⟨.reactorConfig, config⟩, ⟨.reactor, r⟩]
  | lockVotes r _ | unlockVotes r _ | collectRayRewards r => [⟨.reactor, r⟩]

def run : Operation → Result (List Record)
  | initReactorConfig daily apr now => do
    let settings ← settingsOfJson daily apr
    let config ← initReactorConfigOfJson settings now
    return [⟨.reactorConfig, config⟩]
  | initReactor owner => do
    let r ← initReactorOfJson owner
    return [⟨.reactor, r⟩]
  | depositRay now config r amount => do
    let out ← depositRayOfJson now config r amount
    return out.records
  | withdrawRay now config r amount => do
    let out ← withdrawRayOfJson now config r amount
    return out.records
  | syncReactor now config r => do
    let out ← Staking.syncReactor now config r
    return out.records
  | lockVotes r amount => do
    let r' ← r.lockVotesOfJson amount
    return [⟨.reactor, r'⟩]
  | unlockVotes r amount => do
    let r' ← r.unlockVotesOfJson amount
    return [⟨.reactor, r'⟩]
  | collectRayRewards r => return [⟨.reactor, (Staking.collectRayRewards r).1⟩]
  | syncAndCollectRayRewards now config r => do
    let out ← Staking.syncAndCollectRayRewards now config r
    return out.records

end Operation

end Staking

/-! ### The ledger -/

/-- An operation of the ledger. -/
inductive Operation where
  | escrow (op : Escrow.Operation)
  | emission (op : Emission.Operation)
  | rewarder (op : Rewarder.Operation)
  | staking (op : Staking.Operation)

namespace Operation

/-- The time of an operation, if it has one that it does not check itself. -/
def time : Operation → Option Int
  | escrow op => op.time
  | emission op => op.time
  | rewarder op => op.time
  | staking op => op.time

/-- The records handed to an operation. -/
def records : Operation → List Record
  | escrow op => op.records
  | emission op => op.records
  | rewarder op => op.records
  | staking op => op.records

/-- The records that an operation returns. -/
def run : Operation → Result (List Record)
  | escrow op => op.run
  | emission op => op.run
  | rewarder op => op.run
  | staking op => op.run

end Operation

/-- Whether a time, if there is one, is an unsigned 64-bit integer. -/
def InTime (time : Option Int) : Prop := ∀ now ∈ time, 0 ≤ now ∧ now ≤ (maxU64 : Int)

/-- Whether a record is well-formed. -/
@[simp] def Record.WellFormed (r : Record) : Prop := r.kind.WellFormed r.value

deriving instance DecidableEq for Record

attribute [simp] RecordKind.WellFormed PersonalRewarderCp.WellFormed PersonalRewarderCl.WellFormed

end EmissionLedger
