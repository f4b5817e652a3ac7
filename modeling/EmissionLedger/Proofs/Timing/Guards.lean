import EmissionLedger.Proofs.Timing.Net

/-!
Which refusals are regressions. An index is refused for running backwards only where an account has seen
more than there is, and a clock only where it stands later than the time of the call. An operation first
moves its shared records on, and these only go forward; so where its accounts have seen no more than the
records hand in, a clock of a shared record is all that can be refused. A rewarder has a clock of its own,
but it looked last when the tracker and the config stood no later than they do, so its guard never fires
before theirs.

Main statements: `Escrow.Turn.perform_onlyLate`, `Emission.changeVotes_onlyLate`,
`Staking.Turn.perform_onlyLate` and `Rewarder.accrueCp_onlyLate`.
-/

namespace EmissionLedger

/-- Not a regression, or else that of one of `clocks`, each with its name, for a time before it. -/
def Fault.OnlyLate (time : Option Int) (clocks : List (String × Int)) : Fault → Prop
  | .indexRegression _ => False
  | .timestampRegression what now last => now < last ∧ time = some now ∧ (what, last) ∈ clocks
  | _ => True

/-- A fault of something that runs late at most is no regression of an index, and the regression of a
clock only if the clock is one of those named and stands later than the time. -/
theorem Fault.OnlyLate.causeKind {time : Option Int} {clocks : List (String × Int)} {e : Fault}
    (h : e.OnlyLate time clocks) : e.causeKind ≠ .indexRegression ∧
      (e.causeKind = .timestampRegression → ∃ what now last, e = .timestampRegression what now last ∧
        now < last ∧ time = some now ∧ (what, last) ∈ clocks) := by
  cases e with
  | indexRegression cause => cases h
  | timestampRegression what now last => exact ⟨nofun, fun _ => ⟨what, now, last, rfl, h⟩⟩
  | number cause => cases cause <;> exact ⟨nofun, nofun⟩
  | argument cause => cases cause <;> exact ⟨nofun, nofun⟩
  | _ => exact ⟨nofun, nofun⟩

/-- The faults of something that runs late at most. -/
abbrev OnlyLate (time : Option Int) (clocks : List (String × Int)) {α : Type} (x : Result α) : Prop :=
  FaultsIn (Fault.OnlyLate time clocks) x

variable {time : Option Int} {clocks : List (String × Int)}

theorem Fault.OnlyLate.of_overflow {e : Fault} (h : e.causeKind = .arithmeticOverflow) :
    e.OnlyLate time clocks := by
  cases e with
  | indexRegression cause => cases h
  | timestampRegression what now last => cases h
  | _ => trivial

theorem Fault.OnlyLate.of_outgrown {e : Fault} (h : e.Outgrown) : e.OnlyLate time clocks := by
  cases h <;> trivial

theorem Fault.OnlyLate.of_request {e : Fault} (h : e.OfRequest) : e.OnlyLate time clocks := by
  cases h with
  | outgrown h => exact of_outgrown h
  | _ => trivial

/-- An account that has seen no more than there is refuses no index. -/
theorem accrueShare_onlyLate {what : String} {share : ℕ} {last current : Number} (hseen : last ≤ current) :
    OnlyLate time clocks (accrueShare what share last current) :=
  accrueShare_faultsIn (fun _ => Fault.OnlyLate.of_overflow) fun hlt => absurd hlt (Nat.not_lt.mpr hseen)

/-! ### The escrow -/

/-- The clock of a tracker, by the name it has in a fault. -/
def TimeTracker.clock (t : TimeTracker) : String × Int := ("time tracker", t.lastSeenTs)

theorem TimeTracker.advance_onlyLate {t : TimeTracker} {now : Int} (hclock : t.clock ∈ clocks) :
    OnlyLate (some now) clocks (t.advance now) :=
  advance_faultsIn (fun _ => Fault.OnlyLate.of_overflow) fun hlate => ⟨hlate, rfl, hclock⟩

namespace Escrow

variable {now : Int} {t : TimeTracker} {p : PersonalPosition}

theorem initTimeTracker_onlyLate (poolId escrowAccount : Address) :
    OnlyLate time clocks (initTimeTracker now poolId escrowAccount) :=
  initTimeTracker_faultsIn (fun _ => Fault.OnlyLate.of_request) poolId escrowAccount

theorem initPersonalPosition_onlyLate (owner : Address) (hclock : t.clock ∈ clocks) :
    OnlyLate (some now) clocks (initPersonalPosition now t owner) :=
  initPersonalPosition_faultsIn (t.advance_onlyLate hclock) owner

theorem sync_onlyLate (hseen : p.lastSeenIndex ≤ t.index) (hclock : t.clock ∈ clocks) :
    OnlyLate (some now) clocks (sync now t p) := by
  refine sync_faultsIn (fun _ => trivial) (t.advance_onlyLate hclock) fun t' ht' => ?_
  obtain ⟨_, -, hadv⟩ := TimeTracker.advance_ok ht'
  have hle : p.lastSeenIndex ≤ t'.index := Nat.le_trans hseen hadv.index_le
  exact PersonalPosition.settle_faultsIn (fun _ => Fault.OnlyLate.of_overflow) (fun _ => trivial)
    fun hlt => absurd hlt (Nat.not_lt.mpr hle)

theorem Turn.perform_onlyLate (turn : Turn) (hseen : p.lastSeenIndex ≤ t.index)
    (hclock : t.clock ∈ clocks) : OnlyLate (some now) clocks (turn.perform now t p) := by
  have hsync : OnlyLate (some now) clocks (sync now t p) := sync_onlyLate hseen hclock
  cases turn with
  | deposit amount => exact deposit_faultsIn (fun _ => Fault.OnlyLate.of_request) hsync
  | withdraw amount => exact withdraw_faultsIn (fun _ => Fault.OnlyLate.of_request) hsync
  | update => exact updatePersonal_faultsIn hsync

end Escrow

/-! ### The emission -/

/-- The clock of a gauge config, by the name it has in a fault. -/
def GaugeConfig.clock (c : GaugeConfig) : String × Int := ("gauge config", c.lastUpdatedTs)

theorem GaugeConfig.advance_onlyLate {c : GaugeConfig} {now : Int} (hclock : c.clock ∈ clocks) :
    OnlyLate (some now) clocks (c.advance now) :=
  advance_faultsIn (fun _ => Fault.OnlyLate.of_overflow) fun hlate => ⟨hlate, rfl, hclock⟩

namespace Reactor

theorem lockVotes_onlyLate (r : Reactor) (amount : Int) : OnlyLate time clocks (r.lockVotes amount) :=
  lockVotes_faultsIn trivial (fun _ => trivial) trivial

theorem unlockVotes_onlyLate (r : Reactor) (amount : Int) : OnlyLate time clocks (r.unlockVotes amount) :=
  unlockVotes_faultsIn trivial fun _ => trivial

end Reactor

namespace Emission

variable {now : Int} {config : GaugeConfig} {gauge : Gauge}

theorem initGaugeConfig_onlyLate (settings : Settings) :
    OnlyLate time clocks (initGaugeConfig settings now) :=
  initGaugeConfig_faultsIn (fun _ => Fault.OnlyLate.of_request) settings

theorem initPoolGauge_onlyLate (poolId : Address) (hclock : config.clock ∈ clocks) :
    OnlyLate (some now) clocks (initPoolGauge now config poolId) :=
  initPoolGauge_faultsIn (config.advance_onlyLate hclock) poolId

theorem syncPoolIndex_onlyLate (hseen : gauge.lastSeenGlobalIndex ≤ config.index)
    (hclock : config.clock ∈ clocks) : OnlyLate (some now) clocks (syncPoolIndex now config gauge) := by
  refine syncPoolIndex_faultsIn (config.advance_onlyLate hclock) fun config' hconfig' => ?_
  obtain ⟨_, -, hadv⟩ := GaugeConfig.advance_ok hconfig'
  exact Gauge.settle_faultsIn (fun _ => Fault.OnlyLate.of_outgrown)
    (accrueShare_onlyLate (Nat.le_trans hseen hadv.index_le))

theorem changeVotes_onlyLate (personal : PersonalGauge) (amount : Int) (reactor : Reactor)
    (hseen : gauge.lastSeenGlobalIndex ≤ config.index) (hclock : config.clock ∈ clocks) :
    OnlyLate (some now) clocks (changeVotes now config gauge personal amount reactor) :=
  changeVotes_faultsIn (fun _ => Fault.OnlyLate.of_request) (fun _ => trivial)
    (syncPoolIndex_onlyLate hseen hclock)

end Emission

/-! ### The stake -/

/-- The clock of a reactor config, by the name it has in a fault. -/
def ReactorConfig.clock (c : ReactorConfig) : String × Int := ("reactor rewards", c.rewardsEmittedUntil)

theorem ReactorConfig.advance_onlyLate {c : ReactorConfig} {now : Int} (hclock : c.clock ∈ clocks) :
    OnlyLate (some now) clocks (c.advance now) :=
  advance_faultsIn (fun _ => Fault.OnlyLate.of_overflow) fun hlate => ⟨hlate, rfl, hclock⟩

namespace Staking

variable {now : Int} {config : ReactorConfig} {r : Reactor}

theorem initReactorConfig_onlyLate (settings : Settings) :
    OnlyLate time clocks (initReactorConfig settings now) :=
  initReactorConfig_faultsIn (fun _ => Fault.OnlyLate.of_request) settings

theorem settleAt_onlyLate (hseen : ∀ e : Earning, e.lastSeen r ≤ e.index config)
    (hclock : config.clock ∈ clocks) : OnlyLate (some now) clocks (settleAt now config r) := by
  refine settleAt_faultsIn (config.advance_onlyLate hclock) fun config' hconfig' => ?_
  obtain ⟨_, -, hadv⟩ := ReactorConfig.advance_ok hconfig'
  have hle : ∀ e : Earning, e.lastSeen r ≤ e.index config' := fun e =>
    Nat.le_trans (hseen e) (hadv.index_le e)
  exact Reactor.settle_faultsIn (fun _ => Fault.OnlyLate.of_outgrown)
    (accrueShare_onlyLate (hle .isoRay)) (accrueShare_onlyLate (hle .reward))

theorem depositRay_onlyLate (amount : Int) (hseen : ∀ e : Earning, e.lastSeen r ≤ e.index config)
    (hclock : config.clock ∈ clocks) : OnlyLate (some now) clocks (depositRay now config r amount) :=
  depositRay_faultsIn (fun _ => Fault.OnlyLate.of_request) (settleAt_onlyLate hseen hclock)

theorem Turn.perform_onlyLate (turn : Turn) (hseen : ∀ e : Earning, e.lastSeen r ≤ e.index config)
    (hclock : config.clock ∈ clocks) : OnlyLate (some now) clocks (turn.perform now config r) := by
  cases turn with
  | deposit amount => exact depositRay_onlyLate amount hseen hclock
  | withdraw amount =>
      refine withdrawRay_faultsIn (fun _ => Fault.OnlyLate.of_request) (settleAt_onlyLate hseen hclock) ?_
      exact fun _ _ _ _ _ => isoRaySlashAmount_faultsIn (fun _ => Fault.OnlyLate.of_overflow) _ _ _
  | sync => exact depositRay_onlyLate 0 hseen hclock
  | syncAndCollect => exact .bind (depositRay_onlyLate 0 hseen hclock) fun _ _ => .pure

end Staking

/-! ### The rewarders -/

/-- The rewarder has seen no more than there is: the clocks of the tracker and the config, the RAY of the
gauge and the time units of the position. -/
structure PersonalRewarderState.Seen (state : PersonalRewarderState) (config : GaugeConfig)
    (gauge : Gauge) (t : TimeTracker) (p : PersonalPosition) : Prop where
  tracker : state.lastUpdatedTs ≤ t.lastSeenTs
  config : state.lastUpdatedTs ≤ config.lastUpdatedTs
  emitted : state.lastSeenTotalEmittedRay ≤ gauge.totalRayEmitted
  units : state.lastSeenTimeUnits ≤ p.earnedTimeUnits

theorem PersonalRewarderState.syncAndStage_onlyLate {state : PersonalRewarderState} {now : Int}
    {emitted : ℕ} {units : Number} (hemitted : state.lastSeenTotalEmittedRay ≤ emitted)
    (hts : (state.lastUpdatedTs : Int) ≤ now) (hunits : state.lastSeenTimeUnits ≤ units) :
    OnlyLate time clocks (state.syncAndStage now emitted units) := by
  refine syncAndStage_faultsIn (fun _ => Fault.OnlyLate.of_outgrown) ?_ fun new _ hseconds =>
    reward_faultsIn (fun _ => Fault.OnlyLate.of_overflow) _ new hseconds
  -- nothing that was seen is more than there is, so no guard fires
  exact .of_answered ⟨(), checkProgress_eq_ok.mpr ⟨Int.ofNat_le.mpr hemitted, hts, hunits⟩⟩

namespace Rewarder

variable {now : Int} {config : GaugeConfig} {gauge : Gauge} {t : TimeTracker} {p : PersonalPosition}

theorem initCp_onlyLate (hposition : p.lastSeenIndex ≤ t.index)
    (hgauge : gauge.lastSeenGlobalIndex ≤ config.index) (htracker : t.clock ∈ clocks)
    (hconfig : config.clock ∈ clocks) : OnlyLate (some now) clocks (initCp now config gauge t p) :=
  initCp_faultsIn (fun _ => trivial) (fun _ => trivial)
    (Escrow.Turn.update.perform_onlyLate hposition htracker)
    (Emission.syncPoolIndex_onlyLate hgauge hconfig)

/-- An accrual moves the tracker and the config on before the rewarder looks, and by then neither the
clock nor the totals stand before those that it has seen. -/
theorem accrueCp_onlyLate {r : PersonalRewarderCp} (hposition : p.lastSeenIndex ≤ t.index)
    (hgauge : gauge.lastSeenGlobalIndex ≤ config.index) (hseen : r.rewarder.Seen config gauge t p)
    (htracker : t.clock ∈ clocks) (hconfig : config.clock ∈ clocks) :
    OnlyLate (some now) clocks (accrueCp now config gauge t p r) := by
  refine accrueCp_faultsIn (fun _ => trivial) (Escrow.Turn.update.perform_onlyLate hposition htracker)
    (Emission.syncPoolIndex_onlyLate hgauge hconfig) fun escrow synced hescrow hsynced => ?_
  obtain ⟨⟨elapsed, hnow, -⟩, hset⟩ := Escrow.sync_ok (Escrow.updatePersonal_sync hescrow)
  obtain ⟨-, hsettled⟩ := Emission.syncPoolIndex_ok hsynced
  have hts := hseen.tracker
  refine PersonalRewarderState.syncAndStage_onlyLate ?_ (by omega) ?_
  · exact hseen.emitted.trans (hsettled.emitted ▸ Nat.le_add_right _ _)
  · exact Nat.le_trans hseen.units (Number.le_iff.mpr (hset.earned ▸ Nat.le_add_right _ _))

end Rewarder

end EmissionLedger
