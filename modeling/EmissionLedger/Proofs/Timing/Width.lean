import EmissionLedger.Proofs.Payout.Rewarder
import EmissionLedger.Proofs.Timing.Idle

/-!
How late a time may be. A clock is a counter of 64 bits, but only a new tracker, a new config and a new
rewarder check that a time fits; every other operation compares it with the clock alone and stores it. So
a time before zero is always refused, and a later one than 64 bits is not: idle records are moved on to
it, and what is returned has no bytes and is refused by its contract.

Main statements: `Operation.time_limits`; `deposit_past_width`, a deposit at the first such time.
-/

namespace EmissionLedger

/-! ### Operations in time -/

/-- The operations that are handed a time. -/
inductive Timed where
  | initTimeTracker
  | initPersonalPosition
  | deposit
  | withdraw
  | updatePersonal
  | initGaugeConfig
  | initPoolGauge
  | syncPoolIndex
  | changeVotes
  | initCp
  | accrueCp
  | initCl
  | accrueCl
  | initReactorConfig
  | depositRay
  | withdrawRay
  | syncReactor
  | syncAndCollectRayRewards

/-- The last time at which an operation is not refused, for those that have one. New trackers, configs and
rewarders ask for 64 bits; to accrue a rewarder, the seconds since its last look have to be a number. -/
def Timed.latest? : Timed → Option Int
  | initTimeTracker | initGaugeConfig | initReactorConfig | initCp | initCl => some maxU64
  | accrueCp | accrueCl => some (maxU64 + maxRaw / scale : ℕ)
  | _ => none

theorem Timed.le_latest_of_none {kind : Timed} {now : Int} (h : kind.latest? = none) :
    ∀ last ∈ kind.latest?, now ≤ last := by
  rw [h]
  exact fun _ hlast => absurd hlast (Option.not_mem_none _)

theorem Timed.le_latest_of_some {kind : Timed} {now last : Int} (h : kind.latest? = some last)
    (hle : now ≤ last) : ∀ last ∈ kind.latest?, now ≤ last := by
  intro other hother
  obtain rfl := Option.some.inj (h.symm.trans hother)
  exact hle

/-- Which operation it is and the time it is handed; data that is no integer is no time. -/
def Escrow.Operation.timed? : Operation → Option (Timed × Int)
  | initTimeTracker (.int now) _ _ => some (.initTimeTracker, now)
  | initTimeTracker .. => none
  | initPersonalPosition now _ _ => some (.initPersonalPosition, now)
  | deposit now _ _ _ => some (.deposit, now)
  | withdraw now _ _ _ => some (.withdraw, now)
  | updatePersonal now _ _ => some (.updatePersonal, now)

@[inherit_doc Escrow.Operation.timed?]
def Emission.Operation.timed? : Operation → Option (Timed × Int)
  | initGaugeConfig _ (.int now) => some (.initGaugeConfig, now)
  | initGaugeConfig .. | initPersonalGauge .. => none
  | initPoolGauge now _ _ => some (.initPoolGauge, now)
  | syncPoolIndex now _ _ => some (.syncPoolIndex, now)
  | changeVotes now _ _ _ _ _ => some (.changeVotes, now)

@[inherit_doc Escrow.Operation.timed?]
def Rewarder.Operation.timed? : Operation → Option (Timed × Int)
  | initCp now _ _ _ _ => some (.initCp, now)
  | accrueCp now _ _ _ _ _ => some (.accrueCp, now)
  | initCl now _ _ _ _ => some (.initCl, now)
  | accrueCl now _ _ _ _ _ => some (.accrueCl, now)
  | collectCp _ | collectCl _ => none

@[inherit_doc Escrow.Operation.timed?]
def Staking.Operation.timed? : Operation → Option (Timed × Int)
  | initReactorConfig _ _ (.int now) => some (.initReactorConfig, now)
  | initReactorConfig .. | initReactor _ | lockVotes .. | unlockVotes .. | collectRayRewards _ => none
  | depositRay now _ _ _ => some (.depositRay, now)
  | withdrawRay now _ _ _ => some (.withdrawRay, now)
  | syncReactor now _ _ => some (.syncReactor, now)
  | syncAndCollectRayRewards now _ _ => some (.syncAndCollectRayRewards, now)

@[inherit_doc Escrow.Operation.timed?]
def Operation.timed? : Operation → Option (Timed × Int)
  | escrow op => op.timed?
  | emission op => op.timed?
  | rewarder op => op.timed?
  | staking op => op.timed?

/-! ### Clocks -/

/-- The time at which a record stands that others are settled against. -/
def Record.clock? : Record → Option ℕ
  | ⟨.timeTracker, t⟩ => some (TimeTracker.lastSeenTs t)
  | ⟨.gaugeConfig, c⟩ => some (GaugeConfig.lastUpdatedTs c)
  | ⟨.reactorConfig, c⟩ => some (ReactorConfig.rewardsEmittedUntil c)
  | _ => none

/-- A stored record that breaks no rule of its kind and still is not well-formed has a counter past its
width; so it has no bytes, and its contract refuses it. -/
theorem Record.refused_of_not_wellFormed {kind : RecordKind} {a : kind.Carrier}
    (stored : kind.isStored = true) (unbroken : kind.brokenRule? a = none) (bad : ¬kind.WellFormed a) :
    encode ⟨kind, a⟩ = .error .fieldTooWide ∧
      ∃ violations, toContractJson ⟨kind, a⟩ = .error (.contractBroken violations) := by
  have laid : kind.hasLayout = true := by rw [RecordKind.hasLayout, stored]; rfl
  obtain ⟨form, laidOut⟩ := RecordKind.layout_of_hasLayout laid
  obtain ⟨formed, -⟩ := RecordKind.form?_of_layout laidOut
  have outside : ¬form.shape.InRange (form.toRow a) := fun range =>
    bad ((RecordKind.wellFormed_iff formed a).mpr ⟨range, unbroken⟩)
  refine ⟨?_, toContractJson_of_not_inRange stored formed outside⟩
  rw [encode_eq_encodeAs stored, encodeAs_eq laidOut, Form.encode_of_not_inRange outside]

/-- A record whose clock is past 64 bits is of no use any more. -/
theorem Record.refused_of_clock {r : Record} {ts : ℕ} (hclock : r.clock? = some ts) (hlate : maxU64 < ts) :
    r.encode = .error .fieldTooWide ∧
      ∃ violations, r.toContractJson = .error (.contractBroken violations) := by
  obtain ⟨kind, a⟩ := r
  cases kind <;> cases hclock
  case timeTracker => exact refused_of_not_wellFormed rfl rfl fun good => not_le.mpr hlate good.2
  case gaugeConfig => exact refused_of_not_wellFormed rfl rfl fun good => not_le.mpr hlate good.2.2
  case reactorConfig =>
    exact refused_of_not_wellFormed rfl rfl fun good => not_le.mpr hlate good.2.2.2

/-- One of the records stands at a time. -/
def StandsAt (now : Int) (records : List Record) : Prop :=
  ∃ r ∈ records, ∃ ts : ℕ, r.clock? = some ts ∧ (ts : Int) = now

theorem StandsAt.head {now : Int} {r : Record} {rest : List Record} {ts : ℕ} (hclock : r.clock? = some ts)
    (hts : (ts : Int) = now) : StandsAt now (r :: rest) :=
  ⟨r, List.mem_cons_self, ts, hclock, hts⟩

/-! ### An operation that is answered -/

/-- A time that is checked in raw data. -/
theorem requireU64Json_eq_ok {name : String} {n : Int} {a : ℕ} :
    requireU64Json name (.int n) = .ok a ↔ a ≤ maxU64 ∧ n = a := by
  rw [← requireU64_eq_ok]
  rfl

namespace Escrow

theorem Moved.ts {now : Int} {t : TimeTracker} {p : PersonalPosition} {out : Outcome} {change : ℤ}
    (h : Moved now t p out change) : (out.timeTracker.lastSeenTs : Int) = now := by
  obtain ⟨t', p', hsync, htracker, -⟩ := h.synced
  have hts := TimeTracker.ts_of_advance (sync_eq_ok.mp hsync).1
  rw [htracker]
  exact hts

theorem Operation.run_timed {op : Operation} {kind : Timed} {now : Int} {out : List Record}
    (hop : op.timed? = some (kind, now)) (h : op.run = .ok out) :
    StandsAt now out ∧ ∀ last ∈ kind.latest?, now ≤ last := by
  cases op with
  | initTimeTracker raw poolId escrowAccount =>
      cases raw <;> cases hop
      simp only [run, initTimeTrackerOfJson, Escrow.initTimeTracker, bind_eq_ok, pure_eq_ok, requireU64_eq_ok,
        requireU64Json_eq_ok] at h
      obtain ⟨t, ⟨given, ⟨-, rfl⟩, _, -, start, ⟨hfits, hstart⟩, rfl⟩, rfl⟩ := h
      exact ⟨.head rfl hstart.symm, Timed.le_latest_of_some rfl (by omega)⟩
  | initPersonalPosition time tracker owner =>
      cases hop
      simp only [run, initPersonalPositionOfJson, bind_eq_ok, pure_eq_ok] at h
      obtain ⟨out, ⟨_, -, _, -, hinit⟩, rfl⟩ := h
      have hts := TimeTracker.ts_of_advance (initPersonalPosition_ok hinit).1
      exact ⟨.head rfl hts, Timed.le_latest_of_none rfl⟩
  | deposit time tracker position amount =>
      cases hop
      simp only [run, depositOfJson, bind_eq_ok, pure_eq_ok] at h
      obtain ⟨out, ⟨_, -, hdeposit⟩, rfl⟩ := h
      exact ⟨.head rfl (deposit_ok hdeposit).1.ts, Timed.le_latest_of_none rfl⟩
  | withdraw time tracker position amount =>
      cases hop
      simp only [run, withdrawOfJson, bind_eq_ok, pure_eq_ok] at h
      obtain ⟨out, ⟨_, -, hwithdraw⟩, rfl⟩ := h
      exact ⟨.head rfl (withdraw_ok hwithdraw).1.ts, Timed.le_latest_of_none rfl⟩
  | updatePersonal time tracker position =>
      cases hop
      obtain ⟨out, hupdate, rfl⟩ := return_eq_ok.mp h
      exact ⟨.head rfl (updatePersonal_ok hupdate).1.ts, Timed.le_latest_of_none rfl⟩

end Escrow

namespace Emission

theorem syncPoolIndex_ts {now : Int} {config : GaugeConfig} {gauge : Gauge} {out : Synced}
    (h : syncPoolIndex now config gauge = .ok out) : (out.config.lastUpdatedTs : Int) = now :=
  GaugeConfig.ts_of_advance (syncPoolIndex_eq_ok.mp h).1

theorem Operation.run_timed {op : Operation} {kind : Timed} {now : Int} {out : List Record}
    (hop : op.timed? = some (kind, now)) (h : op.run = .ok out) :
    StandsAt now out ∧ ∀ last ∈ kind.latest?, now ≤ last := by
  cases op with
  | initGaugeConfig perDay raw =>
      cases raw <;> cases hop
      simp only [run, initGaugeConfigOfJson, Emission.initGaugeConfig, requireInteger, ok_bind, bind_eq_ok,
        pure_eq_ok, requireU64_eq_ok] at h
      obtain ⟨_, -, config, ⟨start, ⟨hfits, hstart⟩, rfl⟩, rfl⟩ := h
      exact ⟨.head rfl hstart.symm, Timed.le_latest_of_some rfl (by omega)⟩
  | initPoolGauge time config poolId =>
      cases hop
      simp only [run, initPoolGaugeOfJson, bind_eq_ok, pure_eq_ok] at h
      obtain ⟨out, ⟨_, -, _, -, hinit⟩, rfl⟩ := h
      exact ⟨.head rfl (GaugeConfig.ts_of_advance (initPoolGauge_ok hinit).1), Timed.le_latest_of_none rfl⟩
  | initPersonalGauge owner gauge => cases hop
  | syncPoolIndex time config gauge =>
      cases hop
      obtain ⟨out, hsync, rfl⟩ := return_eq_ok.mp h
      exact ⟨.head rfl (syncPoolIndex_ts hsync), Timed.le_latest_of_none rfl⟩
  | changeVotes time config gauge personal amount reactor =>
      cases hop
      simp only [run, changeVotesOfJson, bind_eq_ok, pure_eq_ok] at h
      obtain ⟨out, ⟨_, -, h⟩, rfl⟩ := h
      cases reactor with
      | inr kind => cases h
      | inl reactor =>
          obtain ⟨synced, hsync, hconfig, -⟩ := (changeVotes_ok h).synced
          refine ⟨.head rfl ?_, Timed.le_latest_of_none rfl⟩
          rw [hconfig]
          exact syncPoolIndex_ts hsync

end Emission

namespace PersonalRewarderState

/-- A look is answered only if the seconds since the last one are a number. -/
theorem syncAndStage_le {state : PersonalRewarderState} {now : Int} {emitted : ℕ} {units : Number}
    {out : Staged} (hstate : state.WellFormed) (h : state.syncAndStage now emitted units = .ok out) :
    now ≤ (maxU64 + maxRaw / scale : ℕ) := by
  have hwidth : state.lastUpdatedTs ≤ maxU64 := hstate.2.1
  have hscale : 0 < scale := by decide
  simp only [syncAndStage, bind_eq_ok] at h
  obtain ⟨_, -, h⟩ := h
  have hseconds : (now - state.lastUpdatedTs).toNat ≤ maxRaw / scale := by
    split at h
    · rename_i hnone
      exact hnone.trans_le (Nat.zero_le _)
    · simp only [reward, Number.ofRatio, bind_eq_ok, Number.ofNatural_eq_ok] at h
      obtain ⟨_, -, _, ⟨_, ⟨_, -, divisor, hdivisor, -⟩, -⟩, -⟩ := h
      rw [Nat.le_div_iff_mul_le hscale, ← hdivisor]
      exact divisor.raw_le
  generalize maxRaw / scale = longest at hseconds ⊢
  omega

end PersonalRewarderState

namespace Rewarder

theorem Operation.run_timed {op : Operation} {kind : Timed} {now : Int} {out : List Record}
    (hop : op.timed? = some (kind, now)) (handed : ∀ r ∈ op.records, r.WellFormed)
    (h : op.run = .ok out) : StandsAt now out ∧ ∀ last ∈ kind.latest?, now ≤ last := by
  cases op with
  | initCp time config gauge tracker position =>
      cases hop
      obtain ⟨out, hinit, rfl⟩ := return_eq_ok.mp h
      obtain ⟨-, hsync, hstart⟩ := initCp_ok hinit
      exact ⟨.head rfl (Emission.syncPoolIndex_ts hsync),
        Timed.le_latest_of_some rfl (PersonalRewarderState.start_eq_ok.mp hstart).2.1⟩
  | accrueCp time config gauge tracker position rewarder =>
      cases hop
      obtain ⟨out, haccrue, rfl⟩ := return_eq_ok.mp h
      obtain ⟨-, hsync, hstage⟩ := accrueCp_ok haccrue
      have hr : rewarder.WellFormed := handed ⟨.personalRewarderCp, rewarder⟩ (by simp)
      exact ⟨.head rfl (Emission.syncPoolIndex_ts hsync),
        Timed.le_latest_of_some rfl (PersonalRewarderState.syncAndStage_le hr hstage)⟩
  | collectCp rewarder => cases hop
  | initCl time config gauge snapshot mint =>
      cases hop
      obtain ⟨out, hinit, rfl⟩ := return_eq_ok.mp h
      obtain ⟨hsync, units, -, hstart⟩ := initCl_ok hinit
      exact ⟨.head rfl (Emission.syncPoolIndex_ts hsync),
        Timed.le_latest_of_some rfl (PersonalRewarderState.start_eq_ok.mp hstart).2.1⟩
  | accrueCl time config gauge snapshot mint rewarder =>
      cases hop
      obtain ⟨out, haccrue, rfl⟩ := return_eq_ok.mp h
      obtain ⟨hsync, units, -, hstage⟩ := accrueCl_ok haccrue
      have hr : rewarder.WellFormed := handed ⟨.personalRewarderCl, rewarder⟩ (by simp)
      exact ⟨.head rfl (Emission.syncPoolIndex_ts hsync),
        Timed.le_latest_of_some rfl (PersonalRewarderState.syncAndStage_le hr hstage)⟩
  | collectCl rewarder => cases hop

end Rewarder

namespace Staking

theorem Applied.ts {now : Int} {config : ReactorConfig} {r : Reactor} {result : Outcome} {change : ℤ}
    {out : Earning → ℕ} (h : Applied now config r result change out) :
    (result.config.rewardsEmittedUntil : Int) = now := by
  obtain ⟨config', r', hsettle, hconfig, -⟩ := h.settled
  have hts := ReactorConfig.ts_of_advance (settleAt_ok hsettle).1
  rw [hconfig]
  exact hts

theorem Operation.run_timed {op : Operation} {kind : Timed} {now : Int} {out : List Record}
    (hop : op.timed? = some (kind, now)) (h : op.run = .ok out) :
    StandsAt now out ∧ ∀ last ∈ kind.latest?, now ≤ last := by
  cases op with
  | initReactorConfig daily apr raw =>
      cases raw <;> cases hop
      simp only [run, initReactorConfigOfJson, Staking.initReactorConfig, bind_eq_ok, pure_eq_ok,
        requireU64_eq_ok, requireU64Json_eq_ok] at h
      obtain ⟨_, -, config, ⟨given, ⟨-, rfl⟩, _, -, start, ⟨hfits, hstart⟩, rfl⟩, rfl⟩ := h
      exact ⟨.head rfl hstart.symm, Timed.le_latest_of_some rfl (by omega)⟩
  | initReactor owner => cases hop
  | depositRay time config r amount =>
      cases hop
      simp only [run, depositRayOfJson, bind_eq_ok, pure_eq_ok] at h
      obtain ⟨out, ⟨_, -, hdeposit⟩, rfl⟩ := h
      exact ⟨.head rfl (depositRay_applied hdeposit).ts, Timed.le_latest_of_none rfl⟩
  | withdrawRay time config r amount =>
      cases hop
      simp only [run, withdrawRayOfJson, bind_eq_ok, pure_eq_ok] at h
      obtain ⟨out, ⟨_, -, hwithdraw⟩, rfl⟩ := h
      exact ⟨.head rfl (withdrawRay_applied hwithdraw).ts, Timed.le_latest_of_none rfl⟩
  | syncReactor time config r =>
      cases hop
      obtain ⟨out, hsync, rfl⟩ := return_eq_ok.mp h
      exact ⟨.head rfl (depositRay_applied hsync).ts, Timed.le_latest_of_none rfl⟩
  | lockVotes r amount => cases hop
  | unlockVotes r amount => cases hop
  | collectRayRewards r => cases hop
  | syncAndCollectRayRewards time config r =>
      cases hop
      obtain ⟨out, hsync, rfl⟩ := return_eq_ok.mp h
      exact ⟨.head rfl (syncAndCollectRayRewards_applied hsync).ts, Timed.le_latest_of_none rfl⟩

end Staking

/-- What is returned stands at the time, and the time is not past the last one for the operation. -/
theorem Operation.run_timed {op : Operation} {kind : Timed} {now : Int} {out : List Record}
    (hop : op.timed? = some (kind, now)) (handed : ∀ r ∈ op.records, r.WellFormed)
    (h : op.run = .ok out) : StandsAt now out ∧ ∀ last ∈ kind.latest?, now ≤ last := by
  cases op with
  | escrow op => exact Escrow.Operation.run_timed hop h
  | emission op => exact Emission.Operation.run_timed hop h
  | rewarder op => exact Rewarder.Operation.run_timed hop handed h
  | staking op => exact Staking.Operation.run_timed hop h

/-! ### Fresh records -/

namespace Fresh

def tracker : TimeTracker :=
  { poolId := .zero, escrowAccount := .zero, index := .zero, totalLpDeposited := 0, lastSeenTs := 0 }

def position : PersonalPosition :=
  { owner := .zero, timeTracker := .zero, amount := 0, lastSeenIndex := .zero, earnedTimeUnits := .zero }

def emission : GaugeConfig := { totalVotes := 0, rayEmissionPerDay := 0, index := .zero, lastUpdatedTs := 0 }

def gauge : Gauge :=
  { poolId := .zero, totalVotes := 0, lastSeenGlobalIndex := .zero, totalRayEmitted := 0 }

def pledge : PersonalGauge := { owner := .zero, poolGauge := .zero, votes := 0 }

def snapshot : ClPositionSnapshot :=
  { position := .zero, pool := .zero, rewardInfos := [{ mint := .zero, rewardAmountOwed := 0 }] }

def stake : ReactorConfig :=
  { totalRayDeposited := 0, rayRewardDailyEmission := 0, rayRewardIndex := .zero, isoRayAprBps := 0
    isoRayIndex := .zero, rewardsEmittedUntil := 0 }

def reactor : Reactor := Staking.initReactor .zero

/-- What a rewarder has seen that looked as late before `now` as its clock allows. -/
def seen (now : Int) : PersonalRewarderState :=
  { lastSeenTimeUnits := .zero, lastSeenTotalEmittedRay := 0, lastUpdatedTs := min now.toNat maxU64
    stagedRay := 0 }

def address : Json := .str Address.zero.text

end Fresh

/-- The operation of a kind on records that were opened at time zero, with which nothing was done. -/
def Timed.onFresh (now : Int) : Timed → Operation
  | initTimeTracker => .escrow (.initTimeTracker (.int now) Fresh.address Fresh.address)
  | initPersonalPosition => .escrow (.initPersonalPosition now Fresh.tracker Fresh.address)
  | deposit => .escrow (.deposit now Fresh.tracker Fresh.position (.int 0))
  | withdraw => .escrow (.withdraw now Fresh.tracker Fresh.position (.int 0))
  | updatePersonal => .escrow (.updatePersonal now Fresh.tracker Fresh.position)
  | initGaugeConfig => .emission (.initGaugeConfig none (.int now))
  | initPoolGauge => .emission (.initPoolGauge now Fresh.emission Fresh.address)
  | syncPoolIndex => .emission (.syncPoolIndex now Fresh.emission Fresh.gauge)
  | changeVotes =>
    .emission (.changeVotes now Fresh.emission Fresh.gauge Fresh.pledge (.int 0) (.inl Fresh.reactor))
  | initCp => .rewarder (.initCp now Fresh.emission Fresh.gauge Fresh.tracker Fresh.position)
  | accrueCp =>
    .rewarder (.accrueCp now Fresh.emission Fresh.gauge Fresh.tracker Fresh.position
      ⟨.zero, .zero, Fresh.seen now⟩)
  | initCl => .rewarder (.initCl now Fresh.emission Fresh.gauge Fresh.snapshot Address.zero.text)
  | accrueCl =>
    .rewarder (.accrueCl now Fresh.emission Fresh.gauge Fresh.snapshot Address.zero.text
      ⟨.zero, .zero, .zero, Fresh.seen now⟩)
  | initReactorConfig => .staking (.initReactorConfig none none (.int now))
  | depositRay => .staking (.depositRay now Fresh.stake Fresh.reactor (.int 0))
  | withdrawRay => .staking (.withdrawRay now Fresh.stake Fresh.reactor (.int 0))
  | syncReactor => .staking (.syncReactor now Fresh.stake Fresh.reactor)
  | syncAndCollectRayRewards => .staking (.syncAndCollectRayRewards now Fresh.stake Fresh.reactor)

theorem Timed.timed?_onFresh (kind : Timed) (now : Int) :
    (kind.onFresh now).timed? = some (kind, now) := by
  cases kind <;> rfl

namespace Fresh

theorem tracker_wellFormed : tracker.WellFormed := ⟨Nat.zero_le _, Nat.zero_le _⟩

theorem emission_wellFormed : emission.WellFormed := ⟨Nat.zero_le _, Nat.zero_le _, Nat.zero_le _⟩

theorem gauge_wellFormed : gauge.WellFormed := ⟨Nat.zero_le _, Nat.zero_le _⟩

theorem snapshot_wellFormed : snapshot.WellFormed :=
  ⟨by decide, List.forall_mem_singleton.mpr (Nat.zero_le _)⟩

theorem stake_wellFormed : stake.WellFormed :=
  ⟨Nat.zero_le _, Nat.zero_le _, Nat.zero_le _, Nat.zero_le _⟩

theorem reactor_wellFormed : reactor.WellFormed :=
  ⟨Nat.zero_le _, Nat.zero_le _, Nat.zero_le _, Nat.zero_le _, Nat.le_refl _⟩

theorem seen_wellFormed (now : Int) : (seen now).WellFormed :=
  ⟨Nat.zero_le _, Nat.min_le_right _ _, Nat.zero_le _⟩

end Fresh

theorem Timed.onFresh_wellFormed (kind : Timed) (now : Int) :
    ∀ r ∈ (kind.onFresh now).records, r.WellFormed := by
  have hposition : Fresh.position.WellFormed := Nat.zero_le _
  have hpledge : Fresh.pledge.WellFormed := Nat.zero_le _
  cases kind <;>
    simp [onFresh, Operation.records, Fresh.tracker_wellFormed, Fresh.emission_wellFormed,
      Fresh.gauge_wellFormed, Fresh.snapshot_wellFormed, Fresh.stake_wellFormed, Fresh.reactor_wellFormed,
      Fresh.seen_wellFormed, hposition, hpledge]

/-! ### Fresh records at any time -/

namespace Fresh

variable {now : Int}

theorem addressFor_address (kind : RecordKind) (field : String) :
    addressFor kind field address = .ok .zero := by
  simp only [addressFor, address, readAddress_text]
  rfl

theorem sync_answer (hnow : 0 ≤ now) :
    Escrow.sync now tracker position = .ok ({ tracker with lastSeenTs := now.toNat }, position) :=
  Escrow.sync_idle rfl hnow rfl rfl

theorem updatePersonal_answer (hnow : 0 ≤ now) : Escrow.updatePersonal now tracker position =
    .ok ⟨{ tracker with lastSeenTs := now.toNat }, position, 0⟩ := by
  rw [Escrow.updatePersonal, sync_answer hnow]
  rfl

theorem syncPoolIndex_answer (hnow : 0 ≤ now) : Emission.syncPoolIndex now emission gauge =
    .ok ⟨{ emission with lastUpdatedTs := now.toNat }, gauge⟩ :=
  Emission.syncPoolIndex_idle emission_wellFormed rfl hnow rfl

theorem settleAt_answer (hnow : 0 ≤ now) : Staking.settleAt now stake reactor =
    .ok ({ stake with rewardsEmittedUntil := now.toNat }, reactor) :=
  Staking.settleAt_idle stake_wellFormed rfl hnow rfl rfl (Nat.zero_le _)

theorem depositRay_answer (hnow : 0 ≤ now) : Staking.depositRay now stake reactor 0 =
    .ok ⟨{ stake with rewardsEmittedUntil := now.toNat }, reactor, 0, 0⟩ := by
  have hzero : requireU64 "amount" 0 = .ok 0 := rfl
  simp only [Staking.depositRay, hzero, settleAt_answer hnow, ok_bind]
  rfl

theorem checkClPool_answer : Rewarder.checkClPool gauge snapshot = .ok () := rfl

theorem earnedTimeUnits_answer : snapshot.earnedTimeUnits Address.zero.text = .ok .zero :=
  toOption_eq_some.mp (by decide +kernel)

theorem syncAndStage_answer (hnow : 0 ≤ now) (hlast : now ≤ (maxU64 + maxRaw / scale : ℕ)) :
    ∃ out, (seen now).syncAndStage now (0 : ℕ) .zero = .ok out := by
  have hclock : ((seen now).lastUpdatedTs : Int) ≤ now := by
    simp only [seen]
    omega
  refine PersonalRewarderState.syncAndStage_idle (seen_wellFormed now) hclock ?_
  have hlongest : (now - (seen now).lastUpdatedTs).toNat ≤ maxRaw / scale := by
    simp only [seen]
    generalize maxRaw / scale = longest at hlast ⊢
    omega
  exact (Nat.le_div_iff_mul_le (by decide)).mp hlongest

end Fresh

/-- A time of 64 bits passes its check. -/
theorem requireU64_of_le {name : String} {n : Int} (hnonneg : 0 ≤ n) (hfits : n ≤ maxU64) :
    requireU64 name n = .ok n.toNat :=
  requireU64_eq_ok.mpr ⟨Int.toNat_le.mpr hfits, (Int.toNat_of_nonneg hnonneg).symm⟩

theorem Timed.onFresh_answered (kind : Timed) {now : Int} (hnow : 0 ≤ now)
    (hlast : ∀ last ∈ kind.latest?, now ≤ last) : ∃ out, (kind.onFresh now).run = .ok out := by
  have hzero : requireU64 "amount" 0 = .ok 0 := rfl
  cases kind with
  | initTimeTracker =>
      have hfits : requireU64 "now" now = .ok now.toNat := requireU64_of_le hnow (hlast _ rfl)
      simp only [onFresh, Operation.run, Escrow.Operation.run, Escrow.initTimeTrackerOfJson, requireU64Json,
        requireInteger, hfits, Int.toNat_of_nonneg hnow, Fresh.address, readAddress_text,
        Escrow.initTimeTracker, ok_bind]
      exact ⟨_, rfl⟩
  | initPersonalPosition =>
      simp only [onFresh, Operation.run, Escrow.Operation.run, Escrow.initPersonalPositionOfJson,
        Escrow.initPersonalPosition, TimeTracker.advance_idle (t := Fresh.tracker) rfl hnow,
        Fresh.addressFor_address, ok_bind]
      exact ⟨_, rfl⟩
  | deposit =>
      simp only [onFresh, Operation.run, Escrow.Operation.run, Escrow.depositOfJson, requireInteger, ok_bind,
        Escrow.deposit, hzero, Fresh.sync_answer hnow]
      exact ⟨_, rfl⟩
  | withdraw =>
      simp only [onFresh, Operation.run, Escrow.Operation.run, Escrow.withdrawOfJson, requireInteger, ok_bind,
        Escrow.withdraw, hzero, Fresh.sync_answer hnow]
      exact ⟨_, rfl⟩
  | updatePersonal =>
      simp only [onFresh, Operation.run, Escrow.Operation.run, Fresh.updatePersonal_answer hnow, ok_bind]
      exact ⟨_, rfl⟩
  | initGaugeConfig =>
      have hfits : requireU64 "now" now = .ok now.toNat := requireU64_of_le hnow (hlast _ rfl)
      have hsettings : Emission.settingsOfJson none = .ok ⟨0⟩ := rfl
      simp only [onFresh, Operation.run, Emission.Operation.run, hsettings, Emission.initGaugeConfigOfJson,
        requireInteger, Emission.initGaugeConfig, hfits, ok_bind]
      exact ⟨_, rfl⟩
  | initPoolGauge =>
      simp only [onFresh, Operation.run, Emission.Operation.run, Emission.initPoolGaugeOfJson,
        Emission.initPoolGauge, GaugeConfig.advance_idle Fresh.emission_wellFormed rfl hnow,
        Fresh.addressFor_address, ok_bind]
      exact ⟨_, rfl⟩
  | syncPoolIndex =>
      simp only [onFresh, Operation.run, Emission.Operation.run, ok_bind, Fresh.syncPoolIndex_answer hnow]
      exact ⟨_, rfl⟩
  | changeVotes =>
      have hnone : requireI64 "amount" 0 = .ok 0 := rfl
      simp only [onFresh, Operation.run, Emission.Operation.run, Emission.changeVotesOfJson, requireI64Json,
        requireInteger, hnone, Emission.changeVotes, Fresh.syncPoolIndex_answer hnow, ok_bind]
      exact ⟨_, rfl⟩
  | initCp =>
      have hstart : PersonalRewarderState.start now Fresh.gauge .zero = .ok ⟨.zero, 0, now.toNat, 0⟩ :=
        PersonalRewarderState.start_eq_ok.mpr ⟨hnow, hlast _ rfl, rfl⟩
      have hpool : Rewarder.checkCpPool Fresh.gauge Fresh.tracker = .ok () := rfl
      simp only [onFresh, Operation.run, Rewarder.Operation.run, Rewarder.initCp, hpool,
        Fresh.updatePersonal_answer hnow, Fresh.syncPoolIndex_answer hnow, ok_bind]
      exact bind_answered (bind_ok hstart rfl) ⟨_, rfl⟩
  | accrueCp =>
      obtain ⟨staged, hstaged⟩ := Fresh.syncAndStage_answer hnow (hlast _ rfl)
      have hpool : Rewarder.checkCpPool Fresh.gauge Fresh.tracker = .ok () := rfl
      have hlinks : Rewarder.checkCpLinks Fresh.gauge Fresh.position ⟨.zero, .zero, Fresh.seen now⟩ = .ok () :=
        rfl
      simp only [onFresh, Operation.run, Rewarder.Operation.run, Rewarder.accrueCp, hpool, hlinks,
        Fresh.updatePersonal_answer hnow, Fresh.syncPoolIndex_answer hnow, ok_bind]
      exact bind_answered (bind_ok hstaged rfl) ⟨_, rfl⟩
  | initCl =>
      have hstart : PersonalRewarderState.start now Fresh.gauge .zero = .ok ⟨.zero, 0, now.toNat, 0⟩ :=
        PersonalRewarderState.start_eq_ok.mpr ⟨hnow, hlast _ rfl, rfl⟩
      simp only [onFresh, Operation.run, Rewarder.Operation.run, Rewarder.initCl, Fresh.checkClPool_answer,
        Fresh.syncPoolIndex_answer hnow, Fresh.earnedTimeUnits_answer, ok_bind]
      exact bind_answered (bind_ok hstart rfl) ⟨_, rfl⟩
  | accrueCl =>
      obtain ⟨staged, hstaged⟩ := Fresh.syncAndStage_answer hnow (hlast _ rfl)
      have hlinks : Rewarder.checkClLinks Fresh.gauge Fresh.snapshot
          ⟨.zero, .zero, .zero, Fresh.seen now⟩ = .ok () := rfl
      simp only [onFresh, Operation.run, Rewarder.Operation.run, Rewarder.accrueCl, Fresh.checkClPool_answer,
        hlinks, Fresh.syncPoolIndex_answer hnow, Fresh.earnedTimeUnits_answer, ok_bind]
      exact bind_answered (bind_ok hstaged rfl) ⟨_, rfl⟩
  | initReactorConfig =>
      have hfits : requireU64 "now" now = .ok now.toNat := requireU64_of_le hnow (hlast _ rfl)
      have hsettings : Staking.settingsOfJson none none = .ok ⟨0, .int 0⟩ := rfl
      simp only [onFresh, Operation.run, Staking.Operation.run, hsettings, Staking.initReactorConfigOfJson,
        requireU64Json, requireInteger, hfits, Int.toNat_of_nonneg hnow, Staking.initReactorConfig, ok_bind]
      exact ⟨_, rfl⟩
  | depositRay =>
      simp only [onFresh, Operation.run, Staking.Operation.run, Staking.depositRayOfJson, requireInteger,
        Fresh.depositRay_answer hnow, ok_bind]
      exact ⟨_, rfl⟩
  | withdrawRay =>
      simp only [onFresh, Operation.run, Staking.Operation.run, Staking.withdrawRayOfJson, requireInteger,
        ok_bind, Staking.withdrawRay, hzero, Fresh.settleAt_answer hnow]
      exact ⟨_, rfl⟩
  | syncReactor =>
      simp only [onFresh, Operation.run, Staking.Operation.run, Staking.syncReactor,
        Fresh.depositRay_answer hnow, ok_bind]
      exact ⟨_, rfl⟩
  | syncAndCollectRayRewards =>
      simp only [onFresh, Operation.run, Staking.Operation.run, Staking.syncAndCollectRayRewards,
        Staking.syncReactor, Fresh.depositRay_answer hnow, ok_bind]
      exact ⟨_, rfl⟩

/-- A kind of operation refuses a time whatever the records are exactly if the time is before zero or later
than the last one for the kind; most kinds have none. What is returned at a time past 64 bits has a record
that stands at it, without bytes and against its contract. -/
theorem Operation.time_limits (kind : Timed) (now : Int) :
    ((∀ op : Operation, op.timed? = some (kind, now) → (∀ r ∈ op.records, r.WellFormed) →
        ∃ fault, op.run = .error fault) ↔
      now < 0 ∨ ∃ last ∈ kind.latest?, last < now) ∧
    ∀ (op : Operation) (out : List Record), op.timed? = some (kind, now) →
      (∀ r ∈ op.records, r.WellFormed) → op.run = .ok out → (maxU64 : Int) < now →
      ∃ r ∈ out, r.clock? = some now.toNat ∧ r.encode = .error .fieldTooWide ∧
        ∃ violations, r.toContractJson = .error (.contractBroken violations) := by
  refine ⟨⟨fun refused => ?_, fun outside op hop handed => ?_⟩, fun op out hop handed hrun hlate => ?_⟩
  · -- fresh records are a case that is answered at every other time
    by_contra hinside
    push Not at hinside
    obtain ⟨hnow, hlast⟩ := hinside
    obtain ⟨out, hanswer⟩ := kind.onFresh_answered hnow hlast
    obtain ⟨fault, hfault⟩ := refused _ (kind.timed?_onFresh now) (kind.onFresh_wellFormed now)
    cases hanswer.symm.trans hfault
  · cases hrun : op.run with
    | error fault => exact ⟨fault, rfl⟩
    | ok out =>
        obtain ⟨⟨r, -, ts, -, hts⟩, hlast⟩ := Operation.run_timed hop handed hrun
        obtain hneg | ⟨last, hmem, hlate⟩ := outside
        · omega
        · exact absurd (hlast last hmem) (not_le.mpr hlate)
  · obtain ⟨⟨r, hmem, ts, hclock, hts⟩, -⟩ := Operation.run_timed hop handed hrun
    obtain rfl : now.toNat = ts := by omega
    exact ⟨r, hmem, hclock, Record.refused_of_clock hclock (by omega)⟩

/-- A deposit at the first time past 64 bits is answered with a tracker that stands there. It can be
neither stored nor handed out. -/
theorem deposit_past_width :
    let op : Operation := .escrow (.deposit (maxU64 + 1 : ℕ) Fresh.tracker Fresh.position (.int 1))
    let late : Record :=
      ⟨.timeTracker, { Fresh.tracker with totalLpDeposited := 1, lastSeenTs := maxU64 + 1 }⟩
    (∀ r ∈ op.records, r.WellFormed) ∧
      op.run = .ok [late, ⟨.personalPosition, { Fresh.position with amount := 1 }⟩] ∧
      late.encode = .error .fieldTooWide ∧
      ∃ violations, late.toContractJson = .error (.contractBroken violations) := by
  intro op late
  have hnow : (0 : Int) ≤ (maxU64 + 1 : ℕ) := Int.natCast_nonneg _
  refine ⟨?_, ?_, Record.refused_of_clock rfl (Nat.lt_succ_self _)⟩
  · have hposition : Fresh.position.WellFormed := Nat.zero_le _
    simp [op, Operation.records, Fresh.tracker_wellFormed, hposition]
  · have hone : requireU64 "amount" 1 = .ok 1 := rfl
    simp only [op, late, Operation.run, Escrow.Operation.run, Escrow.depositOfJson, requireInteger, ok_bind,
      Escrow.deposit, hone, Fresh.sync_answer hnow]
    rfl

end EmissionLedger
