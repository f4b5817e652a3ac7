import EmissionLedger.Proofs.Escrow.Withdrawal
import EmissionLedger.Proofs.Ledger.Closure

/-!
How far an index can have come. An index gains at most its rate times the seconds that pass, so by the
time of its clock it has gained at most the rate times that clock; what an account has credited follows
from the index that it has seen. All rates, shares and clocks have 64 bits, so no number of the ledger
ever comes near 256 bits.

The bounds are properties of each record alone. They are kept whatever records are brought together,
also old ones that a later operation has replaced.

Main statement: `Operation.run_headroom`.
-/

namespace EmissionLedger

/-! ### Bounds of records -/

/-- A well-formed tracker whose index has gained at most one unit a second. -/
structure TimeTracker.Headroom (t : TimeTracker) : Prop where
  wellFormed : t.WellFormed
  index : t.index.raw ≤ t.lastSeenTs * scale

/-- A well-formed position that has earned at most the index it has seen for each of `maxU64` tokens. -/
structure PersonalPosition.Headroom (p : PersonalPosition) : Prop where
  wellFormed : p.WellFormed
  seen : p.lastSeenIndex.raw ≤ maxU64 * scale
  earned : p.earnedTimeUnits.raw ≤ maxU64 * p.lastSeenIndex.raw

/-- A well-formed config whose index has gained at most the emission each second. -/
structure GaugeConfig.Headroom (c : GaugeConfig) : Prop where
  wellFormed : c.WellFormed
  index : c.index.raw ≤ c.rayEmissionPerDay * (c.lastUpdatedTs * scale)

/-- What an earning gains at most each second. -/
def Earning.limit : Earning → ReactorConfig → ℕ
  | reward, c => c.rayRewardDailyEmission
  | isoRay, c => c.isoRayAprBps

/-- A well-formed config both of whose indices have gained at most their limit each second. -/
structure ReactorConfig.Headroom (c : ReactorConfig) : Prop where
  wellFormed : c.WellFormed
  index : ∀ e : Earning, (e.index c).raw ≤ e.limit c * (c.rewardsEmittedUntil * scale)

/-- A well-formed record within the bounds of its kind. -/
@[simp] def Record.Headroom : Record → Prop
  | ⟨.timeTracker, t⟩ => TimeTracker.Headroom t
  | ⟨.personalPosition, p⟩ => PersonalPosition.Headroom p
  | ⟨.gaugeConfig, c⟩ => GaugeConfig.Headroom c
  | ⟨.reactorConfig, c⟩ => ReactorConfig.Headroom c
  | ⟨kind, a⟩ => kind.WellFormed a

theorem Record.Headroom.wellFormed : ∀ {r : Record}, r.Headroom → r.WellFormed
  | ⟨.timeTracker, _⟩, h => TimeTracker.Headroom.wellFormed h
  | ⟨.personalPosition, _⟩, h => PersonalPosition.Headroom.wellFormed h
  | ⟨.gaugeConfig, _⟩, h => GaugeConfig.Headroom.wellFormed h
  | ⟨.reactorConfig, _⟩, h => ReactorConfig.Headroom.wellFormed h
  | ⟨.gauge, _⟩, h | ⟨.personalGauge, _⟩, h | ⟨.personalRewarderState, _⟩, h
  | ⟨.personalRewarderCp, _⟩, h | ⟨.personalRewarderCl, _⟩, h | ⟨.clRewardInfo, _⟩, h
  | ⟨.clPositionSnapshot, _⟩, h | ⟨.reactor, _⟩, h | ⟨.rayStakeRewards, _⟩, h => h

/-! ### Growth -/

theorem dailyWorth_le_limit (emission seconds : ℕ) :
    dailyWorth emission seconds ≤ emission * (seconds * scale) :=
  Nat.mul_le_mul_left _ (Nat.div_le_self _ _)

theorem annualWorth_le_limit (points seconds : ℕ) :
    annualWorth points seconds ≤ points * (seconds * scale) := by
  have hscale : 0 < scale := by decide
  refine Nat.div_le_of_le_mul ?_
  calc seconds * scale / secondsPerYear * (points * scale / Number.basisPoints)
      ≤ seconds * scale * (points * scale) :=
        Nat.mul_le_mul (Nat.div_le_self _ _) (Nat.div_le_self _ _)
    _ = scale * (points * (seconds * scale)) := by ring

theorem Earning.growth_le (e : Earning) (c : ReactorConfig) (seconds : ℕ) :
    e.growth c seconds ≤ e.limit c * (seconds * scale) := by
  cases e with
  | reward => exact (Nat.div_le_self _ _).trans (dailyWorth_le_limit _ _)
  | isoRay =>
      rw [growth]
      split
      · exact Nat.zero_le _
      · exact annualWorth_le_limit _ _

/-- A bound of an index by its clock moves on with the clock. -/
theorem index_le_of_growth {index index' growth limit last elapsed : ℕ}
    (h : index ≤ limit * (last * scale)) (hindex : index' = index + growth)
    (hgrowth : growth ≤ limit * (elapsed * scale)) : index' ≤ limit * ((last + elapsed) * scale) := by
  rw [hindex, Nat.add_mul, Nat.mul_add]
  exact Nat.add_le_add h hgrowth

theorem TimeTracker.Headroom.advance {t t' : TimeTracker} {now : Int} (h : t.Headroom)
    (hnow : now ≤ (maxU64 : Int)) (hadvance : t.advance now = .ok t') : t'.Headroom := by
  obtain ⟨elapsed, -, hadv⟩ := advance_ok hadvance
  exact ⟨h.wellFormed.advance hnow hadvance, hadv.index_le_clock h.index⟩

theorem GaugeConfig.Headroom.advance {c c' : GaugeConfig} {now : Int} (h : c.Headroom)
    (hnow : now ≤ (maxU64 : Int)) (hadvance : c.advance now = .ok c') : c'.Headroom := by
  obtain ⟨elapsed, -, hadv⟩ := advance_ok hadvance
  refine ⟨h.wellFormed.advance hnow hadvance, ?_⟩
  rw [hadv.emission, hadv.ts]
  exact index_le_of_growth h.index hadv.index ((Nat.div_le_self _ _).trans (dailyWorth_le_limit _ _))

theorem ReactorConfig.Headroom.advance {c c' : ReactorConfig} {now : Int} (h : c.Headroom)
    (hnow : now ≤ (maxU64 : Int)) (hadvance : c.advance now = .ok c') : c'.Headroom := by
  obtain ⟨elapsed, -, hadv⟩ := advance_ok hadvance
  refine ⟨h.wellFormed.advance hnow hadvance, fun e => ?_⟩
  have hlimit : e.limit c' = e.limit c := by
    cases e with
    | reward => exact hadv.emission
    | isoRay => exact hadv.apr
  rw [hlimit, hadv.ts]
  exact index_le_of_growth (h.index e) (hadv.index e) (e.growth_le c elapsed)

/-- The stake of all reactors has no part in what the indices have gained. -/
theorem ReactorConfig.Headroom.restake {c : ReactorConfig} {total : ℕ} (h : c.Headroom)
    (good : ({ c with totalRayDeposited := total } : ReactorConfig).WellFormed) :
    ({ c with totalRayDeposited := total } : ReactorConfig).Headroom := by
  refine ⟨good, fun e => ?_⟩
  cases e with
  | reward => exact h.index .reward
  | isoRay => exact h.index .isoRay

/-- The clock of a tracker has 64 bits, so its index is at most that many seconds. -/
theorem TimeTracker.Headroom.index_le {t : TimeTracker} (h : t.Headroom) :
    t.index.raw ≤ maxU64 * scale :=
  h.index.trans (Nat.mul_le_mul_right _ h.wellFormed.2)

theorem PersonalPosition.Headroom.settle {p p' : PersonalPosition} {t : TimeTracker} (h : p.Headroom)
    (ht : t.Headroom) (hsettle : p.settle t = .ok p') : p'.Headroom := by
  have hset := settle_ok hsettle
  have hseen : p.lastSeenIndex.raw ≤ t.index.raw := hset.seen
  refine ⟨h.wellFormed.settle hsettle, hset.lastSeen ▸ ht.index_le, ?_⟩
  have hearned : p.amount * (t.index.raw - p.lastSeenIndex.raw) ≤
      maxU64 * (t.index.raw - p.lastSeenIndex.raw) := Nat.mul_le_mul_right _ h.wellFormed
  calc p'.earnedTimeUnits.raw
      = p.earnedTimeUnits.raw + p.amount * (t.index.raw - p.lastSeenIndex.raw) := hset.earned
    _ ≤ maxU64 * p.lastSeenIndex.raw + maxU64 * (t.index.raw - p.lastSeenIndex.raw) :=
        Nat.add_le_add h.earned hearned
    _ = maxU64 * p'.lastSeenIndex.raw := by
        rw [← Nat.mul_add, Nat.add_sub_cancel' hseen, hset.lastSeen]

/-! ### Operations -/

section

variable {now : Int} {t : TimeTracker} {p : PersonalPosition}

/-- Whatever an operation of the escrow does to amounts, it moves the tracker on and settles the
position. -/
theorem Escrow.Moved.headroom {out : Escrow.Outcome} {change : ℤ} (h : Escrow.Moved now t p out change)
    (ht : t.Headroom) (hp : p.Headroom) (hnow : now ≤ (maxU64 : Int))
    (good : out.timeTracker.WellFormed ∧ out.position.WellFormed) :
    out.timeTracker.Headroom ∧ out.position.Headroom := by
  obtain ⟨t', p', hsync, htracker, hposition⟩ := h.synced
  obtain ⟨hadvance, hsettle⟩ := Escrow.sync_eq_ok.mp hsync
  have ht' := ht.advance hnow hadvance
  have hp' := hp.settle ht' hsettle
  constructor
  · rw [htracker] at good ⊢
    exact ⟨good.1, ht'.index⟩
  · rw [hposition] at good ⊢
    exact ⟨good.2, hp'.seen, hp'.earned⟩

/-- A synchronization moves the config on. -/
theorem Emission.syncPoolIndex_headroom {config : GaugeConfig} {gauge : Gauge} {out : Emission.Synced}
    (hc : config.Headroom) (hnow : now ≤ (maxU64 : Int))
    (h : Emission.syncPoolIndex now config gauge = .ok out) : out.config.Headroom :=
  hc.advance hnow (Emission.syncPoolIndex_eq_ok.mp h).1

theorem Emission.Voted.headroom {config : GaugeConfig} {gauge : Gauge} {personal : PersonalGauge}
    {reactor : Reactor} {amount : Int} {out : Emission.VoteChange}
    (h : Emission.Voted now config gauge personal amount reactor out) (hc : config.Headroom)
    (hnow : now ≤ (maxU64 : Int)) (good : out.config.WellFormed) : out.config.Headroom := by
  obtain ⟨synced, hsynced, hconfig, -⟩ := h.synced
  have hindex := (Emission.syncPoolIndex_headroom hc hnow hsynced).index
  rw [hconfig] at good ⊢
  exact ⟨good, hindex⟩

theorem Staking.depositRay_headroom {amount : Int} {config : ReactorConfig} {r : Reactor}
    {out : Staking.Outcome} (hc : config.Headroom) (hnow : now ≤ (maxU64 : Int))
    (h : Staking.depositRay now config r amount = .ok out) (good : out.config.WellFormed) :
    out.config.Headroom := by
  obtain ⟨config', r', ray, total, hsettle, -, -, hconfig, -⟩ := Staking.depositRay_ok h
  rw [hconfig] at good ⊢
  exact (hc.advance hnow (Staking.settleAt_ok hsettle).1).restake good

theorem Staking.withdrawRay_headroom {amount : Int} {config : ReactorConfig} {r : Reactor}
    {out : Staking.Outcome} (hc : config.Headroom) (hnow : now ≤ (maxU64 : Int))
    (h : Staking.withdrawRay now config r amount = .ok out) (good : out.config.WellFormed) :
    out.config.Headroom := by
  obtain ⟨config', r', taken, loss, ray, isoRay, total, hsettle, -, -, -, -, -, -, rfl⟩ :=
    Staking.withdrawRay_ok h
  exact (hc.advance hnow (Staking.settleAt_ok hsettle).1).restake good

end

theorem Escrow.Operation.run_headroom {op : Escrow.Operation} {out : List Record}
    (time : InTime op.time) (handed : ∀ r ∈ op.records, r.Headroom) (h : op.run = .ok out) :
    ∀ r ∈ out, r.Headroom := by
  have good := run_wellFormed time (fun r hr => (handed r hr).wellFormed) h
  cases op with
  | initTimeTracker now poolId escrowAccount =>
    simp only [run, initTimeTrackerOfJson, Escrow.initTimeTracker, bind_eq_ok, pure_eq_ok] at h
    obtain ⟨t, ⟨_, -, _, -, start, -, rfl⟩, rfl⟩ := h
    exact List.forall_mem_singleton.mpr ⟨by simpa using good, Nat.zero_le _⟩
  | initPersonalPosition now tracker owner =>
    simp only [run, initPersonalPositionOfJson, bind_eq_ok, pure_eq_ok] at h
    obtain ⟨out, ⟨_, -, _, -, hinit⟩, rfl⟩ := h
    obtain ⟨hadvance, -, hposition⟩ := initPersonalPosition_ok hinit
    have ht : tracker.Headroom := by simpa using handed
    have ht' := ht.advance (time now rfl).2 hadvance
    refine Outcome.forall_records.mpr ⟨ht', ?_⟩
    rw [hposition]
    exact ⟨Nat.zero_le _, ht'.index_le, Nat.zero_le _⟩
  | deposit now tracker position amount =>
    simp only [run, depositOfJson, bind_eq_ok, pure_eq_ok] at h
    obtain ⟨out, ⟨_, -, hdeposit⟩, rfl⟩ := h
    obtain ⟨ht, hp⟩ : tracker.Headroom ∧ position.Headroom := by simpa using handed
    exact Outcome.forall_records.mpr ((deposit_ok hdeposit).1.headroom ht hp (time now rfl).2
      (Outcome.forall_records.mp good))
  | withdraw now tracker position amount =>
    simp only [run, withdrawOfJson, bind_eq_ok, pure_eq_ok] at h
    obtain ⟨out, ⟨_, -, hwithdraw⟩, rfl⟩ := h
    obtain ⟨ht, hp⟩ : tracker.Headroom ∧ position.Headroom := by simpa using handed
    exact Outcome.forall_records.mpr ((withdraw_ok hwithdraw).1.headroom ht hp (time now rfl).2
      (Outcome.forall_records.mp good))
  | updatePersonal now tracker position =>
    obtain ⟨out, hupdate, rfl⟩ := return_eq_ok.mp h
    obtain ⟨ht, hp⟩ : tracker.Headroom ∧ position.Headroom := by simpa using handed
    exact Outcome.forall_records.mpr ((updatePersonal_ok hupdate).1.headroom ht hp (time now rfl).2
      (Outcome.forall_records.mp good))

theorem Emission.Operation.run_headroom {op : Emission.Operation} {out : List Record}
    (time : InTime op.time) (handed : ∀ r ∈ op.records, r.Headroom) (h : op.run = .ok out) :
    ∀ r ∈ out, r.Headroom := by
  have good := run_wellFormed time (fun r hr => (handed r hr).wellFormed) h
  cases op with
  | initGaugeConfig perDay now =>
    simp only [run, initGaugeConfigOfJson, Emission.initGaugeConfig, bind_eq_ok, pure_eq_ok] at h
    obtain ⟨settings, -, config, ⟨_, -, start, -, rfl⟩, rfl⟩ := h
    exact List.forall_mem_singleton.mpr ⟨by simpa using good, Nat.zero_le _⟩
  | initPoolGauge now config poolId =>
    simp only [run, initPoolGaugeOfJson, bind_eq_ok, pure_eq_ok] at h
    obtain ⟨out, ⟨_, -, _, -, hinit⟩, rfl⟩ := h
    have hc : config.Headroom := by simpa using handed
    exact Synced.forall_records.mpr ⟨hc.advance (time now rfl).2 (initPoolGauge_ok hinit).1,
      (Synced.forall_records.mp good).2⟩
  | initPersonalGauge owner gauge =>
    obtain ⟨personal, -, rfl⟩ := return_eq_ok.mp h
    simpa using good
  | syncPoolIndex now config gauge =>
    obtain ⟨out, hsync, rfl⟩ := return_eq_ok.mp h
    obtain ⟨hc, -⟩ : config.Headroom ∧ gauge.WellFormed := by simpa using handed
    exact Synced.forall_records.mpr ⟨syncPoolIndex_headroom hc (time now rfl).2 hsync,
      (Synced.forall_records.mp good).2⟩
  | changeVotes now config gauge personal amount reactor =>
    simp only [run, changeVotesOfJson, bind_eq_ok, pure_eq_ok] at h
    obtain ⟨out, ⟨_, -, h⟩, rfl⟩ := h
    cases reactor with
    | inr kind => cases h
    | inl reactor =>
      obtain ⟨hc, -⟩ : config.Headroom ∧ gauge.WellFormed ∧ personal.WellFormed ∧
          reactor.WellFormed := by simpa using handed
      obtain ⟨goodConfig, others⟩ := VoteChange.forall_records.mp good
      exact VoteChange.forall_records.mpr
        ⟨(changeVotes_ok h).headroom hc (time now rfl).2 goodConfig, others⟩

theorem Rewarder.Operation.run_headroom {op : Rewarder.Operation} {out : List Record}
    (time : InTime op.time) (handed : ∀ r ∈ op.records, r.Headroom) (h : op.run = .ok out) :
    ∀ r ∈ out, r.Headroom := by
  have good := run_wellFormed time (fun r hr => (handed r hr).wellFormed) h
  cases op with
  | initCp now config gauge tracker position =>
    obtain ⟨out, hinit, rfl⟩ := return_eq_ok.mp h
    obtain ⟨hescrow, hsync, -⟩ := initCp_ok hinit
    obtain ⟨hc, -, ht, hp⟩ : config.Headroom ∧ gauge.WellFormed ∧ tracker.Headroom ∧
        position.Headroom := by simpa using handed
    obtain ⟨-, goodGauge, goodTracker, goodPosition, goodRewarder⟩ := CpOutcome.forall_records.mp good
    have hnow := (time now rfl).2
    obtain ⟨ht', hp'⟩ := (Escrow.updatePersonal_ok hescrow).1.headroom ht hp hnow
      ⟨goodTracker, goodPosition⟩
    exact CpOutcome.forall_records.mpr
      ⟨Emission.syncPoolIndex_headroom hc hnow hsync, goodGauge, ht', hp', goodRewarder⟩
  | accrueCp now config gauge tracker position rewarder =>
    obtain ⟨out, haccrue, rfl⟩ := return_eq_ok.mp h
    obtain ⟨hescrow, hsync, -⟩ := accrueCp_ok haccrue
    obtain ⟨hc, -, ht, hp, -⟩ : config.Headroom ∧ gauge.WellFormed ∧ tracker.Headroom ∧
        position.Headroom ∧ rewarder.rewarder.WellFormed := by simpa using handed
    obtain ⟨-, goodGauge, goodTracker, goodPosition, goodRewarder⟩ := CpOutcome.forall_records.mp good
    have hnow := (time now rfl).2
    obtain ⟨ht', hp'⟩ := (Escrow.updatePersonal_ok hescrow).1.headroom ht hp hnow
      ⟨goodTracker, goodPosition⟩
    exact CpOutcome.forall_records.mpr
      ⟨Emission.syncPoolIndex_headroom hc hnow hsync, goodGauge, ht', hp', goodRewarder⟩
  | collectCp rewarder =>
    simp only [run, pure_eq_ok] at h
    subst h
    simpa using good
  | initCl now config gauge snapshot mint =>
    obtain ⟨out, hinit, rfl⟩ := return_eq_ok.mp h
    obtain ⟨hsync, -⟩ := initCl_ok hinit
    obtain ⟨hc, -⟩ : config.Headroom ∧ gauge.WellFormed ∧ snapshot.WellFormed := by simpa using handed
    exact ClOutcome.forall_records.mpr ⟨Emission.syncPoolIndex_headroom hc (time now rfl).2 hsync,
      (ClOutcome.forall_records.mp good).2⟩
  | accrueCl now config gauge snapshot mint rewarder =>
    obtain ⟨out, haccrue, rfl⟩ := return_eq_ok.mp h
    obtain ⟨hsync, -⟩ := accrueCl_ok haccrue
    obtain ⟨hc, -⟩ : config.Headroom ∧ gauge.WellFormed ∧ snapshot.WellFormed ∧
        rewarder.rewarder.WellFormed := by simpa using handed
    exact ClOutcome.forall_records.mpr ⟨Emission.syncPoolIndex_headroom hc (time now rfl).2 hsync,
      (ClOutcome.forall_records.mp good).2⟩
  | collectCl rewarder =>
    simp only [run, pure_eq_ok] at h
    subst h
    simpa using good

theorem Staking.Operation.run_headroom {op : Staking.Operation} {out : List Record}
    (time : InTime op.time) (handed : ∀ r ∈ op.records, r.Headroom) (h : op.run = .ok out) :
    ∀ r ∈ out, r.Headroom := by
  have good := run_wellFormed time (fun r hr => (handed r hr).wellFormed) h
  cases op with
  | initReactorConfig daily apr now =>
    simp only [run, initReactorConfigOfJson, Staking.initReactorConfig, bind_eq_ok, pure_eq_ok] at h
    obtain ⟨settings, -, config, ⟨_, -, rate, -, start, -, rfl⟩, rfl⟩ := h
    refine List.forall_mem_singleton.mpr ⟨by simpa using good, fun e => ?_⟩
    cases e <;> exact Nat.zero_le _
  | initReactor owner =>
    obtain ⟨r, -, rfl⟩ := return_eq_ok.mp h
    simpa using good
  | depositRay now config r amount =>
    simp only [run, depositRayOfJson, bind_eq_ok, pure_eq_ok] at h
    obtain ⟨out, ⟨_, -, hdeposit⟩, rfl⟩ := h
    obtain ⟨hc, -⟩ : config.Headroom ∧ r.WellFormed := by simpa using handed
    obtain ⟨goodConfig, goodReactor⟩ := Outcome.forall_records.mp good
    exact Outcome.forall_records.mpr
      ⟨depositRay_headroom hc (time now rfl).2 hdeposit goodConfig, goodReactor⟩
  | withdrawRay now config r amount =>
    simp only [run, withdrawRayOfJson, bind_eq_ok, pure_eq_ok] at h
    obtain ⟨out, ⟨_, -, hwithdraw⟩, rfl⟩ := h
    obtain ⟨hc, -⟩ : config.Headroom ∧ r.WellFormed := by simpa using handed
    obtain ⟨goodConfig, goodReactor⟩ := Outcome.forall_records.mp good
    exact Outcome.forall_records.mpr
      ⟨withdrawRay_headroom hc (time now rfl).2 hwithdraw goodConfig, goodReactor⟩
  | syncReactor now config r =>
    obtain ⟨out, hsync, rfl⟩ := return_eq_ok.mp h
    obtain ⟨hc, -⟩ : config.Headroom ∧ r.WellFormed := by simpa using handed
    obtain ⟨goodConfig, goodReactor⟩ := Outcome.forall_records.mp good
    exact Outcome.forall_records.mpr
      ⟨depositRay_headroom hc (time now rfl).2 hsync goodConfig, goodReactor⟩
  | lockVotes r amount =>
    obtain ⟨r', -, rfl⟩ := return_eq_ok.mp h
    simpa using good
  | unlockVotes r amount =>
    obtain ⟨r', -, rfl⟩ := return_eq_ok.mp h
    simpa using good
  | collectRayRewards r =>
    simp only [run, pure_eq_ok] at h
    subst h
    simpa using good
  | syncAndCollectRayRewards now config r =>
    simp only [run, Staking.syncAndCollectRayRewards, bind_eq_ok, pure_eq_ok] at h
    obtain ⟨_, ⟨synced, hsync, rfl⟩, rfl⟩ := h
    obtain ⟨hc, -⟩ : config.Headroom ∧ r.WellFormed := by simpa using handed
    obtain ⟨goodConfig, goodReactor⟩ := Outcome.forall_records.mp good
    have hc' : synced.config.Headroom := depositRay_headroom hc (time now rfl).2 hsync goodConfig
    exact Outcome.forall_records.mpr ⟨hc', goodReactor⟩

/-- The records that an operation returns have headroom if those handed to it have. -/
theorem Operation.run_headroom {op : Operation} {out : List Record} (time : InTime op.time)
    (handed : ∀ r ∈ op.records, r.Headroom) (h : op.run = .ok out) : ∀ r ∈ out, r.Headroom := by
  cases op with
  | escrow op => exact Escrow.Operation.run_headroom time handed h
  | emission op => exact Emission.Operation.run_headroom time handed h
  | rewarder op => exact Rewarder.Operation.run_headroom time handed h
  | staking op => exact Staking.Operation.run_headroom time handed h

end EmissionLedger
