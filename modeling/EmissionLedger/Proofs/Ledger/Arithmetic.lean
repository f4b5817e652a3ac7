import EmissionLedger.Proofs.Ledger.Headroom
import EmissionLedger.Proofs.Slashing

/-!
No number of the ledger leaves its range. Where records have headroom, every sum, product, quotient
and rounding inside an operation is answered: shares, rates and clocks have 64 bits, so an index has at
most 168, and its product with a share at most 232. What remains of arithmetic are the counters of 64
bits.

Main statements: `Operation.run_countersOnly` and its counterparts for the escrow, the emission, the
rewarders and the stake.
-/

namespace EmissionLedger

/-! ### Faults of counters -/

/-- The faults of checked arithmetic. -/
def Fault.IsArithmetic (e : Fault) : Prop :=
  e.causeKind = .arithmeticOverflow ∨ e.causeKind = .arithmeticUnderflow ∨ e.causeKind = .divisionByZero

instance : DecidablePred Fault.IsArithmetic := fun _ => inferInstanceAs (Decidable (_ ∨ _))

/-- The faults of counters: a sum past 64 bits, a difference below zero, and a number whose whole part
is too wide for a counter. -/
inductive Fault.OfCounter : Fault → Prop where
  | sum (what : String) (a b : Int) : OfCounter (.counterOverflow what a b maxU64)
  | difference (what : String) (a b : Int) : OfCounter (.counterUnderflow what a b)
  | whole (a : Number) : OfCounter (.number (.tooWide a 64))

/-- Not a fault of arithmetic, or else one of counters. -/
def Fault.CounterAtMost : Fault → Prop
  | .number (.tooWide _ bits) => bits = 64
  | .number _ => False
  | .counterOverflow _ _ _ limit => limit = maxU64
  | _ => True

theorem Fault.CounterAtMost.ofCounter {e : Fault} (h : e.CounterAtMost) (arithmetic : e.IsArithmetic) :
    e.OfCounter := by
  cases e with
  | number cause =>
    cases cause with
    | tooWide a bits =>
      obtain rfl : bits = 64 := h
      exact .whole a
    | _ => cases h
  | counterOverflow what a b limit =>
    obtain rfl : limit = maxU64 := h
    exact .sum what a b
  | counterUnderflow what a b => exact .difference what a b
  | argument cause => cases cause <;> simp [IsArithmetic, causeKind, ArgumentFault.kind] at arithmetic
  | _ => simp [IsArithmetic, causeKind] at arithmetic

/-- The faults of something that computes with counters at most. -/
abbrev CountersOnly {α : Type} (x : Result α) : Prop := FaultsIn Fault.CounterAtMost x

theorem Fault.CounterAtMost.of_outgrown {e : Fault} (h : e.Outgrown) : e.CounterAtMost := by
  cases h <;> rfl

theorem Fault.CounterAtMost.of_request {e : Fault} (h : e.OfRequest) : e.CounterAtMost := by
  cases h with
  | outgrown h => exact of_outgrown h
  | _ => trivial

/-! ### Arguments -/

theorem requireInteger_countersOnly (name : String) (v : Json) :
    CountersOnly (requireInteger name v) := by
  unfold requireInteger
  split
  · exact .ok
  · exact .error trivial

theorem requireU64Json_countersOnly (name : String) (v : Json) : CountersOnly (requireU64Json name v) :=
  .bind (requireInteger_countersOnly name v) fun _ _ => requireU64_faultsIn trivial

theorem requireI64Json_countersOnly (name : String) (v : Json) : CountersOnly (requireI64Json name v) :=
  .bind (requireInteger_countersOnly name v) fun _ _ => requireI64_faultsIn trivial

theorem Reading.toResult_countersOnly {α : Type} (kind : RecordKind) (r : Reading α) :
    CountersOnly (r.toResult kind) := by
  cases r with
  | value a => exact .ok
  | refused items => exact .error trivial
  | overflow => exact .error trivial

theorem addressFor_countersOnly (kind : RecordKind) (field : String) (v : Json) :
    CountersOnly (addressFor kind field v) := Reading.toResult_countersOnly _ _

/-! ### Widths -/

theorem counter_fits {n : ℕ} (h : n ≤ maxU64) : n * scale ≤ maxRaw :=
  (Nat.mul_le_mul_right _ h).trans (by decide)

/-- The most that an index of the ledger ever is: a limit and a clock of 64 bits, and the scale. -/
def maxIndex : ℕ := maxU64 * (maxU64 * scale)

theorem limit_fits {limit ts : ℕ} (hlimit : limit ≤ maxU64) (hts : ts ≤ maxU64) :
    limit * (ts * scale) ≤ maxIndex :=
  Nat.mul_le_mul hlimit (Nat.mul_le_mul_right _ hts)

theorem seconds_fit : maxU64 * scale ≤ maxIndex := Nat.le_mul_of_pos_left _ (by decide)

/-- Another factor of 64 bits still fits in a number. -/
theorem product_fits {m n : ℕ} (hm : m ≤ maxU64) (hn : n ≤ maxIndex) : m * n ≤ maxRaw :=
  (Nat.mul_le_mul hm hn).trans (by decide)

theorem sum_fits {m n : ℕ} (hm : m ≤ maxIndex) (hn : n ≤ maxIndex) : m + n ≤ maxRaw :=
  (Nat.add_le_add hm hn).trans (by decide)

/-- An index fits that gains its limit up to a time of 64 bits. -/
theorem growth_fits {index growth limit last elapsed : ℕ} (h : index ≤ limit * (last * scale))
    (hgrowth : growth ≤ limit * (elapsed * scale)) (hlimit : limit ≤ maxU64)
    (hclock : last + elapsed ≤ maxU64) : elapsed * scale ≤ maxRaw ∧ index + growth ≤ maxRaw := by
  have helapsed : elapsed ≤ maxU64 := (Nat.le_add_left _ _).trans hclock
  exact ⟨counter_fits helapsed, sum_fits (h.trans (limit_fits hlimit ((Nat.le_add_right _ _).trans hclock)))
    (hgrowth.trans (limit_fits hlimit helapsed))⟩

theorem accrueShare_countersOnly (what : String) {share : ℕ} {last current : Number}
    (hshare : share ≤ maxU64) (hcurrent : current.raw ≤ maxIndex) :
    CountersOnly (accrueShare what share last current) :=
  accrueShare_faultsIn_of_fits trivial (counter_fits hshare)
    (product_fits hshare ((Nat.sub_le _ _).trans hcurrent))

/-! ### The escrow -/

theorem TimeTracker.Headroom.advance_countersOnly {t : TimeTracker} {now : Int} (h : t.Headroom)
    (hnow : now ≤ (maxU64 : Int)) : CountersOnly (t.advance now) := by
  -- a tracker gains at most one unit a second
  have hindex : t.index.raw ≤ 1 * (t.lastSeenTs * scale) := h.index.trans (Nat.one_mul _).ge
  refine .bind (advanceSharedIndex_faultsIn_of_fits trivial (counter_fits h.wellFormed.1) ?_) fun _ _ => .pure
  exact fun elapsed helapsed => growth_fits hindex (Nat.one_mul _).ge (by decide) (by omega)

theorem PersonalPosition.Headroom.earned_le {p : PersonalPosition} (h : p.Headroom) :
    p.earnedTimeUnits.raw ≤ maxIndex :=
  h.earned.trans (Nat.mul_le_mul_left _ h.seen)

theorem PersonalPosition.Headroom.settle_countersOnly {p : PersonalPosition} {t : TimeTracker}
    (h : p.Headroom) (ht : t.Headroom) : CountersOnly (p.settle t) := by
  have hindex : t.index.raw ≤ maxIndex := ht.index_le.trans seconds_fit
  refine .bind (checkTracker_faultsIn fun _ => trivial) fun _ _ => ?_
  refine .bind (accrueShare_countersOnly _ h.wellFormed hindex) fun accrual haccrual =>
    .ite (fun _ => .pure) fun _ => ?_
  have haccrued : accrual.accrued.raw ≤ maxIndex := by
    rw [(accrueShare_ok haccrual).2.1]
    exact Nat.mul_le_mul h.wellFormed ((Nat.sub_le _ _).trans ht.index_le)
  obtain ⟨earned, hraw⟩ := Number.exists_raw (sum_fits h.earned_le haccrued)
  exact .bind (.of_answered ⟨earned, Number.add_eq_ok.mpr hraw⟩) fun _ _ => .pure

namespace Escrow

variable {now : Int} {t : TimeTracker} {p : PersonalPosition}

theorem sync_countersOnly (ht : t.Headroom) (hp : p.Headroom) (hnow : now ≤ (maxU64 : Int)) :
    CountersOnly (sync now t p) :=
  sync_faultsIn (fun _ => trivial) (ht.advance_countersOnly hnow) fun _ hadvance =>
    hp.settle_countersOnly (ht.advance hnow hadvance)

theorem deposit_countersOnly (ht : t.Headroom) (hp : p.Headroom) (hnow : now ≤ (maxU64 : Int))
    (amount : Int) : CountersOnly (deposit now t p amount) :=
  deposit_faultsIn (fun _ => Fault.CounterAtMost.of_request) (sync_countersOnly ht hp hnow)

theorem withdraw_countersOnly (ht : t.Headroom) (hp : p.Headroom) (hnow : now ≤ (maxU64 : Int))
    (amount : Int) : CountersOnly (withdraw now t p amount) :=
  withdraw_faultsIn (fun _ => Fault.CounterAtMost.of_request) (sync_countersOnly ht hp hnow)

theorem updatePersonal_countersOnly (ht : t.Headroom) (hp : p.Headroom) (hnow : now ≤ (maxU64 : Int)) :
    CountersOnly (updatePersonal now t p) :=
  updatePersonal_faultsIn (sync_countersOnly ht hp hnow)

theorem Operation.run_countersOnly {op : Operation} (time : InTime op.time)
    (handed : ∀ r ∈ op.records, r.Headroom) : CountersOnly op.run := by
  cases op with
  | initTimeTracker now poolId escrowAccount =>
    refine .bind (.bind (requireU64Json_countersOnly _ _) fun start _ => ?_) fun _ _ => .pure
    refine .bind (Reading.toResult_countersOnly _ _) fun addresses _ => ?_
    exact .bind (requireU64_faultsIn trivial) fun _ _ => .pure
  | initPersonalPosition now tracker owner =>
    have ht : tracker.Headroom := by simpa using handed
    have hadvance := ht.advance_countersOnly (time now rfl).2
    refine .bind (.bind hadvance fun moved _ => ?_) fun _ _ => .pure
    refine .bind (addressFor_countersOnly _ _ _) fun address _ => ?_
    exact .bind hadvance fun _ _ => .pure
  | deposit now tracker position amount =>
    obtain ⟨ht, hp⟩ : tracker.Headroom ∧ position.Headroom := by simpa using handed
    refine .bind (.bind (requireInteger_countersOnly _ _) fun n _ => ?_) fun _ _ => .pure
    exact deposit_countersOnly ht hp (time now rfl).2 n
  | withdraw now tracker position amount =>
    obtain ⟨ht, hp⟩ : tracker.Headroom ∧ position.Headroom := by simpa using handed
    refine .bind (.bind (requireInteger_countersOnly _ _) fun n _ => ?_) fun _ _ => .pure
    exact withdraw_countersOnly ht hp (time now rfl).2 n
  | updatePersonal now tracker position =>
    obtain ⟨ht, hp⟩ : tracker.Headroom ∧ position.Headroom := by simpa using handed
    exact .bind (updatePersonal_countersOnly ht hp (time now rfl).2) fun _ _ => .pure

end Escrow

/-! ### The emission -/

theorem GaugeConfig.Headroom.advance_countersOnly {c : GaugeConfig} {now : Int} (h : c.Headroom)
    (hnow : now ≤ (maxU64 : Int)) : CountersOnly (c.advance now) := by
  obtain ⟨hvotes, hemission, -⟩ := h.wellFormed
  refine .bind (.of_answered (Rate.daily_answered (counter_fits hemission))) fun rate hrate => ?_
  refine .bind (advanceSharedIndex_faultsIn_of_fits trivial (counter_fits hvotes) fun elapsed helapsed => ?_)
    fun _ _ => .ite (fun _ => .pure) fun _ => .pure
  rw [Rate.daily_ok hrate]
  exact growth_fits h.index (dailyWorth_le_limit _ _) hemission (by omega)

theorem GaugeConfig.Headroom.index_le {c : GaugeConfig} (h : c.Headroom) : c.index.raw ≤ maxIndex :=
  h.index.trans (limit_fits h.wellFormed.2.1 h.wellFormed.2.2)

theorem Gauge.settle_countersOnly {g : Gauge} {index : Number} (h : g.WellFormed)
    (hindex : index.raw ≤ maxIndex) : CountersOnly (g.settle index) :=
  settle_faultsIn (fun _ => Fault.CounterAtMost.of_outgrown) (accrueShare_countersOnly _ h.1 hindex)

namespace Emission

section

variable {now : Int} {config : GaugeConfig} {gauge : Gauge}

theorem syncPoolIndex_countersOnly (hc : config.Headroom) (hg : gauge.WellFormed)
    (hnow : now ≤ (maxU64 : Int)) : CountersOnly (syncPoolIndex now config gauge) :=
  syncPoolIndex_faultsIn (hc.advance_countersOnly hnow) fun _ hadvance =>
    Gauge.settle_countersOnly hg (hc.advance hnow hadvance).index_le

theorem changeVotes_countersOnly (hc : config.Headroom) (hg : gauge.WellFormed)
    (hnow : now ≤ (maxU64 : Int)) (personal : PersonalGauge) (amount : Int) (reactor : Reactor) :
    CountersOnly (changeVotes now config gauge personal amount reactor) :=
  changeVotes_faultsIn (fun _ => Fault.CounterAtMost.of_request) (fun _ => trivial)
    (syncPoolIndex_countersOnly hc hg hnow)

end

theorem Operation.run_countersOnly {op : Operation} (time : InTime op.time)
    (handed : ∀ r ∈ op.records, r.Headroom) : CountersOnly op.run := by
  cases op with
  | initGaugeConfig perDay now =>
    refine .bind (.bind (requireU64Json_countersOnly _ _) fun _ _ => .pure) fun settings _ => ?_
    refine .bind (.bind (requireInteger_countersOnly _ _) fun start _ => ?_) fun _ _ => .pure
    exact .bind (requireU64_faultsIn trivial) fun _ _ => .pure
  | initPoolGauge now config poolId =>
    have hc : config.Headroom := by simpa using handed
    have hadvance := hc.advance_countersOnly (time now rfl).2
    refine .bind (.bind hadvance fun moved _ => ?_) fun _ _ => .pure
    refine .bind (addressFor_countersOnly _ _ _) fun address _ => ?_
    exact .bind hadvance fun _ _ => .pure
  | initPersonalGauge owner gauge =>
    exact .bind (.bind (addressFor_countersOnly _ _ _) fun _ _ => .pure) fun _ _ => .pure
  | syncPoolIndex now config gauge =>
    obtain ⟨hc, hg⟩ : config.Headroom ∧ gauge.WellFormed := by simpa using handed
    exact .bind (syncPoolIndex_countersOnly hc hg (time now rfl).2) fun _ _ => .pure
  | changeVotes now config gauge personal amount reactor =>
    refine .bind (.bind (requireI64Json_countersOnly _ _) fun n _ => ?_) fun _ _ => .pure
    cases reactor with
    | inr kind => exact .error trivial
    | inl reactor =>
      obtain ⟨hc, hg, -⟩ : config.Headroom ∧ gauge.WellFormed ∧ personal.WellFormed ∧
          reactor.WellFormed := by simpa using handed
      exact changeVotes_countersOnly hc hg (time now rfl).2 personal n reactor

end Emission

/-! ### The rewarders -/

namespace PersonalRewarderState

theorem reward_countersOnly {emitted seconds : ℕ} {units : Number} (hsome : seconds ≠ 0)
    (hemitted : emitted ≤ maxU64) (hseconds : seconds ≤ maxU64) (hunits : units.raw ≤ maxIndex) :
    CountersOnly (reward emitted seconds units) := by
  obtain ⟨product, heq, -⟩ := reward_eq_wholePart hsome (counter_fits hemitted) (counter_fits hseconds)
    (product_fits hemitted hunits)
  rw [heq]
  exact Number.wholePart_faultsIn rfl

theorem syncAndStage_countersOnly {state : PersonalRewarderState} {now : Int} {emitted : ℕ}
    {units : Number} (hnow : now ≤ (maxU64 : Int)) (hemitted : emitted ≤ maxU64)
    (hunits : units.raw ≤ maxIndex) : CountersOnly (state.syncAndStage now emitted units) := by
  refine syncAndStage_faultsIn (fun _ => Fault.CounterAtMost.of_outgrown)
    (checkProgress_faultsIn (fun _ => trivial) (fun _ => trivial) fun _ => trivial)
    fun new hnew hsome => ?_
  exact reward_countersOnly hsome (by omega) (by omega) (by omega)

end PersonalRewarderState

theorem ClPositionSnapshot.WellFormed.earnedTimeUnits {snapshot : ClPositionSnapshot} {mint : String}
    (h : snapshot.WellFormed) : CountersOnly (snapshot.earnedTimeUnits mint) ∧
      ∀ units, snapshot.earnedTimeUnits mint = .ok units → units.raw ≤ maxIndex := by
  unfold ClPositionSnapshot.earnedTimeUnits
  split
  · rename_i info hfind
    have howed : info.rewardAmountOwed ≤ maxU64 := h.2 info (List.mem_of_find?_eq_some hfind)
    obtain ⟨amount, hamount⟩ := Number.exists_raw (counter_fits howed)
    refine ⟨.of_answered ⟨amount, Number.ofNatural_eq_ok.mpr hamount⟩, fun units hunits => ?_⟩
    rw [Number.ofNatural_eq_ok.mp hunits]
    exact (Nat.mul_le_mul_right _ howed).trans seconds_fit
  · exact ⟨.error trivial, fun _ hunits => nomatch hunits⟩

namespace Rewarder

section

variable {now : Int} {config : GaugeConfig} {gauge : Gauge}

theorem initCp_countersOnly {t : TimeTracker} {p : PersonalPosition} (hc : config.Headroom)
    (hg : gauge.WellFormed) (ht : t.Headroom) (hp : p.Headroom) (hnow : now ≤ (maxU64 : Int)) :
    CountersOnly (initCp now config gauge t p) :=
  initCp_faultsIn (fun _ => trivial) (fun _ => trivial) (Escrow.updatePersonal_countersOnly ht hp hnow)
    (Emission.syncPoolIndex_countersOnly hc hg hnow)

theorem accrueCp_countersOnly {t : TimeTracker} {p : PersonalPosition} (hc : config.Headroom)
    (hg : gauge.WellFormed) (ht : t.Headroom) (hp : p.Headroom) (hnow : now ≤ (maxU64 : Int))
    (r : PersonalRewarderCp) : CountersOnly (accrueCp now config gauge t p r) := by
  refine accrueCp_faultsIn (fun _ => trivial) (Escrow.updatePersonal_countersOnly ht hp hnow)
    (Emission.syncPoolIndex_countersOnly hc hg hnow) fun escrow synced hescrow hsynced => ?_
  have good := Escrow.updatePersonal_wellFormed ht.wellFormed hp.wellFormed hnow hescrow
  have hp' := ((Escrow.updatePersonal_ok hescrow).1.headroom ht hp hnow good).2
  have hg' := (Emission.syncPoolIndex_wellFormed hc.wellFormed hg hnow hsynced).2
  exact PersonalRewarderState.syncAndStage_countersOnly hnow hg'.2 hp'.earned_le

variable {snapshot : ClPositionSnapshot}

theorem initCl_countersOnly (hc : config.Headroom) (hg : gauge.WellFormed) (hs : snapshot.WellFormed)
    (hnow : now ≤ (maxU64 : Int)) (mint : String) :
    CountersOnly (initCl now config gauge snapshot mint) := by
  refine .bind (checkClPool_faultsIn fun _ => trivial) fun _ _ => ?_
  refine .bind (Emission.syncPoolIndex_countersOnly hc hg hnow) fun synced _ => ?_
  refine .bind hs.earnedTimeUnits.1 fun units _ => ?_
  exact .bind (PersonalRewarderState.start_faultsIn fun _ => trivial) fun _ _ => .pure

theorem accrueCl_countersOnly (hc : config.Headroom) (hg : gauge.WellFormed) (hs : snapshot.WellFormed)
    (hnow : now ≤ (maxU64 : Int)) (mint : String) (r : PersonalRewarderCl) :
    CountersOnly (accrueCl now config gauge snapshot mint r) := by
  refine .bind (checkClPool_faultsIn fun _ => trivial) fun _ _ => ?_
  refine .bind (checkClLinks_faultsIn fun _ => trivial) fun _ _ => ?_
  refine .bind (Emission.syncPoolIndex_countersOnly hc hg hnow) fun synced hsynced => ?_
  refine .bind hs.earnedTimeUnits.1 fun units hunits => ?_
  have hg' := (Emission.syncPoolIndex_wellFormed hc.wellFormed hg hnow hsynced).2
  exact .bind (PersonalRewarderState.syncAndStage_countersOnly hnow hg'.2
    (hs.earnedTimeUnits.2 units hunits)) fun _ _ => .pure

end

theorem Operation.run_countersOnly {op : Operation} (time : InTime op.time)
    (handed : ∀ r ∈ op.records, r.Headroom) : CountersOnly op.run := by
  cases op with
  | initCp now config gauge tracker position =>
    obtain ⟨hc, hg, ht, hp⟩ : config.Headroom ∧ gauge.WellFormed ∧ tracker.Headroom ∧
        position.Headroom := by simpa using handed
    exact .bind (initCp_countersOnly hc hg ht hp (time now rfl).2) fun _ _ => .pure
  | accrueCp now config gauge tracker position rewarder =>
    obtain ⟨hc, hg, ht, hp, -⟩ : config.Headroom ∧ gauge.WellFormed ∧ tracker.Headroom ∧
        position.Headroom ∧ rewarder.rewarder.WellFormed := by simpa using handed
    exact .bind (accrueCp_countersOnly hc hg ht hp (time now rfl).2 rewarder) fun _ _ => .pure
  | collectCp rewarder => exact .pure
  | initCl now config gauge snapshot mint =>
    obtain ⟨hc, hg, hs⟩ : config.Headroom ∧ gauge.WellFormed ∧ snapshot.WellFormed := by
      simpa using handed
    exact .bind (initCl_countersOnly hc hg hs (time now rfl).2 mint) fun _ _ => .pure
  | accrueCl now config gauge snapshot mint rewarder =>
    obtain ⟨hc, hg, hs, -⟩ : config.Headroom ∧ gauge.WellFormed ∧ snapshot.WellFormed ∧
        rewarder.rewarder.WellFormed := by simpa using handed
    exact .bind (accrueCl_countersOnly hc hg hs (time now rfl).2 mint rewarder) fun _ _ => .pure
  | collectCl rewarder => exact .pure

end Rewarder

/-! ### The stake -/

theorem ReactorConfig.Headroom.limit_le {c : ReactorConfig} (h : c.Headroom) (e : Earning) :
    e.limit c ≤ maxU64 := by
  cases e with
  | reward => exact h.wellFormed.2.1
  | isoRay => exact h.wellFormed.2.2.1.trans (by decide)

theorem ReactorConfig.Headroom.index_le {c : ReactorConfig} (h : c.Headroom) (e : Earning) :
    (e.index c).raw ≤ maxIndex :=
  (h.index e).trans (limit_fits (h.limit_le e) h.wellFormed.2.2.2)

theorem ReactorConfig.Headroom.advance_countersOnly {c : ReactorConfig} {now : Int} (h : c.Headroom)
    (hnow : now ≤ (maxU64 : Int)) : CountersOnly (c.advance now) := by
  refine .bind (elapsedSeconds_faultsIn fun _ => trivial) fun elapsed helapsed =>
    .ite (fun _ => .pure) fun _ => ?_
  rw [elapsedSeconds_eq_ok] at helapsed
  have hclock : c.rewardsEmittedUntil + elapsed ≤ maxU64 := by omega
  obtain ⟨hseconds, hdaily⟩ := growth_fits (h.index .reward)
    (dailyWorth_le_limit c.rayRewardDailyEmission elapsed) (h.limit_le .reward) hclock
  obtain ⟨-, hannual⟩ := growth_fits (h.index .isoRay)
    (annualWorth_le_limit c.isoRayAprBps elapsed) (h.limit_le .isoRay) hclock
  refine .bind (.of_answered (Rate.daily_answered (counter_fits (h.limit_le .reward))))
    fun emission hemission => ?_
  rw [← Rate.daily_ok hemission] at hdaily
  refine .bind (.of_answered (sharedIndexDelta_answered hseconds ((Nat.le_add_left _ _).trans hdaily)
    (counter_fits h.wellFormed.1))) fun delta hdelta => ?_
  have hsum : c.rayRewardIndex.raw + delta.raw ≤ maxRaw := by
    rw [sharedIndexDelta_ok hdelta]
    exact (Nat.add_le_add_left (Nat.div_le_self _ _) _).trans hdaily
  obtain ⟨index, hindex⟩ := Number.exists_raw hsum
  refine .bind (.of_answered ⟨index, Number.add_eq_ok.mpr hindex⟩) fun _ _ => ?_
  refine .bind (.of_answered (Rate.annual_answered (counter_fits (h.limit_le .isoRay)))) fun apr hapr => ?_
  rw [← Rate.annual_ok hapr] at hannual
  exact .bind (.of_answered (advanceRateIndex_answered _ hseconds hannual)) fun _ _ => .pure

theorem Reactor.settle_countersOnly {r : Reactor} {c : ReactorConfig} (hr : r.WellFormed)
    (hc : c.Headroom) : CountersOnly (r.settle c) :=
  settle_faultsIn (fun _ => Fault.CounterAtMost.of_outgrown)
    (accrueShare_countersOnly _ hr.1 (hc.index_le .isoRay))
    (accrueShare_countersOnly _ hr.1 (hc.index_le .reward))

namespace Staking

section

variable {now amount : Int} {config : ReactorConfig} {r : Reactor}

theorem settleAt_countersOnly (hc : config.Headroom) (hr : r.WellFormed) (hnow : now ≤ (maxU64 : Int)) :
    CountersOnly (settleAt now config r) :=
  settleAt_faultsIn (hc.advance_countersOnly hnow) fun _ hadvance =>
    Reactor.settle_countersOnly hr (hc.advance hnow hadvance)

theorem depositRay_countersOnly (hc : config.Headroom) (hr : r.WellFormed) (hnow : now ≤ (maxU64 : Int)) :
    CountersOnly (depositRay now config r amount) :=
  depositRay_faultsIn (fun _ => Fault.CounterAtMost.of_request) (settleAt_countersOnly hc hr hnow)

theorem withdrawRay_countersOnly (hc : config.Headroom) (hr : r.WellFormed) (hnow : now ≤ (maxU64 : Int)) :
    CountersOnly (withdrawRay now config r amount) := by
  refine withdrawRay_faultsIn (fun _ => Fault.CounterAtMost.of_request) (settleAt_countersOnly hc hr hnow)
    fun config' r' taken hsettled henough => ?_
  obtain ⟨-, hray, hisoRay, -⟩ := settleAt_wellFormed hc.wellFormed hr hnow hsettled
  exact .of_answered (isoRaySlashAmount_answered henough hray hisoRay)

end

theorem checkApr_countersOnly (v : Json) : CountersOnly (checkApr v) := by
  unfold checkApr
  split
  · exact .ite (fun _ => .ok) fun _ => .error trivial
  · exact .ok
  · exact .ite (fun _ => .error trivial) fun _ => .ok
  · exact .error trivial

theorem Operation.run_countersOnly {op : Operation} (time : InTime op.time)
    (handed : ∀ r ∈ op.records, r.Headroom) : CountersOnly op.run := by
  cases op with
  | initReactorConfig daily apr now =>
    refine .bind (.bind (requireU64Json_countersOnly _ _) fun n _ => ?settings) fun settings _ => ?_
    case settings => exact .bind (checkApr_countersOnly _) fun _ _ => .pure
    refine .bind (.bind (requireU64Json_countersOnly _ _) fun start _ => ?_) fun _ _ => .pure
    refine .bind (Reading.toResult_countersOnly _ _) fun address _ => ?_
    exact .bind (requireU64_faultsIn trivial) fun _ _ => .pure
  | initReactor owner =>
    exact .bind (.bind (addressFor_countersOnly _ _ _) fun _ _ => .pure) fun _ _ => .pure
  | depositRay now config r amount =>
    obtain ⟨hc, hr⟩ : config.Headroom ∧ r.WellFormed := by simpa using handed
    refine .bind (.bind (requireInteger_countersOnly _ _) fun n _ => ?_) fun _ _ => .pure
    exact depositRay_countersOnly hc hr (time now rfl).2
  | withdrawRay now config r amount =>
    obtain ⟨hc, hr⟩ : config.Headroom ∧ r.WellFormed := by simpa using handed
    refine .bind (.bind (requireInteger_countersOnly _ _) fun n _ => ?_) fun _ _ => .pure
    exact withdrawRay_countersOnly hc hr (time now rfl).2
  | syncReactor now config r =>
    obtain ⟨hc, hr⟩ : config.Headroom ∧ r.WellFormed := by simpa using handed
    exact .bind (depositRay_countersOnly hc hr (time now rfl).2) fun _ _ => .pure
  | lockVotes r amount =>
    refine .bind (.bind (requireInteger_countersOnly _ _) fun n _ => ?_) fun _ _ => .pure
    exact Reactor.lockVotes_faultsIn trivial (fun _ => trivial) rfl
  | unlockVotes r amount =>
    refine .bind (.bind (requireInteger_countersOnly _ _) fun n _ => ?_) fun _ _ => .pure
    exact Reactor.unlockVotes_faultsIn trivial fun _ => trivial
  | collectRayRewards r => exact .pure
  | syncAndCollectRayRewards now config r =>
    obtain ⟨hc, hr⟩ : config.Headroom ∧ r.WellFormed := by simpa using handed
    refine .bind ?_ fun _ _ => .pure
    exact .bind (depositRay_countersOnly hc hr (time now rfl).2) fun _ _ => .pure

end Staking

/-- Handed records with headroom, an operation computes no number that is out of range. -/
theorem Operation.run_countersOnly {op : Operation} (time : InTime op.time)
    (handed : ∀ r ∈ op.records, r.Headroom) : CountersOnly op.run := by
  cases op with
  | escrow op => exact Escrow.Operation.run_countersOnly time handed
  | emission op => exact Emission.Operation.run_countersOnly time handed
  | rewarder op => exact Rewarder.Operation.run_countersOnly time handed
  | staking op => exact Staking.Operation.run_countersOnly time handed

end EmissionLedger
