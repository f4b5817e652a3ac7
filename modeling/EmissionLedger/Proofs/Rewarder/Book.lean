import EmissionLedger.Rewarder
import EmissionLedger.Proofs.Emission.Book
import EmissionLedger.Proofs.Escrow.Book
import Mathlib.Tactic.Ring

/-!
The book of a pool: the emission, the pool's escrow, and at most one rewarder for each position, with
the RAY that it has paid out. A rewarder stands under the account of its position and is accrued with
it. To open or to accrue a rewarder moves the emission and the escrow on as a synchronization of the
pool's gauge and an update of the position would.

Main statement: an answered call is one on the emission, one on the escrow, one of each followed by a
look at one position, or a payment (`step_cases`).
-/

namespace EmissionLedger

namespace PersonalRewarderState

/-! ### What the operations return -/

/-- A rate cut off, times units, cut off again, is at most the exact rate for the units. -/
theorem product_le {emitted seconds : ℕ} {rate units product : Number}
    (hrate : rate.raw = emitted * scale / seconds) (hproduct : product.raw = rate.raw * units.raw / scale) :
    product.raw * seconds ≤ emitted * units.raw := by
  have hscale : 0 < scale := by decide
  have hratio : rate.raw * seconds ≤ emitted * scale := hrate ▸ Nat.div_mul_le_self _ _
  refine Nat.le_of_mul_le_mul_right ?_ hscale
  calc product.raw * seconds * scale
      = product.raw * scale * seconds := by ring
    _ ≤ rate.raw * units.raw * seconds :=
        Nat.mul_le_mul_right _ (hproduct ▸ Nat.div_mul_le_self _ _)
    _ = rate.raw * seconds * units.raw := by ring
    _ ≤ emitted * scale * units.raw := Nat.mul_le_mul_right _ hratio
    _ = emitted * units.raw * scale := by ring

/-- A reward is at most the pool's RAY a second for each time unit. -/
theorem reward_le {emitted seconds reward : ℕ} {units : Number}
    (h : PersonalRewarderState.reward emitted seconds units = .ok reward) :
    reward * (seconds * scale) ≤ emitted * units.raw := by
  simp only [PersonalRewarderState.reward, bind_eq_ok, Number.mul_eq_ok, Number.wholePart_eq_ok] at h
  obtain ⟨rate, hrate, product, hproduct, -, hreward⟩ := h
  have hwhole : reward * scale ≤ product.raw := hreward ▸ Nat.div_mul_le_self _ _
  calc reward * (seconds * scale) = reward * scale * seconds := by ring
    _ ≤ product.raw * seconds := Nat.mul_le_mul_right _ hwhole
    _ ≤ emitted * units.raw := product_le (Number.ofRatio_ok hrate).2 hproduct

/-- A reward is the RAY a second, cut off at the twelfth place, for all units, cut off to whole RAY. -/
theorem reward_ok {emitted seconds reward : ℕ} {units : Number}
    (h : PersonalRewarderState.reward emitted seconds units = .ok reward) :
    reward = emitted * scale / seconds * units.raw / scale / scale := by
  simp only [PersonalRewarderState.reward, bind_eq_ok, Number.mul_eq_ok, Number.wholePart_eq_ok] at h
  obtain ⟨rate, hrate, product, hproduct, -, hreward⟩ := h
  rw [hreward, hproduct, (Number.ofRatio_ok hrate).2]

/-- Where the products fit, a reward is refused only if its whole part is too wide. -/
theorem reward_eq_wholePart {emitted seconds : ℕ} {units : Number} (hseconds : seconds ≠ 0)
    (hemitted : emitted * scale ≤ maxRaw) (hclock : seconds * scale ≤ maxRaw)
    (hfits : emitted * units.raw ≤ maxRaw) :
    ∃ product : Number, PersonalRewarderState.reward emitted seconds units = product.wholePart 64 ∧
      product.raw * seconds ≤ emitted * units.raw := by
  obtain ⟨rate, hanswer⟩ := Number.ofRatio_answered hseconds hemitted hclock
  have hrate := (Number.ofRatio_ok hanswer).2
  have hraw : rate.raw * units.raw / scale ≤ emitted * units.raw := by
    refine Nat.div_le_of_le_mul ?_
    calc rate.raw * units.raw ≤ emitted * scale * units.raw :=
          Nat.mul_le_mul_right _ (hrate ▸ Nat.div_le_self _ _)
      _ = scale * (emitted * units.raw) := by ring
  obtain ⟨product, hproduct⟩ := Number.exists_raw (hraw.trans hfits)
  have hmul : rate.mul units = .ok product := Number.mul_eq_ok.mpr hproduct
  refine ⟨product, ?_, product_le hrate hproduct⟩
  rw [PersonalRewarderState.reward, hanswer]
  show (rate.mul units >>= fun exact => exact.wholePart 64) = product.wholePart 64
  rw [hmul]
  rfl

theorem checkProgress_eq_ok {state : PersonalRewarderState} {now emitted : ℤ} {units : Number} :
    state.checkProgress now emitted units = .ok () ↔ state.lastSeenTotalEmittedRay ≤ emitted ∧
      state.lastUpdatedTs ≤ now ∧ state.lastSeenTimeUnits ≤ units := by
  rw [checkProgress]
  split
  · rename_i hray
    exact iff_of_false nofun fun h => not_le.mpr hray h.1
  split
  · rename_i hts
    exact iff_of_false nofun fun h => not_le.mpr hts h.2.1
  split
  · rename_i hunits
    exact iff_of_false nofun fun h => Nat.not_le.mpr hunits h.2.2
  rename_i hray hts hunits
  exact iff_of_true rfl ⟨not_lt.mp hray, not_lt.mp hts, Nat.not_lt.mp hunits⟩

/-- An answered look stages nothing and leaves the state if no time has passed; else it stages the reward
for the new time units and sees all that there is. -/
theorem syncAndStage_cases {state : PersonalRewarderState} {now emitted : ℤ} {units : Number}
    {out : Staged} (h : state.syncAndStage now emitted units = .ok out) :
    (state.lastSeenTotalEmittedRay ≤ emitted ∧ state.lastUpdatedTs ≤ now ∧
      state.lastSeenTimeUnits ≤ units) ∧
    (now = state.lastUpdatedTs ∧ out = ⟨state, 0⟩ ∨
      state.lastUpdatedTs < now ∧ ∃ new : Number,
        new.raw = units.raw - state.lastSeenTimeUnits.raw ∧
        reward (emitted - state.lastSeenTotalEmittedRay).toNat (now - state.lastUpdatedTs).toNat new =
          .ok out.collected ∧
        out.state = ⟨units, emitted.toNat, now.toNat, state.stagedRay + out.collected⟩) := by
  simp only [syncAndStage, bind_eq_ok] at h
  obtain ⟨_, hprogress, h⟩ := h
  obtain ⟨hray, hts, hunits⟩ := checkProgress_eq_ok.mp hprogress
  refine ⟨⟨hray, hts, hunits⟩, ?_⟩
  split at h
  · rename_i hzero
    rw [pure_eq_ok] at h
    exact .inl ⟨by omega, h.symm⟩
  · rename_i hpos
    simp only [bind_eq_ok, pure_eq_ok, Number.sub_eq_ok, Counter.add_eq_ok] at h
    obtain ⟨new, hnew, collected, hcollected, staged, ⟨-, rfl⟩, rfl⟩ := h
    exact .inr ⟨by omega, new, by omega, hcollected, rfl⟩

/-- What a look comes to, in natural numbers. -/
theorem syncAndStage_ok {state : PersonalRewarderState} {now : Int} {emitted : ℕ} {units : Number}
    {out : Staged} (h : state.syncAndStage now emitted units = .ok out) :
    state.lastSeenTotalEmittedRay ≤ emitted ∧ state.lastSeenTimeUnits ≤ units ∧
      ∃ seconds : ℕ, now = state.lastUpdatedTs + seconds ∧
        (seconds = 0 ∧ out.state = state ∧ out.collected = 0 ∨
          0 < seconds ∧
            out.collected * (seconds * scale) ≤ (emitted - state.lastSeenTotalEmittedRay) *
              (units.raw - state.lastSeenTimeUnits.raw) ∧
            out.state =
              ⟨units, emitted, state.lastUpdatedTs + seconds, state.stagedRay + out.collected⟩) := by
  obtain ⟨⟨hray, hts, hunits⟩, hcases⟩ := syncAndStage_cases h
  refine ⟨Int.ofNat_le.mp hray, hunits, (now - state.lastUpdatedTs).toNat, by omega, ?_⟩
  rcases hcases with ⟨hsame, rfl⟩ | ⟨hlater, new, hnew, hreward, hstate⟩
  · exact .inl ⟨by omega, rfl, rfl⟩
  · have hle := reward_le hreward
    have hemitted : ((emitted : ℤ) - state.lastSeenTotalEmittedRay).toNat =
        emitted - state.lastSeenTotalEmittedRay := by omega
    have hnow : now.toNat = state.lastUpdatedTs + (now - state.lastUpdatedTs).toNat := by omega
    rw [hemitted, hnew] at hle
    rw [hnow, Int.toNat_natCast] at hstate
    exact .inr ⟨by omega, hle, hstate⟩

/-- A new state has seen all there is at a time of 64 bits. -/
theorem start_eq_ok {now : Int} {gauge : Gauge} {units : Number} {state : PersonalRewarderState} :
    start now gauge units = .ok state ↔
      0 ≤ now ∧ now ≤ maxU64 ∧ state = ⟨units, gauge.totalRayEmitted, now.toNat, 0⟩ := by
  rw [start]
  split
  · rename_i hneg
    exact iff_of_false nofun fun h => not_le.mpr hneg h.1
  split
  · rename_i hlate
    exact iff_of_false nofun fun h => not_le.mpr hlate h.2.1
  rename_i hnonneg hfits
  rw [Except.ok.injEq]
  exact ⟨fun h => ⟨not_lt.mp hnonneg, not_lt.mp hfits, h.symm⟩, fun h => h.2.2.symm⟩

end PersonalRewarderState

namespace Rewarder

theorem checkCpPool_ok {gauge : Gauge} {tracker : TimeTracker} (h : checkCpPool gauge tracker = .ok ()) :
    gauge.poolId = tracker.poolId := by
  rw [checkCpPool] at h
  split at h
  · assumption
  · cases h

theorem initCp_ok {now : Int} {config : GaugeConfig} {gauge : Gauge} {tracker : TimeTracker}
    {position : PersonalPosition} {out : CpOutcome}
    (h : initCp now config gauge tracker position = .ok out) :
    Escrow.updatePersonal now tracker position = .ok ⟨out.timeTracker, out.position, 0⟩ ∧
      Emission.syncPoolIndex now config gauge = .ok ⟨out.config, out.gauge⟩ ∧
      PersonalRewarderState.start now out.gauge out.position.earnedTimeUnits =
        .ok out.rewarder.rewarder := by
  simp only [initCp, bind_eq_ok, pure_eq_ok] at h
  obtain ⟨_, -, escrow, hescrow, synced, hsynced, state, hstate, rfl⟩ := h
  have hnone : escrow.transferAmount = 0 := (Escrow.updatePersonal_ok hescrow).2
  exact ⟨hnone ▸ hescrow, hsynced, hstate⟩

theorem accrueCp_ok {now : Int} {config : GaugeConfig} {gauge : Gauge} {tracker : TimeTracker}
    {position : PersonalPosition} {rewarder : PersonalRewarderCp} {out : CpOutcome}
    (h : accrueCp now config gauge tracker position rewarder = .ok out) :
    Escrow.updatePersonal now tracker position = .ok ⟨out.timeTracker, out.position, 0⟩ ∧
      Emission.syncPoolIndex now config gauge = .ok ⟨out.config, out.gauge⟩ ∧
      rewarder.rewarder.syncAndStage now out.gauge.totalRayEmitted out.position.earnedTimeUnits =
        .ok ⟨out.rewarder.rewarder, out.collected⟩ := by
  simp only [accrueCp, bind_eq_ok, pure_eq_ok] at h
  obtain ⟨_, -, _, -, escrow, hescrow, synced, hsynced, staged, hstaged, rfl⟩ := h
  have hnone : escrow.transferAmount = 0 := (Escrow.updatePersonal_ok hescrow).2
  exact ⟨hnone ▸ hescrow, hsynced, hstaged⟩

theorem initCl_ok {now : Int} {config : GaugeConfig} {gauge : Gauge} {snapshot : ClPositionSnapshot}
    {mint : String} {out : ClOutcome} (h : initCl now config gauge snapshot mint = .ok out) :
    Emission.syncPoolIndex now config gauge = .ok ⟨out.config, out.gauge⟩ ∧
      ∃ units, snapshot.earnedTimeUnits mint = .ok units ∧
        PersonalRewarderState.start now out.gauge units = .ok out.rewarder.rewarder := by
  simp only [initCl, bind_eq_ok, pure_eq_ok] at h
  obtain ⟨_, -, synced, hsynced, units, hunits, state, hstate, rfl⟩ := h
  exact ⟨hsynced, units, hunits, hstate⟩

theorem accrueCl_ok {now : Int} {config : GaugeConfig} {gauge : Gauge} {snapshot : ClPositionSnapshot}
    {mint : String} {rewarder : PersonalRewarderCl} {out : ClOutcome}
    (h : accrueCl now config gauge snapshot mint rewarder = .ok out) :
    Emission.syncPoolIndex now config gauge = .ok ⟨out.config, out.gauge⟩ ∧
      ∃ units, snapshot.earnedTimeUnits mint = .ok units ∧
        rewarder.rewarder.syncAndStage now out.gauge.totalRayEmitted units =
          .ok ⟨out.rewarder.rewarder, out.collected⟩ := by
  simp only [accrueCl, bind_eq_ok, pure_eq_ok] at h
  obtain ⟨_, -, _, -, synced, hsynced, units, hunits, staged, hstaged, rfl⟩ := h
  exact ⟨hsynced, units, hunits, hstaged⟩

/-- A rewarder is opened for the owner of its position and for the gauge of the tracker's pool. -/
theorem initCp_links {now : Int} {config : GaugeConfig} {gauge : Gauge} {tracker : TimeTracker}
    {position : PersonalPosition} {out : CpOutcome}
    (h : initCp now config gauge tracker position = .ok out) :
    gauge.poolId = tracker.poolId ∧ out.rewarder.owner = out.position.owner ∧
      out.rewarder.poolGauge = out.gauge.poolId := by
  simp only [initCp, bind_eq_ok, pure_eq_ok] at h
  obtain ⟨_, hpool, escrow, -, synced, -, state, -, rfl⟩ := h
  exact ⟨checkCpPool_ok hpool, rfl, rfl⟩

/-- A rewarder stays with its owner and its gauge. -/
theorem accrueCp_links {now : Int} {config : GaugeConfig} {gauge : Gauge} {tracker : TimeTracker}
    {position : PersonalPosition} {rewarder : PersonalRewarderCp} {out : CpOutcome}
    (h : accrueCp now config gauge tracker position rewarder = .ok out) :
    out.rewarder = { rewarder with rewarder := out.rewarder.rewarder } := by
  simp only [accrueCp, bind_eq_ok, pure_eq_ok] at h
  obtain ⟨_, -, _, -, escrow, -, synced, -, staged, -, rfl⟩ := h
  rfl

end Rewarder

/-! ### With which faults they refuse -/

section

variable {allowed : Fault → Prop}

namespace PersonalRewarderState

variable {state : PersonalRewarderState} {now emitted : Int} {units : Number}

theorem checkProgress_faultsIn
    (hemitted : emitted < state.lastSeenTotalEmittedRay →
      allowed (.indexRegression (.emitted emitted state.lastSeenTotalEmittedRay)))
    (hlate : now < state.lastUpdatedTs →
      allowed (.timestampRegression "rewarder" now state.lastUpdatedTs))
    (hunits : units < state.lastSeenTimeUnits →
      allowed (.indexRegression (.timeUnits units state.lastSeenTimeUnits))) :
    FaultsIn allowed (state.checkProgress now emitted units) := by
  rw [checkProgress]
  refine .ite (fun hlt => .error (hemitted hlt)) fun _ => ?_
  exact .ite (fun hlt => .error (hlate hlt)) fun _ => .ite (fun hlt => .error (hunits hlt)) fun _ => .ok

theorem reward_faultsIn (hover : ∀ e : Fault, e.causeKind = .arithmeticOverflow → allowed e)
    (emitted : ℕ) {seconds : ℕ} (units : Number) (h : seconds ≠ 0) :
    FaultsIn allowed (reward emitted seconds units) := by
  refine .bind (Number.ofRatio_faultsIn hover emitted h) fun rate _ => ?_
  refine .bind (Number.mul_faultsIn (hover _ rfl)) fun product _ => ?_
  exact Number.wholePart_faultsIn (hover _ rfl)

/-- A look has the faults of its guards and of the reward for the new time units, and what is staged may
outgrow its counter. -/
theorem syncAndStage_faultsIn (houtgrown : ∀ e : Fault, e.Outgrown → allowed e)
    (hprogress : FaultsIn allowed (state.checkProgress now emitted units))
    (hreward : ∀ new : Number, new.raw + state.lastSeenTimeUnits.raw = units.raw →
      (now - state.lastUpdatedTs).toNat ≠ 0 → FaultsIn allowed
        (reward (emitted - state.lastSeenTotalEmittedRay).toNat (now - state.lastUpdatedTs).toNat new)) :
    FaultsIn allowed (state.syncAndStage now emitted units) := by
  refine .bind hprogress fun _ hseen => .ite (fun _ => .pure) fun hseconds => ?_
  have hunits := Nat.not_lt.mpr (checkProgress_eq_ok.mp hseen).2.2
  refine .bind (Number.sub_faultsIn fun hlt => absurd hlt hunits) fun new hnew => ?_
  refine .bind (hreward new (Number.sub_eq_ok.mp hnew) hseconds) fun collected _ => ?_
  exact .bind (Counter.add_faultsIn (houtgrown _ (.sum _ _ _))) fun _ _ => .pure

/-- To look at what there is is accrual only. -/
theorem syncAndStage_faults (state : PersonalRewarderState) (now emitted : Int) (units : Number) :
    FaultsIn Fault.OfAccrual (state.syncAndStage now emitted units) := by
  refine syncAndStage_faultsIn (fun _ => Fault.Outgrown.ofAccrual) ?_ fun new _ hseconds =>
    reward_faultsIn (fun _ => .inl) _ new hseconds
  exact checkProgress_faultsIn (fun _ => .inr (.inl rfl)) (fun _ => .inr (.inr rfl))
    fun _ => .inr (.inl rfl)

theorem start_faultsIn {gauge : Gauge}
    (h : ∀ complaints, allowed (.rejected .personalRewarderState complaints)) :
    FaultsIn allowed (start now gauge units) := by
  rw [start]
  exact .ite (fun _ => .error (h _)) fun _ => .ite (fun _ => .error (h _)) fun _ => .ok

end PersonalRewarderState

namespace Rewarder

variable {now : Int} {config : GaugeConfig} {gauge : Gauge} {t : TimeTracker} {p : PersonalPosition}
  {s : ClPositionSnapshot}

section

variable (hlinks : ∀ link, allowed (.mismatch link))

include hlinks

theorem checkCpPool_faultsIn : FaultsIn allowed (checkCpPool gauge t) := by
  rw [checkCpPool]
  exact .ite (fun _ => .ok) fun _ => .error (hlinks _)

theorem checkCpLinks_faultsIn {r : PersonalRewarderCp} : FaultsIn allowed (checkCpLinks gauge p r) := by
  rw [checkCpLinks]
  exact .ite (fun _ => .error (hlinks _)) fun _ => .ite (fun _ => .error (hlinks _)) fun _ => .ok

theorem checkClPool_faultsIn : FaultsIn allowed (checkClPool gauge s) := by
  rw [checkClPool]
  exact .ite (fun _ => .ok) fun _ => .error (hlinks _)

theorem checkClLinks_faultsIn {r : PersonalRewarderCl} : FaultsIn allowed (checkClLinks gauge s r) := by
  rw [checkClLinks]
  exact .ite (fun _ => .error (hlinks _)) fun _ => .ite (fun _ => .error (hlinks _)) fun _ => .ok

theorem initCp_faultsIn (hstart : ∀ complaints, allowed (.rejected .personalRewarderState complaints))
    (hupdate : FaultsIn allowed (Escrow.updatePersonal now t p))
    (hsync : FaultsIn allowed (Emission.syncPoolIndex now config gauge)) :
    FaultsIn allowed (initCp now config gauge t p) := by
  refine .bind (checkCpPool_faultsIn hlinks) fun _ _ => .bind hupdate fun escrow _ => ?_
  refine .bind hsync fun synced _ => ?_
  exact .bind (PersonalRewarderState.start_faultsIn hstart) fun _ _ => .pure

/-- An accrual has the faults of the update, of the synchronization and of the look at what these
return. -/
theorem accrueCp_faultsIn {r : PersonalRewarderCp}
    (hupdate : FaultsIn allowed (Escrow.updatePersonal now t p))
    (hsync : FaultsIn allowed (Emission.syncPoolIndex now config gauge))
    (hstage : ∀ escrow synced, Escrow.updatePersonal now t p = .ok escrow →
      Emission.syncPoolIndex now config gauge = .ok synced → FaultsIn allowed
        (r.rewarder.syncAndStage now synced.gauge.totalRayEmitted escrow.position.earnedTimeUnits)) :
    FaultsIn allowed (accrueCp now config gauge t p r) := by
  refine .bind (checkCpPool_faultsIn hlinks) fun _ _ => .bind (checkCpLinks_faultsIn hlinks) fun _ _ => ?_
  refine .bind hupdate fun escrow hescrow => .bind hsync fun synced hsynced => ?_
  exact .bind (hstage escrow synced hescrow hsynced) fun _ _ => .pure

end

end Rewarder

end

/-! ### The book -/

/-- A rewarder and the RAY that it has paid out so far. -/
structure PayingRewarder where
  rewarder : PersonalRewarderCp
  paid : ℕ
deriving DecidableEq

/-- What a rewarder has seen and has ready. -/
def PayingRewarder.state (r : PayingRewarder) : PersonalRewarderState := r.rewarder.rewarder

/-- The RAY that a position has received: paid out, or ready to pay. -/
def PayingRewarder.received (r : PayingRewarder) : ℕ := r.paid + r.state.stagedRay

/-- The records of a pool; rewarders stand under the accounts of their positions. -/
structure PoolBook (ι κ : Type) where
  emission : GaugeBook ι
  escrow : EscrowBook κ
  rewarders : Table κ PayingRewarder

/-- A call on the emission, on the pool's escrow or on a position's rewarder. -/
inductive PoolCall (ι κ : Type) where
  | emission (call : GaugeCall ι)
  | escrow (call : EscrowCall κ)
  | initCp (now : Int) (account : κ)
  | accrueCp (now : Int) (account : κ)
  | collectCp (account : κ)

namespace PoolCall

variable {ι κ : Type}

/-- The time of a call; a payment has none. -/
def time : PoolCall ι κ → Option Int
  | emission call => some call.now
  | escrow call => some call.now
  | initCp now _ | accrueCp now _ => some now
  | collectCp _ => none

end PoolCall

namespace PoolBook

variable {ι κ : Type} [DecidableEq ι] [DecidableEq κ] (pool : ι)

/-- The book with the records of one look at a position committed, but for its rewarder. -/
def looked (book : PoolBook ι κ) (account : κ) (out : Rewarder.CpOutcome) : PoolBook ι κ where
  emission := book.emission.commit pool ⟨out.config, out.gauge⟩
  escrow := book.escrow.commit account ⟨out.timeTracker, out.position, 0⟩
  rewarders := book.rewarders

/-- The book with a rewarder's record committed. -/
def commit (book : PoolBook ι κ) (account : κ) (r : PayingRewarder) : PoolBook ι κ :=
  { book with rewarders := book.rewarders.insert account r }

/-- The book after an answered call; the gauge under `pool` is the pool's. -/
def step (book : PoolBook ι κ) : PoolCall ι κ → Option (PoolBook ι κ)
  | .emission call => do
      let emission ← book.emission.step call
      return { book with emission }
  | .escrow call => do
      let escrow ← book.escrow.step call
      return { book with escrow }
  | .initCp now account => do
      let gauge ← book.emission.gauges.lookup pool
      let position ← book.escrow.positions.lookup account
      if account ∈ book.rewarders then none
      else
        let out ← (Rewarder.initCp now book.emission.config gauge book.escrow.tracker position).toOption
        return (book.looked pool account out).commit account ⟨out.rewarder, 0⟩
  | .accrueCp now account => do
      let gauge ← book.emission.gauges.lookup pool
      let position ← book.escrow.positions.lookup account
      let r ← book.rewarders.lookup account
      let out ← (Rewarder.accrueCp now book.emission.config gauge book.escrow.tracker position
        r.rewarder).toOption
      return (book.looked pool account out).commit account ⟨out.rewarder, r.paid⟩
  | .collectCp account => do
      let r ← book.rewarders.lookup account
      let (rewarder, amount) := Rewarder.collectCp r.rewarder
      return book.commit account ⟨rewarder, r.paid + amount⟩

/-- The records `out` are those of a look at a position: the gauge is synchronized, and the position
updated. -/
structure Looked (book : PoolBook ι κ) (now : Int) (account : κ) (out : Rewarder.CpOutcome) : Prop where
  emission : book.emission.step (.sync now pool) =
    some (book.emission.commit pool ⟨out.config, out.gauge⟩)
  escrow : book.escrow.step (.update now account) =
    some (book.escrow.commit account ⟨out.timeTracker, out.position, 0⟩)
  gauge : out.gauge.lastSeenGlobalIndex = out.config.index
  position : out.position.lastSeenIndex = out.timeTracker.index
  configTs : (out.config.lastUpdatedTs : ℤ) = now
  trackerTs : (out.timeTracker.lastSeenTs : ℤ) = now

variable {pool} {book book' : PoolBook ι κ} {call : PoolCall ι κ}

theorem looked_gauge (account : κ) {out : Rewarder.CpOutcome} :
    (book.looked pool account out).emission.gauges.lookup pool = some out.gauge :=
  Finmap.lookup_insert _

theorem looked_position (pool : ι) {account : κ} {out : Rewarder.CpOutcome} :
    (book.looked pool account out).escrow.positions.lookup account = some out.position :=
  Finmap.lookup_insert _

theorem looked_of_ok {now : Int} {account : κ} {gauge : Gauge} {position : PersonalPosition}
    {out : Rewarder.CpOutcome} (hg : book.emission.gauges.lookup pool = some gauge)
    (hp : book.escrow.positions.lookup account = some position)
    (hupdate : Escrow.updatePersonal now book.escrow.tracker position =
      .ok ⟨out.timeTracker, out.position, 0⟩)
    (hsync : Emission.syncPoolIndex now book.emission.config gauge = .ok ⟨out.config, out.gauge⟩) :
    Looked pool book now account out := by
  obtain ⟨⟨elapsed, hnow, hadv⟩, hset⟩ := Emission.syncPoolIndex_ok hsync
  obtain ⟨⟨tracker, position', hescrow, htracker, hposition⟩, -, -⟩ :=
    (Escrow.updatePersonal_ok hupdate).1
  obtain ⟨⟨elapsed', hnow', hadv'⟩, hset'⟩ := Escrow.sync_ok hescrow
  refine ⟨GaugeBook.step_sync hg hsync, EscrowBook.step_update hp hupdate, hset.lastSeen, ?_, ?_, ?_⟩
  · dsimp only at htracker hposition
    rw [htracker, hposition]
    exact hset'.lastSeen
  · have hts := hadv.ts
    dsimp only at hts
    omega
  · have hts := hadv'.ts
    dsimp only at htracker
    rw [htracker]
    dsimp only
    omega

section Steps

variable {now : Int} {account : κ}

theorem step_emission {call : GaugeCall ι} : book.step pool (.emission call) = some book' ↔
    ∃ emission, book.emission.step call = some emission ∧ { book with emission } = book' := by
  simp [step, Option.bind_eq_some_iff]

theorem step_escrow {call : EscrowCall κ} : book.step pool (.escrow call) = some book' ↔
    ∃ escrow, book.escrow.step call = some escrow ∧ { book with escrow } = book' := by
  simp [step, Option.bind_eq_some_iff]

theorem step_initCp : book.step pool (.initCp now account) = some book' ↔
    ∃ gauge position out, book.emission.gauges.lookup pool = some gauge ∧
      book.escrow.positions.lookup account = some position ∧ account ∉ book.rewarders ∧
      Rewarder.initCp now book.emission.config gauge book.escrow.tracker position = .ok out ∧
      (book.looked pool account out).commit account ⟨out.rewarder, 0⟩ = book' := by
  simp [step, Option.bind_eq_some_iff]

theorem step_accrueCp : book.step pool (.accrueCp now account) = some book' ↔
    ∃ gauge position r out, book.emission.gauges.lookup pool = some gauge ∧
      book.escrow.positions.lookup account = some position ∧ book.rewarders.lookup account = some r ∧
      Rewarder.accrueCp now book.emission.config gauge book.escrow.tracker position r.rewarder = .ok out ∧
      (book.looked pool account out).commit account ⟨out.rewarder, r.paid⟩ = book' := by
  simp [step, Option.bind_eq_some_iff]

theorem step_collectCp : book.step pool (.collectCp account) = some book' ↔
    ∃ r, book.rewarders.lookup account = some r ∧
      book.commit account ⟨(Rewarder.collectCp r.rewarder).1,
        r.paid + (Rewarder.collectCp r.rewarder).2⟩ = book' := by
  simp [step, Option.bind_eq_some_iff]

end Steps

/-- What an answered call does to the book. -/
theorem step_cases (h : book.step pool call = some book') :
    (∃ c e', call = .emission c ∧ book.emission.step c = some e' ∧
        book' = { book with emission := e' }) ∨
      (∃ c s', call = .escrow c ∧ book.escrow.step c = some s' ∧ book' = { book with escrow := s' }) ∨
      (∃ now account out, call = .initCp now account ∧ Looked pool book now account out ∧
        book.rewarders.lookup account = none ∧
        out.rewarder.rewarder =
          ⟨out.position.earnedTimeUnits, out.gauge.totalRayEmitted, now.toNat, 0⟩ ∧
        book' = (book.looked pool account out).commit account ⟨out.rewarder, 0⟩) ∨
      (∃ now account out r, call = .accrueCp now account ∧ Looked pool book now account out ∧
        book.rewarders.lookup account = some r ∧
        r.rewarder.rewarder.syncAndStage now out.gauge.totalRayEmitted out.position.earnedTimeUnits =
          .ok ⟨out.rewarder.rewarder, out.collected⟩ ∧
        book' = (book.looked pool account out).commit account ⟨out.rewarder, r.paid⟩) ∨
      ∃ account r, call = .collectCp account ∧ book.rewarders.lookup account = some r ∧
        book' = book.commit account ⟨(Rewarder.collectCp r.rewarder).1,
          r.paid + (Rewarder.collectCp r.rewarder).2⟩ := by
  cases call with
  | emission c =>
      obtain ⟨e', hstep, rfl⟩ := step_emission.mp h
      exact .inl ⟨c, e', rfl, hstep, rfl⟩
  | escrow c =>
      obtain ⟨s', hstep, rfl⟩ := step_escrow.mp h
      exact .inr (.inl ⟨c, s', rfl, hstep, rfl⟩)
  | initCp now account =>
      obtain ⟨gauge, position, out, hg, hp, hnew, hout, rfl⟩ := step_initCp.mp h
      obtain ⟨hupdate, hsync, hstart⟩ := Rewarder.initCp_ok hout
      have hstate := (PersonalRewarderState.start_eq_ok.mp hstart).2.2
      exact .inr (.inr (.inl ⟨now, account, out, rfl, looked_of_ok hg hp hupdate hsync,
        Finmap.lookup_eq_none.mpr hnew, hstate, rfl⟩))
  | accrueCp now account =>
      obtain ⟨gauge, position, r, out, hg, hp, hr, hout, rfl⟩ := step_accrueCp.mp h
      obtain ⟨hupdate, hsync, hstate⟩ := Rewarder.accrueCp_ok hout
      exact .inr (.inr (.inr (.inl ⟨now, account, out, r, rfl, looked_of_ok hg hp hupdate hsync, hr,
        hstate, rfl⟩)))
  | collectCp account =>
      obtain ⟨r, hr, rfl⟩ := step_collectCp.mp h
      exact .inr (.inr (.inr (.inr ⟨account, r, rfl, hr, rfl⟩)))

end PoolBook

end EmissionLedger
