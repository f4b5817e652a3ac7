import EmissionLedger.Proofs.Emission.Synchronization
import EmissionLedger.Proofs.Escrow.Withdrawal
import EmissionLedger.Proofs.Rewarder.Fairness

/-!
A rewarder can always be accrued. It belongs to its position's owner and its pool's gauge, and it has seen
no more time units than its position has earned, whatever others did in between. Since the position earns
at most one unit a second, the RAY that is staged is at most what the gauge got, which has 64 bits; so the
only fault left is that of the gauge itself, when its RAY outgrows its counter.

Main statement: `Linked.accruesSafely`.
-/

namespace EmissionLedger

/-! ### Links between records -/

/-- The rewarder belongs to the position's owner and to the gauge of the tracker's pool, and it has seen
no more than the position has earned. -/
structure PayingRewarder.Linked (r : PayingRewarder) (tracker : TimeTracker) (gauge : Gauge)
    (p : PersonalPosition) : Prop where
  owner : r.rewarder.owner = p.owner
  poolGauge : r.rewarder.poolGauge = gauge.poolId
  pool : gauge.poolId = tracker.poolId
  units : r.state.lastSeenTimeUnits ≤ p.earnedTimeUnits

/-- A look sees no more than there is. -/
theorem PersonalRewarderState.syncAndStage_seen {state : PersonalRewarderState} {now : Int} {emitted : ℕ}
    {units : Number} {out : Staged} (h : state.syncAndStage now emitted units = .ok out) :
    out.state.lastSeenTimeUnits ≤ units := by
  obtain ⟨-, hseen, seconds, -, ⟨-, hsame, -⟩ | ⟨-, -, hnew⟩⟩ := syncAndStage_ok h
  · rw [hsame]
    exact hseen
  · rw [hnew]
    exact Nat.le_refl _

/-- A gauge stays with its pool. -/
theorem GaugeBook.poolId_step {ι : Type} [DecidableEq ι] {book book' : GaugeBook ι} {call : GaugeCall ι}
    (h : book.step call = some book') {account : ι} {g : Gauge}
    (hg : book.gauges.lookup account = some g) :
    ∃ g', book'.gauges.lookup account = some g' ∧ g'.poolId = g.poolId := by
  obtain ⟨config, elapsed, -, -, hcases⟩ := step_cases h
  rcases hcases with ⟨hnone, -, poolId, -, rfl⟩ | ⟨g₀, g', total, votes, hg₀, hset, -, -, rfl⟩
  · refine Table.lookup_insert_related (R := fun g g' => g'.poolId = g.poolId) rfl (fun old hold => ?_) hg
    rw [hnone] at hold
    cases hold
  · refine Table.lookup_insert_related (R := fun g g' => g'.poolId = g.poolId) rfl (fun old hold => ?_) hg
    obtain rfl : g₀ = old := Option.some.inj (hg₀.symm.trans hold)
    exact hset.poolId

/-- A position stays with its owner and does not lose time units, and the tracker stays with its pool. -/
theorem EscrowBook.owner_step {ι : Type} [DecidableEq ι] {book book' : EscrowBook ι}
    {call : EscrowCall ι} (h : book.step call = some book') {account : ι} {p : PersonalPosition}
    (hp : book.positions.lookup account = some p) :
    book'.tracker.poolId = book.tracker.poolId ∧ ∃ p', book'.positions.lookup account = some p' ∧
      p'.owner = p.owner ∧ p.earnedTimeUnits ≤ p'.earnedTimeUnits := by
  let R (p p' : PersonalPosition) : Prop := p'.owner = p.owner ∧ p.earnedTimeUnits ≤ p'.earnedTimeUnits
  obtain ⟨t, elapsed, hadv, -, hcases⟩ := step_cases h
  rcases hcases with ⟨hnone, -, owner, -, rfl⟩ | ⟨p₀, p', total, amount, hp₀, hset, -, -, rfl⟩
  · refine ⟨hadv.poolId, Table.lookup_insert_related (R := R) ⟨rfl, Nat.le_refl _⟩ (fun old hold => ?_) hp⟩
    rw [hnone] at hold
    cases hold
  · refine ⟨hadv.poolId, Table.lookup_insert_related (R := R) ⟨rfl, Nat.le_refl _⟩ (fun old hold => ?_) hp⟩
    obtain rfl : p₀ = old := Option.some.inj (hp₀.symm.trans hold)
    refine ⟨hset.owner, ?_⟩
    rw [Number.le_iff]
    exact hset.earned ▸ Nat.le_add_right _ _

namespace PoolBook

variable {ι κ : Type} [DecidableEq ι] [DecidableEq κ] {pool : ι} {book book' : PoolBook ι κ}
variable {call : PoolCall ι κ}

variable (pool) in
/-- No number of the escrow outgrows the time, and every rewarder is linked to the records of its pool. -/
structure Linked (book : PoolBook ι κ) : Prop where
  escrow : book.escrow.Bounded
  rewarders : ∀ account r, book.rewarders.lookup account = some r → ∃ gauge p,
    book.emission.gauges.lookup pool = some gauge ∧
      book.escrow.positions.lookup account = some p ∧ r.Linked book.escrow.tracker gauge p

theorem Linked.emission_step (hl : Linked pool book) {c : GaugeCall ι} {e' : GaugeBook ι}
    (h : book.emission.step c = some e') : Linked pool { book with emission := e' } := by
  refine ⟨hl.escrow, fun account r hr => ?_⟩
  obtain ⟨gauge, p, hg, hp, hlinked⟩ := hl.rewarders account r hr
  obtain ⟨gauge', hg', hid⟩ := GaugeBook.poolId_step h hg
  exact ⟨gauge', p, hg', hp, hlinked.owner, hlinked.poolGauge.trans hid.symm, hid.trans hlinked.pool,
    hlinked.units⟩

theorem Linked.escrow_step (hl : Linked pool book) (hs : Sound pool book) {c : EscrowCall κ}
    {s' : EscrowBook κ} (h : book.escrow.step c = some s') : Linked pool { book with escrow := s' } := by
  refine ⟨hl.escrow.step hs.escrow h, fun account r hr => ?_⟩
  obtain ⟨gauge, p, hg, hp, hlinked⟩ := hl.rewarders account r hr
  obtain ⟨htracker, p', hp', howner, hunits⟩ := EscrowBook.owner_step h hp
  exact ⟨gauge, p', hg, hp', hlinked.owner.trans howner.symm, hlinked.poolGauge,
    hlinked.pool.trans htracker.symm, Nat.le_trans hlinked.units hunits⟩

theorem Linked.commit (hl : Linked pool book) {account : κ} {gauge : Gauge} {p : PersonalPosition}
    {r : PayingRewarder} (hg : book.emission.gauges.lookup pool = some gauge)
    (hp : book.escrow.positions.lookup account = some p) (hlinked : r.Linked book.escrow.tracker gauge p) :
    Linked pool (book.commit account r) :=
  ⟨hl.escrow, Table.forall_insert hl.rewarders ⟨gauge, p, hg, hp, hlinked⟩⟩

theorem Linked.look (hl : Linked pool book) (hs : Sound pool book) {now : Int} {account : κ}
    {out : Rewarder.CpOutcome} (hlook : Looked pool book now account out) :
    Linked pool (book.looked pool account out) :=
  (hl.emission_step hlook.emission).escrow_step (hs.emission_step hlook.emission) hlook.escrow

theorem Linked.step (hl : Linked pool book) (hs : Sound pool book)
    (h : book.step pool call = some book') : Linked pool book' := by
  cases call with
  | emission c =>
      obtain ⟨e', hstep, rfl⟩ := step_emission.mp h
      exact hl.emission_step hstep
  | escrow c =>
      obtain ⟨s', hstep, rfl⟩ := step_escrow.mp h
      exact hl.escrow_step hs hstep
  | initCp now account =>
      obtain ⟨gauge, position, out, hg, hp, -, hout, rfl⟩ := step_initCp.mp h
      obtain ⟨hupdate, hsync, hstart⟩ := Rewarder.initCp_ok hout
      obtain ⟨hpool, howner, hgauge⟩ := Rewarder.initCp_links hout
      have hlook := looked_of_ok hg hp hupdate hsync
      refine (hl.look hs hlook).commit (looked_gauge account) (looked_position pool) ⟨howner, hgauge, ?_, ?_⟩
      · have hkept : out.timeTracker.poolId = book.escrow.tracker.poolId :=
          (EscrowBook.owner_step hlook.escrow hp).1
        exact (Emission.syncPoolIndex_ok hsync).2.poolId.trans (hpool.trans hkept.symm)
      · rw [PayingRewarder.state, (PersonalRewarderState.start_eq_ok.mp hstart).2.2]
        exact Nat.le_refl _
  | accrueCp now account =>
      obtain ⟨gauge, position, r, out, hg, hp, hr, hout, rfl⟩ := step_accrueCp.mp h
      obtain ⟨hupdate, hsync, hstage⟩ := Rewarder.accrueCp_ok hout
      have hlooked := hl.look hs (looked_of_ok hg hp hupdate hsync)
      obtain ⟨gauge', p', hg', hp', hlinked⟩ := hlooked.rewarders account r hr
      obtain rfl : out.position = p' := Option.some.inj ((looked_position pool).symm.trans hp')
      have hrecord := Rewarder.accrueCp_links hout
      refine hlooked.commit hg' hp' ⟨?_, ?_, hlinked.pool, PersonalRewarderState.syncAndStage_seen hstage⟩
      · rw [hrecord]
        exact hlinked.owner
      · rw [hrecord]
        exact hlinked.poolGauge
  | collectCp account =>
      obtain ⟨r, hr, rfl⟩ := step_collectCp.mp h
      obtain ⟨gauge, p, hg, hp, hlinked⟩ := hl.rewarders account r hr
      exact hl.commit hg hp ⟨hlinked.owner, hlinked.poolGauge, hlinked.pool, hlinked.units⟩

end PoolBook

/-! ### Accruing -/

/-- Accruing the rewarder at `now` goes well, where `escrow` is what updating its position comes to. Since
the rewarder's last look the position has earned at most one time unit a second, and the RAY that is
staged is at most what the gauge got; the only fault is that the RAY of the gauge outgrows its counter
when it is synchronized. -/
structure PayingRewarder.AccruesSafely (r : PayingRewarder) (now : ℕ) (config : GaugeConfig)
    (gauge : Gauge) (tracker : TimeTracker) (p : PersonalPosition) (escrow : Escrow.Outcome) : Prop where
  update : Escrow.updatePersonal now tracker p = .ok escrow
  clock : r.state.lastUpdatedTs ≤ now
  seen : r.state.lastSeenTimeUnits ≤ escrow.position.earnedTimeUnits
  units : escrow.position.earnedTimeUnits.raw - r.state.lastSeenTimeUnits.raw ≤
    (now - r.state.lastUpdatedTs) * scale
  outcome :
    (∃ out, Rewarder.accrueCp now config gauge tracker p r.rewarder = .ok out ∧
      out.position = escrow.position ∧
      r.state.lastSeenTotalEmittedRay ≤ out.gauge.totalRayEmitted ∧
      out.collected ≤ out.gauge.totalRayEmitted - r.state.lastSeenTotalEmittedRay) ∨
    ∃ e, Rewarder.accrueCp now config gauge tracker p r.rewarder = .error e ∧
      Emission.syncPoolIndex now config gauge = .error e ∧ e.kind = .arithmeticOverflow

/-- A reward for at most a unit a second is found and is at most the RAY that went to the pool: the rate
is cut off, so what it is worth over all the seconds is at most that RAY. -/
theorem PersonalRewarderState.reward_answered {emitted seconds : ℕ} {units : Number} (hsome : seconds ≠ 0)
    (hemitted : emitted ≤ maxU64) (hseconds : seconds ≤ maxU64) (hunits : units.raw ≤ seconds * scale) :
    ∃ collected, reward emitted seconds units = .ok collected ∧ collected ≤ emitted := by
  have hpos : 0 < seconds := Nat.pos_of_ne_zero hsome
  have hindex : units.raw ≤ maxIndex := (hunits.trans (Nat.mul_le_mul_right _ hseconds)).trans seconds_fit
  obtain ⟨product, heq, hproduct⟩ := reward_eq_wholePart hsome (counter_fits hemitted)
    (counter_fits hseconds) (product_fits hemitted hindex)
  have hworth : product.raw ≤ scale * emitted := by
    refine Nat.le_of_mul_le_mul_right ?_ hpos
    calc product.raw * seconds ≤ emitted * units.raw := hproduct
      _ ≤ emitted * (seconds * scale) := Nat.mul_le_mul_left _ hunits
      _ = scale * emitted * seconds := by ring
  have hle : product.raw / scale ≤ emitted := Nat.div_le_of_le_mul hworth
  exact ⟨_, heq.trans (Number.wholePart_eq_ok.mpr ⟨hle.trans hemitted, rfl⟩), hle⟩

/-- A look at totals that do not fall is answered, at a time of 64 bits, if the new units are at most the
new seconds and the staged RAY has room for the new RAY. -/
theorem PersonalRewarderState.syncAndStage_answered {state : PersonalRewarderState} {now emitted : ℤ}
    {units : Number}
    (hguards : state.lastSeenTotalEmittedRay ≤ emitted ∧ state.lastUpdatedTs ≤ now ∧
      state.lastSeenTimeUnits ≤ units)
    (hunits : units.raw - state.lastSeenTimeUnits.raw ≤ (now - state.lastUpdatedTs).toNat * scale)
    (hnow : now ≤ maxU64)
    (hroom : state.stagedRay + (emitted - state.lastSeenTotalEmittedRay).toNat ≤ maxU64) :
    ∃ out, state.syncAndStage now emitted units = .ok out := by
  obtain ⟨hray, hts, hseen⟩ := hguards
  apply bind_answered (checkProgress_eq_ok.mpr ⟨hray, hts, hseen⟩)
  by_cases hsome : (now - state.lastUpdatedTs).toNat = 0
  · exact ⟨_, if_pos hsome⟩
  · obtain ⟨new, hnew⟩ : ∃ new, units.sub state.lastSeenTimeUnits = .ok new :=
      ⟨_, if_neg (Nat.not_lt.mpr hseen)⟩
    have hraw : new.raw ≤ (now - state.lastUpdatedTs).toNat * scale := by
      have hsum := Number.sub_eq_ok.mp hnew
      omega
    obtain ⟨collected, hreward, hcollected⟩ :=
      reward_answered hsome (by omega : (emitted - state.lastSeenTotalEmittedRay).toNat ≤ maxU64)
        (by omega) hraw
    obtain ⟨staged, hstaged⟩ : ∃ staged, Counter.add "staged_ray" state.stagedRay collected = .ok staged :=
      ⟨_, Counter.add_eq_ok.mpr ⟨by omega, rfl⟩⟩
    dsimp only
    rw [if_neg hsome]
    apply bind_answered hnew
    apply bind_answered hreward
    exact bind_answered hstaged ⟨_, rfl⟩

namespace PayingRewarder

variable {r : PayingRewarder} {config : GaugeConfig} {tracker : TimeTracker} {gauge : Gauge}
variable {p : PersonalPosition}

/-- A look at the tracker's time is answered. The rate is cut off and there are no more units than
seconds, so the reward is at most the RAY that is new, and all the RAY received at most the gauge's. -/
theorem Fair.stage_answered (hfair : r.Fair config tracker gauge p)
    (hseen : r.state.lastSeenTimeUnits ≤ p.earnedTimeUnits) (hposition : p.lastSeenIndex = tracker.index)
    (hclock : tracker.lastSeenTs ≤ maxU64) (hemitted : gauge.totalRayEmitted ≤ maxU64) :
    ∃ staged, r.state.syncAndStage tracker.lastSeenTs gauge.totalRayEmitted p.earnedTimeUnits =
      .ok staged := by
  have hreceived := hfair.received
  have hray := hfair.ray
  have hts := hfair.ts
  have helapsed : ((tracker.lastSeenTs : ℤ) - r.state.lastUpdatedTs).toNat =
      tracker.lastSeenTs - r.state.lastUpdatedTs := by omega
  rw [PayingRewarder.received] at hreceived
  refine PersonalRewarderState.syncAndStage_answered ⟨by omega, by omega, hseen⟩ ?_ (by omega) (by omega)
  rw [helapsed]
  exact hfair.units_le hposition

end PayingRewarder

namespace PoolBook

variable {ι κ : Type} [DecidableEq ι] [DecidableEq κ] {pool : ι} {book : PoolBook ι κ}

/-- The position of a rewarder can be updated at any time from the tracker's on. The records of the pool
stay sound, and the rewarder has still seen no more units than the position has earned. -/
theorem Linked.update_answered (hl : Linked pool book) (hs : Sound pool book) {account : κ}
    {r : PayingRewarder} {p : PersonalPosition} (hr : book.rewarders.lookup account = some r)
    (hp : book.escrow.positions.lookup account = some p) {now : ℕ}
    (htracker : book.escrow.tracker.lastSeenTs ≤ now) (hnow : now ≤ maxU64) :
    ∃ t p', Escrow.updatePersonal now book.escrow.tracker p = .ok ⟨t, p', 0⟩ ∧
      t.lastSeenTs = now ∧ p'.lastSeenIndex = t.index ∧
      r.state.lastSeenTimeUnits ≤ p'.earnedTimeUnits ∧
      Sound pool { book with escrow := book.escrow.commit account ⟨t, p', 0⟩ } := by
  obtain ⟨⟨t, p'⟩, hsync⟩ := hl.escrow.sync_answered hs.escrow hp htracker hnow
  have hupdate : Escrow.updatePersonal now book.escrow.tracker p = .ok ⟨t, p', 0⟩ :=
    bind_ok hsync rfl
  obtain ⟨⟨elapsed, hadvanced, hadv⟩, hset⟩ := Escrow.sync_ok hsync
  have hstep := EscrowBook.step_update hp hupdate
  obtain ⟨gauge, q, -, hq, hlinked⟩ := (hl.escrow_step hs hstep).rewarders account r hr
  obtain rfl : p' = q := Option.some.inj ((Finmap.lookup_insert _).symm.trans hq)
  refine ⟨t, p', hupdate, ?_, hset.lastSeen, hlinked.units, hs.escrow_step hstep⟩
  have hts := hadv.ts
  omega

/-- **Accruing.** A rewarder has a position and a gauge, and at any time from their clocks on that fits 64
bits it is accrued safely. -/
theorem Linked.accruesSafely (hl : Linked pool book) (hs : Sound pool book)
    (hbounded : book.emission.Bounded) (hbalanced : book.emission.Balanced) {account : κ}
    {r : PayingRewarder} (hr : book.rewarders.lookup account = some r) :
    ∃ gauge p, book.emission.gauges.lookup pool = some gauge ∧
      book.escrow.positions.lookup account = some p ∧
      ∀ now : ℕ, book.escrow.tracker.lastSeenTs ≤ now → book.emission.config.lastUpdatedTs ≤ now →
        now ≤ maxU64 →
        ∃ escrow, r.AccruesSafely now book.emission.config gauge book.escrow.tracker p escrow := by
  obtain ⟨gauge, p, hg, hp, hlinked⟩ := hl.rewarders account r hr
  refine ⟨gauge, p, hg, hp, fun now htracker hconfig hnow => ?_⟩
  have hpool : Rewarder.checkCpPool gauge book.escrow.tracker = .ok () := if_pos hlinked.pool
  have hlinks : Rewarder.checkCpLinks gauge p r.rewarder = .ok () := by
    rw [Rewarder.checkCpLinks, if_neg (not_not.mpr hlinked.owner), if_neg (not_not.mpr hlinked.poolGauge)]
  obtain ⟨t, p', hupdate, rfl, hposition, hseen, hsound⟩ := hl.update_answered hs hr hp htracker hnow
  have hp' : (book.escrow.commit account ⟨t, p', 0⟩).positions.lookup account = some p' :=
    Finmap.lookup_insert _
  have hfair := hsound.fair_of hr hg hp'
  refine ⟨⟨t, p', 0⟩, hupdate, hfair.ts, hseen, hfair.units_le hposition, ?_⟩
  cases hsynced : Emission.syncPoolIndex t.lastSeenTs book.emission.config gauge with
  | error e =>
    refine .inr ⟨e, ?_, rfl, hbounded.sync_overflow hbalanced hg hconfig hnow e hsynced⟩
    simp only [Rewarder.accrueCp, hpool, hlinks, hupdate, hsynced]
    rfl
  | ok synced =>
    -- the look is at the gauge that the synchronization returns
    have hstep := GaugeBook.step_sync hg hsynced
    have hg' : (book.emission.commit pool synced).gauges.lookup pool = some synced.gauge :=
      Finmap.lookup_insert _
    have hfair' := (hsound.emission_step hstep).fair_of hr hg' hp'
    have hemitted := (hbounded.step hstep).emitted pool synced.gauge hg'
    obtain ⟨staged, hstage⟩ := hfair'.stage_answered hseen hposition hnow hemitted
    have hcollected := hfair'.collected_le hstage rfl hposition
    refine .inl ⟨⟨synced.config, synced.gauge, t, p', { r.rewarder with rewarder := staged.state },
      staged.collected⟩, ?_, rfl, hfair'.ray, hcollected⟩
    simp only [Rewarder.accrueCp, bind_eq_ok, pure_eq_ok]
    exact ⟨(), hpool, (), hlinks, _, hupdate, synced, hsynced, staged, hstage, rfl⟩

end PoolBook

end EmissionLedger
