import EmissionLedger.Proofs.Escrow.Conservation
import EmissionLedger.Proofs.Rewarder.Book

/-!
One rewarder against its pool. Between two looks its position earns at most one time unit a second, so
what a look stages is at most the RAY that the pool got in between, and in all the position receives no
more than the rewarder has seen. A rewarder that looked at the config's time has seen everything.
-/

namespace EmissionLedger

/-- What holds of every rewarder: it has seen no more than there is, all of it if it looked at the
config's time; its position has earned at most a unit a second since, and has received at most the RAY
seen. -/
structure PayingRewarder.Fair (r : PayingRewarder) (config : GaugeConfig) (tracker : TimeTracker)
    (gauge : Gauge) (p : PersonalPosition) : Prop where
  ts : r.state.lastUpdatedTs ≤ tracker.lastSeenTs
  clock : r.state.lastUpdatedTs ≤ config.lastUpdatedTs
  ray : r.state.lastSeenTotalEmittedRay ≤ gauge.totalRayEmitted
  seen : r.state.lastUpdatedTs = config.lastUpdatedTs →
    r.state.lastSeenTotalEmittedRay = gauge.totalRayEmitted ∧
      gauge.lastSeenGlobalIndex = config.index
  units : p.unitsAt tracker.index - r.state.lastSeenTimeUnits.raw ≤
    scale * ((tracker.lastSeenTs : ℤ) - r.state.lastUpdatedTs)
  received : r.received ≤ r.state.lastSeenTotalEmittedRay

namespace PayingRewarder

variable {r r' : PayingRewarder} {config : GaugeConfig} {tracker : TimeTracker} {gauge : Gauge}
variable {p : PersonalPosition} {now : Int}

/-- A rewarder that has seen all there is now is fair if its position has received no more. -/
theorem fair_of_looked (hunits : r.state.lastSeenTimeUnits = p.earnedTimeUnits)
    (hray : r.state.lastSeenTotalEmittedRay = gauge.totalRayEmitted)
    (hts : (r.state.lastUpdatedTs : ℤ) = now) (hconfig : (config.lastUpdatedTs : ℤ) = now)
    (htracker : (tracker.lastSeenTs : ℤ) = now) (hgauge : gauge.lastSeenGlobalIndex = config.index)
    (hposition : p.lastSeenIndex = tracker.index) (hreceived : r.received ≤ gauge.totalRayEmitted) :
    r.Fair config tracker gauge p := by
  refine ⟨by omega, by omega, hray.le, fun _ => ⟨hray, hgauge⟩, ?_, hray ▸ hreceived⟩
  rw [PersonalPosition.unitsAt_of_seen hposition, hunits, sub_self, htracker, hts, sub_self, mul_zero]

/-- A settled position has earned at most one time unit a second since the last look. -/
theorem Fair.units_le (hfair : r.Fair config tracker gauge p)
    (hposition : p.lastSeenIndex = tracker.index) :
    p.earnedTimeUnits.raw - r.state.lastSeenTimeUnits.raw ≤
      (tracker.lastSeenTs - r.state.lastUpdatedTs) * scale := by
  have hle := hfair.units
  have hts := hfair.ts
  rw [PersonalPosition.unitsAt_of_seen hposition, mul_comm] at hle
  rw [Nat.sub_le_iff_le_add]
  zify [hts]
  linarith

/-- A look stages at most the RAY that is new: the units are at most the seconds. -/
theorem Fair.collected_le {staged : PersonalRewarderState.Staged} (hfair : r.Fair config tracker gauge p)
    (hstage : r.state.syncAndStage now gauge.totalRayEmitted p.earnedTimeUnits = .ok staged)
    (htracker : (tracker.lastSeenTs : ℤ) = now) (hposition : p.lastSeenIndex = tracker.index) :
    staged.collected ≤ gauge.totalRayEmitted - r.state.lastSeenTotalEmittedRay := by
  have hscale : 0 < scale := by decide
  have hunits := hfair.units_le hposition
  obtain ⟨-, -, seconds, hnow, hcases⟩ := PersonalRewarderState.syncAndStage_ok hstage
  have hseconds : tracker.lastSeenTs - r.state.lastUpdatedTs = seconds := by omega
  rw [hseconds] at hunits
  rcases hcases with ⟨-, -, hnone⟩ | ⟨hpos, hreward, -⟩
  · rw [hnone]
    exact Nat.zero_le _
  · exact Nat.le_of_mul_le_mul_right (hreward.trans (Nat.mul_le_mul_left _ hunits))
      (Nat.mul_pos hpos hscale)

/-- After a look the position has received no more than the rewarder has seen then. -/
theorem Fair.look {staged : PersonalRewarderState.Staged} (hfair : r.Fair config tracker gauge p)
    (hstage : r.state.syncAndStage now gauge.totalRayEmitted p.earnedTimeUnits = .ok staged)
    (hstate : r'.state = staged.state) (hpaid : r'.paid = r.paid)
    (hconfig : (config.lastUpdatedTs : ℤ) = now) (htracker : (tracker.lastSeenTs : ℤ) = now)
    (hgauge : gauge.lastSeenGlobalIndex = config.index) (hposition : p.lastSeenIndex = tracker.index) :
    r'.Fair config tracker gauge p := by
  have hcollected := hfair.collected_le hstage htracker hposition
  have hreceived := hfair.received
  rw [PayingRewarder.received] at hreceived
  obtain ⟨hray, -, seconds, hnow, hcases⟩ := PersonalRewarderState.syncAndStage_ok hstage
  rcases hcases with ⟨-, hsame, -⟩ | ⟨-, -, hnew⟩
  · rw [hsame] at hstate
    rw [← hstate, ← hpaid] at hreceived
    exact ⟨hstate ▸ hfair.ts, hstate ▸ hfair.clock, hstate ▸ hfair.ray, hstate ▸ hfair.seen,
      hstate ▸ hfair.units, hreceived⟩
  · rw [hnew] at hstate
    refine fair_of_looked (by rw [hstate]) (by rw [hstate]) ?_ hconfig htracker hgauge hposition ?_
    · rw [hstate]
      dsimp only
      omega
    · rw [PayingRewarder.received, hpaid, hstate]
      dsimp only
      omega

end PayingRewarder

namespace PoolBook

variable {ι κ : Type}
variable [DecidableEq ι] [DecidableEq κ] {pool : ι} {book book' : PoolBook ι κ} {call : PoolCall ι κ}

variable (pool) in
/-- The escrow is balanced, and every rewarder is fair to its pool and its position. -/
structure Sound (book : PoolBook ι κ) : Prop where
  escrow : book.escrow.Balanced
  fair : ∀ account r, book.rewarders.lookup account = some r → ∃ gauge p,
    book.emission.gauges.lookup pool = some gauge ∧
      book.escrow.positions.lookup account = some p ∧
      r.Fair book.emission.config book.escrow.tracker gauge p

/-- A rewarder is fair to the gauge and the position that are found for it. -/
theorem Sound.fair_of (hs : Sound pool book) {account : κ} {r : PayingRewarder} {gauge : Gauge}
    {p : PersonalPosition} (hr : book.rewarders.lookup account = some r)
    (hg : book.emission.gauges.lookup pool = some gauge)
    (hp : book.escrow.positions.lookup account = some p) :
    r.Fair book.emission.config book.escrow.tracker gauge p := by
  obtain ⟨gauge', p', hg', hp', hfair⟩ := hs.fair account r hr
  obtain rfl : gauge = gauge' := Option.some.inj (hg.symm.trans hg')
  obtain rfl : p = p' := Option.some.inj (hp.symm.trans hp')
  exact hfair

theorem Sound.emission_step (hs : Sound pool book) {c : GaugeCall ι} {e' : GaugeBook ι}
    (h : book.emission.step c = some e') : Sound pool { book with emission := e' } := by
  refine ⟨hs.escrow, fun account r hr => ?_⟩
  obtain ⟨gauge, p, hg, hp, hfair⟩ := hs.fair account r hr
  obtain ⟨gauge', hg', hray, hts, hstill⟩ := GaugeBook.gauge_step h hg
  have hclock := hfair.clock
  refine ⟨gauge', p, hg', hp, hfair.ts, hclock.trans hts, hfair.ray.trans hray, fun hsame => ?_,
    hfair.units, hfair.received⟩
  -- the config stands where the rewarder saw it
  dsimp only at hsame
  obtain ⟨hseen, hindex⟩ := hfair.seen (by omega)
  obtain ⟨hkept, hindex'⟩ := hstill (by omega) hindex
  exact ⟨hseen.trans hkept.symm, hindex'⟩

theorem Sound.escrow_step (hs : Sound pool book) {c : EscrowCall κ} {s' : EscrowBook κ}
    (h : book.escrow.step c = some s') : Sound pool { book with escrow := s' } := by
  refine ⟨hs.escrow.step h, fun account r hr => ?_⟩
  obtain ⟨gauge, p, hg, hp, hfair⟩ := hs.fair account r hr
  obtain ⟨p', elapsed, hp', hts, -, hunits, -⟩ := EscrowBook.position_step h hp
  have hearned : p.amount * (elapsed * scale / book.escrow.tracker.totalLpDeposited) ≤
      elapsed * scale :=
    (Nat.mul_le_mul_right _ (hs.escrow.amount_le hp)).trans (Nat.mul_div_le _ _)
  have hold := hfair.units
  refine ⟨gauge, p', hg, hp', ?_, hfair.clock, hfair.ray, hfair.seen, ?_, hfair.received⟩
  · exact hfair.ts.trans (hts ▸ Nat.le_add_right _ _)
  · dsimp only
    rw [hunits, hts]
    zify at hearned
    push_cast at hearned ⊢
    linarith

theorem Sound.commit (hs : Sound pool book) {account : κ} {gauge : Gauge} {p : PersonalPosition}
    {r : PayingRewarder} (hg : book.emission.gauges.lookup pool = some gauge)
    (hp : book.escrow.positions.lookup account = some p)
    (hfair : r.Fair book.emission.config book.escrow.tracker gauge p) :
    Sound pool (book.commit account r) :=
  ⟨hs.escrow, Table.forall_insert hs.fair ⟨gauge, p, hg, hp, hfair⟩⟩

theorem Sound.look (hs : Sound pool book) {now : Int} {account : κ} {out : Rewarder.CpOutcome}
    (hl : Looked pool book now account out) : Sound pool (book.looked pool account out) :=
  (hs.emission_step hl.emission).escrow_step hl.escrow

theorem sound_start (config : GaugeConfig) {tracker : TimeTracker} (h : tracker.totalLpDeposited = 0) :
    Sound pool (⟨⟨config, ∅⟩, ⟨tracker, ∅⟩, ∅⟩ : PoolBook ι κ) := by
  refine ⟨EscrowBook.balanced_start tracker h, ?_⟩
  intro account r hr
  cases hr

theorem Sound.step (hs : Sound pool book) (h : book.step pool call = some book') :
    Sound pool book' := by
  rcases step_cases h with ⟨c, e', -, hstep, rfl⟩ | ⟨c, s', -, hstep, rfl⟩ |
    ⟨now, account, out, -, hl, -, hstate, rfl⟩ | ⟨now, account, out, r, -, hl, hr, hstage, rfl⟩ |
    ⟨account, r, -, hr, rfl⟩
  · exact hs.emission_step hstep
  · exact hs.escrow_step hstep
  · refine (hs.look hl).commit (looked_gauge account) (looked_position pool) ?_
    have hnow := hl.configTs
    refine PayingRewarder.fair_of_looked ?_ ?_ ?_ hl.configTs hl.trackerTs hl.gauge hl.position ?_
    · rw [PayingRewarder.state, hstate]
    · rw [PayingRewarder.state, hstate]
    · rw [PayingRewarder.state, hstate]
      dsimp only
      omega
    · rw [PayingRewarder.received, PayingRewarder.state, hstate]
      exact Nat.zero_le _
  · have hfair := (hs.look hl).fair_of hr (looked_gauge account) (looked_position pool)
    exact (hs.look hl).commit (looked_gauge account) (looked_position pool)
      (hfair.look hstage rfl rfl hl.configTs hl.trackerTs hl.gauge hl.position)
  · obtain ⟨gauge, p, hg, hp, hfair⟩ := hs.fair account r hr
    refine hs.commit hg hp ⟨hfair.ts, hfair.clock, hfair.ray, hfair.seen, hfair.units, ?_⟩
    exact hfair.received

theorem sound_run {start : PoolBook ι κ} (hs : Sound pool start) (calls : List (PoolCall ι κ)) :
    Sound pool (run (step pool) start calls) :=
  run_invariant (fun _ _ _ hs h => hs.step h) calls hs

end PoolBook

end EmissionLedger
