import EmissionLedger.Proofs.Ledger.Arithmetic
import EmissionLedger.Proofs.Votes.Withdrawal

/-!
When a gauge can be synchronized. A config has gained at most its emission each second, so until its
clock leaves 64 bits it moves on without a fault; no gauge has seen more than the config's index. The
RAY of a pool may outgrow its counter, though: a single vote gets all of the emission, for as long as it
is not synchronized. That is the only fault there is.

Main statement: `Bounded.sync_overflow`.
-/

namespace EmissionLedger

/-- The faults of something that can only grow too large. -/
abbrev OverflowOnly {α : Type} (x : Result α) : Prop := FaultsIn (fun e => e.kind = .arithmeticOverflow) x

theorem GaugeConfig.Headroom.advance_answered {c : GaugeConfig} {now : ℕ} (h : c.Headroom)
    (hts : c.lastUpdatedTs ≤ now) (hnow : now ≤ maxU64) : ∃ c', c.advance now = .ok c' := by
  obtain ⟨elapsed, rfl⟩ := Nat.exists_eq_add_of_le hts
  obtain ⟨hvotes, hemission, -⟩ := h.wellFormed
  obtain ⟨hclock, hgrowth⟩ := growth_fits h.index (dailyWorth_le_limit _ elapsed) hemission hnow
  obtain ⟨rate, hrate⟩ := Rate.daily_answered (counter_fits hemission)
  rw [← Rate.daily_ok hrate] at hgrowth
  obtain ⟨step, hstep⟩ := advanceSharedIndex_answered "gauge config" (Nat.cast_add _ _) hclock hgrowth
    (counter_fits hvotes)
  apply bind_answered hrate
  apply bind_answered hstep
  split
  · exact ⟨_, rfl⟩
  · exact ⟨_, rfl⟩

theorem Gauge.settle_overflow {g : Gauge} {index : Number} (hseen : g.lastSeenGlobalIndex ≤ index)
    (hg : g.WellFormed) (hindex : index.raw ≤ maxIndex) : OverflowOnly (g.settle index) := by
  have hearned : g.totalVotes * (index.raw - g.lastSeenGlobalIndex.raw) ≤ maxRaw :=
    product_fits hg.1 ((Nat.sub_le _ _).trans hindex)
  refine .bind (.of_answered (accrueShare_answered _ hseen (counter_fits hg.1) hearned))
    fun accrual _ => .ite (fun _ => .pure) fun _ => ?_
  refine .bind (Number.wholePart_faultsIn (Fault.kind_tooWide _)) fun units hunits => ?_
  have hwidth : units ≤ maxU64 := (Number.wholePart_eq_ok.mp hunits).1
  exact .bind (Counter.add_faultsIn (Fault.kind_counterOverflow _ hg.2 hwidth)) fun _ _ => .pure

namespace GaugeBook

variable {ι : Type} [DecidableEq ι]

/-- Emission, votes and RAY are 64-bit numbers, and the index has gained at most the emission each
second. -/
structure Bounded (book : GaugeBook ι) : Prop where
  emission : book.config.rayEmissionPerDay ≤ maxU64
  total : book.config.totalVotes ≤ maxU64
  index : book.config.index.raw ≤ book.config.rayEmissionPerDay * (book.config.lastUpdatedTs * scale)
  emitted : ∀ account g, book.gauges.lookup account = some g → g.totalRayEmitted ≤ maxU64

variable {book book' : GaugeBook ι} {call : GaugeCall ι}

theorem bounded_start {settings : Emission.Settings} {now : Int} {config : GaugeConfig}
    (h : Emission.initGaugeConfig settings now = .ok config) (hfits : settings.rayEmissionPerDay ≤ maxU64) :
    (⟨config, ∅⟩ : GaugeBook ι).Bounded := by
  obtain ⟨-, hvotes, hemission, hindex⟩ := Emission.initGaugeConfig_ok h
  refine ⟨hemission.trans_le hfits, hvotes.trans_le (Nat.zero_le _), ?_, ?_⟩
  · rw [hindex]
    exact Nat.zero_le _
  · intro account g hg
    cases hg

theorem Bounded.advanced (hb : book.Bounded) {now : Int} {config : GaugeConfig}
    (h : book.config.advance now = .ok config) : config.rayEmissionPerDay ≤ maxU64 ∧
      config.index.raw ≤ config.rayEmissionPerDay * (config.lastUpdatedTs * scale) := by
  obtain ⟨elapsed, -, hadv⟩ := GaugeConfig.advance_ok h
  rw [hadv.emission, hadv.ts]
  exact ⟨hb.emission, index_le_of_growth hb.index hadv.index
    ((Nat.div_le_self _ _).trans (dailyWorth_le_limit _ _))⟩

theorem Bounded.step (hb : book.Bounded) (h : book.step call = some book') : book'.Bounded := by
  have htotal := total_le_of_step h hb.total
  obtain ⟨out, hout, rfl⟩ := step_eq_some.mp h
  rcases answer_cases hout with ⟨-, -, poolId, -, hinit⟩ |
    ⟨gauge, synced, total, votes, hg, hsync, -, -, rfl⟩
  · obtain ⟨hadvance, hnew⟩ := Emission.initPoolGauge_ok hinit
    obtain ⟨hemission, hindex⟩ := hb.advanced hadvance
    refine ⟨hemission, htotal, hindex, Table.forall_insert hb.emitted ?_⟩
    rw [hnew]
    exact Nat.zero_le _
  · obtain ⟨hadvance, hsettle⟩ := Emission.syncPoolIndex_eq_ok.mp hsync
    obtain ⟨hemission, hindex⟩ := hb.advanced hadvance
    have hemitted := Gauge.settle_fits hsettle (hb.emitted _ gauge hg)
    exact ⟨hemission, htotal, hindex, Table.forall_insert hb.emitted hemitted⟩

/-- **Synchronization.** At any time from the config's on that fits 64 bits, a gauge is synchronized
unless the RAY of its pool does not fit. -/
theorem Bounded.sync_overflow (hb : book.Bounded) (hbalanced : book.Balanced) {account : ι} {g : Gauge}
    (hg : book.gauges.lookup account = some g) {now : ℕ} (hts : book.config.lastUpdatedTs ≤ now)
    (hnow : now ≤ maxU64) : OverflowOnly (Emission.syncPoolIndex now book.config g) := by
  have hconfig : book.config.Headroom := ⟨⟨hb.total, hb.emission, hts.trans hnow⟩, hb.index⟩
  have hvotes : g.totalVotes ≤ book.config.totalVotes := by
    rw [hbalanced.votes]
    exact Table.le_total (f := fun _ g => g.totalVotes) hg fun _ _ _ => Nat.zero_le _
  refine .bind (.of_answered (hconfig.advance_answered hts hnow)) fun config hadvance =>
    .bind (Gauge.settle_overflow ?_ ⟨hvotes.trans hb.total, hb.emitted account g hg⟩ ?_) fun _ _ => .pure
  · obtain ⟨elapsed, -, hadv⟩ := GaugeConfig.advance_ok hadvance
    exact Nat.le_trans (hbalanced.seen account g hg) hadv.index_le
  · exact (hconfig.advance (Int.ofNat_le.mpr hnow) hadvance).index_le

end GaugeBook

end EmissionLedger
