import EmissionLedger.Proofs.Emission.Book
import Mathlib.Data.Rat.Cast.Order
import Mathlib.Tactic.FieldSimp
import Mathlib.Tactic.Linarith
import Mathlib.Tactic.Ring

/-!
Conservation of the emission. The potential of a book is the RAY that its gauges have accrued up to the
config's index, credited or not. It grows through the config's advances alone, by the total of the
votes times the index's growth, and a settlement that moves a gauge's index floors away less than one
RAY. So the RAY credited is at most what the config emits in the seconds with votes, and what is
accrued falls short of it by one RAY for each move of a gauge's index and by the two roundings of each
advance.
-/

namespace EmissionLedger

/-- What a stretch of seconds is worth is the daily emission's share in it, but for the rounding of the
part of the day. -/
theorem dailyWorth_bounds (emission seconds : ℕ) :
    dailyWorth emission seconds * secondsPerDay ≤ emission * (seconds * scale) ∧
      emission * (seconds * scale) ≤ (dailyWorth emission seconds + emission) * secondsPerDay := by
  have hday : 0 < secondsPerDay := by decide
  have hfloor := Nat.div_mul_le_self (seconds * scale) secondsPerDay
  have hceil := Nat.lt_mul_div_succ (seconds * scale) hday
  rw [Nat.mul_comm secondsPerDay] at hceil
  rw [dailyWorth, ← Nat.mul_succ, Nat.mul_assoc, Nat.mul_assoc]
  exact ⟨Nat.mul_le_mul_left _ hfloor, Nat.mul_le_mul_left _ hceil.le⟩

/-- The raw RAY that an advance of some seconds hands out to the votes. -/
def GaugeConfig.handedOut (c : GaugeConfig) (seconds : ℕ) : ℕ :=
  c.totalVotes * (dailyWorth c.rayEmissionPerDay seconds / c.totalVotes)

/-- With votes, an advance hands out what the seconds are worth, but for the rounding of the index. -/
theorem GaugeConfig.handedOut_bounds {c : GaugeConfig} (h : 0 < c.totalVotes) (seconds : ℕ) :
    c.handedOut seconds ≤ dailyWorth c.rayEmissionPerDay seconds ∧
      dailyWorth c.rayEmissionPerDay seconds ≤ c.handedOut seconds + c.totalVotes := by
  have hceil := Nat.lt_mul_div_succ (dailyWorth c.rayEmissionPerDay seconds) h
  rw [Nat.mul_succ] at hceil
  exact ⟨Nat.mul_div_le _ _, hceil.le⟩

/-- The raw RAY that a gauge has accrued when the index stands at `index`, credited or not. -/
def Gauge.accruedAt (g : Gauge) (index : Number) : ℤ :=
  g.totalRayEmitted * scale + g.totalVotes * ((index.raw : ℤ) - g.lastSeenGlobalIndex.raw)

theorem Gauge.accruedAt_advanced (g : Gauge) {c c' : GaugeConfig} {elapsed : ℕ}
    (h : c.Advanced c' elapsed) :
    g.accruedAt c'.index = g.accruedAt c.index +
      g.totalVotes * ((dailyWorth c.rayEmissionPerDay elapsed / c.totalVotes : ℕ) : ℤ) := by
  rw [accruedAt, accruedAt, h.index]
  push_cast
  ring

theorem Gauge.emitted_le_accruedAt {g : Gauge} {index : Number} (h : g.lastSeenGlobalIndex ≤ index) :
    ((g.totalRayEmitted * scale : ℕ) : ℤ) ≤ g.accruedAt index := by
  have hle : (g.lastSeenGlobalIndex.raw : ℤ) ≤ index.raw := by exact_mod_cast h
  have hpending : 0 ≤ (g.totalVotes : ℤ) * ((index.raw : ℤ) - g.lastSeenGlobalIndex.raw) :=
    mul_nonneg (Int.natCast_nonneg _) (sub_nonneg.mpr hle)
  rw [accruedAt]
  push_cast
  linarith

/-- A settlement credits all that was accrued but a part of one RAY, and all of it if the gauge has seen
the index already. -/
theorem Gauge.Settled.accruedAt_bounds {g g' : Gauge} {index : Number} (h : g.Settled g' index)
    (votes : ℕ) :
    let settled : Gauge := { g' with totalVotes := votes }
    settled.accruedAt index ≤ g.accruedAt index ∧ g.accruedAt index ≤ settled.accruedAt index +
      scale * (if g.lastSeenGlobalIndex = g'.lastSeenGlobalIndex then 0 else 1) := by
  intro settled
  have hle : g.lastSeenGlobalIndex.raw ≤ index.raw := h.seen
  have hscale : 0 < scale := by decide
  have hnow : settled.accruedAt index = ((g'.totalRayEmitted * scale : ℕ) : ℤ) := by
    rw [accruedAt]
    dsimp only [settled]
    rw [h.lastSeen, sub_self, mul_zero, add_zero]
    push_cast
    rfl
  have hthen : g.accruedAt index = ((g.totalRayEmitted * scale +
      g.totalVotes * (index.raw - g.lastSeenGlobalIndex.raw) : ℕ) : ℤ) := by
    rw [accruedAt]
    push_cast [hle]
    rfl
  have hfloor := Nat.div_mul_le_self (g.totalVotes * (index.raw - g.lastSeenGlobalIndex.raw)) scale
  have hceil := Nat.lt_div_mul_add (a := g.totalVotes * (index.raw - g.lastSeenGlobalIndex.raw)) hscale
  rw [hnow, hthen, h.emitted, Nat.add_mul, h.lastSeen]
  refine ⟨by exact_mod_cast Nat.add_le_add_left hfloor _, ?_⟩
  split
  · rename_i hsame
    rw [hsame, Nat.sub_self, Nat.mul_zero, Nat.zero_div, Nat.zero_mul, mul_zero,
      Nat.add_zero, add_zero]
  · rw [mul_one]
    exact_mod_cast (by omega)

namespace GaugeBook

variable {ι : Type} [DecidableEq ι]

/-- The raw RAY that all gauges have accrued, credited or not. -/
def accrued (book : GaugeBook ι) : ℤ :=
  book.gauges.total fun _ g => g.accruedAt book.config.index

/-- The time that the config advances in a call while there are votes. -/
def activeSeconds (book : GaugeBook ι) (_ : GaugeCall ι) (book' : GaugeBook ι) : ℕ :=
  if 0 < book.config.totalVotes then book'.config.lastUpdatedTs - book.config.lastUpdatedTs else 0

/-- One if a call moves the index that a gauge has seen. -/
def gaugesMoved (book : GaugeBook ι) (call : GaugeCall ι) (book' : GaugeBook ι) : ℕ :=
  match book.gauges.lookup call.account, book'.gauges.lookup call.account with
  | some g, some g' => if g.lastSeenGlobalIndex = g'.lastSeenGlobalIndex then 0 else 1
  | _, _ => 0

/-- The raw RAY that the roundings of an advance may lose: a part of the day and a part of the index. -/
def advanceLoss (book : GaugeBook ι) (_ : GaugeCall ι) (book' : GaugeBook ι) : ℕ :=
  if 0 < book.config.totalVotes ∧ book.config.lastUpdatedTs < book'.config.lastUpdatedTs then
    book.config.rayEmissionPerDay + book.config.totalVotes
  else 0

/-- The total is the sum of the votes, and no gauge has seen more than the index. -/
structure Balanced (book : GaugeBook ι) : Prop where
  votes : book.config.totalVotes = book.gauges.total fun _ g => g.totalVotes
  seen : ∀ account g, book.gauges.lookup account = some g → g.lastSeenGlobalIndex ≤ book.config.index

variable {book book' : GaugeBook ι} {call : GaugeCall ι}

theorem balanced_start {config : GaugeConfig} (h : config.totalVotes = 0) :
    (⟨config, ∅⟩ : GaugeBook ι).Balanced := by
  refine ⟨h, ?_⟩
  intro account g hg
  cases hg

theorem Balanced.step (hb : book.Balanced) (h : book.step call = some book') : book'.Balanced := by
  obtain ⟨config, elapsed, hadv, -, hcases⟩ := step_cases h
  have hseen : ∀ account g, book.gauges.lookup account = some g →
      g.lastSeenGlobalIndex ≤ config.index :=
    fun account g hg => Nat.le_trans (hb.seen account g hg) hadv.index_le
  rcases hcases with ⟨hnone, -, poolId, -, rfl⟩ | ⟨g, g', total, votes, hg, hset, htotal, hvotes, rfl⟩
  · refine ⟨?_, Table.forall_insert hseen (Nat.le_refl _)⟩
    rw [Table.total_insert_new hnone, Nat.zero_add, hadv.votes]
    exact hb.votes
  · refine ⟨?_, Table.forall_insert hseen (Nat.le_of_eq (congrArg Number.raw hset.lastSeen))⟩
    have hsum := Table.total_insert_change (f := fun _ g => g.totalVotes)
      (a := { g' with totalVotes := votes }) hg hvotes
    have hold := hb.votes
    have hkept := hadv.votes
    dsimp only
    omega

/-- Before anything is settled, every gauge has accrued its votes times the index's growth. -/
theorem Balanced.accrued_advanced (hb : book.Balanced) {config : GaugeConfig} {elapsed : ℕ}
    (hadv : book.config.Advanced config elapsed) :
    (book.gauges.total fun _ g => g.accruedAt config.index) =
      book.accrued + (book.config.handedOut elapsed : ℕ) := by
  rw [Table.total_eq_add_mul _ fun _ g _ => g.accruedAt_advanced hadv, ← Table.natCast_total, ← hb.votes,
    accrued, GaugeConfig.handedOut, Nat.cast_mul]

/-- What is accrued grows in a call by what the advance hands out, less than one RAY of which is lost
when a gauge's index moves. -/
theorem Balanced.accrued_step (hb : book.Balanced) (h : book.step call = some book') :
    ∃ elapsed, book'.config.lastUpdatedTs = book.config.lastUpdatedTs + elapsed ∧
      book'.config.rayEmissionPerDay = book.config.rayEmissionPerDay ∧
      book'.accrued ≤ book.accrued + (book.config.handedOut elapsed : ℕ) ∧
      book.accrued + (book.config.handedOut elapsed : ℕ) ≤
        book'.accrued + scale * (book.gaugesMoved call book' : ℕ) := by
  obtain ⟨config, elapsed, hadv, -, hcases⟩ := step_cases h
  have hadvanced := hb.accrued_advanced hadv
  refine ⟨elapsed, ?_⟩
  rcases hcases with ⟨hnone, -, poolId, -, rfl⟩ | ⟨g, g', total, votes, hg, hset, -, -, rfl⟩
  · have hopen : GaugeBook.accrued ⟨config, book.gauges.insert call.account
        ⟨poolId, 0, config.index, 0⟩⟩ = book.gauges.total fun _ g => g.accruedAt config.index := by
      rw [accrued, Table.total_insert_new hnone]
      simp [Gauge.accruedAt]
    refine ⟨hadv.ts, hadv.emission, ?_, ?_⟩
    · rw [hopen, hadvanced]
    · rw [hopen, hadvanced, gaugesMoved, hnone]
      simp
  · have hsum := Table.total_insert (f := fun _ g => g.accruedAt config.index)
      (a := { g' with totalVotes := votes }) hg
    obtain ⟨hle, hge⟩ := hset.accruedAt_bounds votes
    have hmoved : book.gaugesMoved call ⟨{ config with totalVotes := total },
        book.gauges.insert call.account { g' with totalVotes := votes }⟩ =
          if g.lastSeenGlobalIndex = g'.lastSeenGlobalIndex then 0 else 1 := by
      rw [gaugesMoved, hg, Finmap.lookup_insert]
    refine ⟨hadv.ts, hadv.emission, ?_, ?_⟩
    · rw [← hadvanced, accrued]
      linarith
    · rw [← hadvanced, accrued, hmoved]
      push_cast
      linarith

omit [DecidableEq ι] in
/-- What an advance hands out is at most what is emitted in the seconds with votes, and falls short of
it by at most the loss of its roundings. -/
theorem handedOut_bounds (call : GaugeCall ι) {elapsed : ℕ}
    (hts : book'.config.lastUpdatedTs = book.config.lastUpdatedTs + elapsed) :
    book.config.handedOut elapsed * secondsPerDay ≤
        book.config.rayEmissionPerDay * (book.activeSeconds call book' * scale) ∧
      book.config.rayEmissionPerDay * (book.activeSeconds call book' * scale) ≤
        (book.config.handedOut elapsed + book.advanceLoss call book') * secondsPerDay := by
  by_cases hvotes : 0 < book.config.totalVotes
  · obtain ⟨hle, hge⟩ := dailyWorth_bounds book.config.rayEmissionPerDay elapsed
    obtain ⟨hfloor, hceil⟩ := GaugeConfig.handedOut_bounds hvotes elapsed
    rw [activeSeconds, if_pos hvotes, hts, Nat.add_sub_cancel_left]
    refine ⟨(Nat.mul_le_mul_right _ hfloor).trans hle, ?_⟩
    by_cases helapsed : elapsed = 0
    · rw [helapsed, Nat.zero_mul, Nat.mul_zero]
      exact Nat.zero_le _
    · rw [advanceLoss, if_pos ⟨hvotes, by omega⟩]
      refine hge.trans (Nat.mul_le_mul_right _ ?_)
      omega
  · rw [activeSeconds, if_neg hvotes, GaugeConfig.handedOut, Nat.eq_zero_of_not_pos hvotes,
      Nat.zero_mul, Nat.zero_mul, Nat.zero_mul, Nat.mul_zero]
    exact ⟨Nat.le_refl _, Nat.zero_le _⟩

/-- What a run counts: the seconds with votes, the moves of gauges and the losses of roundings. -/
def counts (book : GaugeBook ι) (call : GaugeCall ι) (book' : GaugeBook ι) : ℕ × ℕ × ℕ :=
  (book.activeSeconds call book', book.gaugesMoved call book', book.advanceLoss call book')

/-- A balanced book whose accrued RAY is bounded from both sides by what was counted. -/
structure Accounted (daily : ℕ) (book : GaugeBook ι) (m : ℕ × ℕ × ℕ) : Prop where
  balanced : book.Balanced
  emission : book.config.rayEmissionPerDay = daily
  upper : secondsPerDay * book.accrued ≤ daily * (m.1 * scale : ℕ)
  lower : (daily * (m.1 * scale : ℕ) : ℤ) ≤ secondsPerDay * (book.accrued + scale * m.2.1 + m.2.2)

theorem Accounted.step {daily : ℕ} {m : ℕ × ℕ × ℕ} (ha : Accounted daily book m)
    (h : book.step call = some book') : Accounted daily book' (m + book.counts call book') := by
  obtain ⟨elapsed, hts, hemission, hle, hge⟩ := ha.balanced.accrued_step h
  obtain ⟨hmost, hleast⟩ := handedOut_bounds call hts
  rw [ha.emission] at hmost hleast
  have hupper := ha.upper
  have hlower := ha.lower
  have hday : (0 : ℤ) ≤ secondsPerDay := Int.natCast_nonneg _
  replace hle := mul_le_mul_of_nonneg_left hle hday
  replace hge := mul_le_mul_of_nonneg_left hge hday
  zify at hmost hleast
  refine ⟨ha.balanced.step h, hemission.trans ha.emission, ?_, ?_⟩
  · rw [counts, Prod.fst_add]
    push_cast at hupper ⊢
    linarith
  · rw [counts, Prod.fst_add, Prod.snd_add, Prod.fst_add, Prod.snd_add]
    push_cast at hlower ⊢
    linarith

theorem accounted_run {settings : Emission.Settings} {now : Int} {config : GaugeConfig}
    (hinit : Emission.initGaugeConfig settings now = .ok config) (calls : List (GaugeCall ι)) :
    Accounted settings.rayEmissionPerDay (run step ⟨config, ∅⟩ calls)
      (tally step counts (⟨config, ∅⟩ : GaugeBook ι) calls) := by
  obtain ⟨-, hvotes, hemission, -⟩ := Emission.initGaugeConfig_ok hinit
  have hstart : Accounted settings.rayEmissionPerDay (⟨config, ∅⟩ : GaugeBook ι) 0 := by
    refine ⟨balanced_start hvotes, hemission, ?_, ?_⟩ <;> simp [accrued]
  rw [← zero_add (tally step counts _ calls)]
  exact run_tally (fun book m call book' ha hs => ha.step hs) calls hstart

theorem Balanced.emitted_le_accrued (hb : book.Balanced) :
    ((book.gauges.total fun _ g => g.totalRayEmitted : ℕ) : ℤ) * scale ≤ book.accrued := by
  rw [Table.natCast_total, ← Table.total_mul]
  refine Table.total_le_total fun account g hg => ?_
  exact_mod_cast Gauge.emitted_le_accruedAt (hb.seen account g hg)

omit [DecidableEq ι] in
/-- What is accrued in whole RAY. -/
theorem accrued_div_scale (book : GaugeBook ι) :
    (book.accrued : ℚ) / scale = book.gauges.total fun _ g => (g.totalRayEmitted : ℚ) +
      g.totalVotes * (((book.config.index.raw : ℚ) - g.lastSeenGlobalIndex.raw) / scale) := by
  have hscale : (scale : ℚ) ≠ 0 := by norm_num [scale]
  have hcast : (book.accrued : ℚ) =
      book.gauges.total fun _ g => (g.accruedAt book.config.index : ℚ) :=
    Table.map_total _ (Int.castAddHom ℚ)
  rw [hcast, div_eq_mul_inv, ← Table.total_mul]
  refine congrArg (Table.total book.gauges) (funext fun _ => funext fun g => ?_)
  rw [Gauge.accruedAt]
  push_cast
  field_simp

theorem tally_counts (start : GaugeBook ι) (calls : List (GaugeCall ι)) :
    tally step counts start calls = (tally step activeSeconds start calls,
      tally step gaugesMoved start calls, tally step advanceLoss start calls) := by
  refine Prod.ext ?_ (Prod.ext ?_ ?_)
  · exact map_tally (AddMonoidHom.fst ℕ (ℕ × ℕ)) counts start calls
  · exact map_tally ((AddMonoidHom.fst ℕ ℕ).comp (AddMonoidHom.snd ℕ (ℕ × ℕ))) counts start calls
  · exact map_tally ((AddMonoidHom.snd ℕ ℕ).comp (AddMonoidHom.snd ℕ (ℕ × ℕ))) counts start calls

/-- **Conservation.** After every run of the emission the RAY credited to all gauges is at most what
the config emits in the seconds with votes. What they have accrued, credited or not, is at least that,
less one RAY for each move of a gauge's index and less the roundings of the advances. -/
theorem emission_conserved {settings : Emission.Settings} {now : Int} {config : GaugeConfig}
    (hinit : Emission.initGaugeConfig settings now = .ok config) (calls : List (GaugeCall ι)) :
    let start : GaugeBook ι := ⟨config, ∅⟩
    let last := run step start calls
    let emitted : ℕ := settings.rayEmissionPerDay * tally step activeSeconds start calls
    let moved : ℕ := tally step gaugesMoved start calls
    let lost : ℕ := tally step advanceLoss start calls
    (last.gauges.total fun _ g => g.totalRayEmitted) * secondsPerDay ≤ emitted ∧
      (emitted : ℚ) / secondsPerDay - moved - (lost : ℚ) / scale ≤
        last.gauges.total fun _ g => (g.totalRayEmitted : ℚ) +
          g.totalVotes * (((last.config.index.raw : ℚ) - g.lastSeenGlobalIndex.raw) / scale) := by
  intro start last emitted moved lost
  obtain ⟨hbalanced, -, hupper, hlower⟩ := accounted_run hinit calls
  rw [tally_counts] at hupper hlower
  have hscale : 0 < scale := by decide
  have hday : 0 < secondsPerDay := by decide
  constructor
  · have hcredited := mul_le_mul_of_nonneg_left hbalanced.emitted_le_accrued
      (Int.natCast_nonneg secondsPerDay)
    have hall := hcredited.trans hupper
    refine Nat.le_of_mul_le_mul_right ?_ hscale
    zify
    push_cast [emitted] at hall ⊢
    linarith
  · have hscale' : (0 : ℚ) < scale := by exact_mod_cast hscale
    have hday' : (0 : ℚ) < secondsPerDay := by exact_mod_cast hday
    have hlower' : (emitted * scale : ℚ) ≤ secondsPerDay * (last.accrued + scale * moved + lost) := by
      push_cast [emitted]
      rw [mul_assoc]
      exact_mod_cast hlower
    have hsum : (last.accrued : ℚ) / scale + (moved + lost / scale) =
        (last.accrued + scale * moved + lost) / scale := by
      field_simp
      ring
    rw [← accrued_div_scale, sub_sub, sub_le_iff_le_add, hsum, div_le_iff₀ hday', div_mul_eq_mul_div,
      le_div_iff₀ hscale', mul_comm _ (secondsPerDay : ℚ)]
    exact hlower'

/-- Two votes for one pool earn for ten seconds. -/
theorem emission_conserved_two_votes :
    let settings : Emission.Settings := ⟨86400⟩
    let config : GaugeConfig := ⟨0, 86400, .zero, 0⟩
    let reactor : Reactor := ⟨.zero, 2, 0, 0, .zero, ⟨.zero, 0⟩⟩
    Emission.initGaugeConfig settings 0 = .ok config ∧
      let start : GaugeBook ℕ := ⟨config, ∅⟩
      let calls : List (GaugeCall ℕ) :=
        [.initPool 0 0 .zero, .changeVotes 0 0 ⟨.zero, .zero, 0⟩ 2 reactor, .sync 10 0]
      ((run step start calls).gauges.total fun _ g => g.totalRayEmitted) * secondsPerDay ≤
        settings.rayEmissionPerDay * tally step activeSeconds start calls := by
  intro settings config reactor
  have hinit : Emission.initGaugeConfig settings 0 = .ok config := rfl
  exact ⟨hinit, (emission_conserved hinit _).1⟩

end GaugeBook

end EmissionLedger
