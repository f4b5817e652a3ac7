import EmissionLedger.Proofs.Ledger.Closure
import EmissionLedger.Proofs.Timing.Engine
import Mathlib.Data.Nat.ModEq

/-!
A stretch of seconds that is taken in two parts is worth at most what it is worth at once, for every
rounding goes down: the share of the day or year, the division among the shares, and the whole units of
what a share has earned. So an index that is moved on in two steps ends no higher, and since all numbers
stay below those of the one long step, none of the short steps is refused (`advance_within`,
`settle_within`). The escrow, the emission and the stake are three engines that round down.
-/

namespace EmissionLedger

/-! ### Two stretches -/

/-- Products with floors are worth less in parts. -/
theorem mul_div_add_le (a b c d : ℕ) : a * b / d + a * c / d ≤ a * (b + c) / d := by
  rw [Nat.mul_add]
  exact Nat.div_add_div_le_add_div

theorem Rate.rawWorth_add_le (rate : Rate) (m n : ℕ) :
    rate.rawWorth m + rate.rawWorth n ≤ rate.rawWorth (m + n) := by
  cases rate with
  | perSecond => exact (Nat.add_mul m n scale).ge
  | perDay emission =>
      have hshare : m * scale / secondsPerDay + n * scale / secondsPerDay ≤
          (m + n) * scale / secondsPerDay := by
        rw [Nat.add_mul]
        exact Nat.div_add_div_le_add_div
      exact (mul_div_add_le _ _ _ _).trans (Nat.div_le_div_right (Nat.mul_le_mul_left _ hshare))
  | perYear fraction =>
      have hshare : m * scale / secondsPerYear + n * scale / secondsPerYear ≤
          (m + n) * scale / secondsPerYear := by
        rw [Nat.add_mul]
        exact Nat.div_add_div_le_add_div
      calc m * scale / secondsPerYear * fraction.raw / scale +
            n * scale / secondsPerYear * fraction.raw / scale
          ≤ (m * scale / secondsPerYear * fraction.raw +
            n * scale / secondsPerYear * fraction.raw) / scale := Nat.div_add_div_le_add_div
        _ = (m * scale / secondsPerYear + n * scale / secondsPerYear) * fraction.raw / scale := by
            rw [Nat.add_mul]
        _ ≤ (m + n) * scale / secondsPerYear * fraction.raw / scale :=
            Nat.div_le_div_right (Nat.mul_le_mul_right _ hshare)

theorem Rate.rawWorth_mono (rate : Rate) {m n : ℕ} (h : m ≤ n) : rate.rawWorth m ≤ rate.rawWorth n := by
  obtain ⟨k, rfl⟩ := Nat.exists_eq_add_of_le h
  exact (Nat.le_add_right _ _).trans (rate.rawWorth_add_le m k)

/-! ### A shorter stretch is answered -/

theorem Rate.worth_fits {rate : Rate} {n : ℕ} {w : Number} (h : rate.worth n = .ok w) :
    n * scale ≤ maxRaw := by
  have hnatural {m : ℕ} {a : Number} (ha : Number.ofNatural m = .ok a) : m * scale ≤ maxRaw := by
    rw [← Number.ofNatural_eq_ok.mp ha]
    exact a.raw_le
  cases rate with
  | perSecond => exact hnatural h
  | perDay emission =>
      simp only [worth, Number.ofRatio, bind_eq_ok] at h
      obtain ⟨_, ⟨_, hn, -⟩, -⟩ := h
      exact hnatural hn
  | perYear fraction =>
      simp only [worth, Number.ofRatio, bind_eq_ok] at h
      obtain ⟨_, ⟨_, hn, -⟩, -⟩ := h
      exact hnatural hn

theorem Rate.worth_le {rate : Rate} {m n : ℕ} {w : Number} (h : rate.worth n = .ok w) (hle : m ≤ n) :
    ∃ w', rate.worth m = .ok w' := by
  have hworth : rate.rawWorth m ≤ w.raw := worth_ok h ▸ rate.rawWorth_mono hle
  exact worth_answered ((Nat.mul_le_mul_right _ hle).trans (worth_fits h)) (hworth.trans w.raw_le)

theorem sharedIndexDelta_le {m n shares : ℕ} {rate : Rate} {delta : Number}
    (h : sharedIndexDelta n shares rate = .ok delta) (hle : m ≤ n) :
    ∃ delta', sharedIndexDelta m shares rate = .ok delta' := by
  by_cases hnone : m = 0 ∨ shares = 0
  · exact ⟨.zero, if_pos hnone⟩
  · rw [sharedIndexDelta, if_neg (by omega)] at h
    simp only [bind_eq_ok] at h
    obtain ⟨w, hw, divisor, hdivisor, -⟩ := h
    have hworth : rate.rawWorth m ≤ w.raw := Rate.worth_ok hw ▸ rate.rawWorth_mono hle
    have hshares : shares * scale ≤ maxRaw := by
      rw [← Number.ofNatural_eq_ok.mp hdivisor]
      exact divisor.raw_le
    exact sharedIndexDelta_answered ((Nat.mul_le_mul_right _ hle).trans (Rate.worth_fits hw))
      (hworth.trans w.raw_le) hshares

/-- An index that is divided among shares moves on by a shorter stretch, from where it ends no higher. -/
theorem advanceSharedIndex_within {what : String} {index index' : Number} {last last' now now' : Int}
    {shares m : ℕ} {rate : Rate} {step : IndexAdvance}
    (h : advanceSharedIndex what index last now shares rate = .ok step) (hnow : now' = last' + m)
    (hle : m ≤ step.elapsed) (hindex : index'.raw + rate.rawWorth m / shares ≤ step.index.raw) :
    ∃ step', advanceSharedIndex what index' last' now' shares rate = .ok step' := by
  simp only [advanceSharedIndex, bind_eq_ok, pure_eq_ok] at h
  obtain ⟨elapsed, -, delta, hdelta, _, -, rfl⟩ := h
  obtain ⟨delta', hdelta'⟩ := sharedIndexDelta_le hdelta hle
  rw [← sharedIndexDelta_ok hdelta'] at hindex
  obtain ⟨next, hnext⟩ := Number.exists_raw (hindex.trans (Number.raw_le _))
  apply bind_answered (elapsedSeconds_eq_ok.mpr hnow)
  apply bind_answered hdelta'
  exact bind_answered (Number.add_eq_ok.mpr hnext) ⟨_, rfl⟩

theorem advanceRateIndex_within {index index' last : Number} {m n shares : ℕ} {rate : Rate}
    (h : advanceRateIndex index n shares rate = .ok last) (hle : m ≤ n)
    (hindex : index'.raw + (if shares = 0 then 0 else rate.rawWorth m) ≤ last.raw) :
    ∃ next, advanceRateIndex index' m shares rate = .ok next := by
  by_cases hnone : m = 0 ∨ shares = 0
  · exact ⟨index', if_pos hnone⟩
  · rw [advanceRateIndex, if_neg (by omega)] at h
    rw [if_neg (by omega)] at hindex
    simp only [bind_eq_ok] at h
    obtain ⟨w, hw, -⟩ := h
    obtain ⟨w', hw'⟩ := Rate.worth_le hw hle
    rw [← Rate.worth_ok hw'] at hindex
    obtain ⟨next, hnext⟩ := Number.exists_raw (hindex.trans last.raw_le)
    rw [advanceRateIndex, if_neg hnone]
    exact bind_answered hw' ⟨next, Number.add_eq_ok.mpr hnext⟩

/-- A share that has earned something can be written as a number. -/
theorem accrueShare_fits {what : String} {share : ℕ} {last current : Number} {accrual : ShareAccrual}
    (h : accrueShare what share last current = .ok accrual) (hgain : last.raw < current.raw) :
    share * scale ≤ maxRaw := by
  rw [accrueShare, if_neg (mt Number.lt_iff.mp (by omega))] at h
  simp only [bind_eq_ok, Number.sub_eq_ok] at h
  obtain ⟨delta, hdelta, h⟩ := h
  have hsome : delta ≠ .zero := by
    rintro rfl
    rw [Number.raw_zero] at hdelta
    omega
  rw [if_neg hsome] at h
  simp only [bind_eq_ok, Number.ofNatural_eq_ok] at h
  obtain ⟨amount, hamount, -⟩ := h
  exact hamount ▸ amount.raw_le

/-- Where a share account can be settled, so can any part of the share, between any two indices on the
way. -/
theorem accrueShare_part {what : String} {share part : ℕ} {last last' current current' : Number}
    {accrual : ShareAccrual} (h : accrueShare what share last current = .ok accrual) (hpart : part ≤ share)
    (hlast : last ≤ last') (hle : last' ≤ current') (hcurrent : current' ≤ current) :
    ∃ accrual', accrueShare what part last' current' = .ok accrual' := by
  rw [Number.le_iff] at hlast hle hcurrent
  have hearned : part * (current'.raw - last'.raw) ≤ maxRaw := by
    obtain ⟨-, haccrued, -⟩ := accrueShare_ok h
    exact (Nat.mul_le_mul hpart (by omega)).trans (haccrued ▸ accrual.accrued.raw_le)
  by_cases hsame : last' = current'
  · subst hsame
    exact ⟨_, accrueShare_still _ _ _⟩
  · have hne : last'.raw ≠ current'.raw := mt Number.ext hsame
    have hshare : share * scale ≤ maxRaw := accrueShare_fits h (by omega)
    exact accrueShare_answered what hle ((Nat.mul_le_mul_right _ hpart).trans hshare) hearned

/-- A share account can be settled between any two indices that it was settled across. -/
theorem accrueShare_within {what : String} {share : ℕ} {last last' current current' : Number}
    {accrual : ShareAccrual} (h : accrueShare what share last current = .ok accrual)
    (hlast : last ≤ last') (hle : last' ≤ current') (hcurrent : current' ≤ current) :
    ∃ accrual', accrueShare what share last' current' = .ok accrual' :=
  accrueShare_part h (Nat.le_refl share) hlast hle hcurrent

/-- What an account has earned is credited where its counter is wide enough. -/
theorem ShareAccrual.credit_answered (accrual : ShareAccrual) (what : String) {credited : ℕ}
    (h : credited + accrual.accrued.raw / scale ≤ maxU64) :
    ∃ units total, accrual.units = .ok units ∧ Counter.add what credited units = .ok total :=
  ⟨_, _, Number.wholePart_eq_ok.mpr ⟨Nat.le_trans (Nat.le_add_left _ _) h, rfl⟩,
    Counter.add_eq_ok.mpr ⟨h, rfl⟩⟩

/-- An account that was credited up to an index is credited up to a lower one, unless it has seen that
already. -/
theorem accrueShare_credit {what : String} (counter : String) {share credited limit : ℕ}
    {last last' current current' : Number} {accrual : ShareAccrual}
    (h : accrueShare what share last current = .ok accrual) (hlast : last ≤ last')
    (hle : last' ≤ current') (hcurrent : current' ≤ current)
    (hlimit : accrual.lastSeen ≠ last → limit ≤ maxU64)
    (hcredited : credited + share * (current'.raw - last'.raw) / scale ≤ limit) :
    ∃ accrual', accrueShare what share last' current' = .ok accrual' ∧ (accrual'.lastSeen ≠ last' →
      ∃ units total, accrual'.units = .ok units ∧ Counter.add counter credited units = .ok total) := by
  obtain ⟨accrual', haccrual'⟩ := accrueShare_within h hlast hle hcurrent
  refine ⟨accrual', haccrual', fun hnew => ?_⟩
  obtain ⟨-, haccrued, hseen'⟩ := accrueShare_ok haccrual'
  -- the index was new in the long stretch too
  have hold : accrual.lastSeen ≠ last := by
    rw [(accrueShare_ok h).2.2]
    rintro rfl
    rw [hseen'] at hnew
    exact hnew (Number.ext (Nat.le_antisymm (Nat.le_trans hcurrent hlast) hle))
  rw [← haccrued] at hcredited
  exact accrual'.credit_answered counter (hcredited.trans (hlimit hold))

/-! ### The escrow -/

theorem TimeTracker.advance_within {t t' d : TimeTracker} {now now' : Int} {m n : ℕ}
    (h : t.advance now = .ok d) (hn : now = t.lastSeenTs + n)
    (htotal : t'.totalLpDeposited = t.totalLpDeposited) (hm : now' = t'.lastSeenTs + m) (hle : m ≤ n)
    (hindex : t'.index.raw + m * scale / t.totalLpDeposited ≤ d.index.raw) :
    ∃ next, t'.advance now' = .ok next := by
  simp only [advance, bind_eq_ok, pure_eq_ok] at h
  obtain ⟨step, hstep, rfl⟩ := h
  have hn' := (advanceSharedIndex_ok hstep).1
  rw [← htotal] at hstep
  rw [← htotal] at hindex
  obtain ⟨step', hstep'⟩ := advanceSharedIndex_within hstep hm (by omega) hindex
  exact bind_answered hstep' ⟨_, rfl⟩

theorem PersonalPosition.settle_within {p p' d : PersonalPosition} {t t' : TimeTracker}
    (h : p.settle t = .ok d) (htracker : p'.timeTracker = p.timeTracker) (hamount : p'.amount = p.amount)
    (hpool : t'.poolId = t.poolId) (hlast : p.lastSeenIndex ≤ p'.lastSeenIndex)
    (hle : p'.lastSeenIndex ≤ t'.index) (hindex : t'.index ≤ t.index)
    (hearned : p'.earnedTimeUnits.raw + p.amount * (t'.index.raw - p'.lastSeenIndex.raw) ≤
      d.earnedTimeUnits.raw) : ∃ next, p'.settle t' = .ok next := by
  simp only [settle, bind_eq_ok] at h
  obtain ⟨_, hcheck, accrual, haccrual, -⟩ := h
  have hcheck' : p'.checkTracker t' = .ok () :=
    if_pos (htracker.trans ((checkTracker_ok hcheck).trans hpool.symm))
  rw [← hamount] at haccrual
  obtain ⟨accrual', haccrual'⟩ := accrueShare_within haccrual hlast hle hindex
  have haccrued := (accrueShare_ok haccrual').2.1
  rw [← hamount, ← haccrued] at hearned
  obtain ⟨earned, hearned'⟩ := Number.exists_raw (hearned.trans d.earnedTimeUnits.raw_le)
  refine bind_answered hcheck' (bind_answered haccrual' ?_)
  split
  · exact ⟨_, rfl⟩
  · exact bind_answered (Number.add_eq_ok.mpr hearned') ⟨_, rfl⟩

namespace Escrow

/-- A tracker and the positions that earn time units by it. -/
def engine : Engine TimeTracker PersonalPosition Unit where
  advance now t := t.advance now
  clock t := t.lastSeenTs
  index _ t := t.index
  terms t := { t with index := .zero, lastSeenTs := 0 }
  growth _ t seconds := seconds * scale / t.totalLpDeposited
  settle t p := p.settle t
  lastSeen _ p := p.lastSeenIndex
  earned _ p := p.earnedTimeUnits.raw
  holding p := { p with lastSeenIndex := .zero, earnedTimeUnits := .zero }
  worth _ p growth := p.amount * growth

theorem engine_roundsDown : engine.RoundsDown where
  growth_add_le _ t m n := by
    show m * scale / t.totalLpDeposited + n * scale / t.totalLpDeposited ≤
      (m + n) * scale / t.totalLpDeposited
    rw [Nat.add_mul]
    exact Nat.div_add_div_le_add_div
  worth_add_le _ p m n := (Nat.mul_add p.amount m n).ge
  advance_ok h := by
    obtain ⟨elapsed, hnow, hadv⟩ := TimeTracker.advance_ok h
    refine ⟨elapsed, hnow, ?_, hadv.ts, fun _ => hadv.index⟩
    simp only [engine, hadv.poolId, hadv.escrowAccount, hadv.total]
  settle_ok h := by
    have hset := PersonalPosition.settle_ok h
    refine ⟨?_, fun _ => hset.lastSeen, fun _ => hset.earned⟩
    simp only [engine, hset.owner, hset.timeTracker, hset.amount]
  advance_within h hn hterms hm hle hindex :=
    TimeTracker.advance_within h hn (congrArg (·.totalLpDeposited) hterms) hm hle (hindex ())
  settle_within h hterms hholding hlast hle hindex hearned :=
    PersonalPosition.settle_within h (congrArg (·.timeTracker) hholding) (congrArg (·.amount) hholding)
      (congrArg (·.poolId) hterms) (hlast ()) (hle ()) (hindex ()) (hearned ())

end Escrow

/-! ### The emission -/

theorem dailyWorth_div_add_le (emission shares m n : ℕ) :
    dailyWorth emission m / shares + dailyWorth emission n / shares ≤
      dailyWorth emission (m + n) / shares := by
  refine Nat.div_add_div_le_add_div.trans (Nat.div_le_div_right ?_)
  rw [dailyWorth, dailyWorth, dailyWorth, ← Nat.mul_add, Nat.add_mul]
  exact Nat.mul_le_mul_left _ Nat.div_add_div_le_add_div

theorem GaugeConfig.advance_within {c c' d : GaugeConfig} {now now' : Int} {m n : ℕ}
    (h : c.advance now = .ok d) (hn : now = c.lastUpdatedTs + n) (hvotes : c'.totalVotes = c.totalVotes)
    (hemission : c'.rayEmissionPerDay = c.rayEmissionPerDay) (hm : now' = c'.lastUpdatedTs + m)
    (hle : m ≤ n)
    (hindex : c'.index.raw + dailyWorth c.rayEmissionPerDay m / c.totalVotes ≤ d.index.raw) :
    ∃ next, c'.advance now' = .ok next := by
  obtain ⟨n', hn', hadv⟩ := advance_ok h
  obtain rfl : n' = n := by omega
  simp only [advance, bind_eq_ok] at h
  obtain ⟨rate, hrate, step, hstep, -⟩ := h
  obtain ⟨helapsed, hreached⟩ := advanceSharedIndex_ok hstep
  obtain rfl : n' = step.elapsed := by omega
  rw [Rate.daily_ok hrate, ← hadv.index] at hreached
  rw [← Rate.daily_ok hrate, ← hreached, ← hvotes] at hindex
  rw [← hvotes] at hstep
  rw [← hemission] at hrate
  obtain ⟨step', hstep'⟩ := advanceSharedIndex_within hstep hm hle hindex
  refine bind_answered hrate (bind_answered hstep' ?_)
  split
  · exact ⟨_, rfl⟩
  · exact ⟨_, rfl⟩

theorem Gauge.settle_within {g g' d : Gauge} {index index' : Number} (h : g.settle index = .ok d)
    (hvotes : g'.totalVotes = g.totalVotes) (hlast : g.lastSeenGlobalIndex ≤ g'.lastSeenGlobalIndex)
    (hle : g'.lastSeenGlobalIndex ≤ index') (hindex : index' ≤ index)
    (hemitted : g'.totalRayEmitted +
      g.totalVotes * (index'.raw - g'.lastSeenGlobalIndex.raw) / scale ≤ d.totalRayEmitted) :
    ∃ next, g'.settle index' = .ok next := by
  simp only [settle, bind_eq_ok] at h
  obtain ⟨accrual, haccrual, h⟩ := h
  have hlimit : accrual.lastSeen ≠ g.lastSeenGlobalIndex → d.totalRayEmitted ≤ maxU64 := by
    intro hnew
    rw [if_neg hnew] at h
    simp only [bind_eq_ok, pure_eq_ok, Counter.add_eq_ok] at h
    obtain ⟨_, -, _, ⟨hfits, -⟩, rfl⟩ := h
    exact hfits
  rw [← hvotes] at haccrual hemitted
  obtain ⟨accrual', haccrual', hcredit⟩ :=
    accrueShare_credit "total_ray_emitted" haccrual hlast hle hindex hlimit hemitted
  refine bind_answered haccrual' ?_
  split
  · exact ⟨_, rfl⟩
  · rename_i hnew
    obtain ⟨units, total, hunits, htotal⟩ := hcredit hnew
    exact bind_answered hunits (bind_answered htotal ⟨_, rfl⟩)

namespace Emission

/-- The config of the emission and the gauges that earn RAY by it. -/
def engine : Engine GaugeConfig Gauge Unit where
  advance now c := c.advance now
  clock c := c.lastUpdatedTs
  index _ c := c.index
  terms c := { c with index := .zero, lastUpdatedTs := 0 }
  growth _ c seconds := dailyWorth c.rayEmissionPerDay seconds / c.totalVotes
  settle c g := g.settle c.index
  lastSeen _ g := g.lastSeenGlobalIndex
  earned _ g := g.totalRayEmitted
  holding g := { g with lastSeenGlobalIndex := .zero, totalRayEmitted := 0 }
  worth _ g growth := g.totalVotes * growth / scale

theorem engine_roundsDown : engine.RoundsDown where
  growth_add_le _ c m n := dailyWorth_div_add_le _ _ m n
  worth_add_le _ g m n := mul_div_add_le g.totalVotes m n scale
  advance_ok h := by
    obtain ⟨elapsed, hnow, hadv⟩ := GaugeConfig.advance_ok h
    refine ⟨elapsed, hnow, ?_, hadv.ts, fun _ => hadv.index⟩
    simp only [engine, hadv.votes, hadv.emission]
  settle_ok h := by
    have hset := Gauge.settle_ok h
    refine ⟨?_, fun _ => hset.lastSeen, fun _ => hset.emitted⟩
    simp only [engine, hset.poolId, hset.votes]
  advance_within h hn hterms hm hle hindex :=
    GaugeConfig.advance_within h hn (congrArg (·.totalVotes) hterms)
      (congrArg (·.rayEmissionPerDay) hterms) hm hle (hindex ())
  settle_within h _ hholding hlast hle hindex hearned :=
    Gauge.settle_within h (congrArg (·.totalVotes) hholding) (hlast ()) (hle ()) (hindex ()) (hearned ())

end Emission

/-! ### The stake -/

theorem annualWorth_add_le (points m n : ℕ) :
    annualWorth points m + annualWorth points n ≤ annualWorth points (m + n) := by
  rw [annualWorth, annualWorth, annualWorth]
  refine Nat.div_add_div_le_add_div.trans (Nat.div_le_div_right ?_)
  rw [← Nat.add_mul, Nat.add_mul m]
  exact Nat.mul_le_mul_right _ Nat.div_add_div_le_add_div

theorem Earning.growth_add_le (e : Earning) (c : ReactorConfig) (m n : ℕ) :
    e.growth c m + e.growth c n ≤ e.growth c (m + n) := by
  cases e with
  | reward => exact dailyWorth_div_add_le _ _ _ _
  | isoRay =>
      rw [growth, growth, growth]
      split
      · exact Nat.le_refl _
      · exact annualWorth_add_le _ _ _

theorem ReactorConfig.advance_within {c c' d : ReactorConfig} {now now' : Int} {m n : ℕ}
    (h : c.advance now = .ok d) (hn : now = c.rewardsEmittedUntil + n)
    (htotal : c'.totalRayDeposited = c.totalRayDeposited)
    (hrate : c'.rayRewardDailyEmission = c.rayRewardDailyEmission) (hpoints : c'.isoRayAprBps = c.isoRayAprBps)
    (hm : now' = c'.rewardsEmittedUntil + m) (hle : m ≤ n)
    (hindex : ∀ e : Earning, (e.index c').raw + e.growth c m ≤ (e.index d).raw) :
    ∃ next, c'.advance now' = .ok next := by
  refine bind_answered (elapsedSeconds_eq_ok.mpr hm) ?_
  by_cases hzero : m = 0
  · exact ⟨c', if_pos hzero⟩
  · rw [if_neg hzero]
    simp only [advance, bind_eq_ok, elapsedSeconds_eq_ok] at h
    obtain ⟨n', hn', h⟩ := h
    obtain rfl : n' = n := by omega
    rw [if_neg (by omega)] at h
    simp only [bind_eq_ok, pure_eq_ok] at h
    obtain ⟨emission, hemission, delta, hdelta, reward, -, apr, hapr, isoRay, hisoRay, rfl⟩ := h
    have hreward : c'.rayRewardIndex.raw + dailyWorth c.rayRewardDailyEmission m / c.totalRayDeposited ≤
        reward.raw := hindex .reward
    have hiso : c'.isoRayIndex.raw + (if c.totalRayDeposited = 0 then 0 else
        annualWorth c.isoRayAprBps m) ≤ isoRay.raw := hindex .isoRay
    obtain ⟨delta', hdelta'⟩ := sharedIndexDelta_le hdelta hle
    rw [← Rate.daily_ok hemission, ← sharedIndexDelta_ok hdelta'] at hreward
    rw [← Rate.annual_ok hapr] at hiso
    obtain ⟨reward', hreward'⟩ := Number.exists_raw (hreward.trans reward.raw_le)
    obtain ⟨isoRay', hisoRay'⟩ := advanceRateIndex_within hisoRay hle hiso
    rw [htotal, hrate, hpoints]
    apply bind_answered hemission
    apply bind_answered hdelta'
    apply bind_answered (Number.add_eq_ok.mpr hreward')
    apply bind_answered hapr
    exact bind_answered hisoRay' ⟨_, rfl⟩

namespace Reactor

theorem accrueIsoRay_within {r r' d : Reactor} {index index' : Number}
    (h : r.accrueIsoRay index = .ok d) (hray : r'.ray = r.ray)
    (hlast : r.lastSeenIndexIsoRay ≤ r'.lastSeenIndexIsoRay) (hle : r'.lastSeenIndexIsoRay ≤ index')
    (hindex : index' ≤ index)
    (hunits : r'.isoRay + r.ray * (index'.raw - r'.lastSeenIndexIsoRay.raw) / scale ≤ d.isoRay) :
    ∃ next, r'.accrueIsoRay index' = .ok next := by
  have hfits := accrueIsoRay_le h
  simp only [accrueIsoRay, bind_eq_ok] at h
  obtain ⟨accrual, haccrual, -⟩ := h
  rw [← hray] at haccrual hunits
  obtain ⟨accrual', haccrual'⟩ := accrueShare_within haccrual hlast hle hindex
  rw [← (accrueShare_ok haccrual').2.1] at hunits
  obtain ⟨units, total, hunits', htotal⟩ := accrual'.credit_answered "iso_ray" (hunits.trans hfits)
  exact bind_answered haccrual' (bind_answered hunits' (bind_answered htotal ⟨_, rfl⟩))

theorem accrueRayRewards_within {r r' d : Reactor} {index index' : Number}
    (h : r.accrueRayRewards index = .ok d) (hray : r'.ray = r.ray)
    (hlast : r.rayStakeRewards.lastSeenIndex ≤ r'.rayStakeRewards.lastSeenIndex)
    (hle : r'.rayStakeRewards.lastSeenIndex ≤ index') (hindex : index' ≤ index)
    (hunits : r'.rayStakeRewards.uncollectedRayReward +
      r.ray * (index'.raw - r'.rayStakeRewards.lastSeenIndex.raw) / scale ≤
        d.rayStakeRewards.uncollectedRayReward) : ∃ next, r'.accrueRayRewards index' = .ok next := by
  simp only [accrueRayRewards, bind_eq_ok] at h
  obtain ⟨accrual, haccrual, h⟩ := h
  have hlimit : accrual.lastSeen ≠ r.rayStakeRewards.lastSeenIndex →
      d.rayStakeRewards.uncollectedRayReward ≤ maxU64 := by
    intro hnew
    rw [if_neg hnew] at h
    simp only [bind_eq_ok, pure_eq_ok, Counter.add_eq_ok] at h
    obtain ⟨_, -, _, ⟨hfits, -⟩, rfl⟩ := h
    exact hfits
  rw [← hray] at haccrual hunits
  obtain ⟨accrual', haccrual', hcredit⟩ :=
    accrueShare_credit "uncollected_ray_reward" haccrual hlast hle hindex hlimit hunits
  refine bind_answered haccrual' ?_
  split
  · exact ⟨_, rfl⟩
  · rename_i hnew
    obtain ⟨units, total, hunits, htotal⟩ := hcredit hnew
    exact bind_answered hunits (bind_answered htotal ⟨_, rfl⟩)

theorem settle_within {r r' d : Reactor} {config config' : ReactorConfig}
    (h : r.settle config = .ok d) (hray : r'.ray = r.ray)
    (hlast : ∀ e : Earning, e.lastSeen r ≤ e.lastSeen r')
    (hle : ∀ e : Earning, e.lastSeen r' ≤ e.index config')
    (hindex : ∀ e : Earning, e.index config' ≤ e.index config)
    (hunits : ∀ e : Earning, e.units r' +
      r.ray * ((e.index config').raw - (e.lastSeen r').raw) / scale ≤ e.units d) :
    ∃ next, r'.settle config' = .ok next := by
  simp only [settle, bind_eq_ok] at h
  obtain ⟨r₁, hisoRay, hrewards⟩ := h
  have hunitsIso : r'.isoRay + r.ray * (config'.isoRayIndex.raw - r'.lastSeenIndexIsoRay.raw) / scale ≤
      r₁.isoRay := by
    have hkept : d.isoRay = r₁.isoRay := by
      rw [accrueRayRewards_ok hrewards]
    exact hkept ▸ hunits .isoRay
  obtain ⟨next, hnext⟩ :=
    accrueIsoRay_within hisoRay hray (hlast .isoRay) (hle .isoRay) (hindex .isoRay) hunitsIso
  refine bind_answered hnext ?_
  have hray₁ : r₁.ray = r.ray := by
    rw [accrueIsoRay_ok hisoRay]
  obtain rfl := accrueIsoRay_ok hisoRay
  obtain rfl := accrueIsoRay_ok hnext
  exact accrueRayRewards_within hrewards (hray.trans hray₁.symm) (hlast .reward) (hle .reward)
    (hindex .reward) (hunits .reward)

end Reactor

namespace Staking

/-- The config of the stake and the reactors that earn RAY rewards and isoRAY by it. -/
def engine : Engine ReactorConfig Reactor Earning where
  advance now c := c.advance now
  clock c := c.rewardsEmittedUntil
  index := Earning.index
  terms c := { c with rayRewardIndex := .zero, isoRayIndex := .zero, rewardsEmittedUntil := 0 }
  growth := Earning.growth
  settle c r := r.settle c
  lastSeen := Earning.lastSeen
  earned := Earning.units
  holding r := { r with isoRay := 0, lastSeenIndexIsoRay := .zero, rayStakeRewards := ⟨.zero, 0⟩ }
  worth _ r growth := r.ray * growth / scale

/-- The growth of an index does not depend on the indices and the clock. -/
theorem growth_terms (e : Earning) (c : ReactorConfig) : e.growth (engine.terms c) = e.growth c := by
  cases e <;> rfl

theorem engine_roundsDown : engine.RoundsDown where
  growth_add_le := Earning.growth_add_le
  worth_add_le _ r m n := mul_div_add_le r.ray m n scale
  advance_ok {_ c _} h := by
    obtain ⟨elapsed, hnow, hadv⟩ := ReactorConfig.advance_ok h
    refine ⟨elapsed, hnow, ?_, hadv.ts, fun e => ?_⟩
    · simp only [engine, hadv.total, hadv.emission, hadv.apr]
    · show _ = _ + e.growth (engine.terms c) elapsed
      rw [growth_terms]
      exact hadv.index e
  settle_ok h := by
    have hset := Reactor.settle_ok h
    refine ⟨?_, hset.lastSeen, hset.units⟩
    simp only [engine, hset.owner, hset.ray, hset.lockedVotes]
  advance_within h hn hterms hm hle hindex :=
    ReactorConfig.advance_within h hn (congrArg (·.totalRayDeposited) hterms)
      (congrArg (·.rayRewardDailyEmission) hterms) (congrArg (·.isoRayAprBps) hterms) hm hle
      fun e => growth_terms e _ ▸ hindex e
  settle_within h _ hholding hlast hle hindex hearned :=
    Reactor.settle_within h (congrArg (·.ray) hholding) hlast hle hindex hearned

end Staking

end EmissionLedger
