import EmissionLedger.Proofs.Ledger.Arithmetic
import EmissionLedger.Proofs.Staking.Solvency
import EmissionLedger.Proofs.Timing.Stretch
import Mathlib.Data.Nat.Cast.Order.Field

/-!
The cost of moving an index on in two steps. Every rounding goes down, so two short steps give no more
than one long step; what they give less is bounded by the roundings that happen once more. The seconds of
the tracker are rounded once, after the division among the shares. A rate rounds the share of the day or
the year first, so a whole unit of that share may be missing, worth the rate itself, and then the product
or the quotient is rounded twice more. No growth exceeds the exact rate times the seconds.

Main statement: `index_split_bounded`.
-/

namespace EmissionLedger

/-! ### Roundings -/

theorem add_div_le_succ (a b d : ℕ) : (a + b) / d ≤ a / d + b / d + 1 := by
  rcases Nat.eq_zero_or_pos d with rfl | hd
  · simp
  · rw [Nat.add_div hd]
    split <;> omega

/-- A part that is short by one, multiplied and rounded, is short by the factor and two roundings. -/
theorem mul_div_split_le {whole first second : ℕ} (h : whole ≤ first + second + 1) (k d : ℕ) :
    k * whole / d ≤ k * first / d + k * second / d + (k / d + 2) := by
  have hproduct : k * whole ≤ k * first + k * second + k := by
    rw [← Nat.mul_add, ← Nat.mul_succ]
    exact Nat.mul_le_mul_left _ h
  have hone := add_div_le_succ (k * first) (k * second) d
  have htwo := add_div_le_succ (k * first + k * second) k d
  calc k * whole / d ≤ (k * first + k * second + k) / d := Nat.div_le_div_right hproduct
    _ ≤ k * first / d + k * second / d + (k / d + 2) := by omega

theorem seconds_split_le (m n d : ℕ) :
    (m + n) * scale / d ≤ m * scale / d + n * scale / d + 1 := by
  rw [Nat.add_mul]
  exact add_div_le_succ _ _ _

/-! ### Indices by their source -/

/-- What an index grows by: seconds or a daily emission, divided among the shares, or an annual rate in
basis points, in full for every share. -/
inductive IndexSource where
  | clock
  | daily (emission : ℕ)
  | annual (points : ℕ)

namespace IndexSource

/-- The growth over some seconds, as an advance of the index finds it. -/
def growth (shares seconds : ℕ) : IndexSource → Result Number
  | clock => sharedIndexDelta seconds shares .perSecond
  | daily emission => do
      let rate ← Rate.daily emission
      sharedIndexDelta seconds shares rate
  | annual points => do
      let rate ← Rate.annual points
      advanceRateIndex .zero seconds shares rate

/-- A source whose parameters are those of a well-formed record. -/
def WellFormed : IndexSource → Prop
  | clock => True
  | daily emission => emission ≤ maxU64
  | annual points => points ≤ maxU16

/-- The exact growth a second. -/
def rate (shares : ℕ) : IndexSource → ℚ
  | clock => 1 / shares
  | daily emission => emission / secondsPerDay / shares
  | annual points => points / Number.basisPoints / secondsPerYear

/-- The raw units that one split costs at most. -/
def slack (shares : ℕ) : IndexSource → ℕ
  | clock => 1
  | daily emission => emission / shares + 2
  | annual points => points / Number.basisPoints + 2

/-- The growth in raw units. -/
def rawGrowth (shares seconds : ℕ) : IndexSource → ℕ
  | clock => seconds * scale / shares
  | daily emission => dailyWorth emission seconds / shares
  | annual points => if shares = 0 then 0 else annualWorth points seconds

variable {source : IndexSource} {shares seconds : ℕ}

theorem growth_ok {g : Number} (h : source.growth shares seconds = .ok g) :
    g.raw = source.rawGrowth shares seconds := by
  cases source with
  | clock => exact sharedIndexDelta_ok h
  | daily emission =>
      obtain ⟨rate, hrate, hdelta⟩ := bind_eq_ok.mp h
      rw [sharedIndexDelta_ok hdelta, Rate.daily_ok hrate, rawGrowth]
  | annual points =>
      obtain ⟨rate, hrate, hindex⟩ := bind_eq_ok.mp h
      rw [advanceRateIndex_ok hindex, Rate.annual_ok hrate, Number.raw_zero, Nat.zero_add, rawGrowth]

/-- With counters of 64 bits no growth leaves its range. -/
theorem growth_answered (hsource : source.WellFormed) (hshares : shares ≤ maxU64)
    (hseconds : seconds ≤ maxU64) : ∃ g, source.growth shares seconds = .ok g := by
  have hfits := counter_fits hseconds
  have hclock : seconds * scale ≤ maxIndex := (Nat.mul_le_mul_right _ hseconds).trans seconds_fit
  cases source with
  | clock => exact sharedIndexDelta_answered hfits hfits (counter_fits hshares)
  | daily emission =>
      obtain ⟨rate, hrate⟩ := Rate.daily_answered (counter_fits hsource)
      refine bind_answered hrate (sharedIndexDelta_answered hfits ?_ (counter_fits hshares))
      rw [Rate.daily_ok hrate]
      exact (dailyWorth_le_limit _ _).trans (product_fits hsource hclock)
  | annual points =>
      have hpoints : points ≤ maxU64 := Nat.le_trans hsource (by decide)
      obtain ⟨rate, hrate⟩ := Rate.annual_answered (counter_fits hpoints)
      refine bind_answered hrate (advanceRateIndex_answered shares hfits ?_)
      rw [Rate.annual_ok hrate, Number.raw_zero, Nat.zero_add]
      exact (annualWorth_le_limit _ _).trans (product_fits hpoints hclock)

/-- Two steps give no more than one. -/
theorem rawGrowth_add_le (source : IndexSource) (shares m n : ℕ) :
    source.rawGrowth shares m + source.rawGrowth shares n ≤ source.rawGrowth shares (m + n) := by
  cases source with
  | clock =>
      rw [rawGrowth, rawGrowth, rawGrowth, Nat.add_mul]
      exact Nat.div_add_div_le_add_div
  | daily emission => exact dailyWorth_div_add_le _ _ _ _
  | annual points =>
      rw [rawGrowth, rawGrowth, rawGrowth]
      split
      · exact Nat.le_refl _
      · exact annualWorth_add_le _ _ _

/-- What two steps give less is within the slack. -/
theorem rawGrowth_le_add_slack (source : IndexSource) (shares m n : ℕ) : source.rawGrowth shares (m + n) ≤
    source.rawGrowth shares m + source.rawGrowth shares n + source.slack shares := by
  have hscale : 0 < scale := by decide
  cases source with
  | clock => exact seconds_split_le m n shares
  | daily emission => exact mul_div_split_le (seconds_split_le m n secondsPerDay) emission shares
  | annual points =>
      rw [rawGrowth, rawGrowth, rawGrowth]
      split
      · exact Nat.zero_le _
      · have hsplit := mul_div_split_le (seconds_split_le m n secondsPerYear)
          (points * scale / Number.basisPoints) scale
        have hfraction : points * scale / Number.basisPoints / scale = points / Number.basisPoints := by
          rw [Nat.div_div_eq_div_mul, Nat.mul_div_mul_right _ _ hscale]
        rw [hfraction] at hsplit
        simpa only [annualWorth, Nat.mul_comm, slack] using hsplit

/-- No growth exceeds the exact rate times the seconds. -/
theorem rawGrowth_le_rate (source : IndexSource) {shares : ℕ} (hshares : 0 < shares) (seconds : ℕ) :
    (source.rawGrowth shares seconds : ℚ) / scale ≤ source.rate shares * seconds := by
  have hscale : (0 : ℚ) < scale := by exact_mod_cast (by decide : 0 < scale)
  have hpos : (0 : ℚ) < shares := by exact_mod_cast hshares
  rw [div_le_iff₀ hscale]
  cases source with
  | clock =>
      calc ((seconds * scale / shares : ℕ) : ℚ) ≤ (seconds * scale : ℕ) / shares := Nat.cast_div_le
        _ = 1 / shares * seconds * scale := by push_cast; ring
  | daily emission =>
      have hday : (0 : ℚ) < secondsPerDay := by exact_mod_cast (by decide : 0 < secondsPerDay)
      have hworth : (dailyWorth emission seconds : ℚ) ≤ emission * (seconds * scale) / secondsPerDay := by
        rw [le_div_iff₀ hday]
        exact_mod_cast (dailyWorth_bounds emission seconds).1
      calc ((dailyWorth emission seconds / shares : ℕ) : ℚ)
          ≤ dailyWorth emission seconds / shares := Nat.cast_div_le
        _ ≤ emission * (seconds * scale) / secondsPerDay / shares := by gcongr
        _ = emission / secondsPerDay / shares * seconds * scale := by ring
  | annual points =>
      have hyear : (0 : ℚ) < Number.basisPoints * secondsPerYear := by
        exact_mod_cast (by decide : 0 < Number.basisPoints * secondsPerYear)
      rw [rawGrowth, if_neg hshares.ne']
      calc (annualWorth points seconds : ℚ)
          ≤ scale * (points * seconds) / (Number.basisPoints * secondsPerYear) := by
            rw [le_div_iff₀ hyear, mul_comm]
            exact_mod_cast annualWorth_le points seconds
        _ = points / Number.basisPoints / secondsPerYear * seconds * scale := by
            rw [div_div]
            ring

/-- The index `index'` is `index`, moved on by some seconds. -/
def Moves (source : IndexSource) (shares seconds : ℕ) (index index' : Number) : Prop :=
  ∃ g, source.growth shares seconds = .ok g ∧ index'.raw = index.raw + g.raw

/-- Where the growth is answered, an index that moved by it in raw units moved by it. -/
theorem moves_of_raw {index index' : Number} (hgrowth : ∃ g, source.growth shares seconds = .ok g)
    (hindex : index'.raw = index.raw + source.rawGrowth shares seconds) :
    source.Moves shares seconds index index' := by
  obtain ⟨g, hg⟩ := hgrowth
  exact ⟨g, hg, by rw [hindex, growth_ok hg]⟩

end IndexSource

/-! ### The indices of the ledger -/

theorem TimeTracker.advance_moves {t t' : TimeTracker} {now : Int} (h : t.advance now = .ok t') :
    ∃ seconds : ℕ, now = t.lastSeenTs + seconds ∧
      IndexSource.clock.Moves t.totalLpDeposited seconds t.index t'.index := by
  obtain ⟨seconds, hnow, hadv⟩ := advance_ok h
  refine ⟨seconds, hnow, IndexSource.moves_of_raw ?_ hadv.index⟩
  simp only [advance, advanceSharedIndex, bind_eq_ok, elapsedSeconds_eq_ok] at h
  obtain ⟨_, ⟨elapsed, helapsed, delta, hdelta, -⟩, -⟩ := h
  obtain rfl : elapsed = seconds := by omega
  exact ⟨delta, hdelta⟩

theorem GaugeConfig.advance_moves {c c' : GaugeConfig} {now : Int} (h : c.advance now = .ok c') :
    ∃ seconds : ℕ, now = c.lastUpdatedTs + seconds ∧
      (IndexSource.daily c.rayEmissionPerDay).Moves c.totalVotes seconds c.index c'.index := by
  obtain ⟨seconds, hnow, hadv⟩ := advance_ok h
  refine ⟨seconds, hnow, IndexSource.moves_of_raw ?_ hadv.index⟩
  simp only [advance, advanceSharedIndex, bind_eq_ok, elapsedSeconds_eq_ok] at h
  obtain ⟨rate, hrate, _, ⟨elapsed, helapsed, delta, hdelta, -⟩, -⟩ := h
  obtain rfl : elapsed = seconds := by omega
  exact ⟨delta, bind_ok hrate hdelta⟩

/-- Where an index of the stake gets its growth from. -/
def Earning.source : Earning → ReactorConfig → IndexSource
  | reward, c => .daily c.rayRewardDailyEmission
  | isoRay, c => .annual c.isoRayAprBps

theorem ReactorConfig.advance_moves {c c' : ReactorConfig} {now : Int} (hc : c.WellFormed)
    (h : c.advance now = .ok c') (e : Earning) :
    ∃ seconds : ℕ, now = c.rewardsEmittedUntil + seconds ∧
      (e.source c).Moves c.totalRayDeposited seconds (e.index c) (e.index c') := by
  obtain ⟨seconds, hnow, hadv⟩ := advance_ok h
  have hindex : (e.index c').raw =
      (e.index c).raw + (e.source c).rawGrowth c.totalRayDeposited seconds := by
    cases e with
    | reward => exact hadv.index .reward
    | isoRay => exact hadv.index .isoRay
  refine ⟨seconds, hnow, IndexSource.moves_of_raw ?_ hindex⟩
  obtain ⟨htotal, hemission, hpoints, -⟩ := hc
  by_cases hzero : seconds = 0
  · -- no rate is looked at when no time has passed
    subst hzero
    have hsource : (e.source c).WellFormed := by
      cases e with
      | reward => exact hemission
      | isoRay => exact hpoints
    exact IndexSource.growth_answered hsource htotal (Nat.zero_le _)
  · simp only [advance, bind_eq_ok, elapsedSeconds_eq_ok] at h
    obtain ⟨elapsed, helapsed, h⟩ := h
    obtain rfl : elapsed = seconds := by omega
    rw [if_neg hzero] at h
    simp only [bind_eq_ok] at h
    obtain ⟨daily, hdaily, delta, hdelta, _, -, annual, hannual, isoRay, hisoRay, -⟩ := h
    cases e with
    | reward => exact ⟨delta, bind_ok hdaily hdelta⟩
    | isoRay =>
        -- the growth fits by itself, since it did on top of the index
        have hreach := advanceRateIndex_ok hisoRay
        obtain ⟨g, hg⟩ := advanceRateIndex_within hisoRay (Nat.le_refl _)
          (show Number.zero.raw + _ ≤ isoRay.raw by rw [Number.raw_zero]; omega)
        exact ⟨g, bind_ok hannual hg⟩

/-- **The cost of a split.** Let the seconds `m` and `n`, their sum, the shares and the parameters of an
index be in range, and let there be shares. The index grows, in raw units, by at least as much over the sum
as over the two parts, and by more than that by at most one for the tracker, by at most the whole part of
the daily emission a share and two for the emission and the RAY rewards, and by at most the whole part of
the annual rate and two for isoRAY. No growth is more than the exact rate times the seconds. These are the
growths by which the indices of the ledger are moved on. -/
theorem index_split_bounded :
    (∀ (source : IndexSource) (shares m n : ℕ), source.WellFormed → 0 < shares → shares ≤ maxU64 →
      m + n ≤ maxU64 →
      ∃ first second whole, source.growth shares m = .ok first ∧ source.growth shares n = .ok second ∧
        source.growth shares (m + n) = .ok whole ∧ first.raw + second.raw ≤ whole.raw ∧
        whole.raw ≤ first.raw + second.raw + source.slack shares ∧
        (first.raw : ℚ) / scale ≤ source.rate shares * m ∧
        (second.raw : ℚ) / scale ≤ source.rate shares * n ∧
        (whole.raw : ℚ) / scale ≤ source.rate shares * (m + n)) ∧
    (∀ (t t' : TimeTracker) now, t.advance now = .ok t' → ∃ seconds : ℕ, now = t.lastSeenTs + seconds ∧
      IndexSource.clock.Moves t.totalLpDeposited seconds t.index t'.index) ∧
    (∀ (c c' : GaugeConfig) now, c.advance now = .ok c' → ∃ seconds : ℕ, now = c.lastUpdatedTs + seconds ∧
      (IndexSource.daily c.rayEmissionPerDay).Moves c.totalVotes seconds c.index c'.index) ∧
    (∀ (c c' : ReactorConfig) now, c.WellFormed → c.advance now = .ok c' →
      ∃ seconds : ℕ, now = c.rewardsEmittedUntil + seconds ∧
        (IndexSource.daily c.rayRewardDailyEmission).Moves c.totalRayDeposited seconds c.rayRewardIndex
          c'.rayRewardIndex ∧
        (IndexSource.annual c.isoRayAprBps).Moves c.totalRayDeposited seconds c.isoRayIndex
          c'.isoRayIndex) := by
  refine ⟨fun source shares m n hsource hpos hshares hseconds => ?_, fun t t' now => t.advance_moves,
    fun c c' now => c.advance_moves, fun c c' now hc h => ?_⟩
  · obtain ⟨first, hfirst⟩ := IndexSource.growth_answered hsource hshares
      ((Nat.le_add_right m n).trans hseconds)
    obtain ⟨second, hsecond⟩ := IndexSource.growth_answered hsource hshares
      ((Nat.le_add_left n m).trans hseconds)
    obtain ⟨whole, hwhole⟩ := IndexSource.growth_answered hsource hshares hseconds
    refine ⟨first, second, whole, hfirst, hsecond, hwhole, ?_⟩
    rw [IndexSource.growth_ok hfirst, IndexSource.growth_ok hsecond, IndexSource.growth_ok hwhole]
    have hexact := source.rawGrowth_le_rate hpos (m + n)
    rw [Nat.cast_add] at hexact
    exact ⟨source.rawGrowth_add_le shares m n, source.rawGrowth_le_add_slack shares m n,
      source.rawGrowth_le_rate hpos m, source.rawGrowth_le_rate hpos n, hexact⟩
  · obtain ⟨seconds, hnow, hreward⟩ := c.advance_moves hc h .reward
    obtain ⟨seconds', hnow', hisoRay⟩ := c.advance_moves hc h .isoRay
    obtain rfl : seconds' = seconds := by omega
    exact ⟨seconds', hnow, hreward, hisoRay⟩

/-- The bounds are reached: by three tokens after two seconds and one more, by an emission of two a day for
three votes after two seconds and forty more, and by eleven basis points after 260 seconds and as many
more. The indices of a tracker and of a reactor config with a stake of three move on by such growths. -/
theorem index_split_bounded_reached :
    let t : TimeTracker := ⟨.zero, .zero, .zero, 3, 0⟩
    let stake : ReactorConfig := ⟨3, 2, .zero, 11, .zero, 0⟩
    (∃ first second whole, IndexSource.clock.growth 3 2 = .ok first ∧
      IndexSource.clock.growth 3 1 = .ok second ∧ IndexSource.clock.growth 3 (2 + 1) = .ok whole ∧
      whole.raw = first.raw + second.raw + 1) ∧
    (∃ first second whole, (IndexSource.daily 2).growth 3 2 = .ok first ∧
      (IndexSource.daily 2).growth 3 40 = .ok second ∧
      (IndexSource.daily 2).growth 3 (2 + 40) = .ok whole ∧
      whole.raw = first.raw + second.raw + (2 / 3 + 2)) ∧
    (∃ first second whole, (IndexSource.annual 11).growth 3 260 = .ok first ∧
      (IndexSource.annual 11).growth 3 260 = .ok second ∧
      (IndexSource.annual 11).growth 3 (260 + 260) = .ok whole ∧
      whole.raw = first.raw + second.raw + (11 / 10000 + 2)) ∧
    (∃ t', t.advance 3 = .ok t' ∧ IndexSource.clock.Moves 3 3 t.index t'.index) ∧
    ∃ c', stake.advance 520 = .ok c' ∧
      (IndexSource.daily 2).Moves 3 520 stake.rayRewardIndex c'.rayRewardIndex ∧
      (IndexSource.annual 11).Moves 3 520 stake.isoRayIndex c'.isoRayIndex := by
  intro t stake
  obtain ⟨hsplit, htracker, -, hstake⟩ := index_split_bounded
  obtain ⟨t', ht', -⟩ := Option.map_eq_some_iff.mp (show
    (t.advance 3).toOption.map (·.index.raw) = some scale by decide +kernel)
  obtain ⟨c', hc', -⟩ := Option.map_eq_some_iff.mp (show
    (stake.advance 520).toOption.map (·.isoRayIndex.raw) = some 18138 by decide +kernel)
  rw [toOption_eq_some] at ht' hc'
  have hreached : ∀ (source : IndexSource) (m n : ℕ), source.WellFormed → m + n ≤ maxU64 →
      source.rawGrowth 3 m + source.rawGrowth 3 n + source.slack 3 ≤ source.rawGrowth 3 (m + n) →
      ∃ first second whole, source.growth 3 m = .ok first ∧ source.growth 3 n = .ok second ∧
        source.growth 3 (m + n) = .ok whole ∧
        whole.raw = first.raw + second.raw + source.slack 3 := by
    intro source m n hsource hseconds hge
    obtain ⟨first, second, whole, hfirst, hsecond, hwhole, -, hle, -⟩ :=
      hsplit source 3 m n hsource (by decide) (by decide) hseconds
    refine ⟨first, second, whole, hfirst, hsecond, hwhole, Nat.le_antisymm hle ?_⟩
    rwa [IndexSource.growth_ok hfirst, IndexSource.growth_ok hsecond, IndexSource.growth_ok hwhole]
  have htwo : (IndexSource.daily 2).WellFormed := show 2 ≤ maxU64 by decide
  have heleven : (IndexSource.annual 11).WellFormed := show 11 ≤ maxU16 by decide
  refine ⟨hreached .clock 2 1 trivial (by decide) (by decide +kernel),
    hreached (.daily 2) 2 40 htwo (by decide) (by decide +kernel),
    hreached (.annual 11) 260 260 heleven (by decide) (by decide +kernel), ⟨t', ht', ?_⟩, ⟨c', hc', ?_⟩⟩
  · obtain ⟨seconds, hnow, hmoves⟩ := htracker t t' 3 ht'
    change (3 : ℤ) = (0 : ℕ) + seconds at hnow
    obtain rfl : seconds = 3 := by omega
    exact hmoves
  · obtain ⟨seconds, hnow, hmoves⟩ :=
      hstake stake c' 520 ⟨by decide, by decide, by decide, by decide⟩ hc'
    change (520 : ℤ) = (0 : ℕ) + seconds at hnow
    obtain rfl : seconds = 520 := by omega
    exact hmoves

end EmissionLedger
