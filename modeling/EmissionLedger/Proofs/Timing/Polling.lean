import EmissionLedger.Proofs.Timing.Absorption
import EmissionLedger.Proofs.Timing.Stretch

/-!
Synchronizing more often never pays more. One synchronization can be made in two steps with no more as a
result (`Splits`), so an account that is settled at any times in between ends with no more either, and
none of the synchronizations is refused.

Main statement: `polling_pays_no_more`.
-/

namespace EmissionLedger

section Poll

variable {σ : Type}

/-- The records after a synchronization at each of the times, one after another. -/
def poll (sync : Int → σ → Result σ) (s : σ) (times : List Int) : Result σ :=
  times.foldlM (fun s time => sync time s) s

/-- A synchronization that can be made in two steps, with no more as a result. -/
structure Splits (sync : Int → σ → Result σ) (clock : σ → ℕ) (Seen : σ → Prop)
    (AtMost : σ → σ → Prop) : Prop where
  refl : ∀ s, AtMost s s
  trans : ∀ {a b c}, AtMost a b → AtMost b c → AtMost a c
  split : ∀ {s direct now between}, Seen s → sync now s = .ok direct → (clock s : Int) ≤ between →
    between ≤ now → ∃ first second, sync between s = .ok first ∧ sync now first = .ok second ∧
      AtMost second direct ∧ Seen first ∧ (clock first : Int) = between

variable {sync : Int → σ → Result σ} {clock : σ → ℕ} {Seen : σ → Prop} {AtMost : σ → σ → Prop}

/-- What one synchronization gives is not exceeded by any number of them. -/
theorem Splits.poll (h : Splits sync clock Seen AtMost) {s direct : σ} {now : Int} {times : List Int}
    (hseen : Seen s) (hsorted : ((clock s : Int) :: (times ++ [now])).Pairwise (· ≤ ·))
    (hdirect : sync now s = .ok direct) :
    ∃ polled, EmissionLedger.poll sync s (times ++ [now]) = .ok polled ∧ AtMost polled direct := by
  induction times generalizing s direct with
  | nil =>
      refine ⟨direct, ?_, h.refl direct⟩
      exact bind_ok hdirect rfl
  | cons time rest ih =>
      rw [List.cons_append, List.pairwise_cons] at hsorted
      obtain ⟨hclock, hrest⟩ := hsorted
      have hfirst : (clock s : Int) ≤ time := hclock time List.mem_cons_self
      have hnow : time ≤ now :=
        (List.pairwise_cons.mp hrest).1 now (List.mem_append_right _ List.mem_cons_self)
      obtain ⟨first, second, hsync, hsecond, hatMost, hseen', hclock'⟩ :=
        h.split hseen hdirect hfirst hnow
      rw [← hclock'] at hrest
      obtain ⟨polled, hpolled, hle⟩ := ih hseen' hrest hsecond
      exact ⟨polled, bind_ok hsync hpolled, h.trans hle hatMost⟩

end Poll

namespace Escrow

/-- The records after an update of the position. -/
def updated (now : Int) (s : TimeTracker × PersonalPosition) : Result (TimeTracker × PersonalPosition) := do
  let out ← updatePersonal now s.1 s.2
  return (out.timeTracker, out.position)

/-- The same clock and balances, with no more time units. -/
structure AtMost (a b : TimeTracker × PersonalPosition) : Prop where
  tracker : a.1 = { b.1 with index := a.1.index }
  position : a.2 = { b.2 with
    lastSeenIndex := a.2.lastSeenIndex, earnedTimeUnits := a.2.earnedTimeUnits }
  index : a.1.index ≤ b.1.index
  earned : a.2.earnedTimeUnits ≤ b.2.earnedTimeUnits

theorem AtMost.trans {a b c : TimeTracker × PersonalPosition} (h : AtMost a b) (h' : AtMost b c) :
    AtMost a c := by
  refine ⟨?_, ?_, Nat.le_trans h.index h'.index, Nat.le_trans h.earned h'.earned⟩
  · rw [h.tracker, h'.tracker]
  · rw [h.position, h'.position]

theorem updated_eq_ok {now : Int} {s s' : TimeTracker × PersonalPosition} :
    updated now s = .ok s' ↔ s.1.advance now = .ok s'.1 ∧ s.2.settle s'.1 = .ok s'.2 := by
  constructor
  · intro h
    simp only [updated, bind_eq_ok, pure_eq_ok] at h
    obtain ⟨out, hout, rfl⟩ := h
    exact sync_eq_ok.mp (updatePersonal_sync hout)
  · rintro ⟨hadvance, hsettle⟩
    have hupdate : updatePersonal now s.1 s.2 = .ok ⟨s'.1, s'.2, 0⟩ :=
      bind_ok (sync_eq_ok.mpr ⟨hadvance, hsettle⟩) rfl
    exact bind_ok hupdate rfl

theorem AtMost.of_engine {a b : TimeTracker × PersonalPosition} (h : engine.AtMost a.1 a.2 b.1 b.2) :
    AtMost a b := by
  obtain ⟨⟨pool, account, index, total, ts⟩, ⟨owner, tracker, amount, seen, earned⟩⟩ := a
  obtain ⟨⟨pool', account', index', total', ts'⟩, ⟨owner', tracker', amount', seen', earned'⟩⟩ := b
  obtain ⟨hclock, hterms, hindex, hholding, hearned⟩ := h
  cases hclock
  cases hterms
  cases hholding
  exact ⟨rfl, rfl, hindex (), hearned ()⟩

theorem updated_splits : Splits updated (fun s => s.1.lastSeenTs) (fun s => s.2.lastSeenIndex ≤ s.1.index)
    AtMost := by
  refine ⟨fun s => ⟨rfl, rfl, Nat.le_refl _, Nat.le_refl _⟩, AtMost.trans, ?_⟩
  intro ⟨t, p⟩ ⟨d, q⟩ now between hseen h hclock hnow
  obtain ⟨hadvance, hsettle⟩ := updated_eq_ok.mp h
  obtain ⟨t₁, p₁, t₂, p₂, hfirst, hsecond, ⟨hset, -, hbetween⟩, hatMost⟩ :=
    engine_roundsDown.split hadvance hsettle (fun _ => hseen) hclock hnow
  exact ⟨(t₁, p₁), (t₂, p₂), updated_eq_ok.mpr hfirst, updated_eq_ok.mpr hsecond, .of_engine hatMost,
    (congrArg Number.raw (hset.lastSeen ())).le, hbetween⟩

end Escrow

namespace Emission

/-- The records after a synchronization of the gauge. -/
def synchronized (now : Int) (s : GaugeConfig × Gauge) : Result (GaugeConfig × Gauge) := do
  let out ← syncPoolIndex now s.1 s.2
  return (out.config, out.gauge)

/-- The same clock and votes, with no more RAY. -/
structure AtMost (a b : GaugeConfig × Gauge) : Prop where
  config : a.1 = { b.1 with index := a.1.index }
  gauge : a.2 = { b.2 with
    lastSeenGlobalIndex := a.2.lastSeenGlobalIndex, totalRayEmitted := a.2.totalRayEmitted }
  index : a.1.index ≤ b.1.index
  emitted : a.2.totalRayEmitted ≤ b.2.totalRayEmitted

theorem AtMost.trans {a b c : GaugeConfig × Gauge} (h : AtMost a b) (h' : AtMost b c) : AtMost a c := by
  refine ⟨?_, ?_, Nat.le_trans h.index h'.index, Nat.le_trans h.emitted h'.emitted⟩
  · rw [h.config, h'.config]
  · rw [h.gauge, h'.gauge]

theorem synchronized_eq_ok {now : Int} {s s' : GaugeConfig × Gauge} :
    synchronized now s = .ok s' ↔ s.1.advance now = .ok s'.1 ∧ s.2.settle s'.1.index = .ok s'.2 := by
  constructor
  · intro h
    simp only [synchronized, bind_eq_ok, pure_eq_ok] at h
    obtain ⟨out, hout, rfl⟩ := h
    exact syncPoolIndex_eq_ok.mp hout
  · rintro ⟨hadvance, hsettle⟩
    have hsync : syncPoolIndex now s.1 s.2 = .ok ⟨s'.1, s'.2⟩ :=
      syncPoolIndex_eq_ok.mpr ⟨hadvance, hsettle⟩
    exact bind_ok hsync rfl

theorem AtMost.of_engine {a b : GaugeConfig × Gauge} (h : engine.AtMost a.1 a.2 b.1 b.2) : AtMost a b := by
  obtain ⟨⟨votes, emission, index, ts⟩, ⟨pool, share, seen, emitted⟩⟩ := a
  obtain ⟨⟨votes', emission', index', ts'⟩, ⟨pool', share', seen', emitted'⟩⟩ := b
  obtain ⟨hclock, hterms, hindex, hholding, hearned⟩ := h
  cases hclock
  cases hterms
  cases hholding
  exact ⟨rfl, rfl, hindex (), hearned ()⟩

theorem synchronized_splits : Splits synchronized (fun s => s.1.lastUpdatedTs)
    (fun s => s.2.lastSeenGlobalIndex ≤ s.1.index) AtMost := by
  refine ⟨fun s => ⟨rfl, rfl, Nat.le_refl _, Nat.le_refl _⟩, AtMost.trans, ?_⟩
  intro ⟨c, g⟩ ⟨d, q⟩ now between hseen h hclock hnow
  obtain ⟨hadvance, hsettle⟩ := synchronized_eq_ok.mp h
  obtain ⟨c₁, g₁, c₂, g₂, hfirst, hsecond, ⟨hset, -, hbetween⟩, hatMost⟩ :=
    engine_roundsDown.split hadvance hsettle (fun _ => hseen) hclock hnow
  exact ⟨(c₁, g₁), (c₂, g₂), synchronized_eq_ok.mpr hfirst, synchronized_eq_ok.mpr hsecond,
    .of_engine hatMost, (congrArg Number.raw (hset.lastSeen ())).le, hbetween⟩

end Emission

namespace Staking

/-- The records after a synchronization of the reactor. -/
def synchronized (now : Int) (s : ReactorConfig × Reactor) : Result (ReactorConfig × Reactor) := do
  let out ← syncReactor now s.1 s.2
  return (out.config, out.reactor)

/-- The same clock, stake and locks, with no more isoRAY and RAY rewards. -/
structure AtMost (a b : ReactorConfig × Reactor) : Prop where
  config : a.1 = { b.1 with rayRewardIndex := a.1.rayRewardIndex, isoRayIndex := a.1.isoRayIndex }
  reactor : a.2 = { b.2 with
    isoRay := a.2.isoRay, lastSeenIndexIsoRay := a.2.lastSeenIndexIsoRay
    rayStakeRewards := a.2.rayStakeRewards }
  index : ∀ e : Earning, e.index a.1 ≤ e.index b.1
  units : ∀ e : Earning, e.units a.2 ≤ e.units b.2

theorem AtMost.trans {a b c : ReactorConfig × Reactor} (h : AtMost a b) (h' : AtMost b c) :
    AtMost a c := by
  refine ⟨?_, ?_, fun e => Nat.le_trans (h.index e) (h'.index e),
    fun e => Nat.le_trans (h.units e) (h'.units e)⟩
  · rw [h.config, h'.config]
  · rw [h.reactor, h'.reactor]

theorem synchronized_eq_ok {now : Int} {s s' : ReactorConfig × Reactor} :
    synchronized now s = .ok s' ↔ s.1.advance now = .ok s'.1 ∧ s.2.settle s'.1 = .ok s'.2 ∧
      s'.2.ray ≤ maxU64 ∧ s'.1.totalRayDeposited ≤ maxU64 := by
  constructor
  · intro h
    simp only [synchronized, bind_eq_ok, pure_eq_ok] at h
    obtain ⟨out, hout, rfl⟩ := h
    have hsettle := syncReactor_settleAt hout
    simp only [syncReactor, depositRay, bind_eq_ok, hsettle, Except.ok.injEq] at hout
    obtain ⟨n, -, _, rfl, ray, hray, total, htotal, -⟩ := hout
    rw [Counter.add_eq_ok] at hray htotal
    obtain ⟨hadvance, hsettle'⟩ := settleAt_eq_ok.mp hsettle
    exact ⟨hadvance, hsettle', by omega, by omega⟩
  · rintro ⟨hadvance, hsettle, hray, htotal⟩
    have hnone : requireU64 "amount" 0 = .ok 0 := requireU64_eq_ok.mpr ⟨Nat.zero_le _, rfl⟩
    have hsync : syncReactor now s.1 s.2 = .ok ⟨s'.1, s'.2, 0, 0⟩ := by
      apply bind_ok hnone
      apply bind_ok (settleAt_eq_ok.mpr ⟨hadvance, hsettle⟩)
      apply bind_ok (Counter.add_eq_ok.mpr ⟨hray, rfl⟩)
      exact bind_ok (Counter.add_eq_ok.mpr ⟨htotal, rfl⟩) rfl
    exact bind_ok hsync rfl

theorem AtMost.of_engine {a b : ReactorConfig × Reactor} (h : engine.AtMost a.1 a.2 b.1 b.2) :
    AtMost a b := by
  obtain ⟨⟨total, emission, reward, points, isoRay, ts⟩, ⟨owner, ray, units, locked, seen, rewards⟩⟩ := a
  obtain ⟨⟨total', emission', reward', points', isoRay', ts'⟩,
    ⟨owner', ray', units', locked', seen', rewards'⟩⟩ := b
  obtain ⟨hclock, hterms, hindex, hholding, hearned⟩ := h
  cases hclock
  cases hterms
  cases hholding
  exact ⟨rfl, rfl, hindex, hearned⟩

theorem synchronized_splits : Splits synchronized (fun s => s.1.rewardsEmittedUntil)
    (fun s => ∀ e : Earning, e.lastSeen s.2 ≤ e.index s.1) AtMost := by
  refine ⟨fun s => ⟨rfl, rfl, fun _ => Nat.le_refl _, fun _ => Nat.le_refl _⟩, AtMost.trans, ?_⟩
  intro ⟨c, r⟩ ⟨d, q⟩ now between hseen h hclock hnow
  obtain ⟨hadvance, hsettle, hray, htotal⟩ := synchronized_eq_ok.mp h
  obtain ⟨c₁, r₁, c₂, r₂, ⟨hc₁, hr₁⟩, ⟨hc₂, hr₂⟩, ⟨hset, hterms, hbetween⟩, hatMost⟩ :=
    engine_roundsDown.split hadvance hsettle hseen hclock hnow
  -- a synchronization also checks that the stake, which stays as it is, fits its counters
  have hray₂ : r₂.ray = q.ray := congrArg (·.ray) hatMost.holding
  have hray₁ : r₂.ray = r₁.ray := (Reactor.settle_ok hr₂).ray
  have htotal₁ : c₁.totalRayDeposited = d.totalRayDeposited := congrArg (·.totalRayDeposited) hterms
  have htotal₂ : c₂.totalRayDeposited = d.totalRayDeposited := congrArg (·.totalRayDeposited) hatMost.terms
  exact ⟨(c₁, r₁), (c₂, r₂),
    synchronized_eq_ok.mpr ⟨hc₁, hr₁, (hray₁.symm.trans hray₂).trans_le hray, htotal₁.trans_le htotal⟩,
    synchronized_eq_ok.mpr ⟨hc₂, hr₂, hray₂.trans_le hray, htotal₂.trans_le htotal⟩,
    .of_engine hatMost, fun e => (congrArg Number.raw (hset.lastSeen e)).le, hbetween⟩

end Staking

/-- **Polling.** Let an account have seen no more than the index it earns by. If a synchronization at
`now` is answered, then synchronizations at any times in between, one after another, and then at `now`
are answered too, and they end at the same clock, with the same balances, votes and locks, and with
indices and earnings that are no higher. -/
theorem polling_pays_no_more (now : Int) (times : List Int) :
    (∀ t p direct, p.lastSeenIndex ≤ t.index →
      ((t.lastSeenTs : Int) :: (times ++ [now])).Pairwise (· ≤ ·) →
      Escrow.updated now (t, p) = .ok direct →
      ∃ polled, poll Escrow.updated (t, p) (times ++ [now]) = .ok polled ∧
        Escrow.AtMost polled direct) ∧
    (∀ config gauge direct, gauge.lastSeenGlobalIndex ≤ config.index →
      ((config.lastUpdatedTs : Int) :: (times ++ [now])).Pairwise (· ≤ ·) →
      Emission.synchronized now (config, gauge) = .ok direct →
      ∃ polled, poll Emission.synchronized (config, gauge) (times ++ [now]) = .ok polled ∧
        Emission.AtMost polled direct) ∧
    (∀ config r direct, r.lastSeenIndexIsoRay ≤ config.isoRayIndex →
      r.rayStakeRewards.lastSeenIndex ≤ config.rayRewardIndex →
      ((config.rewardsEmittedUntil : Int) :: (times ++ [now])).Pairwise (· ≤ ·) →
      Staking.synchronized now (config, r) = .ok direct →
      ∃ polled, poll Staking.synchronized (config, r) (times ++ [now]) = .ok polled ∧
        Staking.AtMost polled direct) := by
  refine ⟨fun t p direct hseen hsorted hdirect => ?_, fun config gauge direct hseen hsorted hdirect => ?_,
    fun config r direct hisoRay hreward hsorted hdirect => ?_⟩
  · exact Escrow.updated_splits.poll hseen hsorted hdirect
  · exact Emission.synchronized_splits.poll hseen hsorted hdirect
  · have hseen : ∀ e : Earning, e.lastSeen r ≤ e.index config := by
      intro e
      cases e with
      | reward => exact hreward
      | isoRay => exact hisoRay
    exact Staking.synchronized_splits.poll hseen hsorted hdirect

/-- At one RAY a day, a gauge that is synchronized at noon and at midnight gets nothing for a day in which
it would have got one RAY. -/
theorem polling_pays_no_more_noon :
    let t : TimeTracker := ⟨.zero, .zero, .zero, 3, 0⟩
    let p : PersonalPosition := ⟨.zero, .zero, 1, .zero, .zero⟩
    let config : GaugeConfig := ⟨1, 1, .zero, 0⟩
    let gauge : Gauge := ⟨.zero, 1, .zero, 0⟩
    let stake : ReactorConfig := ⟨1, 1, .zero, 10000, .zero, 0⟩
    let r : Reactor := ⟨.zero, 1, 0, 0, .zero, ⟨.zero, 0⟩⟩
    Number.zero ≤ Number.zero ∧ ((0 : Int) :: ([43200] ++ [86400])).Pairwise (· ≤ ·) ∧
    (∃ direct polled, Escrow.updated 86400 (t, p) = .ok direct ∧
      poll Escrow.updated (t, p) ([43200] ++ [86400]) = .ok polled ∧ Escrow.AtMost polled direct) ∧
    (∃ direct polled, Emission.synchronized 86400 (config, gauge) = .ok direct ∧
      poll Emission.synchronized (config, gauge) ([43200] ++ [86400]) = .ok polled ∧
      Emission.AtMost polled direct ∧ direct.2.totalRayEmitted = 1 ∧ polled.2.totalRayEmitted = 0) ∧
    (∃ direct polled, Staking.synchronized 86400 (stake, r) = .ok direct ∧
      poll Staking.synchronized (stake, r) ([43200] ++ [86400]) = .ok polled ∧ Staking.AtMost polled direct) := by
  intro t p config gauge stake r
  have hseen : Number.zero ≤ Number.zero := Nat.le_refl _
  have hsorted : ((0 : Int) :: ([43200] ++ [86400])).Pairwise (· ≤ ·) := by decide
  obtain ⟨hescrow, hemission, hstake⟩ := polling_pays_no_more 86400 [43200]
  obtain ⟨a, ha, -⟩ := Option.map_eq_some_iff.mp (show
    (Escrow.updated 86400 (t, p)).toOption.map (·.1.lastSeenTs) = some 86400 by decide +kernel)
  obtain ⟨b, hb, hdirect⟩ := Option.map_eq_some_iff.mp (show
    (Emission.synchronized 86400 (config, gauge)).toOption.map (·.2.totalRayEmitted) = some 1 by
      decide +kernel)
  obtain ⟨b', hb', hpolled⟩ := Option.map_eq_some_iff.mp (show
    (poll Emission.synchronized (config, gauge) ([43200] ++ [86400])).toOption.map (·.2.totalRayEmitted) =
      some 0 by decide +kernel)
  obtain ⟨c, hc, -⟩ := Option.map_eq_some_iff.mp (show
    (Staking.synchronized 86400 (stake, r)).toOption.map (·.1.rewardsEmittedUntil) = some 86400 by
      decide +kernel)
  rw [toOption_eq_some] at ha hb hb' hc
  obtain ⟨a', ha', hle⟩ := hescrow t p a hseen hsorted ha
  obtain ⟨b'', hb'', hle'⟩ := hemission config gauge b hseen hsorted hb
  obtain ⟨c', hc', hle''⟩ := hstake stake r c hseen hseen hsorted hc
  cases hb'.symm.trans hb''
  exact ⟨hseen, hsorted, ⟨a, a', ha, ha', hle⟩, ⟨b, b', hb, hb', hle', hdirect, hpolled⟩,
    ⟨c, c', hc, hc', hle''⟩⟩

end EmissionLedger
