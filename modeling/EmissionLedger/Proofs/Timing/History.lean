import EmissionLedger.Proofs.Run
import EmissionLedger.Proofs.Timing.Ledger

/-!
The history of the ledger. Whatever calls are made, in any order and at any times, the ledger only goes
forward and no account sees more than there is. So of the guards against running backwards only those of
the shared clocks can ever refuse a call, and only for a time before theirs.

Main statements: `attempt_guarded` and `history_honest`.
-/

namespace EmissionLedger.Ledger

variable {κ : Type} [DecidableEq κ] {l l' : Ledger κ} {call : LedgerCall κ}
  {result : Result (Ledger κ)}

/-- An answer leaves the ledger gone forward, and a refusal, as long as no account has seen more than
there is, is no regression but that of a clock that the call moves on. -/
structure Guarded (l : Ledger κ) (call : LedgerCall κ) (result : Result (Ledger κ)) : Prop where
  keeps : ∀ l', result = .ok l' → l.Keeps l'
  late : l.Seen → OnlyLate call.time (l.clocks call) result

theorem guarded_ok (h : l.Keeps l') : l.Guarded call (.ok l') := by
  refine ⟨?_, fun _ => .ok⟩
  rintro _ ⟨⟩
  exact h

theorem guarded_map {α : Type} {x : Result α} {f : α → Ledger κ}
    (hkeeps : ∀ out, x = .ok out → l.Keeps (f out))
    (hlate : l.Seen → OnlyLate call.time (l.clocks call) x) : l.Guarded call (x.map f) := by
  refine ⟨fun l' h => ?_, fun hs => (hlate hs).map⟩
  obtain ⟨out, hout, rfl⟩ := map_eq_ok.mp h
  exact hkeeps out hout

theorem clock_mem {α : Type} {single : Option α} {clock : α → String × Int} {a : α}
    (h : single = some a) : clock a ∈ single.toList.map clock := by
  rw [h]
  exact List.mem_cons_self

theorem Seen.reactor_le (hs : l.Seen) {owner : Address} {r : Reactor} {c : ReactorConfig}
    (hc : l.rewards = some c) (hr : l.reactors.lookup owner = some r) (e : Earning) :
    e.lastSeen r ≤ e.index c := by
  obtain ⟨c', hc', hle⟩ := hs.reactors owner r hr
  cases hc.symm.trans hc'
  exact hle e

theorem Seen.gauge_le (hs : l.Seen) {pool : Address} {g : Gauge} {c : GaugeConfig}
    (hc : l.emission = some c) (hg : l.gauges.lookup pool = some g) :
    g.lastSeenGlobalIndex ≤ c.index := by
  obtain ⟨c', hc', hle⟩ := hs.gauges pool g hg
  cases hc.symm.trans hc'
  exact hle

theorem Seen.position_le (hs : l.Seen) {pool : Address} {account : κ} {p : PersonalPosition}
    {t : TimeTracker} (ht : l.trackers.lookup pool = some t)
    (hp : l.positions.lookup (pool, account) = some p) : p.lastSeenIndex ≤ t.index := by
  obtain ⟨t', ht', hle⟩ := hs.positions (pool, account) p hp
  cases ht.symm.trans ht'
  exact hle

theorem Seen.rewarder (hs : l.Seen) {pool : Address} {account : κ} {c : GaugeConfig} {g : Gauge}
    {t : TimeTracker} {p : PersonalPosition} {r : PersonalRewarderCp} (hc : l.emission = some c)
    (hg : l.gauges.lookup pool = some g) (ht : l.trackers.lookup pool = some t)
    (hp : l.positions.lookup (pool, account) = some p)
    (hr : l.rewarders.lookup (pool, account) = some r) : r.rewarder.Seen c g t p := by
  obtain ⟨c', g', t', p', hc', hg', ht', hp', hseen⟩ := hs.rewarders (pool, account) r hr
  cases hc.symm.trans hc'
  cases hg.symm.trans hg'
  cases ht.symm.trans ht'
  cases hp.symm.trans hp'
  exact hseen

theorem initReactor_guarded {owner : Address} (h : l.attempt (.initReactor owner) = some result) :
    l.Guarded (.initReactor owner) result := by
  obtain ⟨⟨c, hc⟩, -, rfl⟩ := attempt_initReactor.mp h
  refine guarded_ok (keeps_putReactor fun _ => ⟨c, hc, fun e => ?_⟩)
  rw [e.lastSeen_initReactor]
  exact Nat.zero_le _

theorem stake_guarded {now : Int} {owner : Address} {turn : Staking.Turn}
    (h : l.attempt (.stake now owner turn) = some result) :
    l.Guarded (.stake now owner turn) result := by
  obtain ⟨c, r, hc, hr, rfl⟩ := attempt_stake.mp h
  refine guarded_map (fun out hout => ?_) fun hs =>
    turn.perform_onlyLate (hs.reactor_le hc hr) (clock_mem hc)
  obtain ⟨hforward, hseen⟩ := Staking.Turn.perform_progress hout
  exact keeps_putStake hc hforward fun e => (congrArg Number.raw (hseen e)).le

theorem initGauge_guarded {now : Int} {pool : Address}
    (h : l.attempt (.initGauge now pool) = some result) : l.Guarded (.initGauge now pool) result := by
  obtain ⟨c, hc, hnew, rfl⟩ := attempt_initGauge.mp h
  refine guarded_map (fun out hout => ?_) fun _ =>
    Emission.initPoolGauge_onlyLate pool (clock_mem hc)
  obtain ⟨hadvance, hgauge⟩ := Emission.initPoolGauge_ok hout
  obtain ⟨_, -, hadv⟩ := GaugeConfig.advance_ok hadvance
  rw [hgauge]
  refine keeps_putGauge hc hadv.progress_le (fun g hg => ?_) (Nat.le_refl _)
  cases (Finmap.lookup_eq_none.mpr hnew).symm.trans hg

theorem syncGauge_guarded {now : Int} {pool : Address}
    (h : l.attempt (.syncGauge now pool) = some result) : l.Guarded (.syncGauge now pool) result := by
  obtain ⟨c, g, hc, hg, rfl⟩ := attempt_syncGauge.mp h
  refine guarded_map (fun out hout => ?_) fun hs =>
    Emission.syncPoolIndex_onlyLate (hs.gauge_le hc hg) (clock_mem hc)
  obtain ⟨hforward, hemitted, hseen, -⟩ := Emission.syncPoolIndex_progress hout
  exact keeps_settleGauge hc hg hforward hemitted hseen

/-- A change of votes settles the gauge, then enters the votes and the locks; neither is an index. -/
theorem changeVotes_guarded {now amount : Int} {pool staker : Address} {pledge : Address × Address}
    (h : l.attempt (.changeVotes now pool pledge staker amount) = some result) :
    l.Guarded (.changeVotes now pool pledge staker amount) result := by
  obtain ⟨c, g, p, r, hc, hg, -, hr, rfl⟩ := attempt_changeVotes.mp h
  refine guarded_map (fun out hout => ?_) fun hs =>
    Emission.changeVotes_onlyLate p amount r (hs.gauge_le hc hg) (clock_mem hc)
  obtain ⟨hforward, hemitted, hseen, hreactor⟩ := Emission.changeVotes_progress hout
  have hvoted : l.Keeps (l.putGauge pool out.config out.gauge) :=
    keeps_settleGauge hc hg hforward hemitted hseen
  exact (hvoted.trans (keeps_putPledge _ pledge out.personalGauge)).trans (keeps_replace hr hreactor)

theorem initPosition_guarded {now : Int} {pool owner : Address} {account : κ}
    (h : l.attempt (.initPosition now pool account owner) = some result) :
    l.Guarded (.initPosition now pool account owner) result := by
  obtain ⟨t, ht, hnew, rfl⟩ := attempt_initPosition.mp h
  refine guarded_map (fun out hout => ?_) fun _ =>
    Escrow.initPersonalPosition_onlyLate owner (clock_mem ht)
  obtain ⟨hadvance, -, hposition⟩ := Escrow.initPersonalPosition_ok hout
  obtain ⟨_, -, hadv⟩ := TimeTracker.advance_ok hadvance
  rw [hposition]
  refine keeps_putPosition ht hadv.progress_le (fun p hp => ?_) (Nat.le_refl _)
  cases (Finmap.lookup_eq_none.mpr hnew).symm.trans hp

theorem escrow_guarded {now : Int} {pool : Address} {account : κ} {turn : Escrow.Turn}
    (h : l.attempt (.escrow now pool account turn) = some result) :
    l.Guarded (.escrow now pool account turn) result := by
  obtain ⟨t, p, ht, hp, rfl⟩ := attempt_escrow.mp h
  refine guarded_map (fun out hout => ?_) fun hs =>
    turn.perform_onlyLate (hs.position_le ht hp) (clock_mem ht)
  obtain ⟨htracker, hposition, hindex, -⟩ := Escrow.Turn.perform_progress hout
  exact keeps_settlePosition ht hp htracker hposition hindex

theorem initCp_guarded {now : Int} {pool : Address} {account : κ}
    (h : l.attempt (.initCp now pool account) = some result) :
    l.Guarded (.initCp now pool account) result := by
  obtain ⟨c, g, t, p, hc, hg, ht, hp, hnew, rfl⟩ := attempt_initCp.mp h
  exact guarded_map
    (fun out hout => keeps_initCp hc hg ht hp (Finmap.lookup_eq_none.mpr hnew) hout) fun hs =>
      Rewarder.initCp_onlyLate (hs.position_le ht hp) (hs.gauge_le hc hg)
        (List.mem_append_left _ (clock_mem ht)) (List.mem_append_right _ (clock_mem hc))

theorem accrueCp_guarded {now : Int} {pool : Address} {account : κ}
    (h : l.attempt (.accrueCp now pool account) = some result) :
    l.Guarded (.accrueCp now pool account) result := by
  obtain ⟨c, g, t, p, r, hc, hg, ht, hp, hr, rfl⟩ := attempt_accrueCp.mp h
  exact guarded_map (fun out hout => keeps_accrueCp hc hg ht hp hr hout) fun hs =>
    Rewarder.accrueCp_onlyLate (hs.position_le ht hp) (hs.gauge_le hc hg)
      (hs.rewarder hc hg ht hp hr) (List.mem_append_left _ (clock_mem ht))
      (List.mem_append_right _ (clock_mem hc))

theorem collectCp_guarded {pool : Address} {account : κ}
    (h : l.attempt (.collectCp pool account) = some result) :
    l.Guarded (.collectCp pool account) result := by
  obtain ⟨r, hr, rfl⟩ := attempt_collectCp.mp h
  refine guarded_ok (keeps_putRewarder (fun q hq => ?_) fun hs => ?_)
  · cases hr.symm.trans hq
    exact ⟨Nat.le_refl _, Nat.le_refl _, Nat.le_refl _⟩
  · obtain ⟨c, g, t, p, hc, hg, ht, hp, hseen⟩ := hs.rewarders (pool, account) r hr
    exact ⟨c, g, t, p, hc, hg, ht, hp, hseen.tracker, hseen.config, hseen.emitted, hseen.units⟩

/-- What can become of a call. -/
theorem attempt_guarded (h : l.attempt call = some result) : l.Guarded call result := by
  cases call with
  | initRewards settings now =>
      obtain ⟨hnone, rfl⟩ := attempt_initRewards.mp h
      exact guarded_map (fun c _ => keeps_initRewards hnone c)
        fun _ => Staking.initReactorConfig_onlyLate settings
  | initReactor owner => exact initReactor_guarded h
  | stake now owner turn => exact stake_guarded h
  | collect owner =>
      obtain ⟨r, hr, rfl⟩ := attempt_collect.mp h
      exact guarded_ok (keeps_replace hr (Reactor.collectRayRewards_moved r).lastSeen)
  | lock owner amount =>
      obtain ⟨r, hr, rfl⟩ := attempt_lock.mp h
      exact guarded_map (fun r' hr' => keeps_replace hr (Reactor.lockVotes_ok hr').moved.lastSeen)
        fun _ => r.lockVotes_onlyLate amount
  | unlock owner amount =>
      obtain ⟨r, hr, rfl⟩ := attempt_unlock.mp h
      exact guarded_map (fun r' hr' => keeps_replace hr (Reactor.unlockVotes_ok hr').moved.lastSeen)
        fun _ => r.unlockVotes_onlyLate amount
  | initEmission settings now =>
      obtain ⟨hnone, rfl⟩ := attempt_initEmission.mp h
      exact guarded_map (fun c _ => keeps_initEmission hnone c)
        fun _ => Emission.initGaugeConfig_onlyLate settings
  | initGauge now pool => exact initGauge_guarded h
  | syncGauge now pool => exact syncGauge_guarded h
  | initPledge owner pool =>
      obtain ⟨g, -, -, rfl⟩ := attempt_initPledge.mp h
      exact guarded_ok (l.keeps_putPledge _ _)
  | changeVotes now pool pledge staker amount => exact changeVotes_guarded h
  | initTracker now pool escrowAccount =>
      obtain ⟨hnew, rfl⟩ := attempt_initTracker.mp h
      exact guarded_map (fun t _ => keeps_initTracker (Finmap.lookup_eq_none.mpr hnew) t)
        fun _ => Escrow.initTimeTracker_onlyLate pool escrowAccount
  | initPosition now pool account owner => exact initPosition_guarded h
  | escrow now pool account turn => exact escrow_guarded h
  | initCp now pool account => exact initCp_guarded h
  | accrueCp now pool account => exact accrueCp_guarded h
  | collectCp pool account => exact collectCp_guarded h

theorem step_keeps (h : l.step call = some l') : l.Keeps l' :=
  (attempt_guarded (step_eq_some.mp h)).keeps l' rfl

theorem run_keeps (l : Ledger κ) (calls : List (LedgerCall κ)) : l.Keeps (run step l calls) :=
  run_invariant (P := l.Keeps) (fun _ _ _ hk hstep => hk.trans (step_keeps hstep)) calls
    ⟨.refl l, id⟩

/-- **Honest histories.** In every state that a run of calls leaves, no account has seen more than there
is, and in every later state no index, clock or total has gone back. So no call is ever refused because
an index runs backwards, and a call that is refused because a clock does comes before the time of a
tracker, a gauge config or a reactor config that it moves on. -/
theorem history_honest (calls later : List (LedgerCall κ)) :
    let l := run step (empty : Ledger κ) calls
    l.Seen ∧ l.Forward (run step empty (calls ++ later)) ∧
      ∀ call e, l.attempt call = some (.error e) → e.causeKind ≠ .indexRegression ∧
        (e.causeKind = .timestampRegression → ∃ what now last,
          e = .timestampRegression what now last ∧ now < last ∧ call.time = some now ∧
            (what, last) ∈ l.clocks call) := by
  intro l
  have hseen : l.Seen := (run_keeps empty calls).seen seen_empty
  refine ⟨hseen, ?_, fun call e h => ?_⟩
  · rw [run_append]
    exact (run_keeps l later).forward
  · exact ((attempt_guarded h).late hseen e rfl).causeKind

/-- A position is alone in its pool for a day: its rewarder is accrued at the end of it, and then refused
a time before, by the tracker. -/
theorem history_honest_day :
    let calls : List (LedgerCall ℕ) :=
      [.initRewards ⟨0, 0⟩ 0, .initReactor .zero, .stake 0 .zero (.deposit 1), .initEmission ⟨86400⟩ 0,
        .initGauge 0 .zero, .initPledge .zero .zero, .changeVotes 0 .zero (.zero, .zero) .zero 1,
        .initTracker 0 .zero .zero, .initPosition 0 .zero 0 .zero, .escrow 0 .zero 0 (.deposit 1),
        .initCp 0 .zero 0, .accrueCp 86400 .zero 0]
    let late : LedgerCall ℕ := .accrueCp 86399 .zero 0
    let l := run step empty calls
    (l.rewarders.lookup (.zero, 0)).map (·.rewarder.stagedRay) = some 86400 ∧ l.Seen ∧
      l.Forward (run step empty (calls ++ [.syncGauge 172800 .zero])) ∧
      ∃ e, l.attempt late = some (.error e) ∧
        e.message = "cannot update time tracker with older timestamp: now=86399 < last=86400" ∧
        ∃ what now last, e = .timestampRegression what now last ∧ now < last ∧ late.time = some now ∧
          (what, last) ∈ l.clocks late := by
  intro calls late l
  have hstaged : (l.rewarders.lookup (.zero, 0)).map (·.rewarder.stagedRay) = some 86400 := by
    decide +kernel
  obtain ⟨e, he, hshown⟩ := Option.map_eq_some_iff.mp (show
    ((l.attempt late).bind fault?).map (fun e => (e.causeKind, e.message)) =
      some (.timestampRegression,
        "cannot update time tracker with older timestamp: now=86399 < last=86400") by decide +kernel)
  obtain ⟨hkind, hmessage⟩ := Prod.mk.inj hshown
  obtain ⟨hseen, hforward, hlate⟩ := history_honest calls [.syncGauge 172800 .zero]
  obtain ⟨result, hresult, hfault⟩ := Option.bind_eq_some_iff.mp he
  rw [fault?_eq_some.mp hfault] at hresult
  exact ⟨hstaged, hseen, hforward, e, hresult, hmessage, (hlate late e hresult).2 hkind⟩

end EmissionLedger.Ledger
