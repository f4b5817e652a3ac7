import EmissionLedger.Proofs.Timing.Guards

/-!
What an operation does not take back. Indices and clocks, the time units of a position, the RAY of a gauge
and what a rewarder has seen only grow, and an account that an operation settles has seen the index that
the operation returns. Where several quantities of a record are compared, each is.
-/

namespace EmissionLedger

/-! ### What does not go back -/

/-- The index and the clock of a tracker. -/
def TimeTracker.progress (t : TimeTracker) : ℕ × ℕ := (t.index.raw, t.lastSeenTs)

/-- The index and the clock of a gauge config. -/
def GaugeConfig.progress (c : GaugeConfig) : ℕ × ℕ := (c.index.raw, c.lastUpdatedTs)

/-- The indices and the clock of a reactor config. -/
def ReactorConfig.progress (c : ReactorConfig) : ℕ × ℕ × ℕ :=
  (c.rayRewardIndex.raw, c.isoRayIndex.raw, c.rewardsEmittedUntil)

/-- The time units that a position has earned. -/
def PersonalPosition.progress (p : PersonalPosition) : ℕ := p.earnedTimeUnits.raw

/-- What a rewarder has seen, and when. -/
def PersonalRewarderCp.progress (r : PersonalRewarderCp) : ℕ × ℕ × ℕ :=
  (r.rewarder.lastSeenTimeUnits.raw, r.rewarder.lastSeenTotalEmittedRay, r.rewarder.lastUpdatedTs)

theorem TimeTracker.Advanced.progress_le {t t' : TimeTracker} {elapsed : ℕ} (h : t.Advanced t' elapsed) :
    t.progress ≤ t'.progress :=
  ⟨h.index_le, Nat.le.intro h.ts.symm⟩

theorem GaugeConfig.Advanced.progress_le {c c' : GaugeConfig} {elapsed : ℕ} (h : c.Advanced c' elapsed) :
    c.progress ≤ c'.progress :=
  ⟨h.index_le, Nat.le.intro h.ts.symm⟩

theorem ReactorConfig.Advanced.progress_le {c c' : ReactorConfig} {elapsed : ℕ}
    (h : c.Advanced c' elapsed) : c.progress ≤ c'.progress :=
  ⟨h.index_le .reward, h.index_le .isoRay, Nat.le.intro h.ts.symm⟩

theorem ReactorConfig.index_le_of_progress {c c' : ReactorConfig} (h : c.progress ≤ c'.progress)
    (e : Earning) : e.index c ≤ e.index c' := by
  cases e with
  | reward => exact h.1
  | isoRay => exact h.2.1

/-- A rewarder that has seen no more than there is has seen no more than there is later. -/
theorem PersonalRewarderState.Seen.forward {state : PersonalRewarderState} {c c' : GaugeConfig}
    {g g' : Gauge} {t t' : TimeTracker} {p p' : PersonalPosition} (h : state.Seen c g t p)
    (hc : c.progress ≤ c'.progress) (hg : g.totalRayEmitted ≤ g'.totalRayEmitted)
    (ht : t.progress ≤ t'.progress) (hp : p.progress ≤ p'.progress) : state.Seen c' g' t' p' :=
  ⟨h.tracker.trans ht.2, h.config.trans hc.2, h.emitted.trans hg, Nat.le_trans h.units hp⟩

/-- Every record that is found is found later, and a quantity of it is no less then. -/
def Grows {κ α β : Type} [LE β] (quantity : α → β) (find later : κ → Option α) : Prop :=
  ∀ k a, find k = some a → ∃ a', later k = some a' ∧ quantity a ≤ quantity a'

namespace Grows

variable {κ α β : Type} [Preorder β] {quantity : α → β} {find later latest : κ → Option α}

theorem refl : Grows quantity find find := fun _ a h => ⟨a, h, le_refl _⟩

theorem trans (h : Grows quantity find later) (h' : Grows quantity later latest) :
    Grows quantity find latest := by
  intro k a ha
  obtain ⟨a', ha', hle⟩ := h k a ha
  obtain ⟨a'', ha'', hle'⟩ := h' k a' ha'
  exact ⟨a'', ha'', hle.trans hle'⟩

/-- A record that is put in the place of one that is no more leaves the others. -/
theorem insert [DecidableEq κ] {table : Table κ α} {k : κ} {a : α}
    (h : ∀ old, table.lookup k = some old → quantity old ≤ quantity a) :
    Grows quantity table.lookup (Finmap.insert k a table).lookup :=
  fun _ _ hx => Table.lookup_insert_related (R := fun a b => quantity a ≤ quantity b) (le_refl _) h hx

theorem put {single : Option α} {a : α} (h : ∀ old ∈ single, quantity old ≤ quantity a) :
    Grows quantity (fun _ : Unit => single) fun _ => some a :=
  fun _ old hold => ⟨a, rfl, h old hold⟩

end Grows

/-! ### What the operations do to it -/

theorem Escrow.Turn.perform_progress {turn : Turn} {now : Int} {t : TimeTracker} {p : PersonalPosition}
    {out : Outcome} (h : turn.perform now t p = .ok out) :
    t.progress ≤ out.timeTracker.progress ∧ p.progress ≤ out.position.progress ∧
      out.position.lastSeenIndex = out.timeTracker.index ∧ (out.timeTracker.lastSeenTs : Int) = now := by
  obtain ⟨⟨⟨t', p', hsync, ht, hp⟩, -, -⟩, -⟩ := Turn.perform_ok h
  obtain ⟨⟨elapsed, hnow, hadv⟩, hset⟩ := sync_ok hsync
  rw [ht, hp]
  refine ⟨hadv.progress_le, Nat.le.intro hset.earned.symm, hset.lastSeen, ?_⟩
  have hts := hadv.ts
  dsimp only
  omega

theorem Emission.syncPoolIndex_progress {now : Int} {config : GaugeConfig} {gauge : Gauge} {out : Synced}
    (h : syncPoolIndex now config gauge = .ok out) :
    config.progress ≤ out.config.progress ∧ gauge.totalRayEmitted ≤ out.gauge.totalRayEmitted ∧
      out.gauge.lastSeenGlobalIndex = out.config.index ∧ (out.config.lastUpdatedTs : Int) = now := by
  obtain ⟨⟨elapsed, hnow, hadv⟩, hset⟩ := syncPoolIndex_ok h
  refine ⟨hadv.progress_le, Nat.le.intro hset.emitted.symm, hset.lastSeen, ?_⟩
  have hts := hadv.ts
  omega

theorem Emission.changeVotes_progress {now amount : Int} {config : GaugeConfig} {gauge : Gauge}
    {personal : PersonalGauge} {reactor : Reactor} {out : VoteChange}
    (h : changeVotes now config gauge personal amount reactor = .ok out) :
    config.progress ≤ out.config.progress ∧ gauge.totalRayEmitted ≤ out.gauge.totalRayEmitted ∧
      out.gauge.lastSeenGlobalIndex = out.config.index ∧
      ∀ e : Earning, e.lastSeen out.reactor = e.lastSeen reactor := by
  have hvoted := changeVotes_ok h
  obtain ⟨synced, hsynced, hconfig, hgauge⟩ := hvoted.synced
  obtain ⟨hforward, hemitted, hseen, -⟩ := syncPoolIndex_progress hsynced
  rw [hconfig, hgauge]
  exact ⟨hforward, hemitted, hseen, (moveLock_ok hvoted.lock).moved.lastSeen⟩

theorem Staking.Turn.Leaves.lastSeen {r : Reactor} {turn : Turn} {r' : Served Reactor (ℕ × ℕ)}
    (h : turn.Leaves r r') (e : Earning) : e.lastSeen r'.record = e.lastSeen r := by
  cases h <;> cases e <;> rfl

theorem Staking.Turn.perform_progress {turn : Turn} {now : Int} {config : ReactorConfig} {r : Reactor}
    {out : Outcome} (h : turn.perform now config r = .ok out) :
    config.progress ≤ out.config.progress ∧ ∀ e : Earning, e.lastSeen out.reactor = e.index out.config := by
  obtain ⟨config', settled, hsettle, hleaves, hconfig, -⟩ := Turn.perform_ok h
  obtain ⟨hadvance, hset⟩ := settleAt_ok hsettle
  obtain ⟨elapsed, -, hadv⟩ := ReactorConfig.advance_ok hadvance
  rw [hconfig]
  refine ⟨hadv.progress_le, fun e => ?_⟩
  rw [e.index_total, ← hset.lastSeen e]
  exact hleaves.lastSeen e

/-- A look leaves the rewarder no less than it was, and it has seen what it had or all that there is. -/
theorem PersonalRewarderState.syncAndStage_progress {state : PersonalRewarderState} {now : Int}
    {emitted : ℕ} {units : Number} {out : Staged} (h : state.syncAndStage now emitted units = .ok out) :
    state.lastSeenTimeUnits ≤ out.state.lastSeenTimeUnits ∧
      state.lastSeenTotalEmittedRay ≤ out.state.lastSeenTotalEmittedRay ∧
      state.lastUpdatedTs ≤ out.state.lastUpdatedTs ∧
      (out.state = state ∨ out.state.lastSeenTimeUnits = units ∧
        out.state.lastSeenTotalEmittedRay = emitted ∧ (out.state.lastUpdatedTs : Int) = now) := by
  obtain ⟨hray, hunits, seconds, hnow, ⟨-, hsame, -⟩ | ⟨-, -, hnew⟩⟩ := syncAndStage_ok h
  · rw [hsame]
    exact ⟨Nat.le_refl _, Nat.le_refl _, Nat.le_refl _, .inl rfl⟩
  · rw [hnew]
    exact ⟨hunits, hray, Nat.le_add_right _ _, .inr ⟨rfl, rfl, by rw [hnow, Nat.cast_add]⟩⟩

end EmissionLedger
