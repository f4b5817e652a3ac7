import EmissionLedger.Proofs.Rewarder.Accrual

/-!
All pools at once. One emission serves every pool; a pool's escrow and rewarders stand under the account
of its gauge. Calls on one pool reach the others only through the emission: they move the config on, and
at most change the votes for their own gauge. So what one pool keeps about its records, all of them keep.

Main statement: `accrual_safe`.
-/

namespace EmissionLedger

/-- A call on a pool does to the emission what a call on the emission does, or nothing. -/
theorem PoolBook.emission_of_step {ι κ : Type} [DecidableEq ι] [DecidableEq κ] {pool : ι}
    {book book' : PoolBook ι κ} {call : PoolCall ι κ} (h : book.step pool call = some book') :
    book'.emission = book.emission ∨ ∃ c, book.emission.step c = some book'.emission := by
  rcases step_cases h with ⟨c, e', -, hstep, rfl⟩ | ⟨c, s', -, -, rfl⟩ |
    ⟨now, account, out, -, hlook, -, -, rfl⟩ | ⟨now, account, out, r, -, hlook, -, -, rfl⟩ |
    ⟨account, r, -, -, rfl⟩
  · exact .inr ⟨c, hstep⟩
  · exact .inl rfl
  · exact .inr ⟨_, hlook.emission⟩
  · exact .inr ⟨_, hlook.emission⟩
  · exact .inl rfl

/-- The escrow of a pool and the rewarders of its positions. -/
structure Pool (κ : Type) where
  escrow : EscrowBook κ
  rewarders : Table κ PayingRewarder

/-- The records of the emission and of all pools. -/
structure PoolsBook (ι κ : Type) where
  emission : GaugeBook ι
  pools : Table ι (Pool κ)

/-- A call on the emission, the opening of a pool's escrow, or a call on a pool. -/
inductive PoolsCall (ι κ : Type) where
  | emission (call : GaugeCall ι)
  | initTracker (now : Int) (pool : ι) (poolId escrowAccount : Address)
  | inPool (pool : ι) (call : PoolCall ι κ)

namespace PoolsBook

variable {ι κ : Type}

/-- The records of one pool. -/
def view (book : PoolsBook ι κ) (p : Pool κ) : PoolBook ι κ := ⟨book.emission, p.escrow, p.rewarders⟩

/-- The book before any pool is opened. -/
def start (config : GaugeConfig) : PoolsBook ι κ := ⟨⟨config, ∅⟩, ∅⟩

variable [DecidableEq ι] [DecidableEq κ]

/-- The book after an answered call. -/
def step (book : PoolsBook ι κ) : PoolsCall ι κ → Option (PoolsBook ι κ)
  | .emission call => do
      let emission ← book.emission.step call
      return { book with emission }
  | .initTracker now pool poolId escrowAccount =>
      if pool ∈ book.pools then none
      else do
        let tracker ← (Escrow.initTimeTracker now poolId escrowAccount).toOption
        return { book with pools := book.pools.insert pool ⟨⟨tracker, ∅⟩, ∅⟩ }
  | .inPool pool call => do
      let p ← book.pools.lookup pool
      let after ← (book.view p).step pool call
      return ⟨after.emission, book.pools.insert pool ⟨after.escrow, after.rewarders⟩⟩

/-- What holds in every state that can be reached: the emission is balanced and bounded, and every pool is
sound and linked. -/
structure Orderly (book : PoolsBook ι κ) : Prop where
  balanced : book.emission.Balanced
  bounded : book.emission.Bounded
  sound : ∀ pool p, book.pools.lookup pool = some p → (book.view p).Sound pool
  linked : ∀ pool p, book.pools.lookup pool = some p → (book.view p).Linked pool

variable {book book' : PoolsBook ι κ} {call : PoolsCall ι κ}

section Steps

variable {now : Int} {pool : ι} {poolId escrowAccount : Address}

theorem step_emission {call : GaugeCall ι} : book.step (.emission call) = some book' ↔
    ∃ emission, book.emission.step call = some emission ∧ { book with emission } = book' := by
  simp [step, Option.bind_eq_some_iff]

theorem step_initTracker : book.step (.initTracker now pool poolId escrowAccount) = some book' ↔
    pool ∉ book.pools ∧ ∃ tracker, Escrow.initTimeTracker now poolId escrowAccount = .ok tracker ∧
      { book with pools := book.pools.insert pool ⟨⟨tracker, ∅⟩, ∅⟩ } = book' := by
  simp [step, Option.bind_eq_some_iff]

theorem step_inPool {call : PoolCall ι κ} : book.step (.inPool pool call) = some book' ↔
    ∃ p after, book.pools.lookup pool = some p ∧ (book.view p).step pool call = some after ∧
      ⟨after.emission, book.pools.insert pool ⟨after.escrow, after.rewarders⟩⟩ = book' := by
  simp [step, Option.bind_eq_some_iff]

end Steps

theorem orderly_start {settings : Emission.Settings} {now : Int} {config : GaugeConfig}
    (hinit : Emission.initGaugeConfig settings now = .ok config)
    (hfits : settings.rayEmissionPerDay ≤ maxU64) : (start config : PoolsBook ι κ).Orderly := by
  refine ⟨GaugeBook.balanced_start (Emission.initGaugeConfig_ok hinit).2.1,
    GaugeBook.bounded_start hinit hfits, ?_, ?_⟩
  · intro pool p hp
    cases hp
  · intro pool p hp
    cases hp

/-- All pools keep their records in order while the emission moves on. -/
theorem Orderly.emission_step (ho : book.Orderly) {c : GaugeCall ι} {e' : GaugeBook ι}
    (h : book.emission.step c = some e') : ({ book with emission := e' } : PoolsBook ι κ).Orderly :=
  ⟨ho.balanced.step h, ho.bounded.step h, fun pool p hp => (ho.sound pool p hp).emission_step h,
    fun pool p hp => (ho.linked pool p hp).emission_step h⟩

theorem Orderly.enter (ho : book.Orderly) {pool : ι} {p : Pool κ} (hs : (book.view p).Sound pool)
    (hl : (book.view p).Linked pool) :
    ({ book with pools := book.pools.insert pool p } : PoolsBook ι κ).Orderly :=
  ⟨ho.balanced, ho.bounded, Table.forall_insert ho.sound hs, Table.forall_insert ho.linked hl⟩

theorem Orderly.step (ho : book.Orderly) (h : book.step call = some book') : book'.Orderly := by
  cases call with
  | emission c =>
      obtain ⟨e', hstep, rfl⟩ := step_emission.mp h
      exact ho.emission_step hstep
  | initTracker now pool poolId escrowAccount =>
      obtain ⟨-, tracker, hinit, rfl⟩ := step_initTracker.mp h
      apply ho.enter
      · refine ⟨EscrowBook.balanced_start tracker (Escrow.initTimeTracker_ok hinit), fun account r hr => ?_⟩
        cases hr
      · refine ⟨EscrowBook.bounded_start hinit, fun account r hr => ?_⟩
        cases hr
  | inPool pool call =>
      obtain ⟨p, after, hp, hstep, rfl⟩ := step_inPool.mp h
      have hs := (ho.sound pool p hp).step hstep
      have hl := (ho.linked pool p hp).step (ho.sound pool p hp) hstep
      have hmoved : ({ book with emission := after.emission } : PoolsBook ι κ).Orderly := by
        rcases PoolBook.emission_of_step hstep with hsame | ⟨c, hc⟩
        · rw [hsame]
          exact ho
        · exact ho.emission_step hc
      exact hmoved.enter hs hl

theorem orderly_run {start : PoolsBook ι κ} (ho : start.Orderly) (calls : List (PoolsCall ι κ)) :
    (run step start calls).Orderly :=
  run_invariant (fun _ _ _ ho h => ho.step h) calls ho

/-- **Safe accrual.** After every run of all pools, every rewarder belongs to the owner of its position and
to the gauge of its pool, and at any time from their clocks on that fits 64 bits it is accrued safely. -/
theorem accrual_safe {settings : Emission.Settings} {now : Int} {config : GaugeConfig}
    (hinit : Emission.initGaugeConfig settings now = .ok config)
    (hfits : settings.rayEmissionPerDay ≤ maxU64) (calls : List (PoolsCall ι κ)) :
    let book := run step (start config : PoolsBook ι κ) calls
    ∀ pool p account r, book.pools.lookup pool = some p → p.rewarders.lookup account = some r →
      ∃ gauge position, book.emission.gauges.lookup pool = some gauge ∧
        p.escrow.positions.lookup account = some position ∧ r.Linked p.escrow.tracker gauge position ∧
        ∀ now : ℕ, p.escrow.tracker.lastSeenTs ≤ now → book.emission.config.lastUpdatedTs ≤ now →
          now ≤ maxU64 →
          ∃ escrow, r.AccruesSafely now book.emission.config gauge p.escrow.tracker position escrow := by
  intro book pool p account r hp hr
  have ho : book.Orderly := orderly_run (orderly_start hinit hfits) calls
  obtain ⟨gauge, position, hg, hposition, hlinked⟩ := (ho.linked pool p hp).rewarders account r hr
  obtain ⟨gauge', position', hg', hposition', hsafe⟩ :=
    (ho.linked pool p hp).accruesSafely (ho.sound pool p hp) ho.bounded ho.balanced hr
  obtain rfl : gauge = gauge' := Option.some.inj (hg.symm.trans hg')
  obtain rfl : position = position' := Option.some.inj (hposition.symm.trans hposition')
  exact ⟨gauge, position, hg, hposition, hlinked, hsafe⟩

/-- Two pools share the votes. In the first one another owner deposits and is accrued while the first
owner's rewarder waits for a day. -/
theorem accrual_safe_two_pools :
    let other : Address := ⟨String.ofList (List.replicate 64 '1'), by decide⟩
    let reactor : Reactor := ⟨.zero, 1, 0, 0, .zero, ⟨.zero, 0⟩⟩
    let config : GaugeConfig := ⟨0, 86400, .zero, 0⟩
    let calls : List (PoolsCall ℕ ℕ) :=
      [.emission (.initPool 0 0 .zero), .emission (.initPool 0 1 other), .initTracker 0 0 .zero .zero,
        .initTracker 0 1 other other, .inPool 0 (.escrow (.initPosition 0 0 .zero)),
        .inPool 0 (.escrow (.deposit 0 0 1)), .inPool 0 (.initCp 0 0),
        .emission (.changeVotes 0 0 ⟨.zero, .zero, 0⟩ 1 reactor),
        .emission (.changeVotes 0 1 ⟨.zero, other, 0⟩ 1 reactor),
        .inPool 0 (.escrow (.initPosition 60 1 other)), .inPool 0 (.escrow (.deposit 60 1 1)),
        .inPool 0 (.initCp 60 1), .inPool 0 (.accrueCp 3600 1)]
    Emission.initGaugeConfig ⟨86400⟩ 0 = .ok config ∧ 86400 ≤ maxU64 ∧
      let book := run step (start config : PoolsBook ℕ ℕ) calls
      ∃ p r gauge position escrow, book.pools.lookup 0 = some p ∧ p.rewarders.lookup 0 = some r ∧
        book.emission.gauges.lookup 0 = some gauge ∧ p.escrow.positions.lookup 0 = some position ∧
        p.escrow.tracker.lastSeenTs = 3600 ∧ book.emission.config.lastUpdatedTs = 3600 ∧
        r.state.lastUpdatedTs = 0 ∧
        r.AccruesSafely 86400 book.emission.config gauge p.escrow.tracker position escrow := by
  intro other reactor config calls
  have hinit : Emission.initGaugeConfig ⟨86400⟩ 0 = .ok config := rfl
  have hfits : 86400 ≤ maxU64 := by decide
  refine ⟨hinit, hfits, ?_⟩
  have hfound : ∃ p ∈ (run step (start config : PoolsBook ℕ ℕ) calls).pools.lookup 0,
      ∃ r ∈ p.rewarders.lookup 0, p.escrow.tracker.lastSeenTs = 3600 ∧ r.state.lastUpdatedTs = 0 := by
    decide +kernel
  have hconfig : (run step (start config : PoolsBook ℕ ℕ) calls).emission.config.lastUpdatedTs = 3600 := by
    decide +kernel
  have hsafe := accrual_safe hinit hfits calls
  -- the book is not evaluated again
  generalize run step (start config : PoolsBook ℕ ℕ) calls = book at hfound hconfig hsafe ⊢
  obtain ⟨p, hp, r, hr, htracker, hstate⟩ := hfound
  obtain ⟨gauge, position, hg, hposition, -, hsafe⟩ := hsafe 0 p 0 r hp hr
  obtain ⟨escrow, hsafe⟩ := hsafe 86400 (htracker.trans_le (by decide)) (hconfig.trans_le (by decide)) hfits
  exact ⟨p, r, gauge, position, escrow, hp, hr, hg, hposition, htracker, hconfig, hstate, hsafe⟩

end PoolsBook

end EmissionLedger
