import EmissionLedger.Emission
import EmissionLedger.Proofs.Accrual.Faults
import EmissionLedger.Proofs.Run
import EmissionLedger.Proofs.Table

/-!
The book of the emission: the config and the gauges of all pools, as they were committed last. Gauges
are told apart by their accounts, and an account is opened once. A change of votes also reads an
owner's votes for the pool and the owner's reactor; here they may be any, which only allows more runs.

Main statement: an answered call moves the config on and then either opens an empty gauge or settles
one gauge and changes its votes and the total by the same number (`step_cases`).
-/

namespace EmissionLedger

/-! ### What the operations return -/

/-- The config `c'` is `c` moved on by some seconds. -/
structure GaugeConfig.Advanced (c c' : GaugeConfig) (elapsed : ℕ) : Prop where
  votes : c'.totalVotes = c.totalVotes
  emission : c'.rayEmissionPerDay = c.rayEmissionPerDay
  ts : c'.lastUpdatedTs = c.lastUpdatedTs + elapsed
  index : c'.index.raw = c.index.raw + dailyWorth c.rayEmissionPerDay elapsed / c.totalVotes

theorem GaugeConfig.Advanced.index_le {c c' : GaugeConfig} {elapsed : ℕ}
    (h : c.Advanced c' elapsed) : c.index ≤ c'.index := by
  rw [Number.le_iff, h.index]
  exact Nat.le_add_right _ _

/-- The gauge `g'` is `g` with the whole RAY credited that it has earned up to an index. -/
structure Gauge.Settled (g g' : Gauge) (index : Number) : Prop where
  seen : g.lastSeenGlobalIndex ≤ index
  poolId : g'.poolId = g.poolId
  votes : g'.totalVotes = g.totalVotes
  lastSeen : g'.lastSeenGlobalIndex = index
  emitted : g'.totalRayEmitted =
    g.totalRayEmitted + g.totalVotes * (index.raw - g.lastSeenGlobalIndex.raw) / scale

theorem GaugeConfig.advance_ok {c c' : GaugeConfig} {now : Int} (h : c.advance now = .ok c') :
    ∃ elapsed : ℕ, now = c.lastUpdatedTs + elapsed ∧ c.Advanced c' elapsed := by
  simp only [advance, bind_eq_ok] at h
  obtain ⟨rate, hrate, step, hstep, h⟩ := h
  obtain ⟨hnow, hindex⟩ := advanceSharedIndex_ok hstep
  rw [Rate.daily_ok hrate] at hindex
  refine ⟨step.elapsed, hnow, ?_⟩
  split at h
  · -- no time has passed, so the index is worth what it was
    rename_i hzero
    rw [pure_eq_ok] at h
    subst h
    refine ⟨rfl, rfl, by rw [hzero, Nat.add_zero], ?_⟩
    rw [hzero, dailyWorth, Nat.zero_mul, Nat.zero_div, Nat.mul_zero, Nat.zero_div, Nat.add_zero]
  · rw [pure_eq_ok] at h
    subst h
    refine ⟨rfl, rfl, ?_, hindex⟩
    dsimp only
    omega

theorem GaugeConfig.ts_of_advance {c c' : GaugeConfig} {now : Int} (h : c.advance now = .ok c') :
    (c'.lastUpdatedTs : Int) = now := by
  obtain ⟨elapsed, hnow, hadv⟩ := advance_ok h
  rw [hadv.ts, hnow, Int.natCast_add]

theorem Gauge.settle_ok {g g' : Gauge} {index : Number} (h : g.settle index = .ok g') :
    g.Settled g' index := by
  simp only [settle, bind_eq_ok] at h
  obtain ⟨accrual, haccrual, h⟩ := h
  obtain ⟨hle, haccrued, hlast⟩ := accrueShare_ok haccrual
  split at h
  · -- the gauge has seen the index already
    rename_i hsame
    rw [pure_eq_ok] at h
    subst h
    have hindex : g.lastSeenGlobalIndex = index := hsame ▸ hlast
    refine ⟨hle, rfl, rfl, hindex, ?_⟩
    rw [hindex, Nat.sub_self, Nat.mul_zero, Nat.zero_div, Nat.add_zero]
  · simp only [bind_eq_ok, pure_eq_ok, Counter.add_eq_ok, ShareAccrual.units,
      Number.wholePart_eq_ok] at h
    obtain ⟨units, ⟨-, hunits⟩, emitted, ⟨-, hemitted⟩, rfl⟩ := h
    exact ⟨hle, rfl, rfl, hlast, by rw [hemitted, hunits, haccrued]⟩

namespace Emission

theorem initGaugeConfig_ok {settings : Settings} {now : Int} {config : GaugeConfig}
    (h : initGaugeConfig settings now = .ok config) :
    now = config.lastUpdatedTs ∧ config.totalVotes = 0 ∧
      config.rayEmissionPerDay = settings.rayEmissionPerDay ∧ config.index = .zero := by
  simp only [initGaugeConfig, bind_eq_ok, pure_eq_ok, requireU64_eq_ok] at h
  obtain ⟨start, ⟨-, hstart⟩, rfl⟩ := h
  exact ⟨hstart, rfl, rfl, rfl⟩

theorem initPoolGauge_ok {now : Int} {config : GaugeConfig} {poolId : Address} {out : Synced}
    (h : initPoolGauge now config poolId = .ok out) :
    config.advance now = .ok out.config ∧ out.gauge = ⟨poolId, 0, out.config.index, 0⟩ := by
  simp only [initPoolGauge, bind_eq_ok, pure_eq_ok] at h
  obtain ⟨config', hadvance, rfl⟩ := h
  exact ⟨hadvance, rfl⟩

theorem syncPoolIndex_eq_ok {now : Int} {config : GaugeConfig} {gauge : Gauge} {out : Synced} :
    syncPoolIndex now config gauge = .ok out ↔
      config.advance now = .ok out.config ∧ gauge.settle out.config.index = .ok out.gauge := by
  constructor
  · intro h
    simp only [syncPoolIndex, bind_eq_ok, pure_eq_ok] at h
    obtain ⟨config', hadvance, gauge', hsettle, rfl⟩ := h
    exact ⟨hadvance, hsettle⟩
  · rintro ⟨hadvance, hsettle⟩
    apply bind_ok hadvance
    exact bind_ok hsettle rfl

theorem syncPoolIndex_ok {now : Int} {config : GaugeConfig} {gauge : Gauge} {out : Synced}
    (h : syncPoolIndex now config gauge = .ok out) :
    (∃ elapsed : ℕ, now = config.lastUpdatedTs + elapsed ∧ config.Advanced out.config elapsed) ∧
      gauge.Settled out.gauge out.config.index := by
  obtain ⟨hadvance, hsettle⟩ := syncPoolIndex_eq_ok.mp h
  exact ⟨GaugeConfig.advance_ok hadvance, Gauge.settle_ok hsettle⟩

/-- The records that belong together, moved on and with the votes changed by `amount` on every level. -/
structure Voted (now : Int) (config : GaugeConfig) (gauge : Gauge) (personal : PersonalGauge)
    (amount : Int) (reactor : Reactor) (out : VoteChange) : Prop where
  pool : personal.poolGauge = gauge.poolId
  voter : reactor.owner = personal.owner
  lock : moveLock reactor amount = .ok out.reactor
  synced : ∃ synced, syncPoolIndex now config gauge = .ok synced ∧
    out.config = { synced.config with totalVotes := out.config.totalVotes } ∧
    out.gauge = { synced.gauge with totalVotes := out.gauge.totalVotes }
  globalVotes : (out.config.totalVotes : ℤ) = config.totalVotes + amount
  poolVotes : (out.gauge.totalVotes : ℤ) = gauge.totalVotes + amount
  personalGauge : out.personalGauge = { personal with votes := out.personalGauge.votes }
  votes : (out.personalGauge.votes : ℤ) = personal.votes + amount

theorem checkLinks_ok {gauge : Gauge} {personal : PersonalGauge} {reactor : Reactor}
    (h : checkLinks gauge personal reactor = .ok ()) :
    personal.poolGauge = gauge.poolId ∧ reactor.owner = personal.owner := by
  rw [checkLinks] at h
  split at h
  · cases h
  · rename_i hpool
    split at h
    · cases h
    · rename_i howner
      exact ⟨not_not.mp hpool, not_not.mp howner⟩

theorem changeVotes_ok {now amount : Int} {config : GaugeConfig} {gauge : Gauge}
    {personal : PersonalGauge} {reactor : Reactor} {out : VoteChange}
    (h : changeVotes now config gauge personal amount reactor = .ok out) :
    Voted now config gauge personal amount reactor out := by
  simp only [changeVotes, bind_eq_ok, pure_eq_ok] at h
  obtain ⟨_, hamount, _, hlinks, _, -, reactor', hlock, synced, hsynced, global, hglobal, pool, hpool,
    votes, hvotes, rfl⟩ := h
  obtain ⟨-, -, rfl⟩ := requireI64_ok hamount
  obtain ⟨hlink, howner⟩ := checkLinks_ok hlinks
  obtain ⟨⟨_, -, hadv⟩, hset⟩ := syncPoolIndex_ok hsynced
  refine ⟨hlink, howner, hlock, ⟨synced, hsynced, rfl, rfl⟩, ?_, ?_, rfl, Counter.change_ok hvotes⟩
  · rw [← hadv.votes]
    exact Counter.change_ok hglobal
  · rw [← hset.votes]
    exact Counter.change_ok hpool

end Emission

/-! ### With which faults they refuse -/

section

variable {allowed : Fault → Prop} {now amount : Int} {config : GaugeConfig} {gauge : Gauge}
  {personal : PersonalGauge} {reactor : Reactor}

theorem GaugeConfig.advance_faultsIn (hover : ∀ e : Fault, e.causeKind = .arithmeticOverflow → allowed e)
    (hlate : now < config.lastUpdatedTs →
      allowed (.timestampRegression "gauge config" now config.lastUpdatedTs)) :
    FaultsIn allowed (config.advance now) := by
  refine .bind (Rate.daily_faultsIn hover config.rayEmissionPerDay) fun rate _ => ?_
  exact .bind (advanceSharedIndex_faultsIn hover hlate) fun _ _ => .ite (fun _ => .pure) fun _ => .pure

/-- A gauge has the faults of its account, and RAY may outgrow its counter. -/
theorem Gauge.settle_faultsIn {index : Number} (houtgrown : ∀ e : Fault, e.Outgrown → allowed e)
    (haccrue : FaultsIn allowed
      (accrueShare "pool gauge" gauge.totalVotes gauge.lastSeenGlobalIndex index)) :
    FaultsIn allowed (gauge.settle index) := by
  refine .bind haccrue fun accrual _ => .ite (fun _ => .pure) fun _ => ?_
  refine .bind (Number.wholePart_faultsIn (houtgrown _ (.whole _))) fun units _ => ?_
  exact .bind (Counter.add_faultsIn (houtgrown _ (.sum _ _ _))) fun _ _ => .pure

namespace Reactor

/-- Votes that are free can be locked. -/
theorem lockVotes_faultsIn (hargument : allowed (.argument (.outOfRange "amount" 0 maxU64 amount)))
    (hshort : reactor.freeVotes < amount →
      allowed (.shortage .votesToLock amount reactor.freeVotes none))
    (hsum : allowed (.counterOverflow "locked_votes" reactor.lockedVotes amount.toNat maxU64)) :
    FaultsIn allowed (reactor.lockVotes amount) := by
  refine .bind (requireU64_faultsIn hargument) fun votes hvotes => ?_
  obtain ⟨-, rfl⟩ := requireU64_eq_ok.mp hvotes
  exact .ite (fun hlt => .error (hshort hlt)) fun _ => .bind (Counter.add_faultsIn hsum) fun _ _ => .pure

/-- Votes that are locked can be freed. -/
theorem unlockVotes_faultsIn (hargument : allowed (.argument (.outOfRange "amount" 0 maxU64 amount)))
    (hshort : reactor.lockedVotes < amount →
      allowed (.shortage .votesToUnlock amount reactor.lockedVotes none)) :
    FaultsIn allowed (reactor.unlockVotes amount) := by
  refine .bind (requireU64_faultsIn hargument) fun votes hvotes => ?_
  obtain ⟨-, rfl⟩ := requireU64_eq_ok.mp hvotes
  refine .ite (fun hlt => .error (hshort (by omega))) fun henough => ?_
  exact .bind (Counter.sub_faultsIn fun hlt => absurd hlt henough) fun _ _ => .pure

end Reactor

namespace Emission

theorem initGaugeConfig_faultsIn (hrequest : ∀ e : Fault, e.OfRequest → allowed e) (settings : Settings) :
    FaultsIn allowed (initGaugeConfig settings now) :=
  .bind (requireU64_faultsIn (hrequest _ (.argument _))) fun _ _ => .pure

theorem initPoolGauge_faultsIn (hadvance : FaultsIn allowed (config.advance now)) (poolId : Address) :
    FaultsIn allowed (initPoolGauge now config poolId) :=
  .bind hadvance fun _ _ => .pure

theorem syncPoolIndex_faultsIn (hadvance : FaultsIn allowed (config.advance now))
    (hsettle : ∀ config', config.advance now = .ok config' →
      FaultsIn allowed (gauge.settle config'.index)) :
    FaultsIn allowed (syncPoolIndex now config gauge) :=
  .bind hadvance fun config' hconfig' => .bind (hsettle config' hconfig') fun _ _ => .pure

/-- To synchronize a gauge is accrual only. -/
theorem syncPoolIndex_faults (now : Int) (config : GaugeConfig) (gauge : Gauge) :
    FaultsIn Fault.OfAccrual (syncPoolIndex now config gauge) := by
  refine syncPoolIndex_faultsIn (GaugeConfig.advance_faultsIn (fun _ => .inl) fun _ => .inr (.inr rfl))
    fun config' _ => Gauge.settle_faultsIn (fun _ => Fault.Outgrown.ofAccrual) ?_
  exact accrueShare_faultsIn (fun _ => .inl) fun _ => .inr (.inl rfl)

theorem checkLinks_faultsIn (hlinks : ∀ link, allowed (.mismatch link)) :
    FaultsIn allowed (checkLinks gauge personal reactor) := by
  rw [checkLinks]
  exact .ite (fun _ => .error (hlinks _)) fun _ => .ite (fun _ => .error (hlinks _)) fun _ => .ok

theorem checkPledge_faultsIn (hpledge : allowed (.shortage .rayToPledge amount reactor.freeVotes none))
    (hunpledge : allowed (.shortage .rayToUnpledge (-amount) personal.votes none)) :
    FaultsIn allowed (checkPledge personal reactor amount) := by
  rw [checkPledge]
  exact .ite (fun _ => .error hpledge) fun _ => .ite (fun _ => .error hunpledge) fun _ => .ok

theorem moveLock_faultsIn (hlock : 0 < amount → FaultsIn allowed (reactor.lockVotes amount))
    (hunlock : amount < 0 → FaultsIn allowed (reactor.unlockVotes (-amount))) :
    FaultsIn allowed (moveLock reactor amount) := by
  rw [moveLock]
  exact .ite hlock fun _ => .ite hunlock fun _ => .ok

theorem moveLock_faultsIn_of_request (hrequest : ∀ e : Fault, e.OfRequest → allowed e) :
    FaultsIn allowed (moveLock reactor amount) := by
  refine moveLock_faultsIn (fun _ => ?_) fun _ => ?_
  · exact Reactor.lockVotes_faultsIn (hrequest _ (.argument _)) (fun _ => hrequest _ (.shortage _ _ _))
      (hrequest _ (.outgrown (.sum _ _ _)))
  · exact Reactor.unlockVotes_faultsIn (hrequest _ (.argument _)) fun _ => hrequest _ (.shortage _ _ _)

/-- A change of votes has the faults of a synchronization, those of what is asked for, and records may
not belong together. -/
theorem changeVotes_faultsIn (hrequest : ∀ e : Fault, e.OfRequest → allowed e)
    (hlinks : ∀ link, allowed (.mismatch link)) (hsync : FaultsIn allowed (syncPoolIndex now config gauge)) :
    FaultsIn allowed (changeVotes now config gauge personal amount reactor) := by
  have hchange : ∀ what n delta, FaultsIn allowed (Counter.change what n delta) := fun _ _ _ =>
    Counter.change_faultsIn (hrequest _ (.outgrown (.sum _ _ _))) fun _ => hrequest _ (.difference _ _ _)
  refine .bind (requireI64_faultsIn (hrequest _ (.argument _))) fun amount _ => ?_
  refine .bind (checkLinks_faultsIn hlinks) fun _ _ => ?_
  refine .bind (checkPledge_faultsIn (hrequest _ (.shortage _ _ _)) (hrequest _ (.shortage _ _ _)))
    fun _ _ => ?_
  refine .bind (moveLock_faultsIn_of_request hrequest) fun reactor' _ => .bind hsync fun synced _ => ?_
  refine .bind (hchange _ _ _) fun global _ => .bind (hchange _ _ _) fun pool _ => ?_
  exact .bind (hchange _ _ _) fun _ _ => .pure

end Emission

end

/-! ### The book -/

/-- The records of the emission; gauges stand under their accounts. -/
structure GaugeBook (ι : Type) where
  config : GaugeConfig
  gauges : Table ι Gauge

/-- A call on the emission. -/
inductive GaugeCall (ι : Type) where
  | initPool (now : Int) (account : ι) (poolId : Address)
  | sync (now : Int) (account : ι)
  | changeVotes (now : Int) (account : ι) (personal : PersonalGauge) (amount : Int) (reactor : Reactor)

namespace GaugeCall

variable {ι : Type}

/-- The gauge's account that a call is about. -/
def account : GaugeCall ι → ι
  | initPool _ account _ | sync _ account | changeVotes _ account _ _ _ => account

/-- The time of a call. -/
def now : GaugeCall ι → Int
  | initPool now _ _ | sync now _ | changeVotes now _ _ _ _ => now

/-- What a call adds to the votes. -/
def change : GaugeCall ι → ℤ
  | changeVotes _ _ _ amount _ => amount
  | _ => 0

end GaugeCall

namespace GaugeBook

variable {ι : Type} [DecidableEq ι]

/-- The config and the gauge that are returned to a call. -/
def answer (book : GaugeBook ι) : GaugeCall ι → Option Emission.Synced
  | .initPool now account poolId =>
      if account ∈ book.gauges then none
      else (Emission.initPoolGauge now book.config poolId).toOption
  | .sync now account => do
      let gauge ← book.gauges.lookup account
      (Emission.syncPoolIndex now book.config gauge).toOption
  | .changeVotes now account personal amount reactor => do
      let gauge ← book.gauges.lookup account
      let out ← (Emission.changeVotes now book.config gauge personal amount reactor).toOption
      return ⟨out.config, out.gauge⟩

/-- The book with the returned records committed. -/
def commit (book : GaugeBook ι) (account : ι) (out : Emission.Synced) : GaugeBook ι :=
  ⟨out.config, book.gauges.insert account out.gauge⟩

/-- The book after an answered call. -/
def step (book : GaugeBook ι) (call : GaugeCall ι) : Option (GaugeBook ι) :=
  (book.answer call).map (book.commit call.account)

variable {book book' : GaugeBook ι} {call : GaugeCall ι}

theorem step_eq_some : book.step call = some book' ↔
    ∃ out, book.answer call = some out ∧ book.commit call.account out = book' := by
  rw [step, Option.map_eq_some_iff]

section Answers

variable {now amount : Int} {account : ι} {poolId : Address} {personal : PersonalGauge}
variable {reactor : Reactor} {out : Emission.Synced}

theorem answer_initPool : book.answer (.initPool now account poolId) = some out ↔
    account ∉ book.gauges ∧ Emission.initPoolGauge now book.config poolId = .ok out := by
  simp [answer]

theorem answer_sync : book.answer (.sync now account) = some out ↔
    ∃ gauge, book.gauges.lookup account = some gauge ∧
      Emission.syncPoolIndex now book.config gauge = .ok out := by
  simp [answer, Option.bind_eq_some_iff]

theorem answer_changeVotes : book.answer (.changeVotes now account personal amount reactor) = some out ↔
    ∃ gauge change, book.gauges.lookup account = some gauge ∧
      Emission.changeVotes now book.config gauge personal amount reactor = .ok change ∧
      ⟨change.config, change.gauge⟩ = out := by
  simp [answer, Option.bind_eq_some_iff]

end Answers

theorem step_sync {now : Int} {account : ι} {gauge : Gauge} {out : Emission.Synced}
    (hg : book.gauges.lookup account = some gauge)
    (h : Emission.syncPoolIndex now book.config gauge = .ok out) :
    book.step (.sync now account) = some (book.commit account out) :=
  step_eq_some.mpr ⟨out, answer_sync.mpr ⟨gauge, hg, h⟩, rfl⟩

theorem step_changeVotes {now amount : Int} {account : ι} {gauge : Gauge} {personal : PersonalGauge}
    {reactor : Reactor} {out : Emission.VoteChange} (hg : book.gauges.lookup account = some gauge)
    (h : Emission.changeVotes now book.config gauge personal amount reactor = .ok out) :
    book.step (.changeVotes now account personal amount reactor) =
      some (book.commit account ⟨out.config, out.gauge⟩) :=
  step_eq_some.mpr ⟨_, answer_changeVotes.mpr ⟨gauge, out, hg, h, rfl⟩, rfl⟩

/-- An answered call opens a gauge, or moves one on and changes its votes with the total. -/
theorem answer_cases {out : Emission.Synced} (h : book.answer call = some out) :
    (book.gauges.lookup call.account = none ∧ call.change = 0 ∧
      ∃ poolId, call = .initPool call.now call.account poolId ∧
        Emission.initPoolGauge call.now book.config poolId = .ok out) ∨
    ∃ gauge synced total votes, book.gauges.lookup call.account = some gauge ∧
      Emission.syncPoolIndex call.now book.config gauge = .ok synced ∧
      ((total : ℕ) : ℤ) = book.config.totalVotes + call.change ∧
      ((votes : ℕ) : ℤ) = gauge.totalVotes + call.change ∧
      out = ⟨{ synced.config with totalVotes := total }, { synced.gauge with totalVotes := votes }⟩ := by
  cases call with
  | initPool now account poolId =>
      obtain ⟨hnew, hinit⟩ := answer_initPool.mp h
      exact .inl ⟨Finmap.lookup_eq_none.mpr hnew, rfl, poolId, rfl, hinit⟩
  | sync now account =>
      obtain ⟨gauge, hgauge, h⟩ := answer_sync.mp h
      obtain ⟨⟨_, -, hadv⟩, hset⟩ := Emission.syncPoolIndex_ok h
      refine .inr ⟨gauge, out, out.config.totalVotes, out.gauge.totalVotes, hgauge, h, ?_, ?_, rfl⟩
      · rw [hadv.votes]
        exact (add_zero _).symm
      · rw [hset.votes]
        exact (add_zero _).symm
  | changeVotes now account personal amount reactor =>
      obtain ⟨gauge, change, hgauge, hchange, rfl⟩ := answer_changeVotes.mp h
      have hvoted := Emission.changeVotes_ok hchange
      obtain ⟨synced, hsynced, hconfig, hgauge'⟩ := hvoted.synced
      exact .inr ⟨gauge, synced, change.config.totalVotes, change.gauge.totalVotes, hgauge, hsynced,
        hvoted.globalVotes, hvoted.poolVotes, by rw [← hconfig, ← hgauge']⟩

/-- What an answered call does to the book: the config moves on, and then a gauge is opened, or one is
settled and its votes and the total change by the same number. -/
theorem step_cases (h : book.step call = some book') :
    ∃ config elapsed, book.config.Advanced config elapsed ∧
      call.now = book.config.lastUpdatedTs + elapsed ∧
      ((book.gauges.lookup call.account = none ∧ call.change = 0 ∧ ∃ poolId,
          call = .initPool call.now call.account poolId ∧
          book' = ⟨config, book.gauges.insert call.account ⟨poolId, 0, config.index, 0⟩⟩) ∨
        ∃ (gauge gauge' : Gauge) (total votes : ℕ),
          book.gauges.lookup call.account = some gauge ∧ gauge.Settled gauge' config.index ∧
          (total : ℤ) = config.totalVotes + call.change ∧ (votes : ℤ) = gauge.totalVotes + call.change ∧
          book' = ⟨{ config with totalVotes := total },
            book.gauges.insert call.account { gauge' with totalVotes := votes }⟩) := by
  obtain ⟨out, hout, rfl⟩ := step_eq_some.mp h
  rcases answer_cases hout with ⟨hnone, hchange, poolId, hcall, hinit⟩ |
    ⟨gauge, synced, total, votes, hgauge, hsynced, htotal, hvotes, rfl⟩
  · obtain ⟨hadvance, hnew⟩ := Emission.initPoolGauge_ok hinit
    obtain ⟨elapsed, hnow, hadv⟩ := GaugeConfig.advance_ok hadvance
    refine ⟨out.config, elapsed, hadv, hnow, .inl ⟨hnone, hchange, poolId, hcall, ?_⟩⟩
    rw [commit, hnew]
  · obtain ⟨⟨elapsed, hnow, hadv⟩, hset⟩ := Emission.syncPoolIndex_ok hsynced
    refine ⟨synced.config, elapsed, hadv, hnow, .inr ⟨gauge, synced.gauge, total, votes, hgauge, hset,
      ?_, hvotes, rfl⟩⟩
    rw [htotal, hadv.votes]

/-- A gauge's RAY does not decrease, and it stays as it is while the config stands still. -/
theorem gauge_step {account : ι} {g : Gauge} (h : book.step call = some book')
    (hg : book.gauges.lookup account = some g) :
    ∃ g', book'.gauges.lookup account = some g' ∧ g.totalRayEmitted ≤ g'.totalRayEmitted ∧
      book.config.lastUpdatedTs ≤ book'.config.lastUpdatedTs ∧
      (book'.config.lastUpdatedTs = book.config.lastUpdatedTs →
        g.lastSeenGlobalIndex = book.config.index →
        g'.totalRayEmitted = g.totalRayEmitted ∧ g'.lastSeenGlobalIndex = book'.config.index) := by
  obtain ⟨config, elapsed, hadv, -, hcases⟩ := step_cases h
  have hts := hadv.ts
  have hstill : config.lastUpdatedTs = book.config.lastUpdatedTs → config.index = book.config.index := by
    intro hsame
    have hzero : elapsed = 0 := by omega
    have hindex := hadv.index
    rw [hzero, dailyWorth, Nat.zero_mul, Nat.zero_div, Nat.mul_zero, Nat.zero_div, Nat.add_zero] at hindex
    exact Number.ext hindex
  rcases hcases with ⟨hnone, -, poolId, -, rfl⟩ | ⟨g₀, g', total, votes, hg₀, hset, -, -, rfl⟩
  · have hother : ¬account = call.account := by
      rintro rfl
      rw [hnone] at hg
      cases hg
    refine ⟨g, ?_, Nat.le_refl _, hts ▸ Nat.le_add_right _ _, fun hsame hseen => ⟨rfl, ?_⟩⟩
    · exact (Finmap.lookup_insert_of_ne _ hother).trans hg
    · exact hseen.trans (hstill hsame).symm
  · by_cases haccount : account = call.account
    · subst haccount
      obtain rfl : g₀ = g := Option.some.inj (hg₀.symm.trans hg)
      refine ⟨{ g' with totalVotes := votes }, Finmap.lookup_insert _, ?_, ?_, fun hsame hseen => ?_⟩
      · exact hset.emitted ▸ Nat.le_add_right _ _
      · exact hts ▸ Nat.le_add_right _ _
      · refine ⟨?_, hset.lastSeen⟩
        dsimp only
        rw [hset.emitted, hstill hsame, hseen, Nat.sub_self, Nat.mul_zero, Nat.zero_div, Nat.add_zero]
    · refine ⟨g, ?_, Nat.le_refl _, hts ▸ Nat.le_add_right _ _, fun hsame hseen => ⟨rfl, ?_⟩⟩
      · exact (Finmap.lookup_insert_of_ne _ haccount).trans hg
      · exact hseen.trans (hstill hsame).symm

end GaugeBook

end EmissionLedger
