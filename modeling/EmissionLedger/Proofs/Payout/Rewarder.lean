import EmissionLedger.Proofs.Payout.Stake
import EmissionLedger.Proofs.Rewarder.Book

/-!
Payouts of staged RAY. A rewarder stages what an accrual reports, whatever it has staged before, and
pays out all that it has staged. The rewarders of both kinds of pools stand in one table, next to the
records that they are accrued from; other operations may leave those in any state.

Main statement: `payouts_neutral`.
-/

namespace EmissionLedger

/-! ### Rewarders that have paid out more -/

namespace PersonalRewarderState

/-- The state with more RAY to pay. -/
def owing (s : PersonalRewarderState) (n : ℕ) : PersonalRewarderState :=
  { s with stagedRay := s.stagedRay + n }

variable {s : PersonalRewarderState} {now : Int} {emitted : ℕ} {units : Number} {n : ℕ} {out : Staged}

/-- What an accrual reports is what it stages. -/
theorem syncAndStage_staged (h : s.syncAndStage now emitted units = .ok out) :
    out.state.stagedRay = s.stagedRay + out.collected := by
  obtain ⟨-, -, seconds, -, ⟨-, hstate, hnothing⟩ | ⟨-, -, hstate⟩⟩ := syncAndStage_ok h
  · rw [hstate, hnothing, Nat.add_zero]
  · rw [hstate]

theorem syncAndStage_owing (h : (s.owing n).syncAndStage now emitted units = .ok out) :
    ∃ out', s.syncAndStage now emitted units = .ok out' ∧
      out = ⟨out'.state.owing n, out'.collected⟩ := by
  simp only [syncAndStage, bind_eq_ok] at h ⊢
  obtain ⟨_, hprogress, h⟩ := h
  by_cases hseconds : (now - s.lastUpdatedTs).toNat = 0
  · rw [if_pos (by exact hseconds), pure_eq_ok] at h
    exact ⟨⟨s, 0⟩, ⟨(), hprogress, if_pos hseconds⟩, h.symm⟩
  · rw [if_neg (by exact hseconds)] at h
    simp only [bind_eq_ok, pure_eq_ok] at h
    obtain ⟨new, hnew, collected, hcollected, staged, hcredit, rfl⟩ := h
    obtain ⟨hadd, hstaged⟩ := Counter.add_of_paid hcredit
    let next : PersonalRewarderState := ⟨units, (emitted : Int).toNat, now.toNat, s.stagedRay + collected⟩
    refine ⟨⟨next, collected⟩, ⟨(), hprogress, ?_⟩, ?_⟩
    · rw [if_neg hseconds]
      simp only [bind_eq_ok]
      exact ⟨new, hnew, collected, hcollected, _, hadd, rfl⟩
    · rw [hstaged]
      rfl

end PersonalRewarderState

namespace Rewarder

variable {now : Int} {config : GaugeConfig} {gauge : Gauge} {n : ℕ}

theorem accrueCp_owing {tracker : TimeTracker} {position : PersonalPosition} {r : PersonalRewarderCp}
    {out : CpOutcome}
    (h : accrueCp now config gauge tracker position { r with rewarder := r.rewarder.owing n } = .ok out) :
    ∃ out', accrueCp now config gauge tracker position r = .ok out' ∧
      out = { out' with
        rewarder := { out'.rewarder with rewarder := out'.rewarder.rewarder.owing n } } := by
  simp only [accrueCp, bind_eq_ok, pure_eq_ok] at h ⊢
  obtain ⟨_, hpool, _, hlinks, escrow, hescrow, synced, hsynced, staged, hstaged, rfl⟩ := h
  obtain ⟨staged', hstaged', rfl⟩ := PersonalRewarderState.syncAndStage_owing hstaged
  exact ⟨_, ⟨(), hpool, (), hlinks, escrow, hescrow, synced, hsynced, staged', hstaged', rfl⟩, rfl⟩

theorem accrueCl_owing {snapshot : ClPositionSnapshot} {mint : String} {r : PersonalRewarderCl}
    {out : ClOutcome}
    (h : accrueCl now config gauge snapshot mint { r with rewarder := r.rewarder.owing n } = .ok out) :
    ∃ out', accrueCl now config gauge snapshot mint r = .ok out' ∧
      out = { out' with
        rewarder := { out'.rewarder with rewarder := out'.rewarder.rewarder.owing n } } := by
  simp only [accrueCl, bind_eq_ok, pure_eq_ok] at h ⊢
  obtain ⟨_, hpool, _, hlinks, synced, hsynced, units, hunits, staged, hstaged, rfl⟩ := h
  obtain ⟨staged', hstaged', rfl⟩ := PersonalRewarderState.syncAndStage_owing hstaged
  exact ⟨_, ⟨(), hpool, (), hlinks, synced, hsynced, units, hunits, staged', hstaged', rfl⟩, rfl⟩

end Rewarder

/-- The rewarder of a position of either kind of pool. -/
inductive AnyRewarder where
  | cp (r : PersonalRewarderCp)
  | cl (r : PersonalRewarderCl)

namespace AnyRewarder

def state : AnyRewarder → PersonalRewarderState
  | cp r => r.rewarder
  | cl r => r.rewarder

/-- The rewarder with another state. -/
def withState : AnyRewarder → PersonalRewarderState → AnyRewarder
  | cp r, s => cp { r with rewarder := s }
  | cl r, s => cl { r with rewarder := s }

/-- The rewarder with more RAY to pay. -/
def owing (r : AnyRewarder) (n : ℕ) : AnyRewarder := r.withState (r.state.owing n)

/-- Pays out the staged RAY. -/
def collect : AnyRewarder → AnyRewarder × ℕ
  | cp r => ((Rewarder.collectCp r).map cp id)
  | cl r => ((Rewarder.collectCl r).map cl id)

@[simp] theorem owing_zero (r : AnyRewarder) : r.owing 0 = r := by cases r <;> rfl

theorem collect_snd (r : AnyRewarder) : r.collect.2 = r.state.stagedRay := by cases r <;> rfl

theorem staged_collect (r : AnyRewarder) : r.collect.1.state.stagedRay = 0 := by cases r <;> rfl

theorem staged_owing (r : AnyRewarder) (n : ℕ) : (r.owing n).state.stagedRay = r.state.stagedRay + n := by
  cases r <;> rfl

theorem collect_owing (r : AnyRewarder) (n : ℕ) : (r.owing n).collect.1 = r.collect.1 := by
  cases r <;> rfl

theorem owing_eq_collected (r : AnyRewarder) (n : ℕ) :
    r.owing n = r.collect.1.owing (n + r.state.stagedRay) := by
  rw [Nat.add_comm]
  cases r <;> simp [owing, withState, state, collect, Rewarder.collectCp, Rewarder.collectCl,
    PersonalRewarderState.collect, PersonalRewarderState.owing]

end AnyRewarder

/-! ### Accruals -/

/-- What rewarders are accrued from. -/
structure PoolRecords (ι κ : Type) where
  config : GaugeConfig
  gauges : Table ι Gauge
  trackers : Table ι TimeTracker
  positions : Table κ PersonalPosition

/-- Where a rewarder's time units come from: a position in the escrow, or a reward slot of a view of a
concentrated-liquidity position. -/
inductive UnitSource (ι κ : Type) where
  | escrow (tracker : ι) (position : κ)
  | slot (snapshot : ClPositionSnapshot) (mint : String)

/-- The records after an accrual and the RAY that it reports. -/
structure Accrued (ι κ : Type) where
  records : PoolRecords ι κ
  rewarder : AnyRewarder
  collected : ℕ

variable {ι κ : Type} [DecidableEq ι] [DecidableEq κ]

/-- An accrual of a rewarder; each kind of rewarder has its source of time units. -/
def PoolRecords.accrue (records : PoolRecords ι κ) (now : Int) (gauge : ι) :
    UnitSource ι κ → AnyRewarder → Option (Accrued ι κ)
  | .escrow tracker position, .cp r => do
      let g ← records.gauges.lookup gauge
      let t ← records.trackers.lookup tracker
      let p ← records.positions.lookup position
      let out ← (Rewarder.accrueCp now records.config g t p r).toOption
      return {
        records := {
          config := out.config, gauges := records.gauges.insert gauge out.gauge
          trackers := records.trackers.insert tracker out.timeTracker
          positions := records.positions.insert position out.position }
        rewarder := .cp out.rewarder
        collected := out.collected }
  | .slot snapshot mint, .cl r => do
      let g ← records.gauges.lookup gauge
      let out ← (Rewarder.accrueCl now records.config g snapshot mint r).toOption
      return {
        records := {
          records with config := out.config, gauges := records.gauges.insert gauge out.gauge }
        rewarder := .cl out.rewarder
        collected := out.collected }
  | .escrow .., .cl _ | .slot .., .cp _ => none

section Accruals

variable {records : PoolRecords ι κ} {now : Int} {gauge : ι} {out : Accrued ι κ}

theorem PoolRecords.accrue_escrow {tracker : ι} {position : κ} {r : PersonalRewarderCp} :
    records.accrue now gauge (.escrow tracker position) (.cp r) = some out ↔
      ∃ g t p cp, records.gauges.lookup gauge = some g ∧ records.trackers.lookup tracker = some t ∧
        records.positions.lookup position = some p ∧
        Rewarder.accrueCp now records.config g t p r = .ok cp ∧
        ⟨⟨cp.config, records.gauges.insert gauge cp.gauge, records.trackers.insert tracker cp.timeTracker,
          records.positions.insert position cp.position⟩, .cp cp.rewarder, cp.collected⟩ = out := by
  simp [accrue, Option.bind_eq_some_iff]

theorem PoolRecords.accrue_slot {snapshot : ClPositionSnapshot} {mint : String} {r : PersonalRewarderCl} :
    records.accrue now gauge (.slot snapshot mint) (.cl r) = some out ↔
      ∃ g cl, records.gauges.lookup gauge = some g ∧
        Rewarder.accrueCl now records.config g snapshot mint r = .ok cl ∧
        ⟨{ records with config := cl.config, gauges := records.gauges.insert gauge cl.gauge },
          .cl cl.rewarder, cl.collected⟩ = out := by
  simp [accrue, Option.bind_eq_some_iff]

end Accruals

theorem PoolRecords.accrue_staged {records : PoolRecords ι κ} {now : Int} {gauge : ι}
    {source : UnitSource ι κ} {r : AnyRewarder} {out : Accrued ι κ}
    (h : records.accrue now gauge source r = some out) :
    out.rewarder.state.stagedRay = r.state.stagedRay + out.collected := by
  cases source <;> cases r
  case escrow.cp =>
    obtain ⟨g, t, p, cp, -, -, -, hcp, rfl⟩ := accrue_escrow.mp h
    exact PersonalRewarderState.syncAndStage_staged (Rewarder.accrueCp_ok hcp).2.2
  case slot.cl =>
    obtain ⟨g, cl, -, hcl, rfl⟩ := accrue_slot.mp h
    obtain ⟨-, units, -, hstage⟩ := Rewarder.accrueCl_ok hcl
    exact PersonalRewarderState.syncAndStage_staged hstage
  all_goals cases h

theorem PoolRecords.accrue_owing {records : PoolRecords ι κ} {now : Int} {gauge : ι}
    {source : UnitSource ι κ} {r : AnyRewarder} {n : ℕ} {out : Accrued ι κ}
    (h : records.accrue now gauge source (r.owing n) = some out) :
    ∃ out', records.accrue now gauge source r = some out' ∧
      out = { out' with rewarder := out'.rewarder.owing n } := by
  cases source <;> cases r
  case escrow.cp =>
    obtain ⟨g, t, p, cp, hg, ht, hp, hcp, rfl⟩ := accrue_escrow.mp h
    obtain ⟨cp', hcp', rfl⟩ := Rewarder.accrueCp_owing hcp
    exact ⟨_, accrue_escrow.mpr ⟨g, t, p, cp', hg, ht, hp, hcp', rfl⟩, rfl⟩
  case slot.cl =>
    obtain ⟨g, cl, hg, hcl, rfl⟩ := accrue_slot.mp h
    obtain ⟨cl', hcl', rfl⟩ := Rewarder.accrueCl_owing hcl
    exact ⟨_, accrue_slot.mpr ⟨g, cl', hg, hcl', rfl⟩, rfl⟩
  all_goals cases h

/-! ### The book of accruals -/

/-- Rewarders and what they are accrued from. -/
structure AccrualBook (ι κ : Type) where
  records : PoolRecords ι κ
  rewarders : Table κ AnyRewarder

/-- An accrual, a payment, or other operations that leave the records as they say. -/
inductive AccrualCall (ι κ : Type) where
  | accrue (now : Int) (gauge : ι) (source : UnitSource ι κ) (account : κ)
  | collect (account : κ)
  | others (records : PoolRecords ι κ)

namespace AccrualBook

/-- The book after an answered call. -/
def step (book : AccrualBook ι κ) : AccrualCall ι κ → Option (AccrualBook ι κ)
  | .accrue now gauge source account => do
      let r ← book.rewarders.lookup account
      let out ← book.records.accrue now gauge source r
      return ⟨out.records, book.rewarders.insert account out.rewarder⟩
  | .collect account => do
      let r ← book.rewarders.lookup account
      return { book with rewarders := book.rewarders.insert account r.collect.1 }
  | .others records => some { book with records }

/-- The RAY that each rewarder pays out in a call. -/
def paid (book : AccrualBook ι κ) (call : AccrualCall ι κ) (_ : AccrualBook ι κ) : κ → ℕ :=
  match call with
  | .collect account =>
      Pi.single account ((book.rewarders.lookup account).elim 0 fun r => r.collect.2)
  | .accrue .. | .others _ => 0

/-- The RAY that a call reports for each rewarder. -/
def reported (book : AccrualBook ι κ) (call : AccrualCall ι κ) (_ : AccrualBook ι κ) : κ → ℕ :=
  match call with
  | .accrue now gauge source account =>
      Pi.single account (((book.rewarders.lookup account).bind
        (book.records.accrue now gauge source)).elim 0 Accrued.collected)
  | .collect _ | .others _ => 0

/-- The RAY that is staged under an account, none without a rewarder. -/
def stagedUnder (book : AccrualBook ι κ) (account : κ) : ℕ :=
  book.rewarders.valueAt (fun r => r.state.stagedRay) account

/-- The RAY of a rewarder that there is is paid out. -/
def Collects (book : AccrualBook ι κ) (call : AccrualCall ι κ) : Prop :=
  ∃ account ∈ book.rewarders, call = .collect account

variable {book book' next : AccrualBook ι κ} {call : AccrualCall ι κ} {m m' : κ → ℕ} {account : κ}

theorem step_accrue {now : Int} {gauge : ι} {source : UnitSource ι κ} :
    book.step (.accrue now gauge source account) = some next ↔
      ∃ r out, book.rewarders.lookup account = some r ∧
        book.records.accrue now gauge source r = some out ∧
        ⟨out.records, book.rewarders.insert account out.rewarder⟩ = next := by
  simp [step, Option.bind_eq_some_iff]

theorem step_collect : book.step (.collect account) = some next ↔
    ∃ r, book.rewarders.lookup account = some r ∧
      { book with rewarders := book.rewarders.insert account r.collect.1 } = next := by
  simp [step, Option.bind_eq_some_iff]

theorem reported_accrue {now : Int} {gauge : ι} {source : UnitSource ι κ} {r : AnyRewarder}
    {out : Accrued ι κ} (hr : book.rewarders.lookup account = some r)
    (hout : book.records.accrue now gauge source r = some out) (next : AccrualBook ι κ) :
    book.reported (.accrue now gauge source account) next = Pi.single account out.collected := by
  rw [reported, hr, Option.bind_some, hout, Option.elim_some]

omit [DecidableEq ι] in
theorem paid_collect {r : AnyRewarder} (hr : book.rewarders.lookup account = some r)
    (next : AccrualBook ι κ) :
    book.paid (.collect account) next = Pi.single account r.state.stagedRay := by
  rw [paid, hr, Option.elim_some, r.collect_snd]

/-! ### One run -/

omit [DecidableEq ι] in
/-- Entering a rewarder that has staged `q` more and paid `p` changes the staged RAY of its account. -/
theorem stagedUnder_insert {r r' : AnyRewarder} {p q : ℕ} (records : PoolRecords ι κ)
    (hr : book.rewarders.lookup account = some r)
    (hstaged : r'.state.stagedRay + p = r.state.stagedRay + q) (x : κ) :
    stagedUnder ⟨records, book.rewarders.insert account r'⟩ x + (Pi.single account p : κ → ℕ) x =
      book.stagedUnder x + (Pi.single account q : κ → ℕ) x := by
  by_cases hx : x = account
  · subst hx
    rw [stagedUnder, stagedUnder, Table.valueAt_insert_self, Table.valueAt_of_lookup hr,
      Pi.single_eq_same, Pi.single_eq_same, hstaged]
  · rw [stagedUnder, stagedUnder, Table.valueAt_insert_of_ne hx, Pi.single_eq_of_ne hx,
      Pi.single_eq_of_ne hx]

/-- What a call reports is staged, and what it pays was. -/
theorem staged_step (h : book.step call = some next) (x : κ) :
    next.stagedUnder x + book.paid call next x = book.stagedUnder x + book.reported call next x := by
  cases call with
  | accrue now gauge source account =>
      obtain ⟨r, out, hr, hout, rfl⟩ := step_accrue.mp h
      have hstaged := PoolRecords.accrue_staged hout
      rw [reported_accrue hr hout, ← stagedUnder_insert (p := 0) out.records hr hstaged x, Pi.single_zero]
      rfl
  | collect account =>
      obtain ⟨r, hr, rfl⟩ := step_collect.mp h
      have hstaged : r.collect.1.state.stagedRay + r.state.stagedRay = r.state.stagedRay + 0 := by
        rw [r.staged_collect, Nat.add_comm]
      rw [paid_collect hr, stagedUnder_insert book.records hr hstaged x, Pi.single_zero]
      rfl
  | others records =>
      cases h
      rfl

/-- **What is paid was reported.** At the end of a run every account has paid out and staged what it had
staged at the start and what its accruals reported. -/
theorem staged_run {start last : AccrualBook ι κ} {calls : List (AccrualCall ι κ)}
    (hrun : calls.foldlM step start = some last) (account : κ) :
    tally step paid start calls account + last.stagedUnder account =
      start.stagedUnder account + tally step reported start calls account := by
  have hstep : ∀ (book : AccrualBook ι κ) call next, True → book.step call = some next →
      (next.stagedUnder account : ℤ) + (book.paid call next account : ℕ) ≤
          book.stagedUnder account + (book.reported call next account : ℕ) ∧
        (book.stagedUnder account : ℤ) + (book.reported call next account : ℕ) ≤
          next.stagedUnder account + (book.paid call next account : ℕ) + (0 : ℕ) :=
    fun book call next _ h => by
      have hbalance := staged_step h account
      omega
  have hbalance := run_balance (fun _ _ _ _ _ => trivial) hstep calls (s := start) trivial
  rw [run_of_foldlM hrun, tally_zero, ← tally_apply, ← tally_apply] at hbalance
  omega

/-! ### A run with more payments -/

/-- The book `book'` is `book` with more staged RAY paid out. -/
structure PaidMore (book : AccrualBook ι κ) (m : κ → ℕ) (book' : AccrualBook ι κ) (m' : κ → ℕ) :
    Prop where
  records : book'.records = book.records
  rewarders : Ahead AnyRewarder.owing book.rewarders m book'.rewarders m'

omit [DecidableEq ι] in
theorem PaidMore.refl (book : AccrualBook ι κ) (m : κ → ℕ) : book.PaidMore m book m :=
  ⟨rfl, .refl AnyRewarder.owing_zero _ _⟩

omit [DecidableEq ι] in
/-- What was paid more is what is staged less. -/
theorem PaidMore.total (h : book.PaidMore m book' m') (account : κ) :
    m' account + book'.stagedUnder account = m account + book.stagedUnder account := by
  cases hr : book.rewarders.lookup account with
  | none =>
      obtain ⟨hr', hpaid⟩ := h.rewarders.absent account hr
      rw [stagedUnder, stagedUnder, Table.valueAt_of_none hr, Table.valueAt_of_none hr', hpaid]
  | some r =>
      obtain ⟨r', n, hr', rfl, hpaid⟩ := h.rewarders.present account r hr
      rw [stagedUnder, stagedUnder, Table.valueAt_of_lookup hr, Table.valueAt_of_lookup hr',
        r'.staged_owing]
      omega

/-- A call is answered after more payments too. -/
theorem PaidMore.kept (h : book.PaidMore m book' m') (hstep : book.step call = some next) :
    ∃ next', book'.step call = some next' ∧
      PaidMore next (m + book.paid call next) next' (m' + book'.paid call next') := by
  obtain ⟨hrecords, hrewarders⟩ := h
  cases call with
  | accrue now gauge source account =>
      obtain ⟨r, out, hr, hout, rfl⟩ := step_accrue.mp hstep
      obtain ⟨r', n, hr', rfl, hpaid⟩ := hrewarders.present account r hr
      obtain ⟨out', hout', rfl⟩ := PoolRecords.accrue_owing hout
      refine ⟨_, step_accrue.mpr ⟨r', out', hr', hrecords ▸ hout', rfl⟩, rfl, ?_⟩
      have hentered : Ahead AnyRewarder.owing
          (book.rewarders.insert account (out'.rewarder.owing n)) (m + Pi.single account 0)
          (book'.rewarders.insert account out'.rewarder) (m' + Pi.single account 0) :=
        hrewarders.enter hpaid
      rwa [Pi.single_zero] at hentered
  | collect account =>
      obtain ⟨r, hr, rfl⟩ := step_collect.mp hstep
      obtain ⟨r', n, hr', rfl, hpaid⟩ := hrewarders.present account r hr
      refine ⟨_, step_collect.mpr ⟨r', hr', rfl⟩, hrecords, ?_⟩
      rw [paid_collect hr, paid_collect hr', r'.collect_owing, r'.staged_owing]
      have hsame : m' account + r'.state.stagedRay = m account + (r'.state.stagedRay + n) + 0 := by omega
      have hentered : Ahead AnyRewarder.owing (book.rewarders.insert account (r'.collect.1.owing 0))
          (m + Pi.single account (r'.state.stagedRay + n)) (book'.rewarders.insert account r'.collect.1)
          (m' + Pi.single account r'.state.stagedRay) := hrewarders.enter hsame
      rwa [AnyRewarder.owing_zero] at hentered
  | others records =>
      obtain rfl : { book with records } = next := Option.some.inj hstep
      exact ⟨_, rfl, rfl, hrewarders⟩

/-- A payment alone is answered and pays what is then no longer staged. -/
theorem PaidMore.inserted (h : book.PaidMore m book' m') (hcall : book.Collects call) :
    ∃ next', book'.step call = some next' ∧ book.PaidMore m next' (m' + book'.paid call next') := by
  obtain ⟨account, haccount, rfl⟩ := hcall
  obtain ⟨r, hr⟩ := Finmap.mem_iff.mp haccount
  obtain ⟨r', n, hr', rfl, hpaid⟩ := h.rewarders.present account r hr
  refine ⟨_, step_collect.mpr ⟨r', hr', rfl⟩, h.records, ?_⟩
  rw [r'.owing_eq_collected] at hr
  rw [paid_collect hr']
  exact h.rewarders.pay hr (by omega)

/-- A run with more payments is answered like the run itself, and has paid out more at its end. -/
theorem simulates {calls calls' : List (AccrualCall ι κ)} {last : AccrualBook ι κ}
    (hcalls : Interspersed step Collects (fun _ _ => False) book calls calls')
    (hrun : calls.foldlM step book = some last) :
    ∃ last', calls'.foldlM step book = some last' ∧
      last.PaidMore (tally step paid book calls) last' (tally step paid book calls') := by
  have hstart : book.PaidMore 0 book 0 := .refl book 0
  obtain ⟨last', hrun', hlast⟩ := hcalls.simulates
    (fun _ _ _ _ _ _ _ h hcall hstep => by
      obtain rfl := hcall.resolve_right id
      exact h.kept hstep)
    (fun _ _ _ _ _ h hcall => h.inserted hcall) hstart hrun
  rw [zero_add, zero_add] at hlast
  exact ⟨last', hrun', hlast⟩

end AccrualBook

/-! ### Both books -/

open StakeBook in
/-- **Payouts are neutral.** Collect RAY rewards at any places of a run of reactor operations, or in
addition to settlements: the run is answered as before, all records are the same but for the rewards that
are left, and every owner has been paid and has left together what they were. Pay out staged RAY at any
places of a run of accruals: the same holds, and every rewarder has paid and has left what it had at the
start and what the accruals reported, which is the same amount too. -/
theorem payouts_neutral :
    (∀ (start last : StakeBook) (calls calls' : List ReactorCall),
      Interspersed reactorStep Collects CollectsToo start calls calls' →
      calls.foldlM reactorStep start = some last →
      ∃ last', calls'.foldlM reactorStep start = some last' ∧ last'.config = last.config ∧
        (∀ owner, last.reactors.lookup owner = none → last'.reactors.lookup owner = none) ∧
        ∀ owner r, last.reactors.lookup owner = some r → ∃ r', last'.reactors.lookup owner = some r' ∧
          r' = { r with
            rayStakeRewards := {
              r.rayStakeRewards with
              uncollectedRayReward := r'.rayStakeRewards.uncollectedRayReward } } ∧
          tally reactorStep paid start calls' owner + r'.rayStakeRewards.uncollectedRayReward =
            tally reactorStep paid start calls owner + r.rayStakeRewards.uncollectedRayReward) ∧
    ∀ (ι κ : Type) [DecidableEq ι] [DecidableEq κ] (start last : AccrualBook ι κ)
      (calls calls' : List (AccrualCall ι κ)),
      Interspersed AccrualBook.step AccrualBook.Collects (fun _ _ => False) start calls calls' →
      calls.foldlM AccrualBook.step start = some last →
      ∃ last', calls'.foldlM AccrualBook.step start = some last' ∧ last'.records = last.records ∧
        (∀ account, last.rewarders.lookup account = none → last'.rewarders.lookup account = none) ∧
        (∀ account r, last.rewarders.lookup account = some r →
          ∃ r', last'.rewarders.lookup account = some r' ∧
            r' = r.withState { r.state with stagedRay := r'.state.stagedRay }) ∧
        ∀ account, tally AccrualBook.step AccrualBook.paid start calls' account +
            last'.stagedUnder account =
          start.stagedUnder account +
            tally AccrualBook.step AccrualBook.reported start calls' account ∧
          tally AccrualBook.step AccrualBook.reported start calls' account =
            tally AccrualBook.step AccrualBook.reported start calls account := by
  constructor
  · intro start last calls calls' hcalls hrun
    obtain ⟨last', hrun', hmore⟩ := StakeBook.simulates hcalls hrun
    refine ⟨last', hrun', hmore.config, fun owner hnone => (hmore.reactors.absent owner hnone).1, ?_⟩
    intro owner r hr
    obtain ⟨r', n, hr', rfl, hpaid⟩ := hmore.reactors.present owner r hr
    refine ⟨r', hr', rfl, ?_⟩
    simp only [Reactor.owing]
    omega
  · intro ι κ _ _ start last calls calls' hcalls hrun
    obtain ⟨last', hrun', hmore⟩ := AccrualBook.simulates hcalls hrun
    refine ⟨last', hrun', hmore.records,
      fun account hnone => (hmore.rewarders.absent account hnone).1, fun account r hr => ?_,
      fun account => ⟨AccrualBook.staged_run hrun' account, ?_⟩⟩
    · obtain ⟨r', n, hr', rfl, -⟩ := hmore.rewarders.present account r hr
      exact ⟨r', hr', by cases r' <;> rfl⟩
    · have hbefore := AccrualBook.staged_run hrun account
      have hafter := AccrualBook.staged_run hrun' account
      have htotal := hmore.total account
      omega

open StakeBook in
/-- A staker earns 5 RAY a day and collects after the first; a rewarder of each kind is accrued, and one
is paid out on the way. -/
theorem payouts_neutral_two_days :
    let config : ReactorConfig := ⟨0, 5, .zero, 0, .zero, 0⟩
    let start : StakeBook := ⟨config, ∅⟩
    let calls : List ReactorCall :=
      [.stake (.initReactor .zero), .stake (.deposit 0 .zero 1), .stake (.sync 86400 .zero),
        .stake (.sync 172800 .zero)]
    let calls' : List ReactorCall :=
      [.stake (.initReactor .zero), .stake (.collect .zero), .stake (.deposit 0 .zero 1),
        .stake (.syncAndCollect 86400 .zero), .stake (.sync 172800 .zero)]
    let snapshot : ClPositionSnapshot := ⟨.zero, .zero, [⟨.zero, 30⟩]⟩
    let state : PersonalRewarderState := ⟨.zero, 0, 0, 0⟩
    let gauge : Gauge := ⟨.zero, 1, .zero, 0⟩
    let tracker : TimeTracker := ⟨.zero, .zero, .zero, 1, 0⟩
    let position : PersonalPosition := ⟨.zero, .zero, 1, .zero, .zero⟩
    let records : PoolRecords ℕ ℕ :=
      ⟨⟨1, 86400, .zero, 0⟩, Finmap.singleton 0 gauge, Finmap.singleton 0 tracker,
        Finmap.singleton 0 position⟩
    let book : AccrualBook ℕ ℕ :=
      ⟨records, (Finmap.singleton 0 (.cp ⟨.zero, .zero, state⟩)).insert 1 (.cl ⟨.zero, .zero, .zero, state⟩)⟩
    let accruals : List (AccrualCall ℕ ℕ) :=
      [.accrue 10 0 (.escrow 0 0) 0, .accrue 10 0 (.slot snapshot Address.zero.text) 1,
        .accrue 20 0 (.escrow 0 0) 0]
    let accruals' : List (AccrualCall ℕ ℕ) :=
      [.accrue 10 0 (.escrow 0 0) 0, .collect 0, .accrue 10 0 (.slot snapshot Address.zero.text) 1,
        .accrue 20 0 (.escrow 0 0) 0]
    Interspersed reactorStep Collects CollectsToo start calls calls' ∧
      (∃ last last' r r', calls.foldlM reactorStep start = some last ∧
        calls'.foldlM reactorStep start = some last' ∧ last.reactors.lookup .zero = some r ∧
        last'.reactors.lookup .zero = some r' ∧ r.rayStakeRewards.uncollectedRayReward = 10 ∧
        tally reactorStep paid start calls .zero = 0 ∧ tally reactorStep paid start calls' .zero = 5 ∧
        5 + r'.rayStakeRewards.uncollectedRayReward = 0 + 10) ∧
      Interspersed AccrualBook.step AccrualBook.Collects (fun _ _ => False) book accruals accruals' ∧
      ∃ last', accruals'.foldlM AccrualBook.step book = some last' ∧
        tally AccrualBook.step AccrualBook.paid book accruals' 0 = 9 ∧
        tally AccrualBook.step AccrualBook.reported book accruals 0 = 18 ∧
        tally AccrualBook.step AccrualBook.reported book accruals' 0 = 18 ∧
        9 + last'.stagedUnder 0 = 0 + 18 := by
  intro config start calls calls' snapshot state gauge tracker position records book accruals accruals'
  have hcalls : Interspersed reactorStep Collects CollectsToo start calls calls' :=
    .kept (.inl rfl) (.inserted ⟨.zero, by decide +kernel, rfl⟩ (.kept (.inl rfl)
      (.kept (.inr ⟨86400, .zero, rfl, rfl⟩) (.kept (.inl rfl) (.done _)))))
  have haccruals : Interspersed AccrualBook.step AccrualBook.Collects (fun _ _ => False) book accruals
      accruals' :=
    .kept (.inl rfl) (.inserted ⟨0, by decide +kernel, rfl⟩
      (.kept (.inl rfl) (.kept (.inl rfl) (.done _))))
  have hleft : ∃ last ∈ calls.foldlM reactorStep start, ∃ r ∈ last.reactors.lookup .zero,
      r.rayStakeRewards.uncollectedRayReward = 10 := by decide +kernel
  have hanswered : (accruals.foldlM AccrualBook.step book).isSome := by decide +kernel
  have hnone : tally reactorStep paid start calls .zero = 0 := by decide +kernel
  have hpaid : tally reactorStep paid start calls' .zero = 5 := by decide +kernel
  have hpaid' : tally AccrualBook.step AccrualBook.paid book accruals' 0 = 9 := by decide +kernel
  have hreported : tally AccrualBook.step AccrualBook.reported book accruals 0 = 18 := by decide +kernel
  have hstaged : book.stagedUnder 0 = 0 := by decide +kernel
  refine ⟨hcalls, ?_, haccruals, ?_⟩
  · obtain ⟨last, hrun, r, hr, hten⟩ := hleft
    obtain ⟨last', hrun', -, -, howners⟩ := payouts_neutral.1 start last calls calls' hcalls hrun
    obtain ⟨r', hr', -, hsum⟩ := howners .zero r hr
    rw [hpaid, hnone, hten] at hsum
    exact ⟨last, last', r, r', hrun, hrun', hr, hr', hten, hnone, hpaid, hsum⟩
  · obtain ⟨last, hrun⟩ := Option.isSome_iff_exists.mp hanswered
    obtain ⟨last', hrun', -, -, -, haccounts⟩ :=
      payouts_neutral.2 ℕ ℕ book last accruals accruals' haccruals hrun
    obtain ⟨hsum, hsame⟩ := haccounts 0
    rw [hsame, hreported, hpaid', hstaged] at hsum
    exact ⟨last', hrun', hpaid', hreported, hsame.trans hreported, hsum⟩

end EmissionLedger
