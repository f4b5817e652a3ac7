import EmissionLedger.Proofs.Escrow.Book
import Mathlib.Tactic.Linarith
import Mathlib.Tactic.Ring

/-!
Conservation in the escrow. The total in the tracker is the sum of all positions and what is left of
the tokens moved in. Time units are counted whether they have been credited or not: a settlement only
moves units from one column to the other, so the count grows through the tracker's advances alone, by
the total times the index's growth, which is at most the time that has passed.
-/

namespace EmissionLedger

/-- The raw time units that a position has earned when the index stands at `index`, credited or not. -/
def PersonalPosition.unitsAt (p : PersonalPosition) (index : Number) : ℤ :=
  p.earnedTimeUnits.raw + p.amount * ((index.raw : ℤ) - p.lastSeenIndex.raw)

theorem PersonalPosition.unitsAt_advanced (p : PersonalPosition) {t t' : TimeTracker} {elapsed : ℕ}
    (h : t.Advanced t' elapsed) :
    p.unitsAt t'.index =
      p.unitsAt t.index + p.amount * ((elapsed * scale / t.totalLpDeposited : ℕ) : ℤ) := by
  rw [unitsAt, unitsAt, h.index]
  push_cast
  ring

theorem PersonalPosition.unitsAt_of_seen {p : PersonalPosition} {index : Number}
    (h : p.lastSeenIndex = index) : p.unitsAt index = p.earnedTimeUnits.raw := by
  rw [unitsAt, h, sub_self, mul_zero, add_zero]

/-- A settlement credits what was earned. -/
theorem PersonalPosition.Settled.earned_eq_unitsAt {p p' : PersonalPosition} {t : TimeTracker}
    (h : p.Settled p' t) : (p'.earnedTimeUnits.raw : ℤ) = p.unitsAt t.index := by
  have hseen : p.lastSeenIndex.raw ≤ t.index.raw := h.seen
  rw [unitsAt, h.earned]
  push_cast [hseen]
  ring

theorem PersonalPosition.Settled.unitsAt_eq {p p' : PersonalPosition} {t : TimeTracker}
    (h : p.Settled p' t) (amount : ℕ) :
    ({ p' with amount } : PersonalPosition).unitsAt t.index = p.unitsAt t.index := by
  rw [← h.earned_eq_unitsAt]
  exact unitsAt_of_seen h.lastSeen

namespace EscrowBook

variable {ι : Type} [DecidableEq ι]

/-- The raw time units of all positions, credited or not. -/
def timeUnits (book : EscrowBook ι) : ℤ :=
  book.positions.total fun _ p => p.unitsAt book.tracker.index

/-- The raw time units that the tracker's advance in a call hands out: none while nothing is
deposited. -/
def unitsGained (book : EscrowBook ι) (_ : EscrowCall ι) (book' : EscrowBook ι) : ℕ :=
  let total := book.tracker.totalLpDeposited
  if 0 < total then
    total * ((book'.tracker.lastSeenTs - book.tracker.lastSeenTs) * scale / total)
  else 0

/-- The tokens of the position under an account, none if there is no position. -/
def amountOf (book : EscrowBook ι) (account : ι) : ℕ :=
  (book.positions.lookup account).elim 0 PersonalPosition.amount

/-- The total is the sum of the positions, and no position has seen more than the index. -/
structure Balanced (book : EscrowBook ι) : Prop where
  total : book.tracker.totalLpDeposited = book.positions.total fun _ p => p.amount
  seen : ∀ account p, book.positions.lookup account = some p → p.lastSeenIndex ≤ book.tracker.index

variable {book book' : EscrowBook ι} {call : EscrowCall ι}

omit [DecidableEq ι] in
theorem unitsGained_eq {t : TimeTracker} {elapsed : ℕ} (hadv : book.tracker.Advanced t elapsed)
    (h : book'.tracker.lastSeenTs = t.lastSeenTs) :
    book.unitsGained call book' =
      book.tracker.totalLpDeposited * (elapsed * scale / book.tracker.totalLpDeposited) := by
  rw [unitsGained, h, hadv.ts, Nat.add_sub_cancel_left]
  split
  · rfl
  · rename_i hzero
    rw [Nat.eq_zero_of_not_pos hzero, Nat.zero_mul]

theorem Balanced.step (hb : book.Balanced) (h : book.step call = some book') : book'.Balanced := by
  obtain ⟨t, elapsed, hadv, -, hcases⟩ := step_cases h
  have hseen : ∀ account p, book.positions.lookup account = some p → p.lastSeenIndex ≤ t.index :=
    fun account p hp => Nat.le_trans (hb.seen account p hp) hadv.index_le
  rcases hcases with ⟨hnone, -, owner, -, rfl⟩ | ⟨p, p', total, amount, hp, hset, htotal, hamount, rfl⟩
  · refine ⟨?_, Table.forall_insert hseen (Nat.le_refl _)⟩
    rw [Table.total_insert_new hnone, Nat.zero_add, hadv.total]
    exact hb.total
  · refine ⟨?_, Table.forall_insert hseen (Nat.le_of_eq (congrArg Number.raw hset.lastSeen))⟩
    have hsum := Table.total_insert_change (f := fun _ p => p.amount) (a := { p' with amount }) hp hamount
    have hold := hb.total
    have hkept := hadv.total
    dsimp only
    omega

theorem Balanced.amount_le (hb : book.Balanced) {account : ι} {p : PersonalPosition}
    (hp : book.positions.lookup account = some p) :
    p.amount ≤ book.tracker.totalLpDeposited := by
  rw [hb.total]
  exact Table.le_total (f := fun _ p => p.amount) hp fun _ _ _ => Nat.zero_le _

theorem amountOf_eq {account : ι} {p : PersonalPosition}
    (h : book.positions.lookup account = some p) : book.amountOf account = p.amount := by
  rw [amountOf, h, Option.elim_some]

/-- Before anything is settled, every position has gained its amount times the index's growth. -/
theorem Balanced.timeUnits_advanced (hb : book.Balanced) {t : TimeTracker} {elapsed : ℕ}
    (hadv : book.tracker.Advanced t elapsed) :
    (book.positions.total fun _ p => p.unitsAt t.index) = book.timeUnits +
      ((book.tracker.totalLpDeposited * (elapsed * scale / book.tracker.totalLpDeposited) : ℕ) : ℤ) := by
  rw [Table.total_eq_add_mul _ fun _ p _ => p.unitsAt_advanced hadv, ← Table.natCast_total, ← hb.total,
    timeUnits, Nat.cast_mul]

/-- The time units grow by what the tracker hands out. -/
theorem Balanced.timeUnits_step (hb : book.Balanced) (h : book.step call = some book') :
    book'.timeUnits = book.timeUnits + book.unitsGained call book' := by
  obtain ⟨t, elapsed, hadv, -, hcases⟩ := step_cases h
  have hadvanced := hb.timeUnits_advanced hadv
  rcases hcases with ⟨hnone, -, owner, -, rfl⟩ | ⟨p, p', total, amount, hp, hset, -, -, rfl⟩
  · rw [unitsGained_eq hadv rfl, ← hadvanced, timeUnits, Table.total_insert_new hnone]
    simp [PersonalPosition.unitsAt]
  · have hsum := Table.total_insert (f := fun _ p => p.unitsAt t.index) (a := { p' with amount }) hp
    rw [hset.unitsAt_eq, add_comm, add_left_cancel_iff] at hsum
    rw [unitsGained_eq hadv rfl, ← hadvanced, ← hsum]
    rfl

/-- A position earns its part of each second, and keeps its amount and the total if no tokens move. -/
theorem position_step {account : ι} {p : PersonalPosition} (h : book.step call = some book')
    (hp : book.positions.lookup account = some p) :
    ∃ p' elapsed, book'.positions.lookup account = some p' ∧
      book'.tracker.lastSeenTs = book.tracker.lastSeenTs + elapsed ∧
      (book'.tracker.lastSeenTs : ℤ) = call.now ∧
      p'.unitsAt book'.tracker.index = p.unitsAt book.tracker.index +
        p.amount * ((elapsed * scale / book.tracker.totalLpDeposited : ℕ) : ℤ) ∧
      (call.change = 0 → p'.amount = p.amount ∧
        book'.tracker.totalLpDeposited = book.tracker.totalLpDeposited) := by
  obtain ⟨t, elapsed, hadv, hnow, hcases⟩ := step_cases h
  have hts := hadv.ts
  have hgained := p.unitsAt_advanced hadv
  have hcall : (t.lastSeenTs : ℤ) = call.now := by omega
  rcases hcases with ⟨hnone, -, owner, -, rfl⟩ | ⟨p₀, p', total, amount, hp₀, hset, htotal, hamount, rfl⟩
  · have hother : ¬account = call.account := by
      rintro rfl
      rw [hnone] at hp
      cases hp
    exact ⟨p, elapsed, (Finmap.lookup_insert_of_ne _ hother).trans hp, hts, hcall, hgained,
      fun _ => ⟨rfl, hadv.total⟩⟩
  · have hkept : call.change = 0 → total = book.tracker.totalLpDeposited := by
      intro hzero
      have := hadv.total
      omega
    by_cases haccount : account = call.account
    · subst haccount
      obtain rfl : p₀ = p := Option.some.inj (hp₀.symm.trans hp)
      refine ⟨{ p' with amount }, elapsed, Finmap.lookup_insert _, hts, hcall, ?_, fun hzero => ?_⟩
      · exact (hset.unitsAt_eq amount).trans hgained
      · refine ⟨?_, hkept hzero⟩
        dsimp only
        omega
    · exact ⟨p, elapsed, (Finmap.lookup_insert_of_ne _ haccount).trans hp, hts, hcall, hgained,
        fun hzero => ⟨rfl, hkept hzero⟩⟩

/-- One advance hands out at most the time that has passed and, while there are deposits, less than one
raw unit a token under it. -/
theorem unitsGained_bounds (h : book.step call = some book') :
    ∃ elapsed : ℕ, (book'.tracker.lastSeenTs : ℤ) = book.tracker.lastSeenTs + elapsed ∧
      book.unitsGained call book' ≤ elapsed * scale ∧
      (0 < book.tracker.totalLpDeposited →
        elapsed * scale < book.unitsGained call book' + book.tracker.totalLpDeposited) ∧
      (book.tracker.totalLpDeposited = 0 → book.unitsGained call book' = 0) := by
  obtain ⟨t, elapsed, hadv, -, hcases⟩ := step_cases h
  have hts : book'.tracker.lastSeenTs = t.lastSeenTs := by
    rcases hcases with ⟨-, -, _, -, rfl⟩ | ⟨_, _, _, _, -, -, -, -, rfl⟩ <;> rfl
  refine ⟨elapsed, ?_, ?_, ?_, ?_⟩
  · rw [hts, hadv.ts, Nat.cast_add]
  · rw [unitsGained_eq hadv hts]
    exact Nat.mul_div_le _ _
  · intro hpos
    rw [unitsGained_eq hadv hts, ← Nat.mul_succ]
    exact Nat.lt_mul_div_succ _ hpos
  · intro hzero
    rw [unitsGained_eq hadv hts, hzero, Nat.zero_mul]

theorem balanced_run {start : EscrowBook ι} (h : start.Balanced) (calls : List (EscrowCall ι)) :
    (run step start calls).Balanced :=
  run_invariant (fun _ _ _ hb hs => hb.step hs) calls h

theorem balanced_start (tracker : TimeTracker) (h : tracker.totalLpDeposited = 0) :
    (⟨tracker, ∅⟩ : EscrowBook ι).Balanced := by
  refine ⟨h, ?_⟩
  intro account p hp
  cases hp

theorem total_eq_tokens (start : EscrowBook ι) (calls : List (EscrowCall ι)) :
    ((run step start calls).tracker.totalLpDeposited : ℤ) = start.tracker.totalLpDeposited +
      (tally step tokensIn start calls - tally step tokensOut start calls) := by
  rw [← tally_sub]
  refine run_tally (P := fun (book : EscrowBook ι) (m : ℤ) =>
    (book.tracker.totalLpDeposited : ℤ) = m) ?_ calls rfl
  intro book m call book' hm hs
  obtain ⟨t, elapsed, hadv, -, hcases⟩ := step_cases hs
  rw [tokens_eq_change hs, ← hm]
  rcases hcases with ⟨-, hchange, owner, -, rfl⟩ | ⟨p, p', total, amount, -, -, htotal, -, rfl⟩
  · rw [hchange, add_zero, hadv.total]
  · rw [htotal, hadv.total]

theorem timeUnits_run {start : EscrowBook ι} (h : start.Balanced) (calls : List (EscrowCall ι)) :
    (run step start calls).timeUnits =
      start.timeUnits + (tally step unitsGained start calls : ℕ) := by
  have hcast : ((tally step unitsGained start calls : ℕ) : ℤ) =
      tally step (fun book call book' => (book.unitsGained call book' : ℤ)) start calls :=
    map_tally (Nat.castAddMonoidHom ℤ) unitsGained start calls
  rw [hcast]
  refine (run_tally (P := fun (book : EscrowBook ι) (m : ℤ) => book.Balanced ∧ book.timeUnits = m)
    ?_ calls ⟨h, rfl⟩).2
  rintro book m call book' ⟨hb, rfl⟩ hs
  exact ⟨hb.step hs, hb.timeUnits_step hs⟩

theorem tally_unitsGained_le (start : EscrowBook ι) (calls : List (EscrowCall ι)) :
    ((tally step unitsGained start calls : ℕ) : ℤ) ≤
      scale * ((run step start calls).tracker.lastSeenTs - start.tracker.lastSeenTs) := by
  have hzero : ((0 : ℕ) : ℤ) ≤ scale * ((start.tracker.lastSeenTs : ℤ) - start.tracker.lastSeenTs) := by
    rw [Nat.cast_zero, sub_self, mul_zero]
  rw [← zero_add (tally step unitsGained start calls)]
  refine run_tally (P := fun (book : EscrowBook ι) (m : ℕ) =>
    (m : ℤ) ≤ scale * ((book.tracker.lastSeenTs : ℤ) - start.tracker.lastSeenTs)) ?_ calls hzero
  intro book m call book' hm hs
  obtain ⟨elapsed, hts, hle, -⟩ := unitsGained_bounds hs
  have hle' : ((book.unitsGained call book' : ℕ) : ℤ) ≤ elapsed * scale := by exact_mod_cast hle
  rw [hts]
  push_cast
  linarith

/-- **Conservation.** After every run of an escrow the tracker's total is the sum of all positions and
the tokens moved in less those moved out. Between two points of a run the time units grow by what the
advances between them hand out, which is at most the time that has passed; an advance loses less than
one raw unit a token, and while nothing is deposited nothing is earned. -/
theorem escrow_conserves {now : Int} {poolId escrowAccount : Address} {tracker : TimeTracker}
    (hinit : Escrow.initTimeTracker now poolId escrowAccount = .ok tracker)
    (before after : List (EscrowCall ι)) :
    let start : EscrowBook ι := ⟨tracker, ∅⟩
    let mid := run step start before
    let last := run step mid after
    mid.tracker.totalLpDeposited = mid.positions.total (fun _ p => p.amount) ∧
      (mid.tracker.totalLpDeposited : ℤ) =
        tally step tokensIn start before - tally step tokensOut start before ∧
      last.timeUnits - mid.timeUnits = (tally step unitsGained mid after : ℕ) ∧
      last.timeUnits - mid.timeUnits ≤
        scale * ((last.tracker.lastSeenTs : ℤ) - mid.tracker.lastSeenTs) ∧
      ∀ call next, mid.step call = some next →
        (0 < mid.tracker.totalLpDeposited →
          scale * ((next.tracker.lastSeenTs : ℤ) - mid.tracker.lastSeenTs) -
            mid.tracker.totalLpDeposited < next.timeUnits - mid.timeUnits) ∧
        (mid.tracker.totalLpDeposited = 0 → next.timeUnits = mid.timeUnits) := by
  intro start mid last
  have hzero : tracker.totalLpDeposited = 0 := Escrow.initTimeTracker_ok hinit
  have hmid : mid.Balanced := balanced_run (balanced_start tracker hzero) before
  have hunits : last.timeUnits = mid.timeUnits + (tally step unitsGained mid after : ℕ) :=
    timeUnits_run hmid after
  refine ⟨hmid.total, ?_, ?_, ?_, ?_⟩
  · have htokens := total_eq_tokens start before
    rwa [show start.tracker.totalLpDeposited = 0 from hzero, Nat.cast_zero, zero_add] at htokens
  · rw [hunits, add_sub_cancel_left]
  · rw [hunits, add_sub_cancel_left]
    exact tally_unitsGained_le mid after
  · intro call next hs
    obtain ⟨elapsed, hts, -, hlt, hnone⟩ := unitsGained_bounds hs
    rw [hmid.timeUnits_step hs, hts, add_sub_cancel_left, add_sub_cancel_left]
    constructor
    · intro hpos
      have := hlt hpos
      rw [sub_lt_iff_lt_add, mul_comm]
      exact_mod_cast this
    · intro hempty
      rw [hnone hempty, Nat.cast_zero, add_zero]

/-- A second owner joins while the first has earned for twelve seconds. -/
theorem escrow_conserves_late_joiner :
    let tracker : TimeTracker := ⟨.zero, .zero, .zero, 0, 0⟩
    Escrow.initTimeTracker 0 .zero .zero = .ok tracker ∧
      let mid := run step (⟨tracker, ∅⟩ : EscrowBook ℕ)
        [.initPosition 0 0 .zero, .deposit 0 0 3, .initPosition 12 1 .zero]
      let last := run step mid [.deposit 12 1 4, .update 19 0]
      last.timeUnits - mid.timeUnits ≤
        scale * ((last.tracker.lastSeenTs : ℤ) - mid.tracker.lastSeenTs) := by
  intro tracker
  have hinit : Escrow.initTimeTracker 0 .zero .zero = .ok tracker := rfl
  exact ⟨hinit, (escrow_conserves hinit _ _).2.2.2.1⟩

end EscrowBook

end EmissionLedger
