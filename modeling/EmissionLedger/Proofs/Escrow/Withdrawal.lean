import EmissionLedger.Proofs.Escrow.Conservation

/-!
Tokens can always be taken out of the escrow. A position belongs to the tracker that it is settled
against, and no number outgrows the time: the index gains at most one unit a second, and so do the time
units of a position. Until the clock leaves 64 bits all of them fit, so a withdrawal of what a position
holds meets none of the checks on its way.

Main statement: `Bounded.withdraw_answered`.
-/

namespace EmissionLedger

theorem TimeTracker.advance_answered {t : TimeTracker} {now : Int} {elapsed : ℕ}
    (hnow : now = t.lastSeenTs + elapsed) (hindex : t.index.raw + elapsed * scale ≤ maxRaw)
    (htotal : t.totalLpDeposited * scale ≤ maxRaw) : ∃ t', t.advance now = .ok t' := by
  have hgrowth : t.index.raw + Rate.perSecond.rawWorth elapsed ≤ maxRaw := hindex
  obtain ⟨step, hstep⟩ := advanceSharedIndex_answered "time tracker" hnow
    (Nat.le_trans (Nat.le_add_left _ _) hindex) hgrowth htotal
  exact bind_answered hstep ⟨_, rfl⟩

theorem TimeTracker.Advanced.index_le_clock {t t' : TimeTracker} {elapsed : ℕ}
    (hadv : t.Advanced t' elapsed) (h : t.index.raw ≤ t.lastSeenTs * scale) :
    t'.index.raw ≤ t'.lastSeenTs * scale := by
  rw [hadv.index, hadv.ts, Nat.add_mul]
  exact Nat.add_le_add h (Nat.div_le_self _ _)

theorem PersonalPosition.settle_answered {p : PersonalPosition} {t : TimeTracker}
    (hlinked : p.timeTracker = t.poolId) (hseen : p.lastSeenIndex ≤ t.index)
    (hamount : p.amount * scale ≤ maxRaw) (hunits : p.unitsAt t.index ≤ maxRaw) :
    ∃ p', p.settle t = .ok p' := by
  have hearned : p.earnedTimeUnits.raw + p.amount * (t.index.raw - p.lastSeenIndex.raw) ≤ maxRaw := by
    have hle : p.lastSeenIndex.raw ≤ t.index.raw := hseen
    unfold unitsAt at hunits
    zify [hle]
    exact hunits
  have hcheck : p.checkTracker t = .ok () := if_pos hlinked
  obtain ⟨accrual, haccrual⟩ := accrueShare_answered "personal position" hseen hamount (by omega)
  obtain ⟨-, haccrued, -⟩ := accrueShare_ok haccrual
  obtain ⟨earned, hearned'⟩ := Number.exists_raw hearned
  apply bind_answered hcheck
  apply bind_answered haccrual
  split
  · exact ⟨_, rfl⟩
  · rw [← haccrued] at hearned'
    exact bind_answered (Number.add_eq_ok.mpr hearned') ⟨_, rfl⟩

namespace EscrowBook

variable {ι : Type} [DecidableEq ι]

/-- Every position belongs to the tracker, the total is a 64-bit number, and neither the index nor a
position has gained more than one unit a second. -/
structure Bounded (book : EscrowBook ι) : Prop where
  linked : ∀ account p, book.positions.lookup account = some p →
    p.timeTracker = book.tracker.poolId
  total : book.tracker.totalLpDeposited ≤ maxU64
  index : book.tracker.index.raw ≤ book.tracker.lastSeenTs * scale
  units : ∀ account p, book.positions.lookup account = some p →
    p.unitsAt book.tracker.index ≤ (book.tracker.lastSeenTs * scale : ℕ)

variable {book book' : EscrowBook ι} {call : EscrowCall ι}

theorem bounded_start {now : Int} {poolId escrowAccount : Address} {tracker : TimeTracker}
    (h : Escrow.initTimeTracker now poolId escrowAccount = .ok tracker) :
    (⟨tracker, ∅⟩ : EscrowBook ι).Bounded := by
  simp only [Escrow.initTimeTracker, bind_eq_ok, pure_eq_ok] at h
  obtain ⟨start, -, rfl⟩ := h
  refine ⟨?_, Nat.zero_le _, Nat.zero_le _, ?_⟩
  · intro account p hp
    cases hp
  · intro account p hp
    cases hp

theorem total_of_step (h : book.step call = some book') :
    (book'.tracker.totalLpDeposited : ℤ) = book.tracker.totalLpDeposited + call.change := by
  obtain ⟨t, elapsed, hadv, -, hcases⟩ := step_cases h
  rcases hcases with ⟨-, hchange, owner, -, rfl⟩ | ⟨p, p', total, amount, -, -, htotal, -, rfl⟩
  · rw [hchange, add_zero, hadv.total]
  · rw [htotal, hadv.total]

/-- A deposit is refused if the total would leave 64 bits, and no other call adds to it. -/
theorem total_le_of_step (h : book.step call = some book')
    (hle : book.tracker.totalLpDeposited ≤ maxU64) : book'.tracker.totalLpDeposited ≤ maxU64 := by
  have htotal := total_of_step h
  obtain ⟨out, hout, rfl⟩ := step_eq_some.mp h
  cases call with
  | initPosition now account owner =>
      exact (Int.ofNat_inj.mp (htotal.trans (add_zero _))).trans_le hle
  | deposit now account amount =>
      obtain ⟨p, -, hdeposit⟩ := answer_deposit.mp hout
      simp only [Escrow.deposit, bind_eq_ok, pure_eq_ok, Counter.add_eq_ok] at hdeposit
      obtain ⟨_, -, _, -, _, -, total, ⟨hfits, -⟩, rfl⟩ := hdeposit
      exact hfits
  | withdraw now account amount =>
      obtain ⟨p, -, hwithdraw⟩ := answer_withdraw.mp hout
      have htaken := (Escrow.withdraw_ok hwithdraw).2
      rw [EscrowCall.change] at htotal
      omega
  | update now account =>
      exact (Int.ofNat_inj.mp (htotal.trans (add_zero _))).trans_le hle

theorem Bounded.units_advanced (hb : book.Bounded) (hbalanced : book.Balanced) {t : TimeTracker}
    {elapsed : ℕ} (hadv : book.tracker.Advanced t elapsed) {account : ι} {p : PersonalPosition}
    (hp : book.positions.lookup account = some p) :
    p.unitsAt t.index ≤ (t.lastSeenTs * scale : ℕ) := by
  -- a position holds at most the total, so it earns at most one unit a second
  have hgrowth : p.amount * (elapsed * scale / book.tracker.totalLpDeposited) ≤ elapsed * scale :=
    (Nat.mul_le_mul_right _ (hbalanced.amount_le hp)).trans (Nat.mul_div_le _ _)
  rw [p.unitsAt_advanced hadv, hadv.ts, Nat.add_mul, Nat.cast_add]
  exact add_le_add (hb.units account p hp) (by exact_mod_cast hgrowth)

theorem Bounded.step (hb : book.Bounded) (hbalanced : book.Balanced) (h : book.step call = some book') :
    book'.Bounded := by
  have htotal := total_le_of_step h hb.total
  obtain ⟨t, elapsed, hadv, -, hcases⟩ := step_cases h
  have hindex := hadv.index_le_clock hb.index
  have hlinked : ∀ account p, book.positions.lookup account = some p → p.timeTracker = t.poolId :=
    fun account p hp => (hb.linked account p hp).trans hadv.poolId.symm
  have hunits : ∀ account p, book.positions.lookup account = some p →
      p.unitsAt t.index ≤ (t.lastSeenTs * scale : ℕ) :=
    fun _ _ hp => hb.units_advanced hbalanced hadv hp
  rcases hcases with ⟨hnone, -, owner, -, rfl⟩ | ⟨p, p', total, amount, hp, hset, -, -, rfl⟩
  · refine ⟨Table.forall_insert hlinked rfl, htotal, hindex, Table.forall_insert hunits ?_⟩
    rw [PersonalPosition.unitsAt_of_seen rfl]
    exact Int.natCast_nonneg _
  · refine ⟨Table.forall_insert hlinked ?_, htotal, hindex, Table.forall_insert hunits ?_⟩
    · exact hset.timeTracker.trans (hlinked _ p hp)
    · exact (hset.unitsAt_eq amount).trans_le (hunits _ p hp)

theorem bounded_run {start : EscrowBook ι} (hbounded : start.Bounded) (hbalanced : start.Balanced)
    (calls : List (EscrowCall ι)) : (run step start calls).Bounded :=
  (run_invariant (P := fun book : EscrowBook ι => book.Bounded ∧ book.Balanced)
    (fun _ _ _ h hs => ⟨h.1.step h.2 hs, h.2.step hs⟩) calls ⟨hbounded, hbalanced⟩).1

theorem Bounded.sync_answered (hb : book.Bounded) (hbalanced : book.Balanced) {account : ι}
    {p : PersonalPosition} (hp : book.positions.lookup account = some p) {now : ℕ}
    (hnow : book.tracker.lastSeenTs ≤ now) (hfits : now ≤ maxU64) :
    ∃ synced, Escrow.sync now book.tracker p = .ok synced := by
  have hwidth : maxU64 * scale ≤ maxRaw := by decide
  have hclock : now * scale ≤ maxRaw := (Nat.mul_le_mul_right _ hfits).trans hwidth
  obtain ⟨elapsed, rfl⟩ := Nat.exists_eq_add_of_le hnow
  have hindex : book.tracker.index.raw + elapsed * scale ≤ maxRaw := by
    rw [Nat.add_mul] at hclock
    exact (Nat.add_le_add_right hb.index _).trans hclock
  have htotal : book.tracker.totalLpDeposited * scale ≤ maxRaw :=
    (Nat.mul_le_mul_right _ hb.total).trans hwidth
  obtain ⟨t, hadvance⟩ := TimeTracker.advance_answered (Nat.cast_add _ _) hindex htotal
  obtain ⟨seconds, hseconds, hadv⟩ := TimeTracker.advance_ok hadvance
  obtain rfl : elapsed = seconds := by omega
  have hseen : p.lastSeenIndex ≤ t.index :=
    Nat.le_trans (hbalanced.seen account p hp) hadv.index_le
  have hamount : p.amount * scale ≤ maxRaw :=
    (Nat.mul_le_mul_right _ (hbalanced.amount_le hp)).trans htotal
  have hunits : p.unitsAt t.index ≤ (maxRaw : ℕ) := by
    refine (hb.units_advanced hbalanced hadv hp).trans ?_
    rw [hadv.ts]
    exact_mod_cast hclock
  have hlinked := hb.linked account p hp
  obtain ⟨p', hsettle⟩ :=
    PersonalPosition.settle_answered (hlinked.trans hadv.poolId.symm) hseen hamount hunits
  apply bind_answered (if_pos hlinked : p.checkTracker book.tracker = .ok ())
  apply bind_answered hadvance
  exact bind_answered hsettle ⟨_, rfl⟩

/-- **Withdrawal.** What a position holds can be taken out, in whole or in part, at any time from the
tracker's on that fits 64 bits. -/
theorem Bounded.withdraw_answered (hb : book.Bounded) (hbalanced : book.Balanced) {account : ι}
    {p : PersonalPosition} (hp : book.positions.lookup account = some p) {now amount : ℕ}
    (hnow : book.tracker.lastSeenTs ≤ now) (hfits : now ≤ maxU64) (hamount : amount ≤ p.amount) :
    ∃ out, Escrow.withdraw now book.tracker p amount = .ok out := by
  have hle := hbalanced.amount_le hp
  have hu64 : requireU64 "amount" amount = .ok amount :=
    requireU64_eq_ok.mpr ⟨hamount.trans (hle.trans hb.total), rfl⟩
  obtain ⟨⟨t, p'⟩, hsync⟩ := hb.sync_answered hbalanced hp hnow hfits
  obtain ⟨⟨_, -, hadv⟩, hset⟩ := Escrow.sync_ok hsync
  have hown : p'.amount - amount + amount = p'.amount := Nat.sub_add_cancel (hset.amount.symm ▸ hamount)
  have htotal : t.totalLpDeposited - amount + amount = t.totalLpDeposited :=
    Nat.sub_add_cancel (hadv.total.symm ▸ hamount.trans hle)
  apply bind_answered hu64
  apply bind_answered hsync
  apply bind_answered (Counter.sub_eq_ok.mpr hown)
  exact bind_answered (Counter.sub_eq_ok.mpr htotal) ⟨_, rfl⟩

end EscrowBook

end EmissionLedger
