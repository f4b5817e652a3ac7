import EmissionLedger.Escrow
import EmissionLedger.Proofs.Accrual.Faults
import EmissionLedger.Proofs.Run
import EmissionLedger.Proofs.Table

/-!
The book of one pool's escrow: its tracker and its positions, as they were committed last. Positions
are told apart by their accounts, so one owner may have several; an account is opened once. Every call
is answered from the records in the book and commits the records that the escrow returns.

Main statement: an answered call moves the tracker on and then either opens an empty position or
settles one position and changes its amount and the total by the same number (`step_cases`).
-/

namespace EmissionLedger

/-! ### What the operations return -/

/-- The tracker `t'` is `t` moved on by some seconds. -/
structure TimeTracker.Advanced (t t' : TimeTracker) (elapsed : ℕ) : Prop where
  poolId : t'.poolId = t.poolId
  escrowAccount : t'.escrowAccount = t.escrowAccount
  total : t'.totalLpDeposited = t.totalLpDeposited
  ts : t'.lastSeenTs = t.lastSeenTs + elapsed
  index : t'.index.raw = t.index.raw + elapsed * scale / t.totalLpDeposited

theorem TimeTracker.Advanced.index_le {t t' : TimeTracker} {elapsed : ℕ}
    (h : t.Advanced t' elapsed) : t.index ≤ t'.index := by
  rw [Number.le_iff, h.index]
  exact Nat.le_add_right _ _

/-- The position `p'` is `p` with all credited that it has earned up to the index of `t`. -/
structure PersonalPosition.Settled (p p' : PersonalPosition) (t : TimeTracker) : Prop where
  linked : p.timeTracker = t.poolId
  seen : p.lastSeenIndex ≤ t.index
  owner : p'.owner = p.owner
  timeTracker : p'.timeTracker = p.timeTracker
  amount : p'.amount = p.amount
  lastSeen : p'.lastSeenIndex = t.index
  earned : p'.earnedTimeUnits.raw =
    p.earnedTimeUnits.raw + p.amount * (t.index.raw - p.lastSeenIndex.raw)

theorem TimeTracker.advance_ok {t t' : TimeTracker} {now : Int} (h : t.advance now = .ok t') :
    ∃ elapsed : ℕ, now = t.lastSeenTs + elapsed ∧ t.Advanced t' elapsed := by
  simp only [advance, bind_eq_ok, pure_eq_ok] at h
  obtain ⟨step, hstep, rfl⟩ := h
  obtain ⟨hnow, hindex⟩ := advanceSharedIndex_ok hstep
  refine ⟨step.elapsed, hnow, rfl, rfl, rfl, ?_, hindex⟩
  dsimp only
  omega

theorem TimeTracker.ts_of_advance {t t' : TimeTracker} {now : Int} (h : t.advance now = .ok t') :
    (t'.lastSeenTs : Int) = now := by
  obtain ⟨elapsed, hnow, hadv⟩ := advance_ok h
  rw [hadv.ts, hnow, Int.natCast_add]

theorem PersonalPosition.checkTracker_ok {p : PersonalPosition} {t : TimeTracker}
    (h : p.checkTracker t = .ok ()) : p.timeTracker = t.poolId := by
  rw [checkTracker] at h
  split at h
  · assumption
  · cases h

theorem PersonalPosition.settle_ok {p p' : PersonalPosition} {t : TimeTracker}
    (h : p.settle t = .ok p') : p.Settled p' t := by
  simp only [settle, bind_eq_ok] at h
  obtain ⟨_, hlink, accrual, haccrual, h⟩ := h
  obtain ⟨hle, haccrued, hlast⟩ := accrueShare_ok haccrual
  have hlinked := checkTracker_ok hlink
  split at h
  · -- nothing was earned and nothing new was seen
    rename_i hnone
    rw [pure_eq_ok] at h
    subst h
    refine ⟨hlinked, hle, rfl, rfl, rfl, by rw [← hnone.2, hlast], ?_⟩
    rw [← haccrued, hnone.1, Number.raw_zero, Nat.add_zero]
  · simp only [bind_eq_ok, pure_eq_ok, Number.add_eq_ok] at h
    obtain ⟨earned, hearned, rfl⟩ := h
    exact ⟨hlinked, hle, rfl, rfl, rfl, hlast, by rw [hearned, haccrued]⟩

namespace Escrow

theorem initTimeTracker_ok {now : Int} {poolId escrowAccount : Address} {t : TimeTracker}
    (h : initTimeTracker now poolId escrowAccount = .ok t) : t.totalLpDeposited = 0 := by
  simp only [initTimeTracker, bind_eq_ok, pure_eq_ok] at h
  obtain ⟨_, -, rfl⟩ := h
  rfl

/-- That the records belong together is checked once more when the position is settled. -/
theorem sync_eq_ok {now : Int} {t t' : TimeTracker} {p p' : PersonalPosition} :
    sync now t p = .ok (t', p') ↔ t.advance now = .ok t' ∧ p.settle t' = .ok p' := by
  constructor
  · intro h
    simp only [sync, bind_eq_ok, pure_eq_ok] at h
    obtain ⟨_, -, t₁, hadvance, p₁, hsettle, heq⟩ := h
    cases heq
    exact ⟨hadvance, hsettle⟩
  · rintro ⟨hadvance, hsettle⟩
    obtain ⟨_, -, hadv⟩ := TimeTracker.advance_ok hadvance
    have hlinked := (PersonalPosition.settle_ok hsettle).linked.trans hadv.poolId
    apply bind_ok (if_pos hlinked)
    apply bind_ok hadvance
    exact bind_ok hsettle rfl

theorem sync_ok {now : Int} {t t' : TimeTracker} {p p' : PersonalPosition}
    (h : sync now t p = .ok (t', p')) :
    (∃ elapsed : ℕ, now = t.lastSeenTs + elapsed ∧ t.Advanced t' elapsed) ∧ p.Settled p' t' := by
  obtain ⟨hadvance, hsettle⟩ := sync_eq_ok.mp h
  exact ⟨TimeTracker.advance_ok hadvance, PersonalPosition.settle_ok hsettle⟩

theorem initPersonalPosition_ok {now : Int} {t : TimeTracker} {owner : Address} {out : Outcome}
    (h : initPersonalPosition now t owner = .ok out) :
    t.advance now = .ok out.timeTracker ∧ out.transferAmount = 0 ∧
      out.position = {
        owner, timeTracker := out.timeTracker.poolId, amount := 0
        lastSeenIndex := out.timeTracker.index, earnedTimeUnits := .zero } := by
  simp only [initPersonalPosition, bind_eq_ok, pure_eq_ok] at h
  obtain ⟨t', hadvance, rfl⟩ := h
  exact ⟨hadvance, rfl, rfl⟩

/-- A settled position and a moved-on tracker whose amounts were changed by the same number. -/
structure Moved (now : Int) (t : TimeTracker) (p : PersonalPosition) (out : Outcome) (change : ℤ) :
    Prop where
  synced : ∃ t' p', sync now t p = .ok (t', p') ∧
    out.timeTracker = { t' with totalLpDeposited := out.timeTracker.totalLpDeposited } ∧
    out.position = { p' with amount := out.position.amount }
  total : (out.timeTracker.totalLpDeposited : ℤ) = t.totalLpDeposited + change
  amount : (out.position.amount : ℤ) = p.amount + change

theorem deposit_ok {now amount : Int} {t : TimeTracker} {p : PersonalPosition} {out : Outcome}
    (h : deposit now t p amount = .ok out) : Moved now t p out amount ∧ out.transferAmount = amount := by
  simp only [deposit, bind_eq_ok, pure_eq_ok, requireU64_eq_ok, Counter.add_eq_ok] at h
  obtain ⟨n, ⟨-, rfl⟩, ⟨t', p'⟩, hsync, own, ⟨-, hown⟩, total, ⟨-, htotal⟩, rfl⟩ := h
  obtain ⟨⟨_, -, hadv⟩, hset⟩ := sync_ok hsync
  have ht := hadv.total
  have hp := hset.amount
  refine ⟨⟨⟨t', p', hsync, rfl, rfl⟩, ?_, ?_⟩, rfl⟩ <;> dsimp only at * <;> omega

theorem withdraw_ok {now amount : Int} {t : TimeTracker} {p : PersonalPosition} {out : Outcome}
    (h : withdraw now t p amount = .ok out) :
    Moved now t p out (-amount) ∧ out.transferAmount = amount := by
  simp only [withdraw, bind_eq_ok, pure_eq_ok, requireU64_eq_ok, Counter.sub_eq_ok] at h
  obtain ⟨n, ⟨-, rfl⟩, ⟨t', p'⟩, hsync, own, hown, total, htotal, rfl⟩ := h
  obtain ⟨⟨_, -, hadv⟩, hset⟩ := sync_ok hsync
  have ht := hadv.total
  have hp := hset.amount
  refine ⟨⟨⟨t', p', hsync, rfl, rfl⟩, ?_, ?_⟩, rfl⟩ <;> dsimp only at * <;> omega

theorem updatePersonal_ok {now : Int} {t : TimeTracker} {p : PersonalPosition} {out : Outcome}
    (h : updatePersonal now t p = .ok out) : Moved now t p out 0 ∧ out.transferAmount = 0 := by
  simp only [updatePersonal, bind_eq_ok, pure_eq_ok] at h
  obtain ⟨⟨t', p'⟩, hsync, rfl⟩ := h
  obtain ⟨⟨_, -, hadv⟩, hset⟩ := sync_ok hsync
  have ht := hadv.total
  have hp := hset.amount
  refine ⟨⟨⟨t', p', hsync, rfl, rfl⟩, ?_, ?_⟩, rfl⟩ <;> dsimp only at * <;> omega

end Escrow

/-! ### With which faults they refuse -/

section

variable {allowed : Fault → Prop} {now : Int} {t : TimeTracker} {p : PersonalPosition}

theorem TimeTracker.advance_faultsIn (hover : ∀ e : Fault, e.causeKind = .arithmeticOverflow → allowed e)
    (hlate : now < t.lastSeenTs → allowed (.timestampRegression "time tracker" now t.lastSeenTs)) :
    FaultsIn allowed (t.advance now) :=
  .bind (advanceSharedIndex_faultsIn hover hlate) fun _ _ => .pure

theorem PersonalPosition.checkTracker_faultsIn
    (hlink : p.timeTracker ≠ t.poolId →
      allowed (.mismatch (.position p.owner p.timeTracker t.poolId))) :
    FaultsIn allowed (p.checkTracker t) := by
  rw [checkTracker]
  exact .ite (fun _ => .ok) fun hne => .error (hlink hne)

theorem PersonalPosition.settle_faultsIn
    (hover : ∀ e : Fault, e.causeKind = .arithmeticOverflow → allowed e)
    (hlink : p.timeTracker ≠ t.poolId → allowed (.mismatch (.position p.owner p.timeTracker t.poolId)))
    (hback : t.index < p.lastSeenIndex →
      allowed (.indexRegression (.share "personal position" t.index p.lastSeenIndex))) :
    FaultsIn allowed (p.settle t) := by
  refine .bind (checkTracker_faultsIn hlink) fun _ _ => ?_
  refine .bind (accrueShare_faultsIn hover hback) fun accrual _ => .ite (fun _ => .pure) fun _ => ?_
  exact .bind (Number.add_faultsIn (hover _ rfl)) fun _ _ => .pure

namespace Escrow

theorem initTimeTracker_faultsIn (hrequest : ∀ e : Fault, e.OfRequest → allowed e)
    (poolId escrowAccount : Address) : FaultsIn allowed (initTimeTracker now poolId escrowAccount) :=
  .bind (requireU64_faultsIn (hrequest _ (.argument _))) fun _ _ => .pure

theorem initPersonalPosition_faultsIn (hadvance : FaultsIn allowed (t.advance now)) (owner : Address) :
    FaultsIn allowed (initPersonalPosition now t owner) :=
  .bind hadvance fun _ _ => .pure

theorem sync_faultsIn
    (hlink : p.timeTracker ≠ t.poolId → allowed (.mismatch (.position p.owner p.timeTracker t.poolId)))
    (hadvance : FaultsIn allowed (t.advance now))
    (hsettle : ∀ t', t.advance now = .ok t' → FaultsIn allowed (p.settle t')) :
    FaultsIn allowed (sync now t p) := by
  refine .bind (PersonalPosition.checkTracker_faultsIn hlink) fun _ _ => ?_
  exact .bind hadvance fun t' ht' => .bind (hsettle t' ht') fun _ _ => .pure

/-- A deposit has the faults of a synchronization, and those of what is asked for. -/
theorem deposit_faultsIn {amount : Int} (hrequest : ∀ e : Fault, e.OfRequest → allowed e)
    (hsync : FaultsIn allowed (sync now t p)) : FaultsIn allowed (deposit now t p amount) := by
  refine .bind (requireU64_faultsIn (hrequest _ (.argument _))) fun n _ => .bind hsync fun synced _ => ?_
  refine .bind (Counter.add_faultsIn (hrequest _ (.outgrown (.sum _ _ _)))) fun own _ => ?_
  exact .bind (Counter.add_faultsIn (hrequest _ (.outgrown (.sum _ _ _)))) fun _ _ => .pure

/-- A withdrawal has the faults of a synchronization, and those of what is asked for. -/
theorem withdraw_faultsIn {amount : Int} (hrequest : ∀ e : Fault, e.OfRequest → allowed e)
    (hsync : FaultsIn allowed (sync now t p)) : FaultsIn allowed (withdraw now t p amount) := by
  refine .bind (requireU64_faultsIn (hrequest _ (.argument _))) fun n _ => .bind hsync fun synced _ => ?_
  refine .bind (Counter.sub_faultsIn fun _ => hrequest _ (.difference _ _ _)) fun own _ => ?_
  exact .bind (Counter.sub_faultsIn fun _ => hrequest _ (.difference _ _ _)) fun _ _ => .pure

theorem updatePersonal_faultsIn (hsync : FaultsIn allowed (sync now t p)) :
    FaultsIn allowed (updatePersonal now t p) :=
  .bind hsync fun _ _ => .pure

end Escrow

end

/-! ### The book -/

/-- The records of a pool's escrow; positions stand under their accounts. -/
structure EscrowBook (ι : Type) where
  tracker : TimeTracker
  positions : Table ι PersonalPosition

/-- A call on the escrow. -/
inductive EscrowCall (ι : Type) where
  | initPosition (now : Int) (account : ι) (owner : Address)
  | deposit (now : Int) (account : ι) (amount : Int)
  | withdraw (now : Int) (account : ι) (amount : Int)
  | update (now : Int) (account : ι)

namespace EscrowCall

variable {ι : Type}

/-- The account that a call is about. -/
def account : EscrowCall ι → ι
  | initPosition _ account _ | deposit _ account _ | withdraw _ account _ | update _ account => account

/-- The time of a call. -/
def now : EscrowCall ι → Int
  | initPosition now _ _ | deposit now _ _ | withdraw now _ _ | update now _ => now

/-- What a call adds to an amount. -/
def change : EscrowCall ι → ℤ
  | deposit _ _ amount => amount
  | withdraw _ _ amount => -amount
  | _ => 0

end EscrowCall

namespace EscrowBook

variable {ι : Type} [DecidableEq ι]

/-- What the escrow returns to a call. -/
def answer (book : EscrowBook ι) : EscrowCall ι → Option Escrow.Outcome
  | .initPosition now account owner =>
      if account ∈ book.positions then none
      else (Escrow.initPersonalPosition now book.tracker owner).toOption
  | .deposit now account amount => do
      let position ← book.positions.lookup account
      (Escrow.deposit now book.tracker position amount).toOption
  | .withdraw now account amount => do
      let position ← book.positions.lookup account
      (Escrow.withdraw now book.tracker position amount).toOption
  | .update now account => do
      let position ← book.positions.lookup account
      (Escrow.updatePersonal now book.tracker position).toOption

/-- The book with the returned records committed. -/
def commit (book : EscrowBook ι) (account : ι) (out : Escrow.Outcome) : EscrowBook ι :=
  ⟨out.timeTracker, book.positions.insert account out.position⟩

/-- The book after an answered call. -/
def step (book : EscrowBook ι) (call : EscrowCall ι) : Option (EscrowBook ι) :=
  (book.answer call).map (book.commit call.account)

/-- The tokens that a call moves into the escrow. -/
def tokensIn (book : EscrowBook ι) (call : EscrowCall ι) (_ : EscrowBook ι) : ℤ :=
  match call with
  | .deposit .. => (book.answer call).elim 0 fun out => out.transferAmount
  | _ => 0

/-- The tokens that a call moves out of the escrow. -/
def tokensOut (book : EscrowBook ι) (call : EscrowCall ι) (_ : EscrowBook ι) : ℤ :=
  match call with
  | .withdraw .. => (book.answer call).elim 0 fun out => out.transferAmount
  | _ => 0

variable {book book' : EscrowBook ι} {call : EscrowCall ι}

theorem step_eq_some : book.step call = some book' ↔
    ∃ out, book.answer call = some out ∧ book.commit call.account out = book' := by
  rw [step, Option.map_eq_some_iff]

section Answers

variable {now amount : Int} {account : ι} {owner : Address} {out : Escrow.Outcome}

theorem answer_initPosition : book.answer (.initPosition now account owner) = some out ↔
    account ∉ book.positions ∧ Escrow.initPersonalPosition now book.tracker owner = .ok out := by
  simp [answer]

theorem answer_deposit : book.answer (.deposit now account amount) = some out ↔
    ∃ p, book.positions.lookup account = some p ∧
      Escrow.deposit now book.tracker p amount = .ok out := by
  simp [answer, Option.bind_eq_some_iff]

theorem answer_withdraw : book.answer (.withdraw now account amount) = some out ↔
    ∃ p, book.positions.lookup account = some p ∧
      Escrow.withdraw now book.tracker p amount = .ok out := by
  simp [answer, Option.bind_eq_some_iff]

theorem answer_update : book.answer (.update now account) = some out ↔
    ∃ p, book.positions.lookup account = some p ∧
      Escrow.updatePersonal now book.tracker p = .ok out := by
  simp [answer, Option.bind_eq_some_iff]

end Answers

theorem step_update {now : Int} {account : ι} {p : PersonalPosition} {out : Escrow.Outcome}
    (hp : book.positions.lookup account = some p)
    (h : Escrow.updatePersonal now book.tracker p = .ok out) :
    book.step (.update now account) = some (book.commit account out) :=
  step_eq_some.mpr ⟨out, answer_update.mpr ⟨p, hp, h⟩, rfl⟩

/-- An answered call opens a position or moves one. -/
theorem answer_cases {out : Escrow.Outcome} (h : book.answer call = some out) :
    (book.positions.lookup call.account = none ∧
      ∃ now owner, Escrow.initPersonalPosition now book.tracker owner = .ok out ∧
        call = .initPosition now call.account owner) ∨
    ∃ p, book.positions.lookup call.account = some p ∧
      Escrow.Moved call.now book.tracker p out call.change := by
  cases call with
  | initPosition now account owner =>
      obtain ⟨hnew, hinit⟩ := answer_initPosition.mp h
      exact .inl ⟨Finmap.lookup_eq_none.mpr hnew, now, owner, hinit, rfl⟩
  | deposit now account amount =>
      obtain ⟨p, hp, h⟩ := answer_deposit.mp h
      exact .inr ⟨p, hp, (Escrow.deposit_ok h).1⟩
  | withdraw now account amount =>
      obtain ⟨p, hp, h⟩ := answer_withdraw.mp h
      exact .inr ⟨p, hp, (Escrow.withdraw_ok h).1⟩
  | update now account =>
      obtain ⟨p, hp, h⟩ := answer_update.mp h
      exact .inr ⟨p, hp, (Escrow.updatePersonal_ok h).1⟩

/-- The tokens that an answered call moves are what it adds to the amounts. -/
theorem tokens_eq_change (h : book.step call = some book') :
    book.tokensIn call book' - book.tokensOut call book' = call.change := by
  obtain ⟨out, hout, -⟩ := step_eq_some.mp h
  cases call with
  | initPosition now account owner => rfl
  | update now account => rfl
  | deposit now account amount =>
      simp only [tokensIn, tokensOut, hout, Option.elim_some, EscrowCall.change]
      obtain ⟨p, -, h⟩ := answer_deposit.mp hout
      rw [(Escrow.deposit_ok h).2, sub_zero]
  | withdraw now account amount =>
      simp only [tokensIn, tokensOut, hout, Option.elim_some, EscrowCall.change]
      obtain ⟨p, -, h⟩ := answer_withdraw.mp hout
      rw [(Escrow.withdraw_ok h).2, zero_sub]

/-- What an answered call does to the book: the tracker moves on, and then a position is opened, or
one is settled and its amount and the total change by the same number. -/
theorem step_cases (h : book.step call = some book') :
    ∃ t elapsed, book.tracker.Advanced t elapsed ∧ call.now = book.tracker.lastSeenTs + elapsed ∧
      ((book.positions.lookup call.account = none ∧ call.change = 0 ∧ ∃ owner,
          call = .initPosition call.now call.account owner ∧
          book' = ⟨t, book.positions.insert call.account ⟨owner, t.poolId, 0, t.index, .zero⟩⟩) ∨
        ∃ (p p' : PersonalPosition) (total amount : ℕ),
          book.positions.lookup call.account = some p ∧ p.Settled p' t ∧
          (total : ℤ) = t.totalLpDeposited + call.change ∧ (amount : ℤ) = p.amount + call.change ∧
          book' = ⟨{ t with totalLpDeposited := total },
            book.positions.insert call.account { p' with amount }⟩) := by
  obtain ⟨out, hout, rfl⟩ := step_eq_some.mp h
  rcases answer_cases hout with ⟨hnone, now, owner, hinit, hcall⟩ | ⟨p, hp, hmoved⟩
  · obtain ⟨hadvance, -, hposition⟩ := Escrow.initPersonalPosition_ok hinit
    obtain ⟨elapsed, hnow, hadv⟩ := TimeTracker.advance_ok hadvance
    refine ⟨out.timeTracker, elapsed, hadv, ?_, .inl ⟨hnone, ?_, owner, ?_, ?_⟩⟩
    · rw [hcall]
      exact hnow
    · rw [hcall]
      rfl
    · rw [hcall]
      rfl
    · rw [commit, hposition]
  · obtain ⟨⟨t, p', hsync, ht, hp'⟩, htotal, hamount⟩ := hmoved
    obtain ⟨⟨elapsed, hnow, hadv⟩, hset⟩ := Escrow.sync_ok hsync
    refine ⟨t, elapsed, hadv, hnow, .inr ⟨p, p', out.timeTracker.totalLpDeposited,
      out.position.amount, hp, hset, ?_, hamount, ?_⟩⟩
    · rw [htotal, hadv.total]
    · rw [commit, ht, hp']

end EscrowBook

end EmissionLedger
