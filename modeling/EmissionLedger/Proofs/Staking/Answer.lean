import EmissionLedger.Proofs.Slashing.Rounding
import EmissionLedger.Proofs.Staking.Earnings
import EmissionLedger.Proofs.Staking.Withdrawal
import EmissionLedger.Proofs.Timing.Absorption
import EmissionLedger.Proofs.Votes.Consistency

/-!
What a withdrawal is answered. Once the records are settled only two things can stand in its way: there is
less RAY than asked for, or the votes of what is taken out and lost are not free. No counter can run below
zero after that: a loss is at most the isoRAY, and no reactor holds more than the sum of all, which is the
total.

Main statement: in every state that the stake can reach, a withdrawal at a time at which the reactor can be
synchronized is refused for one of these two reasons or answered (`StakeBook.withdrawRay_answer`).
-/

namespace EmissionLedger

namespace Staking

variable {now : Int} {config config' : ReactorConfig} {r r' : Reactor}

/-- A withdrawal from a stake that is settled and counted in the total. -/
theorem withdrawRay_eq {amount : ℕ} (hsettle : settleAt now config r = .ok (config', r'))
    (hamount : amount ≤ maxU64) (hray : r'.ray ≤ maxU64) (htotal : r'.ray ≤ config'.totalRayDeposited) :
    withdrawRay now config r amount =
      if r'.ray < amount then .error (.shortage .rayBalance amount r'.ray none)
      else if r'.freeVotes < (amount + slashLoss r'.ray amount r'.isoRay : ℕ) then
        .error (.shortage .votesToWithdraw (amount + slashLoss r'.ray amount r'.isoRay : ℕ)
          r'.freeVotes none)
      else
        .ok {
          config := { config' with totalRayDeposited := config'.totalRayDeposited - amount }
          reactor := {
            r' with
            ray := r'.ray - amount, isoRay := r'.isoRay - slashLoss r'.ray amount r'.isoRay }
          transferAmount := amount
          isoRaySlashed := slashLoss r'.ray amount r'.isoRay } := by
  have hrequire : requireU64 "amount" amount = .ok amount := requireU64_eq_ok.mpr ⟨hamount, rfl⟩
  simp only [withdrawRay, hrequire, hsettle, ok_bind]
  split
  · rfl
  · rename_i henough
    have htaken : amount ≤ r'.ray := not_lt.mp henough
    have hless : slashLoss r'.ray amount r'.isoRay ≤ r'.isoRay := slashLoss_le htaken r'.isoRay
    rw [isoRaySlashAmount_eq htaken hray (settleAt_isoRay_le hsettle), ok_bind]
    split
    · rfl
    · have hleft (what : String) {a b : ℕ} (h : b ≤ a) : Counter.sub what a b = .ok (a - b) :=
        Counter.sub_eq_ok.mpr (Nat.sub_add_cancel h)
      rw [hleft "ray" htaken, hleft "iso_ray" hless, hleft "total_ray_deposited" (htaken.trans htotal)]
      rfl

end Staking

namespace StakeBook

variable {book book' : StakeBook} {call : ReactorCall}

theorem Sound.reactorStep (hs : book.Sound) (h : book.reactorStep call = some book') : book'.Sound := by
  have hrelocked : ∀ {owner : Address} {r r' : Reactor} {amount : Int},
      book.reactors.lookup owner = some r → r.Relocked r' amount →
      (⟨book.config, book.reactors.insert owner r'⟩ : StakeBook).Sound := by
    intro owner r r' amount hr hlock
    obtain ⟨howner, hbacked⟩ := hs owner r hr
    refine Table.forall_insert hs ⟨?_, hlock.backed hbacked⟩
    rw [hlock.reactor]
    exact howner
  cases call with
  | stake call => exact Sound.step hs h
  | lock owner amount =>
      obtain ⟨r, r', hr, hlock, rfl⟩ := reactorStep_lock.mp h
      exact hrelocked hr (Reactor.lockVotes_ok hlock)
  | unlock owner amount =>
      obtain ⟨r, r', hr, hlock, rfl⟩ := reactorStep_unlock.mp h
      exact hrelocked hr (Reactor.unlockVotes_ok hlock)

theorem sound_run (hs : book.Sound) (calls : List ReactorCall) :
    (run StakeBook.reactorStep book calls).Sound :=
  run_invariant (fun _ _ _ hs h => Sound.reactorStep hs h) calls hs

theorem sound_start (config : ReactorConfig) : (⟨config, ∅⟩ : StakeBook).Sound := by
  intro owner r hr
  cases hr

/-- A reactor holds no more than the total, and settling changes neither. -/
theorem Balanced.settleAt_ray_le (hb : book.Balanced) {owner : Address} {r r' : Reactor}
    {config' : ReactorConfig} {now : Int} (hr : book.reactors.lookup owner = some r)
    (hsettle : Staking.settleAt now book.config r = .ok (config', r')) :
    r'.ray ≤ config'.totalRayDeposited := by
  obtain ⟨hadvance, hset⟩ := Staking.settleAt_ok hsettle
  obtain ⟨_, -, hadv⟩ := ReactorConfig.advance_ok hadvance
  rw [hset.ray, hadv.total, hb.total]
  exact Table.le_total (f := fun _ (r : Reactor) => r.ray) hr fun _ _ _ => Nat.zero_le _

/-- Free votes are no debt, and no more than what two counters hold. -/
theorem Sound.freeVotes_le (hs : book.Sound) {owner : Address} {r r' : Reactor} {config' : ReactorConfig}
    {now : Int} (hr : book.reactors.lookup owner = some r)
    (hsettle : Staking.settleAt now book.config r = .ok (config', r')) (hray : r'.ray ≤ maxU64) :
    r'.freeVotes.natAbs ≤ 2 * maxU64 := by
  have hbacked := (Staking.settleAt_ok hsettle).2.keeps.backed (hs owner r hr).2
  have hisoRay := Staking.settleAt_isoRay_le hsettle
  rw [Reactor.Backed, Reactor.votePower] at hbacked
  rw [Reactor.freeVotes, Reactor.votePower]
  omega

/-- **The answer to a withdrawal.** In every state that the stake can reach, at every time at which a
reactor can be synchronized: for more RAY than there is then, the balance is too small; else a loss of
isoRAY is found, and if not so many votes are free, votes are short; else the amount leaves the reactor and
the total, and the loss the reactor, and nothing else differs from the records as synchronized. -/
theorem withdrawRay_answer {settings : Staking.Settings} {start now : Int} {config : ReactorConfig}
    (hinit : Staking.initReactorConfig settings start = .ok config) (calls : List ReactorCall)
    {owner : Address} {r : Reactor} {synced : Staking.Outcome} {amount : ℕ}
    (hr : (run StakeBook.reactorStep ⟨config, ∅⟩ calls).reactors.lookup owner = some r)
    (hsync : Staking.syncReactor now (run StakeBook.reactorStep ⟨config, ∅⟩ calls).config r = .ok synced)
    (hamount : amount ≤ maxU64) :
    let c := synced.config
    let s := synced.reactor
    ∃ loss : ℕ,
      let lacking : Fault := .shortage .rayBalance amount s.ray none
      let locked : Fault := .shortage .votesToWithdraw (amount + loss : ℕ) s.freeVotes none
      Staking.withdrawRay now (run StakeBook.reactorStep ⟨config, ∅⟩ calls).config r amount =
          (if s.ray < amount then .error lacking
          else if s.freeVotes < (amount + loss : ℕ) then .error locked
          else .ok {
            config := { c with totalRayDeposited := c.totalRayDeposited - amount }
            reactor := { s with ray := s.ray - amount, isoRay := s.isoRay - loss }
            transferAmount := amount
            isoRaySlashed := loss }) ∧
        lacking.kind = .shortage .rayBalance ∧
        (amount ≤ s.ray → isoRaySlashAmount s.ray amount s.isoRay = .ok loss ∧ loss ≤ s.isoRay ∧
          amount ≤ c.totalRayDeposited ∧ locked.kind = .shortage .votesToWithdraw) := by
  intro c s
  have hsettle := Staking.syncReactor_settleAt hsync
  have hbalanced := balanced_run (balanced_start (Staking.initReactorConfig_ok hinit).1) calls
  have htotal : s.ray ≤ c.totalRayDeposited := hbalanced.settleAt_ray_le hr hsettle
  have hray : s.ray ≤ maxU64 := by
    obtain ⟨_, _, hsettle', hray, -⟩ := Staking.syncReactor_ok hsync
    cases hsettle.symm.trans hsettle'
    exact hray
  have hisoRay : s.isoRay ≤ maxU64 := Staking.settleAt_isoRay_le hsettle
  have hfree := (sound_run (sound_start config) calls).freeVotes_le hr hsettle hray
  refine ⟨slashLoss s.ray amount s.isoRay, Staking.withdrawRay_eq hsettle hamount hray htotal,
    Fault.kind_shortage _ (by omega) (by omega), fun htaken => ?_⟩
  have hless : slashLoss s.ray amount s.isoRay ≤ s.isoRay := slashLoss_le htaken s.isoRay
  exact ⟨isoRaySlashAmount_eq htaken hray hisoRay, hless, htaken.trans htotal,
    Fault.kind_shortage _ (by omega) hfree⟩

/-- After a year 300 RAY and 300 isoRAY are there, of whose 600 votes 250 are locked: taking out 200 RAY
would lose 200 isoRAY, and so many votes are not free. -/
theorem withdrawRay_answer_locked :
    let config : ReactorConfig := ⟨0, 0, .zero, 10000, .zero, 0⟩
    let calls : List ReactorCall :=
      [.stake (.initReactor .zero), .stake (.deposit 0 .zero 300), .lock .zero 250]
    let last := run StakeBook.reactorStep ⟨config, ∅⟩ calls
    ∃ r, last.reactors.lookup .zero = some r ∧ Staking.withdrawRay 31536000 last.config r (200 : ℕ) =
      .error (.shortage .votesToWithdraw 400 350 none) := by
  intro config calls last
  have hinit : Staking.initReactorConfig ⟨0, 10000⟩ 0 = .ok config := rfl
  let r : Reactor := ⟨.zero, 300, 0, 250, .zero, ⟨.zero, 0⟩⟩
  have hr : last.reactors.lookup .zero = some r := by decide +kernel
  let synced : Staking.Outcome :=
    ⟨⟨300, 0, .zero, 10000, .one, 31536000⟩, ⟨.zero, 300, 300, 250, .one, ⟨.zero, 0⟩⟩, 0, 0⟩
  have hsync : Staking.syncReactor 31536000 last.config r = .ok synced :=
    toOption_eq_some.mp (by decide +kernel)
  obtain ⟨loss, hanswer, -, hfound⟩ :=
    withdrawRay_answer hinit calls hr hsync (show 200 ≤ maxU64 by decide)
  have hloss : isoRaySlashAmount 300 200 300 = .ok 200 := toOption_eq_some.mp (by decide +kernel)
  obtain rfl : loss = 200 := Except.ok.inj ((hfound (by decide)).1.symm.trans hloss)
  have hfree : synced.reactor.freeVotes = 350 := by decide
  rw [if_neg (by decide), if_pos (by decide), hfree] at hanswer
  exact ⟨r, hr, hanswer⟩

end StakeBook

end EmissionLedger
