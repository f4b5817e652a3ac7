import EmissionLedger.Proofs.Payout.Insertion
import EmissionLedger.Proofs.Staking.Earnings

/-!
Payouts of RAY rewards. What a reactor still has to pay is added to and paid out, and never looked at
otherwise, but for the width of its counter. So a reactor that has paid out more does all that it would
have done, and has that much less left to pay.

Main statement: a run of a book goes on in the same way when RAY rewards are collected more often
(`StakeBook.simulates`).
-/

namespace EmissionLedger

/-- A credit for which a counter has room fits after a payout too. -/
theorem Counter.add_of_paid {what : String} {a b c n : ℕ} (h : add what (a + n) b = .ok c) :
    add what a b = .ok (a + b) ∧ c = a + b + n := by
  obtain ⟨hfits, rfl⟩ := add_eq_ok.mp h
  exact ⟨add_eq_ok.mpr ⟨by omega, rfl⟩, Nat.add_right_comm a n b⟩

/-! ### Reactors that have paid out more -/

namespace Reactor

/-- The reactor with more RAY to pay. -/
def owing (r : Reactor) (n : ℕ) : Reactor :=
  { r with
    rayStakeRewards := {
      r.rayStakeRewards with uncollectedRayReward := r.rayStakeRewards.uncollectedRayReward + n } }

@[simp] theorem owing_zero (r : Reactor) : r.owing 0 = r := rfl

variable {r out : Reactor} {n : ℕ}

theorem accrueIsoRay_owing {index : Number} (h : (r.owing n).accrueIsoRay index = .ok out) :
    ∃ out', r.accrueIsoRay index = .ok out' ∧ out = out'.owing n := by
  simp only [accrueIsoRay, bind_eq_ok, pure_eq_ok] at h ⊢
  obtain ⟨accrual, haccrual, units, hunits, isoRay, hisoRay, rfl⟩ := h
  exact ⟨_, ⟨accrual, haccrual, units, hunits, isoRay, hisoRay, rfl⟩, rfl⟩

theorem accrueRayRewards_owing {index : Number} (h : (r.owing n).accrueRayRewards index = .ok out) :
    ∃ out', r.accrueRayRewards index = .ok out' ∧ out = out'.owing n := by
  simp only [accrueRayRewards, bind_eq_ok] at h ⊢
  obtain ⟨accrual, haccrual, h⟩ := h
  by_cases hseen : accrual.lastSeen = r.rayStakeRewards.lastSeenIndex
  · rw [if_pos (by exact hseen), pure_eq_ok] at h
    exact ⟨r, ⟨accrual, haccrual, if_pos hseen⟩, h.symm⟩
  · rw [if_neg (by exact hseen)] at h
    simp only [bind_eq_ok, pure_eq_ok] at h
    obtain ⟨units, hunits, uncollected, hcredit, rfl⟩ := h
    obtain ⟨hadd, huncollected⟩ := Counter.add_of_paid hcredit
    let rewards : RayStakeRewards :=
      ⟨accrual.lastSeen, r.rayStakeRewards.uncollectedRayReward + units⟩
    refine ⟨{ r with rayStakeRewards := rewards }, ⟨accrual, haccrual, ?_⟩, ?_⟩
    · rw [if_neg hseen, bind_eq_ok]
      exact ⟨units, hunits, bind_ok hadd rfl⟩
    · rw [huncollected]
      rfl

theorem settle_owing {config : ReactorConfig} (h : (r.owing n).settle config = .ok out) :
    ∃ out', r.settle config = .ok out' ∧ out = out'.owing n := by
  simp only [settle, bind_eq_ok] at h ⊢
  obtain ⟨out₁, hisoRay, hrewards⟩ := h
  obtain ⟨out₁, hisoRay', rfl⟩ := accrueIsoRay_owing hisoRay
  obtain ⟨out₂, hrewards', rfl⟩ := accrueRayRewards_owing hrewards
  exact ⟨out₂, ⟨out₁, hisoRay', hrewards'⟩, rfl⟩

theorem lockVotes_owing {amount : Int} (h : (r.owing n).lockVotes amount = .ok out) :
    ∃ out', r.lockVotes amount = .ok out' ∧ out = out'.owing n := by
  simp only [lockVotes, bind_eq_ok] at h ⊢
  obtain ⟨votes, hvotes, h⟩ := h
  by_cases hfree : r.freeVotes < votes
  · rw [if_pos (by exact hfree)] at h
    cases h
  · rw [if_neg (by exact hfree)] at h
    simp only [bind_eq_ok, pure_eq_ok] at h
    obtain ⟨locked, hlocked, rfl⟩ := h
    refine ⟨{ r with lockedVotes := locked }, ⟨votes, hvotes, ?_⟩, rfl⟩
    rw [if_neg hfree, bind_eq_ok]
    exact ⟨locked, hlocked, rfl⟩

theorem unlockVotes_owing {amount : Int} (h : (r.owing n).unlockVotes amount = .ok out) :
    ∃ out', r.unlockVotes amount = .ok out' ∧ out = out'.owing n := by
  simp only [unlockVotes, bind_eq_ok] at h ⊢
  obtain ⟨votes, hvotes, h⟩ := h
  by_cases hlocked : r.lockedVotes < votes
  · rw [if_pos (by exact hlocked)] at h
    cases h
  · rw [if_neg (by exact hlocked)] at h
    simp only [bind_eq_ok, pure_eq_ok] at h
    obtain ⟨locked, hsub, rfl⟩ := h
    refine ⟨{ r with lockedVotes := locked }, ⟨votes, hvotes, ?_⟩, rfl⟩
    rw [if_neg hlocked, bind_eq_ok]
    exact ⟨locked, hsub, rfl⟩

end Reactor

namespace Staking

/-- The outcome with more RAY to pay in its reactor. -/
def Outcome.owing (out : Outcome) (n : ℕ) : Outcome := { out with reactor := out.reactor.owing n }

variable {now amount : Int} {config : ReactorConfig} {r : Reactor} {n : ℕ} {out : Outcome}

theorem settleAt_owing {config' : ReactorConfig} {r' : Reactor}
    (h : settleAt now config (r.owing n) = .ok (config', r')) :
    ∃ r₁, settleAt now config r = .ok (config', r₁) ∧ r' = r₁.owing n := by
  obtain ⟨hadvance, hsettle⟩ := settleAt_eq_ok.mp h
  obtain ⟨r₁, hsettle', rfl⟩ := Reactor.settle_owing hsettle
  exact ⟨r₁, settleAt_eq_ok.mpr ⟨hadvance, hsettle'⟩, rfl⟩

theorem depositRay_owing (h : depositRay now config (r.owing n) amount = .ok out) :
    ∃ out', depositRay now config r amount = .ok out' ∧ out = out'.owing n := by
  simp only [depositRay, bind_eq_ok, pure_eq_ok] at h ⊢
  obtain ⟨votes, hvotes, ⟨config', r'⟩, hsettle, ray, hray, total, htotal, rfl⟩ := h
  obtain ⟨r₁, hsettle', rfl⟩ := settleAt_owing hsettle
  exact ⟨_, ⟨votes, hvotes, (config', r₁), hsettle', ray, hray, total, htotal, rfl⟩, rfl⟩

theorem withdrawRay_owing (h : withdrawRay now config (r.owing n) amount = .ok out) :
    ∃ out', withdrawRay now config r amount = .ok out' ∧ out = out'.owing n := by
  simp only [withdrawRay, bind_eq_ok] at h ⊢
  obtain ⟨taken, htaken, ⟨config', r'⟩, hsettle, h⟩ := h
  obtain ⟨r₁, hsettle', rfl⟩ := settleAt_owing hsettle
  by_cases hbalance : r₁.ray < taken
  · rw [if_pos (by exact hbalance)] at h
    cases h
  rw [if_neg (by exact hbalance)] at h
  simp only [bind_eq_ok] at h
  obtain ⟨loss, hloss, h⟩ := h
  by_cases hfree : r₁.freeVotes < (taken + loss : ℕ)
  · rw [if_pos (by exact hfree)] at h
    cases h
  rw [if_neg (by exact hfree)] at h
  simp only [bind_eq_ok, pure_eq_ok] at h
  obtain ⟨ray, hray, isoRay, hisoRay, total, htotal, rfl⟩ := h
  let config'' := { config' with totalRayDeposited := total }
  refine ⟨⟨config'', { r₁ with ray, isoRay }, taken, loss⟩, ?_, rfl⟩
  refine ⟨taken, htaken, (config', r₁), hsettle', ?_⟩
  rw [if_neg hbalance, bind_eq_ok]
  refine ⟨loss, hloss, ?_⟩
  rw [if_neg hfree]
  simp only [bind_eq_ok]
  exact ⟨ray, hray, isoRay, hisoRay, total, htotal, rfl⟩

/-- What is collected is still owed by the reactor that it was collected from. -/
theorem owing_eq_collected (r : Reactor) (n : ℕ) :
    r.owing n = (collectRayRewards r).1.owing (n + r.rayStakeRewards.uncollectedRayReward) := by
  simp only [Reactor.owing, collectRayRewards, Reactor.mk.injEq, RayStakeRewards.mk.injEq, true_and]
  omega

/-- Collecting with the settlement is settling first and collecting then. -/
theorem syncAndCollectRayRewards_eq_ok : syncAndCollectRayRewards now config r = .ok out ↔
    ∃ synced, syncReactor now config r = .ok synced ∧
      out = ⟨synced.config, (collectRayRewards synced.reactor).1,
        (collectRayRewards synced.reactor).2, 0⟩ := by
  simp only [syncAndCollectRayRewards, bind_eq_ok, pure_eq_ok, eq_comm (b := out)]

end Staking

/-! ### Books that have paid out more -/

namespace StakeBook

/-- The RAY rewards that each owner is paid in a call. -/
def paid (book : StakeBook) (call : ReactorCall) (_ : StakeBook) : Address → ℕ :=
  Pi.single call.owner (book.rewardsPaid call)

/-- The rewards of a reactor that there is are collected. -/
def Collects (book : StakeBook) (call : ReactorCall) : Prop :=
  ∃ owner ∈ book.reactors, call = .stake (.collect owner)

/-- A settlement with a collection stands in the place of the settlement. -/
def CollectsToo (call call' : ReactorCall) : Prop :=
  ∃ now owner, call = .stake (.sync now owner) ∧ call' = .stake (.syncAndCollect now owner)

/-- The book `book'` is `book` with more RAY rewards paid out. -/
structure PaidMore (book : StakeBook) (m : Address → ℕ) (book' : StakeBook) (m' : Address → ℕ) :
    Prop where
  config : book'.config = book.config
  reactors : Ahead Reactor.owing book.reactors m book'.reactors m'

variable {book book' next : StakeBook} {m m' : Address → ℕ} {call call' : ReactorCall}

theorem PaidMore.refl (book : StakeBook) (m : Address → ℕ) : book.PaidMore m book m :=
  ⟨rfl, .refl Reactor.owing_zero _ _⟩

theorem rewardsPaid_collect {owner : Address} {r : Reactor} (hr : book.reactors.lookup owner = some r) :
    book.rewardsPaid (.stake (.collect owner)) = r.rayStakeRewards.uncollectedRayReward := by
  rw [rewardsPaid, hr]
  rfl

theorem rewardsPaid_syncAndCollect {now : Int} {owner : Address} {r : Reactor}
    {synced : Staking.Outcome} (hr : book.reactors.lookup owner = some r)
    (hsynced : Staking.syncReactor now book.config r = .ok synced) :
    book.rewardsPaid (.stake (.syncAndCollect now owner)) =
      synced.reactor.rayStakeRewards.uncollectedRayReward := by
  rw [rewardsPaid, hr, Option.elim_some,
    Staking.syncAndCollectRayRewards_eq_ok.mpr ⟨synced, hsynced, rfl⟩]
  rfl

/-- An operation that does not look at what is still to pay is answered after more payouts too. -/
theorem PaidMore.operate (h : book.PaidMore m book' m') {β : Type}
    {f : ReactorConfig → Reactor → Result β} {owing : β → ℕ → β}
    (hf : ∀ {config r n out}, f config (r.owing n) = .ok out →
      ∃ out', f config r = .ok out' ∧ out = owing out' n)
    {owner : Address} {r : Reactor} {out : β} (hr : book.reactors.lookup owner = some r)
    (hout : f book.config r = .ok out) :
    ∃ r' out' n, book'.reactors.lookup owner = some r' ∧ f book'.config r' = .ok out' ∧
      out = owing out' n ∧ m' owner = m owner + n := by
  obtain ⟨r', n, hr', rfl, hpaid⟩ := h.reactors.present owner r hr
  obtain ⟨out', hout', rfl⟩ := hf hout
  exact ⟨r', out', n, hr', h.config ▸ hout', rfl, hpaid⟩

/-- What the stake answers to a call it answers after more payouts too, with what was paid more then
left out of what is still to pay. -/
theorem PaidMore.answer (h : book.PaidMore m book' m') {call : StakeCall} {config : ReactorConfig}
    {out : Reactor} (hanswer : book.answer call = some (config, out)) :
    ∃ out' n, book'.answer call = some (config, out') ∧ out = out'.owing n ∧
      m' call.owner + book'.rewardsPaid (.stake call) =
        m call.owner + book.rewardsPaid (.stake call) + n := by
  cases call with
  | initReactor owner =>
      obtain ⟨hnew, rfl, rfl⟩ := answer_initReactor.mp hanswer
      obtain ⟨hnew', hpaid⟩ := h.reactors.absent owner (Finmap.lookup_eq_none.mpr hnew)
      exact ⟨_, 0, answer_initReactor.mpr ⟨Finmap.lookup_eq_none.mp hnew', h.config, rfl⟩, rfl, hpaid⟩
  | deposit now owner amount =>
      obtain ⟨r, result, hr, hresult, rfl, rfl⟩ := answer_deposit.mp hanswer
      obtain ⟨r', result', n, hr', hresult', rfl, hpaid⟩ :=
        h.operate (f := fun config r => Staking.depositRay now config r amount)
          Staking.depositRay_owing hr hresult
      exact ⟨result'.reactor, n, answer_deposit.mpr ⟨r', result', hr', hresult', rfl, rfl⟩, rfl, hpaid⟩
  | withdraw now owner amount =>
      obtain ⟨r, result, hr, hresult, rfl, rfl⟩ := answer_withdraw.mp hanswer
      obtain ⟨r', result', n, hr', hresult', rfl, hpaid⟩ :=
        h.operate (f := fun config r => Staking.withdrawRay now config r amount)
          Staking.withdrawRay_owing hr hresult
      exact ⟨result'.reactor, n, answer_withdraw.mpr ⟨r', result', hr', hresult', rfl, rfl⟩, rfl, hpaid⟩
  | sync now owner =>
      obtain ⟨r, result, hr, hresult, rfl, rfl⟩ := answer_sync.mp hanswer
      obtain ⟨r', result', n, hr', hresult', rfl, hpaid⟩ :=
        h.operate (f := Staking.syncReactor now) Staking.depositRay_owing hr hresult
      exact ⟨result'.reactor, n, answer_sync.mpr ⟨r', result', hr', hresult', rfl, rfl⟩, rfl, hpaid⟩
  | collect owner =>
      obtain ⟨r, hr, rfl, rfl⟩ := answer_collect.mp hanswer
      obtain ⟨r', n, hr', rfl, hpaid⟩ := h.reactors.present owner r hr
      refine ⟨_, 0, answer_collect.mpr ⟨r', hr', h.config, rfl⟩, rfl, ?_⟩
      rw [rewardsPaid_collect hr, rewardsPaid_collect hr']
      simp only [StakeCall.owner, Reactor.owing]
      omega
  | syncAndCollect now owner =>
      obtain ⟨r, _, hr, hcollected, rfl, rfl⟩ := answer_syncAndCollect.mp hanswer
      obtain ⟨synced, hsynced, rfl⟩ := Staking.syncAndCollectRayRewards_eq_ok.mp hcollected
      obtain ⟨r', synced', n, hr', hsync, rfl, hpaid⟩ :=
        h.operate (f := Staking.syncReactor now) Staking.depositRay_owing hr hsynced
      have hcollected' := Staking.syncAndCollectRayRewards_eq_ok.mpr ⟨synced', hsync, rfl⟩
      refine ⟨_, 0, answer_syncAndCollect.mpr ⟨r', _, hr', hcollected', rfl, rfl⟩, rfl, ?_⟩
      rw [rewardsPaid_syncAndCollect hr hsynced, rewardsPaid_syncAndCollect hr' hsync]
      simp only [StakeCall.owner, Staking.Outcome.owing, Reactor.owing]
      omega

/-- A settlement that is answered is answered with a collection too, which pays all there is. -/
theorem PaidMore.collectToo (h : book.PaidMore m book' m') {now : Int} {owner : Address}
    {config : ReactorConfig} {out : Reactor}
    (hanswer : book.answer (.sync now owner) = some (config, out)) :
    ∃ out' n, book'.answer (.syncAndCollect now owner) = some (config, out') ∧ out = out'.owing n ∧
      m' owner + book'.rewardsPaid (.stake (.syncAndCollect now owner)) = m owner + n := by
  obtain ⟨r, synced, hr, hsynced, rfl, rfl⟩ := answer_sync.mp hanswer
  obtain ⟨r', synced', n, hr', hsync, rfl, hpaid⟩ :=
    h.operate (f := Staking.syncReactor now) Staking.depositRay_owing hr hsynced
  have hcollected := Staking.syncAndCollectRayRewards_eq_ok.mpr ⟨synced', hsync, rfl⟩
  refine ⟨_, n + synced'.reactor.rayStakeRewards.uncollectedRayReward,
    answer_syncAndCollect.mpr ⟨r', _, hr', hcollected, rfl, rfl⟩,
    Staking.owing_eq_collected synced'.reactor n, ?_⟩
  rw [rewardsPaid_syncAndCollect hr' hsync, hpaid, Nat.add_assoc]

theorem PaidMore.enter (h : book.PaidMore m book' m') {config : ReactorConfig} {owner : Address}
    {out : Reactor} {n p p' : ℕ} (hpaid : m' owner + p' = m owner + p + n) :
    PaidMore ⟨config, book.reactors.insert owner (out.owing n)⟩ (m + Pi.single owner p)
      ⟨config, book'.reactors.insert owner out⟩ (m' + Pi.single owner p') :=
  ⟨rfl, h.reactors.enter hpaid⟩

/-- A call is answered after more payouts too, and so is a collection in addition to it. -/
theorem PaidMore.kept (h : book.PaidMore m book' m') (hcall : call' = call ∨ CollectsToo call call')
    (hstep : book.reactorStep call = some next) :
    ∃ next', book'.reactorStep call' = some next' ∧
      PaidMore next (m + book.paid call next) next' (m' + book'.paid call' next') := by
  rcases hcall with rfl | ⟨now, owner, rfl, rfl⟩
  · cases call' with
    | stake call =>
        obtain ⟨config, out, hanswer, rfl⟩ := reactorStep_stake.mp hstep
        obtain ⟨out', n, hanswer', rfl, hpaid⟩ := h.answer hanswer
        exact ⟨_, reactorStep_stake.mpr ⟨config, out', hanswer', rfl⟩, h.enter hpaid⟩
    | lock owner amount =>
        obtain ⟨r, out, hr, hlock, rfl⟩ := reactorStep_lock.mp hstep
        obtain ⟨r', out', n, hr', hlock', rfl, hpaid⟩ :=
          h.operate (f := fun _ r => r.lockVotes amount) Reactor.lockVotes_owing hr hlock
        rw [← h.config]
        exact ⟨_, reactorStep_lock.mpr ⟨r', out', hr', hlock', rfl⟩, h.enter hpaid⟩
    | unlock owner amount =>
        obtain ⟨r, out, hr, hlock, rfl⟩ := reactorStep_unlock.mp hstep
        obtain ⟨r', out', n, hr', hlock', rfl, hpaid⟩ :=
          h.operate (f := fun _ r => r.unlockVotes amount) Reactor.unlockVotes_owing hr hlock
        rw [← h.config]
        exact ⟨_, reactorStep_unlock.mpr ⟨r', out', hr', hlock', rfl⟩, h.enter hpaid⟩
  · obtain ⟨config, out, hanswer, rfl⟩ := reactorStep_stake.mp hstep
    obtain ⟨out', n, hanswer', rfl, hpaid⟩ := h.collectToo hanswer
    exact ⟨_, reactorStep_stake.mpr ⟨config, out', hanswer', rfl⟩, h.enter hpaid⟩

/-- A collection alone is answered and pays what is then no longer left to pay. -/
theorem PaidMore.inserted (h : book.PaidMore m book' m') (hcall : book.Collects call') :
    ∃ next', book'.reactorStep call' = some next' ∧
      book.PaidMore m next' (m' + book'.paid call' next') := by
  obtain ⟨owner, howner, rfl⟩ := hcall
  obtain ⟨r, hr⟩ := Finmap.mem_iff.mp howner
  obtain ⟨r', n, hr', rfl, hpaid⟩ := h.reactors.present owner r hr
  have hanswer := answer_collect.mpr ⟨r', hr', rfl, rfl⟩
  refine ⟨_, reactorStep_stake.mpr ⟨_, _, hanswer, rfl⟩, h.config, ?_⟩
  rw [Staking.owing_eq_collected] at hr
  refine h.reactors.pay hr ?_
  rw [rewardsPaid_collect hr', StakeCall.owner, hpaid, Nat.add_assoc]

/-- A run with more collections is answered like the run itself, and has paid out more at its end. -/
theorem simulates {calls calls' : List ReactorCall} {last : StakeBook}
    (hcalls : Interspersed reactorStep Collects CollectsToo book calls calls')
    (hrun : calls.foldlM reactorStep book = some last) :
    ∃ last', calls'.foldlM reactorStep book = some last' ∧
      last.PaidMore (tally reactorStep paid book calls) last' (tally reactorStep paid book calls') := by
  have hstart : book.PaidMore 0 book 0 := .refl book 0
  obtain ⟨last', hrun', hlast⟩ := hcalls.simulates
    (fun _ _ _ _ _ _ _ h hcall hstep => h.kept hcall hstep) (fun _ _ _ _ _ h hcall => h.inserted hcall)
    hstart hrun
  rw [zero_add, zero_add] at hlast
  exact ⟨last', hrun', hlast⟩

end StakeBook

end EmissionLedger
