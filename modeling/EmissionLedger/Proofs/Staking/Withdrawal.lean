import EmissionLedger.Proofs.Staking.Moves

/-!
A reactor without locked votes can be emptied. Settling does not look at locked votes, so whoever can
settle a reactor can still do so when its votes were freed. All RAY takes all isoRAY with it, exactly,
so nothing is left and no vote is missing.

Main statement: `Staking.withdrawRay_all`.
-/

namespace EmissionLedger

theorem isoRaySlashAmount_of_bare {balance isoRay : ℕ} (hfits : isoRay ≤ maxU64)
    (hbare : balance = 0 → isoRay = 0) : isoRaySlashAmount balance balance isoRay = .ok isoRay := by
  by_cases hbalance : balance = 0
  · rw [hbare hbalance, hbalance]
    rfl
  · exact (isoRaySlashAmount_all hbalance).mpr ⟨hfits, rfl⟩

namespace Reactor

theorem settle_isoRay_le {r r' : Reactor} {config : ReactorConfig} (h : r.settle config = .ok r') :
    r'.isoRay ≤ maxU64 := by
  simp only [settle, bind_eq_ok] at h
  obtain ⟨r₁, hisoRay, hrewards⟩ := h
  have hfits := accrueIsoRay_le hisoRay
  rw [accrueRayRewards_ok hrewards]
  exact hfits

theorem accrueIsoRay_relocked {r r' : Reactor} {index : Number} (h : r.accrueIsoRay index = .ok r')
    (locked : ℕ) : ({ r with lockedVotes := locked } : Reactor).accrueIsoRay index =
      .ok { r' with lockedVotes := locked } := by
  simp only [accrueIsoRay, bind_eq_ok, pure_eq_ok] at h ⊢
  obtain ⟨accrual, haccrual, units, hunits, isoRay, hisoRay, rfl⟩ := h
  exact ⟨accrual, haccrual, units, hunits, isoRay, hisoRay, rfl⟩

theorem accrueRayRewards_relocked {r r' : Reactor} {index : Number}
    (h : r.accrueRayRewards index = .ok r') (locked : ℕ) :
    ({ r with lockedVotes := locked } : Reactor).accrueRayRewards index =
      .ok { r' with lockedVotes := locked } := by
  simp only [accrueRayRewards, bind_eq_ok] at h ⊢
  obtain ⟨accrual, haccrual, h⟩ := h
  refine ⟨accrual, haccrual, ?_⟩
  split at h
  · rename_i hsame
    rw [pure_eq_ok] at h
    subst h
    rw [if_pos hsame]
    rfl
  · rename_i hnew
    simp only [bind_eq_ok, pure_eq_ok] at h
    obtain ⟨units, hunits, uncollected, huncollected, rfl⟩ := h
    rw [if_neg hnew]
    exact bind_ok hunits (bind_ok huncollected rfl)

/-- Settling does not look at locked votes. -/
theorem settle_relocked {r r' : Reactor} {config : ReactorConfig} (h : r.settle config = .ok r')
    (locked : ℕ) : ({ r with lockedVotes := locked } : Reactor).settle config =
      .ok { r' with lockedVotes := locked } := by
  simp only [settle, bind_eq_ok] at h ⊢
  obtain ⟨r₁, hisoRay, hrewards⟩ := h
  exact ⟨_, accrueIsoRay_relocked hisoRay locked, accrueRayRewards_relocked hrewards locked⟩

end Reactor

namespace Staking

variable {now : Int} {config : ReactorConfig} {r : Reactor} {out : Outcome}

theorem syncReactor_ok (h : syncReactor now config r = .ok out) :
    ∃ config' r', settleAt now config r = .ok (config', r') ∧ r'.ray ≤ maxU64 ∧
      config'.totalRayDeposited ≤ maxU64 := by
  simp only [syncReactor, depositRay, bind_eq_ok, pure_eq_ok, requireU64_eq_ok, Counter.add_eq_ok] at h
  obtain ⟨n, -, ⟨config', r'⟩, hsettle, ray, ⟨hray, rfl⟩, total, ⟨htotal, rfl⟩, -⟩ := h
  exact ⟨config', r', hsettle, (Nat.le_add_right _ _).trans hray, (Nat.le_add_right _ _).trans htotal⟩

theorem syncReactor_answered {config' : ReactorConfig} {r' : Reactor}
    (hsettle : settleAt now config r = .ok (config', r')) (hray : r'.ray ≤ maxU64)
    (htotal : config'.totalRayDeposited ≤ maxU64) : ∃ out, syncReactor now config r = .ok out := by
  apply bind_answered (requireU64_eq_ok.mpr ⟨Nat.zero_le _, rfl⟩)
  apply bind_answered hsettle
  apply bind_answered (Counter.add_eq_ok.mpr ⟨hray, rfl⟩)
  exact bind_answered (Counter.add_eq_ok.mpr ⟨htotal, rfl⟩) ⟨_, rfl⟩

theorem settleAt_relocked {config' : ReactorConfig} {r' : Reactor}
    (h : settleAt now config r = .ok (config', r')) (locked : ℕ) :
    settleAt now config { r with lockedVotes := locked } =
      .ok (config', { r' with lockedVotes := locked }) := by
  obtain ⟨hadvance, hsettle⟩ := settleAt_eq_ok.mp h
  exact settleAt_eq_ok.mpr ⟨hadvance, Reactor.settle_relocked hsettle locked⟩

theorem settleAt_isoRay_le {config' : ReactorConfig} {r' : Reactor}
    (h : settleAt now config r = .ok (config', r')) : r'.isoRay ≤ maxU64 :=
  Reactor.settle_isoRay_le (settleAt_eq_ok.mp h).2

/-- A reactor that can be settled still can when its votes are locked or freed. -/
theorem syncReactor_relocked (h : syncReactor now config r = .ok out) (locked : ℕ) :
    ∃ out', syncReactor now config { r with lockedVotes := locked } = .ok out' := by
  obtain ⟨config', r', hsettle, hray, htotal⟩ := syncReactor_ok h
  exact syncReactor_answered (settleAt_relocked hsettle locked) hray htotal

/-- **Emptying a reactor.** If it can be settled and none of its votes are locked, all RAY can be taken
out, and nothing is left. -/
theorem withdrawRay_all (h : syncReactor now config r = .ok out) (hfree : r.lockedVotes = 0)
    (hbare : r.Bare) (htotal : r.ray ≤ config.totalRayDeposited) :
    ∃ out', withdrawRay now config r r.ray = .ok out' ∧ out'.reactor.ray = 0 ∧
      out'.reactor.isoRay = 0 ∧ out'.reactor.lockedVotes = 0 := by
  obtain ⟨config', r', hsettle, hray, -⟩ := syncReactor_ok h
  obtain ⟨hadvance, hset⟩ := settleAt_ok hsettle
  obtain ⟨_, -, hadv⟩ := ReactorConfig.advance_ok hadvance
  have hloss : isoRaySlashAmount r'.ray r'.ray r'.isoRay = .ok r'.isoRay :=
    isoRaySlashAmount_of_bare (settleAt_isoRay_le hsettle) (hset.bare hbare)
  have hstake : r'.ray ≤ config'.totalRayDeposited := by rwa [hset.ray, hadv.total]
  have hvotes : r'.freeVotes = (r'.ray + r'.isoRay : ℕ) := by
    rw [Reactor.freeVotes, Reactor.votePower, hset.lockedVotes, hfree]
    omega
  rw [← hset.ray]
  have hanswered : ∃ out', withdrawRay now config r r'.ray = .ok out' := by
    apply bind_answered (requireU64_eq_ok.mpr ⟨hray, rfl⟩)
    apply bind_answered hsettle
    dsimp only
    rw [if_neg (lt_irrefl _)]
    apply bind_answered hloss
    rw [if_neg (not_lt.mpr hvotes.ge)]
    apply bind_answered (Counter.sub_eq_ok.mpr (Nat.zero_add _))
    apply bind_answered (Counter.sub_eq_ok.mpr (Nat.zero_add _))
    exact bind_answered (Counter.sub_eq_ok.mpr (Nat.sub_add_cancel hstake)) ⟨_, rfl⟩
  obtain ⟨out', hout⟩ := hanswered
  refine ⟨out', hout, ?_⟩
  obtain ⟨config₂, r₂, taken, loss, ray, isoRay, total, hsettle₂, htaken, hloss₂, -, hray₂, hisoRay, -,
    rfl⟩ := withdrawRay_ok hout
  cases hsettle.symm.trans hsettle₂
  obtain rfl : taken = r'.ray := by omega
  obtain rfl : loss = r'.isoRay := Except.ok.inj (hloss₂.symm.trans hloss)
  refine ⟨by dsimp only; omega, by dsimp only; omega, hset.lockedVotes.trans hfree⟩

end Staking

end EmissionLedger
