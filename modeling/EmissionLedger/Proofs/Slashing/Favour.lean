import EmissionLedger.Proofs.Slashing.Rounding
import EmissionLedger.Proofs.Staking.Book

/-!
Whom the rounding of a slash favours. It is meant to favour the pool, but only the last of two roundings
does: the part that is taken out is cut off first. A withdrawal leaves the ratio of isoRAY to RAY as it
is or lowers it exactly if the lift of the last rounding makes up for that cut, as it does when the part
has at most twelve places or when RAY times isoRAY is at most a trillion. Otherwise the isoRAY that is
left is more than the old ratio gives for the RAY that is left, by a trillionth of the isoRAY at most.

Main statements: `Staking.withdrawRay_favour`; `Staking.withdrawRay_short_of_share`, a withdrawal that
loses nothing where the share is nine.
-/

namespace EmissionLedger

variable {balance decrease isoRay : ℕ}

/-! ### The cut and the lift -/

/-- At least the exact share is lost exactly if rounding up adds what cutting off takes. -/
theorem share_le_slashLoss_iff : decrease * isoRay ≤ slashLoss balance decrease isoRay * balance ↔
    slashCut balance decrease isoRay ≤ slashLift balance decrease isoRay := by
  have hscale : 0 < scale := by decide
  have hexact := slashLoss_mul_add_cut balance decrease isoRay
  rw [← Nat.mul_le_mul_right_iff hscale]
  omega

/-- Nothing is cut off a part of at most twelve places. -/
theorem slashCut_of_dvd (h : balance ∣ decrease * scale) : slashCut balance decrease isoRay = 0 := by
  rw [slashCut, Nat.mod_eq_zero_of_dvd h, Nat.zero_mul]

/-- Where there is a share at all, there are RAY and isoRAY. -/
theorem share_mul_lt_of_pos (h : decrease ≤ balance) (hshare : 0 < decrease * isoRay) :
    decrease * isoRay * scale < slashLoss balance decrease isoRay * balance * scale + balance * isoRay :=
  share_mul_lt_slashLoss_mul ((Nat.pos_of_mul_pos_right hshare).trans_le h)
    (Nat.pos_of_mul_pos_left hshare) decrease

/-- What is lost falls short of the exact share by a trillionth of the isoRAY at most. -/
theorem share_mul_le_slashLoss_mul (h : decrease ≤ balance) (isoRay : ℕ) : decrease * isoRay * scale ≤
    slashLoss balance decrease isoRay * balance * scale + balance * isoRay := by
  rcases Nat.eq_zero_or_pos (decrease * isoRay) with hnone | hshare
  · rw [hnone, Nat.zero_mul]
    exact Nat.zero_le _
  · exact (share_mul_lt_of_pos h hshare).le

/-- Where RAY times isoRAY is at most a trillion, a loss falls short of the share by less than one unit
over the balance, and both are whole numbers of such units. -/
theorem share_le_slashLoss_of_le (h : decrease ≤ balance) (hsmall : balance * isoRay ≤ scale) :
    decrease * isoRay ≤ slashLoss balance decrease isoRay * balance := by
  rcases Nat.eq_zero_or_pos (decrease * isoRay) with hnone | hshare
  · exact hnone.trans_le (Nat.zero_le _)
  · have hshort := share_mul_lt_of_pos h hshare
    refine Nat.le_of_lt_succ (Nat.lt_of_mul_lt_mul_right (a := scale) ?_)
    rw [Nat.succ_mul]
    omega

/-! ### The ratio of isoRAY to RAY -/

/-- The ratio does not rise exactly if at least the exact share is lost. -/
theorem ratio_le_iff {loss left rayLeft : ℕ} (hisoRay : left + loss = isoRay)
    (hray : rayLeft + decrease = balance) :
    left * balance ≤ isoRay * rayLeft ↔ decrease * isoRay ≤ loss * balance := by
  have hwhole : left * balance + loss * balance = isoRay * rayLeft + decrease * isoRay := by
    rw [← Nat.add_mul, hisoRay, ← hray, Nat.mul_add, Nat.mul_comm decrease]
  omega

/-- The ratio rises by as much as a loss falls short of the exact share. -/
theorem ratio_mul_le {loss left rayLeft short : ℕ} (hisoRay : left + loss = isoRay)
    (hray : rayLeft + decrease = balance)
    (hloss : decrease * isoRay * scale ≤ loss * balance * scale + short) :
    left * balance * scale ≤ isoRay * rayLeft * scale + short := by
  have hwhole : left * balance * scale + loss * balance * scale =
      isoRay * rayLeft * scale + decrease * isoRay * scale := by
    rw [← Nat.add_mul, ← Nat.add_mul, ← Nat.add_mul, hisoRay, ← hray, Nat.mul_add, Nat.mul_comm decrease]
  omega

namespace Staking

variable {now amount : Int} {config : ReactorConfig} {r : Reactor} {out : Outcome}

/-- What an answered withdrawal takes from a settled reactor, with the loss in its closed form. -/
theorem withdrawRay_slashLoss (h : withdrawRay now config r amount = .ok out) :
    ∃ config' r', settleAt now config r = .ok (config', r') ∧ amount = out.transferAmount ∧
      out.reactor.ray + out.transferAmount = r'.ray ∧
      out.reactor.isoRay + out.isoRaySlashed = r'.isoRay ∧
      out.isoRaySlashed = slashLoss r'.ray out.transferAmount r'.isoRay := by
  obtain ⟨config', r', taken, loss, ray, isoRay, total, hsettle, hamount, hloss, -, hray, hisoRay, -, rfl⟩ :=
    withdrawRay_ok h
  have hclosed := isoRaySlashAmount_ok hloss
  rw [min_eq_left (slashLoss_le (by omega) _)] at hclosed
  exact ⟨config', r', hsettle, hamount, hray, hisoRay, hclosed⟩

/-- **Whom a withdrawal favours.** Of the RAY and the isoRAY of the reactor as it was settled, no more
isoRAY is lost than there is. At least the exact share is lost, and the ratio of isoRAY to RAY does not
rise, exactly if the lift of rounding up makes up for the cut of the part; that is so whenever the part
has at most twelve places or RAY times isoRAY is at most a trillion. In every case the loss lies less
than one unit above the exact share and at most a trillionth of the isoRAY below it, and what is left
exceeds the old ratio by no more. -/
theorem withdrawRay_favour (h : withdrawRay now config r amount = .ok out) :
    ∃ config' r', settleAt now config r = .ok (config', r') ∧ amount = out.transferAmount ∧
      out.isoRaySlashed ≤ r'.isoRay ∧
      (out.transferAmount * r'.isoRay ≤ out.isoRaySlashed * r'.ray ↔
        slashCut r'.ray out.transferAmount r'.isoRay ≤ slashLift r'.ray out.transferAmount r'.isoRay) ∧
      (out.reactor.isoRay * r'.ray ≤ r'.isoRay * out.reactor.ray ↔
        out.transferAmount * r'.isoRay ≤ out.isoRaySlashed * r'.ray) ∧
      (r'.ray ∣ out.transferAmount * 1000000000000 ∨ r'.ray * r'.isoRay ≤ 1000000000000 →
        out.transferAmount * r'.isoRay ≤ out.isoRaySlashed * r'.ray) ∧
      (0 < r'.ray → out.isoRaySlashed * r'.ray < out.transferAmount * r'.isoRay + r'.ray) ∧
      out.transferAmount * r'.isoRay * 1000000000000 ≤
        out.isoRaySlashed * r'.ray * 1000000000000 + r'.ray * r'.isoRay ∧
      out.reactor.isoRay * r'.ray * 1000000000000 ≤
        r'.isoRay * out.reactor.ray * 1000000000000 + r'.ray * r'.isoRay := by
  obtain ⟨config', r', hsettle, hamount, hray, hisoRay, hloss⟩ := withdrawRay_slashLoss h
  have htaken : out.transferAmount ≤ r'.ray := by omega
  have hnear := share_mul_le_slashLoss_mul htaken r'.isoRay
  refine ⟨config', r', hsettle, hamount, by omega, ?_, ratio_le_iff hisoRay hray, ?_, ?_, ?_, ?_⟩
  · rw [hloss]
    exact share_le_slashLoss_iff
  · rw [hloss]
    rintro (hexact | hsmall)
    · exact share_le_slashLoss_iff.mpr ((slashCut_of_dvd hexact).trans_le (Nat.zero_le _))
    · exact share_le_slashLoss_of_le htaken hsmall
  · rw [hloss]
    exact fun hpos => slashLoss_mul_lt hpos _ _
  · rw [hloss]
    exact hnear
  · rw [hloss] at hisoRay
    exact ratio_mul_le hisoRay hray hnear

/-- Taking out a third of the RAY costs four of ten isoRAY, more than the exact share. -/
theorem withdrawRay_favour_third :
    let config : ReactorConfig := ⟨300, 0, .zero, 0, .zero, 0⟩
    let r : Reactor := ⟨.zero, 300, 10, 0, .zero, ⟨.zero, 0⟩⟩
    ∃ out, withdrawRay 0 config r 100 = .ok out ∧ out.isoRaySlashed = 4 ∧
      out.reactor.isoRay * r.ray ≤ r.isoRay * out.reactor.ray := by
  intro config r
  let out : Outcome := ⟨{ config with totalRayDeposited := 200 }, { r with ray := 200, isoRay := 6 }, 100, 4⟩
  have hout : withdrawRay 0 config r 100 = .ok out := toOption_eq_some.mp (by decide +kernel)
  have hsettled : settleAt 0 config r = .ok (config, r) := toOption_eq_some.mp (by decide +kernel)
  obtain ⟨config', r', hsettle, -, -, -, hratio, hfavour, -⟩ := withdrawRay_favour hout
  cases hsettled.symm.trans hsettle
  exact ⟨out, hout, rfl, hratio.mpr (hfavour (.inr (by decide)))⟩

/-- Nine of ten trillion RAY are taken out without any loss, where the exact share of ten trillion isoRAY
is nine: the part has thirteen places, and twelve of them are zero. -/
theorem withdrawRay_short_of_share :
    let config : ReactorConfig := ⟨10000000000000, 0, .zero, 0, .zero, 0⟩
    let r : Reactor := ⟨.zero, 10000000000000, 10000000000000, 0, .zero, ⟨.zero, 0⟩⟩
    config.WellFormed ∧ r.WellFormed ∧ settleAt 0 config r = .ok (config, r) ∧
      ∃ out, withdrawRay 0 config r 9 = .ok out ∧ out.transferAmount = 9 ∧ out.isoRaySlashed = 0 ∧
        out.isoRaySlashed * r.ray < 9 * r.isoRay ∧
        r.isoRay * out.reactor.ray < out.reactor.isoRay * r.ray := by
  intro config r
  let out : Outcome :=
    ⟨{ config with totalRayDeposited := 9999999999991 }, { r with ray := 9999999999991 }, 9, 0⟩
  have hout : withdrawRay 0 config r 9 = .ok out := toOption_eq_some.mp (by decide +kernel)
  have hsettled : settleAt 0 config r = .ok (config, r) := toOption_eq_some.mp (by decide +kernel)
  have hconfig : config.WellFormed := ⟨by decide, by decide, by decide, by decide⟩
  have hr : r.WellFormed := ⟨by decide, by decide, by decide, Nat.zero_le _, by decide⟩
  exact ⟨hconfig, hr, hsettled, out, hout, rfl, rfl, by decide, by decide⟩

end Staking

end EmissionLedger
