import EmissionLedger.Proofs.Slashing
import Mathlib.Algebra.Order.Floor.Div
import Mathlib.Data.Rat.Cast.Order
import Mathlib.Tactic.FieldSimp
import Mathlib.Tactic.Linarith
import Mathlib.Tactic.Ring

/-!
How exact a slash is. Two roundings work against each other: the part of the stake that is taken out is
rounded down to the twelfth place, and the part of the isoRAY is rounded up to whole units. So a loss is
less than one unit above the exact share, but may fall below it, by a trillionth of the isoRAY at most.
Nothing and everything are no special cases of the rounded part, whose closed form gives 0 and 1 there,
and a loss that is rounded up from a part of at most one is never more than there is.

Main statements: the closed form of a loss (`isoRaySlashAmount_eq`), and how far it lies from the exact
share and how it moves with stake, withdrawal and isoRAY (`isoRaySlashAmount_accurate`).
-/

namespace EmissionLedger

/-- The isoRAY that is lost when `decrease` of `balance` RAY is taken out: the part is rounded down to
the twelfth place, what it makes of the isoRAY is rounded up to whole units. -/
def slashLoss (balance decrease isoRay : ℕ) : ℕ := (decrease * scale / balance * isoRay) ⌈/⌉ scale

/-! ### The closed form -/

theorem ceilDiv_mul_lt_add (n : ℕ) {d : ℕ} (hd : 0 < d) : (n ⌈/⌉ d) * d < n + d := by
  have hfloor := Nat.div_mul_le_self (n + d - 1) d
  rw [Nat.ceilDiv_eq_add_pred_div]
  omega

/-- The next whole number is the quotient by the scale, rounded up. -/
theorem Number.ceil_ok {a up : Number} (h : a.ceil = .ok up) : up.raw = (a.raw ⌈/⌉ scale) * scale := by
  have hscale : 0 < scale := by decide
  rw [ceil_eq_ok.mp h, Nat.ceilDiv_eq_add_pred_div, Nat.add_sub_assoc hscale]

/-- The part that is taken out, in every case. -/
theorem isoRaySlashRatio_ok {balance decrease : ℕ} {ratio : Number}
    (h : isoRaySlashRatio balance decrease = .ok ratio) : ratio.raw = decrease * scale / balance := by
  rw [isoRaySlashRatio] at h
  split at h
  · rename_i hnone
    rw [Except.ok.injEq] at h
    subst h
    rcases hnone with rfl | rfl
    · exact (Nat.div_zero _).symm
    · rw [Nat.zero_mul, Nat.zero_div, Number.raw_zero]
  · rename_i hsome
    split at h
    · rename_i hall
      rw [Except.ok.injEq] at h
      subst h hall
      exact (Nat.mul_div_cancel_left scale (by omega)).symm
    · exact (Number.ofRatio_ok h).2

theorem roundedLoss_ok {ratio whole : Number} {n loss : ℕ} (hwhole : whole.raw = n * scale)
    (h : roundedLoss ratio whole = .ok loss) : loss = min ((ratio.raw * n) ⌈/⌉ scale) n := by
  have hscale : 0 < scale := by decide
  simp only [roundedLoss, bind_eq_ok, Number.mul_eq_ok, Number.wholePart_eq_ok] at h
  obtain ⟨product, hproduct, up, hup, -, hloss⟩ := h
  rw [hwhole, ← Nat.mul_assoc, Nat.mul_div_cancel _ hscale] at hproduct
  have hraw := Number.ceil_ok hup
  rw [hproduct] at hraw
  rw [hloss, Number.min]
  split
  · rename_i hle
    rw [Number.le_iff, hraw, hwhole] at hle
    rw [hraw, Nat.mul_div_cancel _ hscale, min_eq_left (Nat.le_of_mul_le_mul_right hle hscale)]
  · rename_i hgt
    rw [Number.le_iff, hraw, hwhole, not_le] at hgt
    rw [hwhole, Nat.mul_div_cancel _ hscale, min_eq_right (Nat.le_of_lt (Nat.lt_of_mul_lt_mul_right hgt))]

theorem part_le_scale {balance decrease : ℕ} (h : decrease ≤ balance) :
    decrease * scale / balance ≤ scale :=
  Nat.div_le_of_le_mul (Nat.mul_le_mul_right scale h)

/-- No more is lost than there is. -/
theorem slashLoss_le {balance decrease : ℕ} (h : decrease ≤ balance) (isoRay : ℕ) :
    slashLoss balance decrease isoRay ≤ isoRay := by
  rw [slashLoss, ceilDiv_le_iff_le_mul (show 0 < scale by decide)]
  exact Nat.mul_le_mul_right isoRay (part_le_scale h)

/-- A loss that is found is the rounded part, or all if that would be more. -/
theorem isoRaySlashAmount_ok {balance decrease isoRay loss : ℕ}
    (h : isoRaySlashAmount balance decrease isoRay = .ok loss) :
    loss = min (slashLoss balance decrease isoRay) isoRay := by
  simp only [isoRaySlashAmount, bind_eq_ok, Number.ofNatural_eq_ok] at h
  obtain ⟨ratio, hratio, whole, hwhole, hrounded⟩ := h
  rw [roundedLoss_ok hwhole hrounded, isoRaySlashRatio_ok hratio, slashLoss]

/-- **The closed form of a loss.** -/
theorem isoRaySlashAmount_eq {balance decrease isoRay : ℕ} (hdecrease : decrease ≤ balance)
    (hbalance : balance ≤ maxU64) (hisoRay : isoRay ≤ maxU64) :
    isoRaySlashAmount balance decrease isoRay = .ok (slashLoss balance decrease isoRay) := by
  obtain ⟨loss, hloss⟩ := isoRaySlashAmount_answered hdecrease hbalance hisoRay
  rw [hloss, isoRaySlashAmount_ok hloss, min_eq_left (slashLoss_le hdecrease isoRay)]

/-! ### Nothing and everything -/

theorem slashLoss_nothing (balance isoRay : ℕ) : slashLoss balance 0 isoRay = 0 := by
  rw [slashLoss, Nat.zero_mul, Nat.zero_div, Nat.zero_mul, zero_ceilDiv]

theorem slashLoss_everything {balance : ℕ} (h : 0 < balance) (isoRay : ℕ) :
    slashLoss balance balance isoRay = isoRay := by
  have hscale : 0 < scale := by decide
  rw [slashLoss, Nat.mul_div_cancel_left scale h, ← smul_eq_mul scale, smul_ceilDiv hscale]

/-! ### Against the exact share -/

/-- What a loss is short of because the part is cut off at the twelfth place, in units of one over the
balance and the scale. -/
def slashCut (balance decrease isoRay : ℕ) : ℕ := decrease * scale % balance * isoRay

/-- What a loss gains by being rounded up to whole units, in the same units. -/
def slashLift (balance decrease isoRay : ℕ) : ℕ :=
  (slashLoss balance decrease isoRay * scale - decrease * scale / balance * isoRay) * balance

/-- A loss is the exact share without the cut and with the lift. -/
theorem slashLoss_mul_add_cut (balance decrease isoRay : ℕ) :
    slashLoss balance decrease isoRay * balance * scale + slashCut balance decrease isoRay =
      decrease * isoRay * scale + slashLift balance decrease isoRay := by
  have hup : decrease * scale / balance * isoRay ≤ slashLoss balance decrease isoRay * scale := by
    have hle := le_smul_ceilDiv (b := decrease * scale / balance * isoRay) (show 0 < scale by decide)
    rwa [smul_eq_mul, Nat.mul_comm scale] at hle
  have hsplit := Nat.div_add_mod (decrease * scale) balance
  rw [slashLift, slashCut]
  obtain ⟨lift, hlift⟩ := Nat.exists_eq_add_of_le hup
  generalize decrease * scale / balance = part at *
  generalize decrease * scale % balance = rest at *
  rw [hlift, Nat.add_sub_cancel_left]
  calc slashLoss balance decrease isoRay * balance * scale + rest * isoRay
      = slashLoss balance decrease isoRay * scale * balance + rest * isoRay := by ring
    _ = (part * isoRay + lift) * balance + rest * isoRay := by rw [hlift]
    _ = (balance * part + rest) * isoRay + lift * balance := by ring
    _ = decrease * isoRay * scale + lift * balance := by rw [hsplit]; ring

/-- The lift is less than one unit. -/
theorem slashLift_lt {balance : ℕ} (h : 0 < balance) (decrease isoRay : ℕ) :
    slashLift balance decrease isoRay < balance * scale := by
  have hscale : 0 < scale := by decide
  have hup := ceilDiv_mul_lt_add (decrease * scale / balance * isoRay) hscale
  rw [← slashLoss] at hup
  rw [slashLift, Nat.mul_comm balance]
  exact Nat.mul_lt_mul_of_pos_right (by omega) h

/-- The cut is less than a trillionth of the isoRAY. -/
theorem slashCut_lt {balance isoRay : ℕ} (hbalance : 0 < balance) (hisoRay : 0 < isoRay) (decrease : ℕ) :
    slashCut balance decrease isoRay < balance * isoRay :=
  Nat.mul_lt_mul_of_pos_right (Nat.mod_lt _ hbalance) hisoRay

/-- Less than one unit is lost above the exact share. -/
theorem slashLoss_mul_lt {balance : ℕ} (h : 0 < balance) (decrease isoRay : ℕ) :
    slashLoss balance decrease isoRay * balance < decrease * isoRay + balance := by
  have hlift := slashLift_lt h decrease isoRay
  have hexact := slashLoss_mul_add_cut balance decrease isoRay
  refine Nat.lt_of_mul_lt_mul_right (a := scale) ?_
  rw [Nat.add_mul]
  omega

/-- What is lost falls short of the exact share by less than a trillionth of the isoRAY. -/
theorem share_mul_lt_slashLoss_mul {balance isoRay : ℕ} (hbalance : 0 < balance) (hisoRay : 0 < isoRay)
    (decrease : ℕ) : decrease * isoRay * scale <
      slashLoss balance decrease isoRay * balance * scale + balance * isoRay := by
  have hcut := slashCut_lt hbalance hisoRay decrease
  have hexact := slashLoss_mul_add_cut balance decrease isoRay
  omega

/-! ### When more is taken out or there is more -/

/-- A larger part of more isoRAY is no smaller loss. -/
theorem rounded_mono {part part' isoRay isoRay' : ℕ} (hpart : part ≤ part') (hisoRay : isoRay ≤ isoRay') :
    (part * isoRay) ⌈/⌉ scale ≤ (part' * isoRay') ⌈/⌉ scale :=
  (gc_mul_ceilDiv (show 0 < scale by decide)).monotone_l (Nat.mul_le_mul hpart hisoRay)

theorem slashLoss_mono_decrease (balance isoRay : ℕ) {decrease decrease' : ℕ} (h : decrease ≤ decrease') :
    slashLoss balance decrease isoRay ≤ slashLoss balance decrease' isoRay :=
  rounded_mono (Nat.div_le_div_right (Nat.mul_le_mul_right scale h)) le_rfl

theorem slashLoss_mono_isoRay (balance decrease : ℕ) {isoRay isoRay' : ℕ} (h : isoRay ≤ isoRay') :
    slashLoss balance decrease isoRay ≤ slashLoss balance decrease isoRay' :=
  rounded_mono le_rfl h

/-- The larger the stake, the smaller the part. An empty stake has only an empty part. -/
theorem slashLoss_anti_balance {balance balance' decrease : ℕ} (isoRay : ℕ) (hdecrease : decrease ≤ balance)
    (h : balance ≤ balance') : slashLoss balance' decrease isoRay ≤ slashLoss balance decrease isoRay := by
  rcases Nat.eq_zero_or_pos balance with rfl | hpos
  · rw [Nat.le_zero.mp hdecrease, slashLoss_nothing]
    exact Nat.zero_le _
  · exact rounded_mono (Nat.div_le_div_left h hpos) le_rfl

/-! ### Accuracy -/

/-- The bounds between exact quotients; the share of an empty stake is read as nothing. -/
theorem slashLoss_near {balance decrease : ℕ} (h : decrease ≤ balance) (isoRay : ℕ) :
    (decrease * isoRay / balance : ℚ) - isoRay / scale ≤ slashLoss balance decrease isoRay ∧
      (slashLoss balance decrease isoRay : ℚ) < decrease * isoRay / balance + 1 := by
  have hscale : (0 : ℚ) < scale := by norm_num [scale]
  have hnear : (0 : ℚ) ≤ isoRay / scale := div_nonneg (Nat.cast_nonneg isoRay) hscale.le
  rcases Nat.eq_zero_or_pos balance with rfl | hpos
  · rw [Nat.le_zero.mp h, slashLoss_nothing]
    simp only [Nat.cast_zero, zero_mul, div_zero, zero_sub, zero_add]
    exact ⟨by linarith, one_pos⟩
  have hbalance : (0 : ℚ) < balance := by exact_mod_cast hpos
  constructor
  · rcases Nat.eq_zero_or_pos isoRay with rfl | hsome
    · simp
    have hshort : (decrease * isoRay * scale : ℚ) <
        slashLoss balance decrease isoRay * balance * scale + balance * isoRay := by
      exact_mod_cast share_mul_lt_slashLoss_mul hpos hsome decrease
    rw [sub_le_iff_le_add, div_le_iff₀ hbalance]
    have hsplit : ((slashLoss balance decrease isoRay : ℚ) + isoRay / scale) * balance * scale =
        slashLoss balance decrease isoRay * balance * scale + balance * isoRay := by
      field_simp
    refine le_of_mul_le_mul_right ?_ hscale
    rw [hsplit]
    exact hshort.le
  · have hover : (slashLoss balance decrease isoRay * balance : ℚ) < decrease * isoRay + balance := by
      exact_mod_cast slashLoss_mul_lt hpos decrease isoRay
    rw [div_add_one hbalance.ne', lt_div_iff₀ hbalance]
    exact hover

/-- **Accuracy of a slash.** For counters of 64 bits, of which no more is taken out than there is, a loss
is always found and is at most the isoRAY. It lies less than one unit above the exact share and at most a
trillionth of the isoRAY below it; it does not fall when more is taken out or there is more isoRAY, and
does not rise when there is more RAY. Nothing is lost with nothing, and everything with everything. -/
theorem isoRaySlashAmount_accurate {balance decrease isoRay : ℕ} (hbalance : balance ≤ maxU64)
    (hdecrease : decrease ≤ balance) (hisoRay : isoRay ≤ maxU64) :
    ∃ loss, isoRaySlashAmount balance decrease isoRay = .ok loss ∧ loss ≤ isoRay ∧
      (decrease * isoRay / balance : ℚ) - isoRay / 1000000000000 ≤ loss ∧
      (loss : ℚ) < decrease * isoRay / balance + 1 ∧
      (∀ decrease', decrease ≤ decrease' → decrease' ≤ balance →
        ∃ loss', isoRaySlashAmount balance decrease' isoRay = .ok loss' ∧ loss ≤ loss') ∧
      (∀ isoRay', isoRay ≤ isoRay' → isoRay' ≤ maxU64 →
        ∃ loss', isoRaySlashAmount balance decrease isoRay' = .ok loss' ∧ loss ≤ loss') ∧
      (∀ balance', balance ≤ balance' → balance' ≤ maxU64 →
        ∃ loss', isoRaySlashAmount balance' decrease isoRay = .ok loss' ∧ loss' ≤ loss) ∧
      (decrease = 0 → loss = 0) ∧ (decrease = balance → 0 < balance → loss = isoRay) := by
  obtain ⟨hlow, hhigh⟩ := slashLoss_near hdecrease isoRay
  have hscale : ((scale : ℕ) : ℚ) = 1000000000000 := by norm_num [scale]
  rw [hscale] at hlow
  refine ⟨_, isoRaySlashAmount_eq hdecrease hbalance hisoRay, slashLoss_le hdecrease isoRay, hlow, hhigh,
    fun decrease' hmore hfits => ?_, fun isoRay' hmore hfits => ?_, fun balance' hmore hfits => ?_, ?_, ?_⟩
  · exact ⟨_, isoRaySlashAmount_eq hfits hbalance hisoRay, slashLoss_mono_decrease balance isoRay hmore⟩
  · exact ⟨_, isoRaySlashAmount_eq hdecrease hbalance hfits, slashLoss_mono_isoRay balance decrease hmore⟩
  · exact ⟨_, isoRaySlashAmount_eq (hdecrease.trans hmore) hfits hisoRay,
      slashLoss_anti_balance isoRay hdecrease hmore⟩
  · rintro rfl
    exact slashLoss_nothing balance isoRay
  · rintro rfl hpos
    exact slashLoss_everything hpos isoRay

/-- A third of ten isoRAY is four, and of three trillion one less than a trillion. -/
theorem isoRaySlashAmount_accurate_third :
    isoRaySlashAmount 3 1 10 = .ok 4 ∧ isoRaySlashAmount 3 1 3000000000000 = .ok 999999999999 ∧
      ((1 : ℕ) * (3000000000000 : ℕ) / (3 : ℕ) : ℚ) - (3000000000000 : ℕ) / 1000000000000 ≤
        (999999999999 : ℕ) := by
  have hloss : isoRaySlashAmount 3 1 3000000000000 = .ok 999999999999 :=
    toOption_eq_some.mp (by decide +kernel)
  obtain ⟨loss, hfound, -, hlow, -⟩ :=
    @isoRaySlashAmount_accurate 3 1 3000000000000 (by decide) (by decide) (by decide)
  obtain rfl : loss = 999999999999 := Except.ok.inj (hfound.symm.trans hloss)
  exact ⟨toOption_eq_some.mp (by decide +kernel), hloss, hlow⟩

end EmissionLedger
