import EmissionLedger.Slashing
import EmissionLedger.Proofs.Accrual.Faults

/-!
Slashing. The part that is taken out is cut off at the twelfth place in general, but taking everything
out is a part of exactly one, so all isoRAY is lost with the last RAY. The part is never more than one,
so no number on the way is larger than the isoRAY that there is, and an amount is always found.

Main statements: `isoRaySlashAmount_all` and `isoRaySlashAmount_answered`.
-/

namespace EmissionLedger

theorem Number.ceil_of_whole {a : Number} (h : a.raw % scale = 0) : a.ceil = .ok a := by
  rw [ceil, if_pos h]

theorem isoRaySlashRatio_all {balance : Nat} (h : balance ≠ 0) :
    isoRaySlashRatio balance balance = .ok .one := by
  rw [isoRaySlashRatio, if_neg (by omega), if_pos rfl]

/-- The part of one of a whole balance is the balance. -/
theorem roundedLoss_one {whole : Number} {loss n : Nat} (h : whole.raw = n * scale) :
    roundedLoss .one whole = .ok loss ↔ n ≤ maxU64 ∧ loss = n := by
  have hscale : 0 < scale := by decide
  have hexact : Number.one.mul whole = .ok whole := by
    rw [Number.mul_eq_ok, Number.raw_one, Nat.mul_div_cancel_left _ hscale]
  have hceil : whole.ceil = .ok whole := Number.ceil_of_whole (by rw [h, Nat.mul_mod_left])
  have hmin : whole.min whole = whole := by rw [Number.min, ite_self]
  simp only [roundedLoss, bind_eq_ok, hexact, hceil, Except.ok.injEq, exists_eq_left', hmin,
    Number.wholePart_eq_ok, h, Nat.mul_div_cancel _ hscale]
  omega

/-- Who takes out a whole stake loses all isoRAY. -/
theorem isoRaySlashAmount_all {balance isoRay loss : Nat} (h : balance ≠ 0) :
    isoRaySlashAmount balance balance isoRay = .ok loss ↔ isoRay ≤ maxU64 ∧ loss = isoRay := by
  have hwidth : maxU64 * scale ≤ maxRaw := by decide
  simp only [isoRaySlashAmount, isoRaySlashRatio_all h, bind_eq_ok, Except.ok.injEq, exists_eq_left',
    Number.ofNatural_eq_ok]
  constructor
  · rintro ⟨whole, hwhole, hloss⟩
    exact (roundedLoss_one hwhole).mp hloss
  · intro h
    have hfits : isoRay * scale ≤ maxRaw := Nat.le_trans (Nat.mul_le_mul_right _ h.1) hwidth
    let whole : Number := ⟨isoRay * scale, hfits⟩
    have hwhole : whole.raw = isoRay * scale := rfl
    exact ⟨whole, hwhole, (roundedLoss_one hwhole).mpr h⟩

/-! ### When a loss is found -/

theorem Number.ceil_answered {a : Number} {n : Nat} (hle : a.raw ≤ n * scale) (hfits : n * scale ≤ maxRaw) :
    ∃ up, a.ceil = .ok up ∧ up.raw ≤ n * scale := by
  have hscale : 0 < scale := by decide
  have hquotient : (a.raw + (scale - 1)) / scale ≤ n := by
    rw [← Nat.lt_succ_iff, Nat.div_lt_iff_lt_mul hscale, Nat.succ_mul]
    omega
  have hup : (a.raw + (scale - 1)) / scale * scale ≤ n * scale := Nat.mul_le_mul_right _ hquotient
  exact ⟨⟨_, Nat.le_trans hup hfits⟩, ceil_eq_ok.mpr rfl, hup⟩

theorem isoRaySlashRatio_answered {balance decrease : Nat} (hle : decrease ≤ balance)
    (hfits : balance * scale ≤ maxRaw) :
    ∃ ratio, isoRaySlashRatio balance decrease = .ok ratio ∧ ratio.raw ≤ scale := by
  rw [isoRaySlashRatio]
  split
  · exact ⟨.zero, rfl, Nat.zero_le _⟩
  · rename_i hsome
    split
    · exact ⟨.one, rfl, Nat.le_refl _⟩
    · have hdecrease : decrease * scale ≤ maxRaw := Nat.le_trans (Nat.mul_le_mul_right _ hle) hfits
      obtain ⟨ratio, hratio⟩ := Number.ofRatio_answered (by omega) hdecrease hfits
      refine ⟨ratio, hratio, ?_⟩
      rw [(Number.ofRatio_ok hratio).2]
      exact Nat.div_le_of_le_mul (Nat.mul_le_mul_right _ hle)

theorem roundedLoss_answered {ratio whole : Number} {n : Nat} (hratio : ratio.raw ≤ scale)
    (hwhole : whole.raw = n * scale) (hn : n ≤ maxU64) : ∃ loss, roundedLoss ratio whole = .ok loss := by
  have hscale : 0 < scale := by decide
  have hproduct : ratio.raw * whole.raw / scale ≤ whole.raw :=
    Nat.div_le_of_le_mul (Nat.mul_le_mul_right _ hratio)
  obtain ⟨product, hexact⟩ := Number.exists_raw (Nat.le_trans hproduct whole.raw_le)
  obtain ⟨up, hup, -⟩ := Number.ceil_answered (a := product) (n := n) (by omega) (hwhole ▸ whole.raw_le)
  have hmin : (up.min whole).raw ≤ n * scale := by
    rw [Number.min]
    split
    · rename_i hle
      exact Nat.le_trans hle (Nat.le_of_eq hwhole)
    · exact Nat.le_of_eq hwhole
  have hloss : (up.min whole).raw / scale ≤ maxU64 :=
    Nat.le_trans (Nat.div_le_of_le_mul (by rwa [Nat.mul_comm])) hn
  refine bind_answered (Number.mul_eq_ok.mpr hexact) ?_
  exact bind_answered hup ⟨_, Number.wholePart_eq_ok.mpr ⟨hloss, rfl⟩⟩

/-- Whoever takes out at most the stake loses an amount of isoRAY that is found without a fault. -/
theorem isoRaySlashAmount_answered {balance decrease isoRay : Nat} (hle : decrease ≤ balance)
    (hbalance : balance ≤ maxU64) (hisoRay : isoRay ≤ maxU64) :
    ∃ loss, isoRaySlashAmount balance decrease isoRay = .ok loss := by
  have hwidth : maxU64 * scale ≤ maxRaw := by decide
  obtain ⟨ratio, hratio, hone⟩ :=
    isoRaySlashRatio_answered hle (Nat.le_trans (Nat.mul_le_mul_right _ hbalance) hwidth)
  obtain ⟨whole, hwhole⟩ := Number.exists_raw (Nat.le_trans (Nat.mul_le_mul_right scale hisoRay) hwidth)
  refine bind_answered hratio ?_
  exact bind_answered (Number.ofNatural_eq_ok.mpr hwhole) (roundedLoss_answered hone hwhole hisoRay)

/-- A loss is refused only because a number grows too large. -/
theorem isoRaySlashAmount_faultsIn {allowed : Fault → Prop}
    (hover : ∀ e : Fault, e.causeKind = .arithmeticOverflow → allowed e) (balance decrease isoRay : Nat) :
    FaultsIn allowed (isoRaySlashAmount balance decrease isoRay) := by
  have hratio : FaultsIn allowed (isoRaySlashRatio balance decrease) := by
    rw [isoRaySlashRatio]
    refine .ite (fun _ => .ok) fun hsome => .ite (fun _ => .ok) fun _ => ?_
    exact Number.ofRatio_faultsIn hover decrease (not_or.mp hsome).1
  refine .bind hratio fun ratio _ => .bind (Number.ofNatural_faultsIn (hover _ rfl)) fun whole _ => ?_
  refine .bind (Number.mul_faultsIn (hover _ rfl)) fun product _ => ?_
  refine .bind (Number.ceil_faultsIn (hover _ rfl)) fun up _ => ?_
  exact Number.wholePart_faultsIn (hover _ rfl)

end EmissionLedger
