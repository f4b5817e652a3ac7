import EmissionLedger.Number.Arithmetic

/-!
Slashing: whoever takes RAY out of a reactor loses isoRAY in proportion. The loss is rounded up, in
favour of the pool, and is never more than there is.
-/

namespace EmissionLedger

/-- The part of a stake that is taken out: nothing of an empty stake, and exactly one if all is
taken. -/
def isoRaySlashRatio (balance decrease : Nat) : Result Number :=
  if balance = 0 ∨ decrease = 0 then .ok .zero
  else if decrease = balance then .ok .one
  else Number.ofRatio decrease balance

/-- The part of a whole balance that is lost, rounded up and at most the balance. -/
def roundedLoss (ratio balance : Number) : Result Nat := do
  let exact ← ratio.mul balance
  let up ← exact.ceil
  (up.min balance).wholePart 64

/-- The isoRAY that is lost when `decrease` of `balance` RAY is taken out. -/
def isoRaySlashAmount (balance decrease isoRay : Nat) : Result Nat := do
  let ratio ← isoRaySlashRatio balance decrease
  let whole ← Number.ofNatural isoRay
  roundedLoss ratio whole

end EmissionLedger
