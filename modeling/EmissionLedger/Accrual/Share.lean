import EmissionLedger.Number.Arithmetic

/-!
Share accounts: an account holds a share and the index it has seen last, and earns its share of what
the index has gained since, when it is next looked at.
-/

namespace EmissionLedger

/-- What a share account has earned, and the index it has now seen. -/
structure ShareAccrual where
  accrued : Number
  lastSeen : Number

/-- The whole units of what was earned, as a 64-bit integer. -/
def ShareAccrual.units (accrual : ShareAccrual) : Result Nat := accrual.accrued.wholePart 64

/-- What a share earns between two values of an index. -/
def accrueShare (what : String) (share : Nat) (lastSeen current : Number) : Result ShareAccrual :=
  if current < lastSeen then .error (.indexRegression (.share what current lastSeen))
  else do
    let delta ← current.sub lastSeen
    if delta = .zero then return { accrued := .zero, lastSeen }
    else
      let amount ← Number.ofNatural share
      let accrued ← amount.mul delta
      return { accrued, lastSeen := current }

end EmissionLedger
