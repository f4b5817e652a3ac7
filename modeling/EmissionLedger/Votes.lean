import EmissionLedger.Record.Basic

/-!
Locking votes. A reactor has one vote for each RAY and isoRAY; votes that stand behind a gauge are
locked, and only free votes can be locked.
-/

namespace EmissionLedger.Reactor

/-- Locks free votes. -/
def lockVotes (r : Reactor) (amount : Int) : Result Reactor := do
  let votes ← requireU64 "amount" amount
  if r.freeVotes < votes then
    .error (.shortage .votesToLock votes r.freeVotes none)
  else
    let locked ← Counter.add "locked_votes" r.lockedVotes votes
    return { r with lockedVotes := locked }

/-- Frees locked votes. -/
def unlockVotes (r : Reactor) (amount : Int) : Result Reactor := do
  let votes ← requireU64 "amount" amount
  if r.lockedVotes < votes then
    .error (.shortage .votesToUnlock votes r.lockedVotes none)
  else
    let locked ← Counter.sub "locked_votes" r.lockedVotes votes
    return { r with lockedVotes := locked }

end EmissionLedger.Reactor
