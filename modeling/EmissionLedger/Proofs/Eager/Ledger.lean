import EmissionLedger.Number.Basic
import EmissionLedger.Proofs.Run
import EmissionLedger.Proofs.Table
import Mathlib.Algebra.BigOperators.Pi
import Mathlib.Algebra.BigOperators.Ring.Finset
import Mathlib.Tactic.Linarith
import Mathlib.Tactic.Ring

/-!
The eager ledger. An engine credits a share account only when it is looked at, with its share times all
that the index has gained since. The eager ledger stands beside the engine and credits every account at
every growth of the index at once. What an account has earned, credited or not, moves with its balance
in the eager ledger; a settlement in whole units leaves less than one unit behind.
-/

namespace EmissionLedger

/-! ### The ledger -/

section Ledger

variable {σ κ ι : Type}

/-- What the eager ledger credits in a call. The index moves on before a share changes, so every account
gets the share that it had before the call times the growth. -/
def eagerCredits (index : σ → Number) (share : σ → ι → ℕ) (s : σ) (_ : κ) (s' : σ) : ι → ℕ :=
  fun account => share s account * ((index s').raw - (index s).raw)

/-- The balances of the eager ledger after a run, in raw units. -/
def eagerLedger (step : σ → κ → Option σ) (index : σ → Number) (share : σ → ι → ℕ) (start : σ)
    (calls : List κ) : ι → ℕ :=
  tally step (eagerCredits index share) start calls

variable (step : σ → κ → Option σ) (index : σ → Number) (share : σ → ι → ℕ) (start : σ)
  (calls : List κ)

theorem eagerLedger_apply (account : ι) :
    eagerLedger step index share start calls account =
      tally step (fun s call s' => eagerCredits index share s call s' account) start calls :=
  map_tally (Pi.evalAddMonoidHom (fun _ => ℕ) account) (eagerCredits index share) start calls

theorem sum_eagerLedger (accounts : Finset ι) :
    ∑ account ∈ accounts, eagerLedger step index share start calls account =
      tally step (fun s _ s' => (∑ account ∈ accounts, share s account) *
        ((index s').raw - (index s).raw)) start calls := by
  have hsum : (∑ account ∈ accounts, Pi.evalAddMonoidHom (fun _ : ι => ℕ) account)
      (eagerLedger step index share start calls) = _ :=
    map_tally _ (eagerCredits index share) start calls
  simp only [AddMonoidHom.finsetSum_apply, Pi.evalAddMonoidHom_apply, eagerCredits,
    ← Finset.sum_mul] at hsum
  exact hsum

end Ledger

/-! ### Accounts that follow the ledger -/

section Follows

variable {σ κ ι : Type}

/-- In a call, what an account has earned moves with the eager ledger and with what is given out, but for
one unit at most for each settlement of the account. -/
structure Follows (index : σ → Number) (share : σ → ι → ℕ) (account : ι) (earned : σ → ℤ)
    (out settled : σ → κ → σ → ℕ) (s : σ) (call : κ) (s' : σ) : Prop where
  le : earned s' + (out s call s' * scale : ℕ) ≤
    earned s + eagerCredits index share s call s' account
  ge : earned s + eagerCredits index share s call s' account ≤
    earned s' + (out s call s' * scale : ℕ) + (settled s call s' * scale : ℕ)

variable {step : σ → κ → Option σ} {index : σ → Number} {share : σ → ι → ℕ} {account : ι}
  {earned : σ → ℤ} {out settled : σ → κ → σ → ℕ} {P : σ → Prop}

theorem follows_run (hP : ∀ s call s', P s → step s call = some s' → P s')
    (hstep : ∀ s call s', P s → step s call = some s' →
      Follows index share account earned out settled s call s')
    {start : σ} (hstart : P start) (h0 : earned start = 0) (calls : List κ) :
    let last := run step start calls
    let balance := eagerLedger step index share start calls account
    earned last + (tally step out start calls * scale : ℕ) ≤ balance ∧
      balance ≤ earned last + (tally step out start calls * scale : ℕ) +
        (tally step settled start calls * scale : ℕ) := by
  intro last balance
  have hrun := run_balance hP (fun s call s' hs hcall => ⟨(hstep s call s' hs hcall).le,
    (hstep s call s' hs hcall).ge⟩) calls hstart
  rw [tally_mul, tally_mul, ← eagerLedger_apply, h0, zero_add] at hrun
  exact hrun

end Follows

/-! ### Tables of accounts -/

/-- What accounts of a kind have earned when the index stands somewhere, credited or not: it grows with
the index by the account's share. -/
structure LazyAccount (α : Type) where
  share : α → ℕ
  earned : α → Number → ℤ
  gain : ∀ a {i i' : Number}, i ≤ i' →
    earned a i' = earned a i + (share a * (i'.raw - i.raw) : ℕ)

namespace LazyAccount

variable {σ κ ι α : Type} [DecidableEq ι] (kind : LazyAccount α) (table : σ → Table ι α)
  (index : σ → Number)

/-- The shares of all accounts of a state, none for an account that was not opened. -/
def shares (s : σ) (account : ι) : ℕ := (table s).valueAt kind.share account

/-- What an account of a state has earned when the index stands at `i`. -/
def earnedBy (account : ι) (i : Number) (s : σ) : ℤ := (table s).valueAt (kind.earned · i) account

theorem earnedBy_of_lookup {s : σ} {account : ι} {a : α} (h : (table s).lookup account = some a)
    (i : Number) : kind.earnedBy table account i s = kind.earned a i :=
  Table.valueAt_of_lookup h

theorem earnedBy_of_none {s : σ} {account : ι} (h : (table s).lookup account = none) (i : Number) :
    kind.earnedBy table account i s = 0 :=
  Table.valueAt_of_none h

theorem earnedBy_advanced (s : σ) {i i' : Number} (h : i ≤ i') (account : ι) :
    kind.earnedBy table account i' s =
      kind.earnedBy table account i s + (kind.shares table s account * (i'.raw - i.raw) : ℕ) := by
  cases ha : (table s).lookup account with
  | none =>
      unfold shares
      rw [earnedBy_of_none kind table ha, earnedBy_of_none kind table ha, Table.valueAt_of_none ha]
      simp
  | some a =>
      unfold shares
      rw [earnedBy_of_lookup kind table ha, earnedBy_of_lookup kind table ha, Table.valueAt_of_lookup ha]
      exact kind.gain a h

variable {table index} {out settled : σ → κ → σ → ℕ} {account k : ι} {s s' : σ} {call : κ} {a : α}
  {i : Number}

/-- A call moves the index on and enters one account, so what it does to that one decides for all. -/
theorem follows_of_insert (hi : index s' = i) (hindex : index s ≤ i)
    (htable : table s' = (table s).insert k a) (hother : k ≠ account → out s call s' = 0)
    (hle : k = account → kind.earned a i + (out s call s' * scale : ℕ) ≤ kind.earnedBy table k i s)
    (hge : k = account → kind.earnedBy table k i s ≤
      kind.earned a i + (out s call s' * scale : ℕ) + (settled s call s' * scale : ℕ)) :
    Follows index (kind.shares table) account (fun s => kind.earnedBy table account (index s) s) out
      settled s call s' := by
  subst hi
  have hadvanced := kind.earnedBy_advanced table s hindex account
  by_cases haccount : k = account
  · subst haccount
    have hnew : kind.earnedBy table k (index s') s' = kind.earned a (index s') := by
      unfold earnedBy
      rw [htable, Table.valueAt_insert_self]
    replace hle := hle rfl
    replace hge := hge rfl
    rw [hadvanced] at hle hge
    constructor
    · rw [hnew]
      exact hle
    · rw [hnew]
      exact hge
  · have hsame : kind.earnedBy table account (index s') s' =
        kind.earnedBy table account (index s') s := by
      unfold earnedBy
      rw [htable, Table.valueAt_insert_of_ne (Ne.symm haccount)]
    constructor
    · rw [hother haccount, hsame, hadvanced, Nat.zero_mul, Nat.cast_zero, add_zero]
      exact le_rfl
    · rw [hother haccount, hsame, hadvanced, Nat.zero_mul, Nat.cast_zero, add_zero]
      exact le_add_of_nonneg_right (Int.natCast_nonneg _)

theorem follows_of_settled (hi : index s' = i) (hindex : index s ≤ i)
    (htable : table s' = (table s).insert k a)
    (hle : kind.earned a i ≤ kind.earnedBy table k i s)
    (hge : k = account →
      kind.earnedBy table k i s ≤ kind.earned a i + (settled s call s' * scale : ℕ)) :
    Follows index (kind.shares table) account (fun s => kind.earnedBy table account (index s) s)
      (fun _ _ _ => 0) settled s call s' := by
  have hnothing : kind.earned a i + (0 * scale : ℕ) = kind.earned a i := by
    rw [Nat.zero_mul, Nat.cast_zero, add_zero]
  apply kind.follows_of_insert hi hindex htable (fun _ => rfl)
  · intro _
    rw [hnothing]
    exact hle
  · intro haccount
    rw [hnothing]
    exact hge haccount

theorem follows_of_exact (hi : index s' = i) (hindex : index s ≤ i)
    (htable : table s' = (table s).insert k a) (hexact : kind.earned a i = kind.earnedBy table k i s) :
    Follows index (kind.shares table) account (fun s => kind.earnedBy table account (index s) s)
      (fun _ _ _ => 0) settled s call s' :=
  kind.follows_of_settled hi hindex htable hexact.le
    fun _ => hexact.ge.trans (le_add_of_nonneg_right (Int.natCast_nonneg _))

end LazyAccount

/-! ### Accounts in whole units -/

/-- The raw units that an account of whole units has earned when the index stands at `index`, credited
or not. -/
def earnedAt (units share : ℕ) (seen index : Number) : ℤ :=
  units * scale + share * ((index.raw : ℤ) - seen.raw)

section Accounts

variable {units units' out share : ℕ} {seen index index' : Number}

theorem earnedAt_seen : earnedAt units share index index = (units * scale : ℕ) := by
  rw [earnedAt, sub_self, mul_zero, add_zero, Nat.cast_mul]

theorem earnedAt_advanced (h : index ≤ index') :
    earnedAt units share seen index' =
      earnedAt units share seen index + (share * (index'.raw - index.raw) : ℕ) := by
  have hle : index.raw ≤ index'.raw := h
  rw [earnedAt, earnedAt]
  push_cast [hle]
  ring

theorem le_earnedAt (h : seen ≤ index) : ((units * scale : ℕ) : ℤ) ≤ earnedAt units share seen index := by
  have hle : seen.raw ≤ index.raw := h
  rw [earnedAt, Nat.cast_mul]
  exact le_add_of_nonneg_right (mul_nonneg (Int.natCast_nonneg _) (by omega))

/-- A settlement credits all that was earned but a part of one unit. What is given out at the same time
leaves the account. -/
theorem earnedAt_settled (share' : ℕ) (hseen : seen ≤ index)
    (h : units' + out = units + share * (index.raw - seen.raw) / scale) :
    earnedAt units' share' index index + (out * scale : ℕ) ≤ earnedAt units share seen index ∧
      earnedAt units share seen index ≤
        earnedAt units' share' index index + (out * scale : ℕ) + scale := by
  have hle : seen.raw ≤ index.raw := hseen
  have hscale : 0 < scale := by decide
  have hfloor := Nat.div_mul_le_self (share * (index.raw - seen.raw)) scale
  have hceil := Nat.lt_div_mul_add (a := share * (index.raw - seen.raw)) hscale
  have hearned : earnedAt units share seen index =
      ((units * scale + share * (index.raw - seen.raw) : ℕ) : ℤ) := by
    rw [earnedAt]
    push_cast [hle]
    rfl
  have hcredited : earnedAt units' share' index index + (out * scale : ℕ) =
      ((units * scale + share * (index.raw - seen.raw) / scale * scale : ℕ) : ℤ) := by
    rw [earnedAt_seen, ← Nat.cast_add, ← Nat.add_mul, h, Nat.add_mul]
  rw [hcredited, hearned]
  constructor
  · exact_mod_cast Nat.add_le_add_left hfloor _
  · exact_mod_cast (by omega)

/-- A credit in whole units that is at most some raw units, and short of them by at most one unit for
each of some settlements. -/
structure WithinUnits (units raw settlements : ℕ) : Prop where
  le : units * scale ≤ raw
  ge : raw ≤ (units + settlements) * scale

end Accounts

end EmissionLedger
