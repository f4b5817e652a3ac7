import EmissionLedger.Proofs.Accrual

/-!
With which faults the arithmetic of accrual refuses. What may happen is any set of faults: a lemma says
which faults have to be in it, and those of a guard only if the guard can fire. So a function is walked
once, and whoever asks for other faults names another set.

Main statements: an index that is divided among shares grows too large or its clock runs backwards
(`advanceSharedIndex_faultsIn`); a share account earns too much or its index runs backwards
(`accrueShare_faultsIn`). Where all numbers fit, only the regressions are left.
-/

namespace EmissionLedger

variable {allowed : Fault → Prop}

/-! ### Sets of faults -/

namespace Fault

/-- The faults of accrual: something grows too large, or an index or a clock runs backwards. -/
def OfAccrual (e : Fault) : Prop :=
  e.causeKind = .arithmeticOverflow ∨ e.causeKind = .indexRegression ∨
    e.causeKind = .timestampRegression

/-- The faults of something that outgrows a counter: a sum past 64 bits, and a number whose whole part
has more. -/
inductive Outgrown : Fault → Prop where
  | sum (what : String) (a b : Int) : Outgrown (.counterOverflow what a b maxU64)
  | whole (a : Number) : Outgrown (.number (.tooWide a 64))

theorem Outgrown.ofAccrual {e : Fault} (h : e.Outgrown) : e.OfAccrual := by
  cases h with
  | sum => exact .inl rfl
  | whole => exact .inl rfl

/-- The faults of a request whose records belong together: an argument out of range, too little of
something, and a counter that cannot be changed by what is asked for. -/
inductive OfRequest : Fault → Prop where
  | argument (cause : ArgumentFault) : OfRequest (.argument cause)
  | shortage (cause : Shortage) (requested available : Int) :
      OfRequest (.shortage cause requested available none)
  | difference (what : String) (a b : Int) : OfRequest (.counterUnderflow what a b)
  | outgrown {e : Fault} (h : e.Outgrown) : OfRequest e

end Fault

/-! ### Numbers -/

namespace Number

variable {a b : Number}

theorem ofNatural_faultsIn {n : Nat} (h : allowed (.number (.tooLarge (n * scale : Nat)))) :
    FaultsIn allowed (ofNatural n) := by
  rw [ofNatural]
  exact .dite (fun _ => .ok) fun _ => .error h

theorem add_faultsIn (h : allowed (.number (.addOverflow a b))) : FaultsIn allowed (a.add b) := by
  rw [add]
  exact .dite (fun _ => .ok) fun _ => .error h

theorem sub_faultsIn (h : a < b → allowed (.number (.subUnderflow a b))) : FaultsIn allowed (a.sub b) := by
  rw [sub]
  exact .ite (fun hlt => .error (h hlt)) fun _ => .ok

theorem mul_faultsIn (h : allowed (.number (.mulOverflow a b))) : FaultsIn allowed (a.mul b) := by
  rw [mul]
  exact .dite (fun _ => .ok) fun _ => .error h

theorem div_faultsIn (hzero : b.raw = 0 → allowed (.number (.divByZero a)))
    (h : allowed (.number (.divOverflow a b))) : FaultsIn allowed (a.div b) := by
  rw [div]
  exact .ite (fun hb => .error (hzero hb)) fun _ => .dite (fun _ => .ok) fun _ => .error h

theorem ceil_faultsIn (h : allowed (.number (.ceilOverflow a))) : FaultsIn allowed a.ceil := by
  rw [ceil]
  exact .ite (fun _ => .ok) fun _ => .dite (fun _ => .ok) fun _ => .error h

theorem wholePart_faultsIn {bits : Nat} (h : allowed (.number (.tooWide a bits))) :
    FaultsIn allowed (a.wholePart bits) := by
  rw [wholePart]
  exact .ite (fun _ => .ok) fun _ => .error h

end Number

/-! ### Counters, clocks and arguments -/

namespace Counter

variable {what : String} {a b : Nat}

theorem add_faultsIn (h : allowed (.counterOverflow what a b maxU64)) :
    FaultsIn allowed (add what a b) := by
  rw [add]
  exact .ite (fun _ => .ok) fun _ => .error h

theorem sub_faultsIn (h : a < b → allowed (.counterUnderflow what a b)) :
    FaultsIn allowed (sub what a b) := by
  rw [sub]
  exact .ite (fun hlt => .error (h hlt)) fun _ => .ok

/-- A signed change only takes away too much if less than nothing would be left. -/
theorem change_faultsIn {delta : Int} (hsum : allowed (.counterOverflow what a delta.toNat maxU64))
    (hdifference : a + delta < 0 → allowed (.counterUnderflow what a (-delta).toNat)) :
    FaultsIn allowed (change what a delta) := by
  rw [change]
  exact .ite (fun _ => add_faultsIn hsum) fun _ => sub_faultsIn fun _ => hdifference (by omega)

end Counter

theorem elapsedSeconds_faultsIn {what : String} {last now : Int}
    (h : now < last → allowed (.timestampRegression what now last)) :
    FaultsIn allowed (elapsedSeconds what last now) := by
  rw [elapsedSeconds]
  exact .ite (fun hlate => .error (h hlate)) fun _ => .ok

theorem requireU64_faultsIn {name : String} {n : Int}
    (h : allowed (.argument (.outOfRange name 0 maxU64 n))) : FaultsIn allowed (requireU64 name n) := by
  rw [requireU64]
  exact .ite (fun _ => .error h) fun _ => .ok

theorem requireI64_faultsIn {name : String} {n : Int}
    (h : allowed (.argument (.outOfRange name minI64 maxI64 n))) :
    FaultsIn allowed (requireI64 name n) := by
  rw [requireI64]
  exact .ite (fun _ => .error h) fun _ => .ok

/-! ### Indices and share accounts -/

section

variable (hover : ∀ e : Fault, e.causeKind = .arithmeticOverflow → allowed e)

include hover

theorem Number.ofRatio_faultsIn (n : Nat) {d : Nat} (hd : d ≠ 0) : FaultsIn allowed (ofRatio n d) := by
  refine .bind (ofNatural_faultsIn (hover _ rfl)) fun a _ => ?_
  refine .bind (ofNatural_faultsIn (hover _ rfl)) fun b hb => ?_
  exact div_faultsIn (fun hzero => absurd hzero (ofNatural_raw_ne_zero hd hb)) (hover _ rfl)

theorem Rate.daily_faultsIn (emission : Nat) : FaultsIn allowed (Rate.daily emission) :=
  .bind (Number.ofNatural_faultsIn (hover _ rfl)) fun _ _ => .pure

theorem Rate.annual_faultsIn (basisPoints : Nat) : FaultsIn allowed (Rate.annual basisPoints) :=
  .bind (Number.ofRatio_faultsIn hover basisPoints (by decide)) fun _ _ => .pure

theorem Rate.worth_faultsIn (rate : Rate) (seconds : Nat) : FaultsIn allowed (rate.worth seconds) := by
  cases rate with
  | perSecond => exact Number.ofNatural_faultsIn (hover _ rfl)
  | perDay emission =>
      refine .bind (Number.ofRatio_faultsIn hover seconds (by decide)) fun share _ => ?_
      exact Number.mul_faultsIn (hover _ rfl)
  | perYear fraction =>
      refine .bind (Number.ofRatio_faultsIn hover seconds (by decide)) fun share _ => ?_
      exact Number.mul_faultsIn (hover _ rfl)

theorem sharedIndexDelta_faultsIn (elapsed shares : Nat) (rate : Rate) :
    FaultsIn allowed (sharedIndexDelta elapsed shares rate) := by
  rw [sharedIndexDelta]
  refine .ite (fun _ => .ok) fun hsome => ?_
  rw [not_or] at hsome
  refine .bind (rate.worth_faultsIn hover elapsed) fun worth _ => ?_
  refine .bind (Number.ofNatural_faultsIn (hover _ rfl)) fun divisor hdivisor => ?_
  have hne := Number.ofNatural_raw_ne_zero hsome.2 hdivisor
  exact Number.div_faultsIn (fun hzero => absurd hzero hne) (hover _ rfl)

theorem advanceSharedIndex_faultsIn {what : String} {index : Number} {last now : Int} {shares : Nat}
    {rate : Rate} (hlate : now < last → allowed (.timestampRegression what now last)) :
    FaultsIn allowed (advanceSharedIndex what index last now shares rate) := by
  refine .bind (elapsedSeconds_faultsIn hlate) fun elapsed _ => ?_
  refine .bind (sharedIndexDelta_faultsIn hover elapsed shares rate) fun delta _ => ?_
  exact .bind (Number.add_faultsIn (hover _ rfl)) fun _ _ => .pure

theorem advanceRateIndex_faultsIn (index : Number) (elapsed shares : Nat) (rate : Rate) :
    FaultsIn allowed (advanceRateIndex index elapsed shares rate) := by
  rw [advanceRateIndex]
  refine .ite (fun _ => .ok) fun _ => ?_
  exact .bind (rate.worth_faultsIn hover elapsed) fun _ _ => Number.add_faultsIn (hover _ rfl)

theorem accrueShare_faultsIn {what : String} {share : Nat} {last current : Number}
    (hback : current < last → allowed (.indexRegression (.share what current last))) :
    FaultsIn allowed (accrueShare what share last current) := by
  rw [accrueShare]
  refine .ite (fun hlt => .error (hback hlt)) fun hle => ?_
  refine .bind (Number.sub_faultsIn fun hlt => absurd hlt hle) fun delta _ => ?_
  refine .ite (fun _ => .pure) fun _ => ?_
  refine .bind (Number.ofNatural_faultsIn (hover _ rfl)) fun amount _ => ?_
  exact .bind (Number.mul_faultsIn (hover _ rfl)) fun _ _ => .pure

end

/-! ### Only regressions

Where all numbers fit, an index refuses to move on only if the clock runs backwards, and an account
refuses to be settled only if the index does. -/

theorem advanceSharedIndex_faultsIn_of_fits {what : String} {index : Number} {last now : Int}
    {shares : Nat} {rate : Rate} (hback : allowed (.timestampRegression what now last))
    (hshares : shares * scale ≤ maxRaw)
    (hfits : ∀ elapsed : Nat, now = last + elapsed →
      elapsed * scale ≤ maxRaw ∧ index.raw + rate.rawWorth elapsed ≤ maxRaw) :
    FaultsIn allowed (advanceSharedIndex what index last now shares rate) := by
  by_cases hnow : now < last
  · rw [advanceSharedIndex, elapsedSeconds, if_pos hnow]
    exact .error hback
  · have helapsed : now = last + (now - last).toNat := by omega
    obtain ⟨hclock, hindex⟩ := hfits _ helapsed
    exact .of_answered (advanceSharedIndex_answered what helapsed hclock hindex hshares)

theorem accrueShare_faultsIn_of_fits {what : String} {share : Nat} {last current : Number}
    (hback : allowed (.indexRegression (.share what current last))) (hshare : share * scale ≤ maxRaw)
    (hearned : share * (current.raw - last.raw) ≤ maxRaw) :
    FaultsIn allowed (accrueShare what share last current) := by
  by_cases hlt : current < last
  · rw [accrueShare, if_pos hlt]
    exact .error hback
  · exact .of_answered (accrueShare_answered what (Nat.le_of_not_lt hlt) hshare hearned)

end EmissionLedger
