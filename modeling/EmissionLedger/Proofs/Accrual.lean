import EmissionLedger.Accrual.Index
import EmissionLedger.Accrual.Share
import EmissionLedger.Proofs.Outcome

/-!
What the arithmetic of accrual returns, as equations between natural numbers. A number is below its limit
by its type, so the equation for the raw result already says when an addition or a product is answered.

Main statements: an index that is divided among shares gains the worth of the elapsed time divided by
the shares, rounded down once (`advanceSharedIndex_ok`); a share account earns its share of the index's
growth exactly (`accrueShare_ok`).
-/

namespace EmissionLedger

namespace Number

theorem ofNatural_eq_ok {n : Nat} {a : Number} : ofNatural n = .ok a ↔ a.raw = n * scale := by
  have ha := a.raw_le
  rw [ofNatural]
  split
  · simp only [Except.ok.injEq, Number.ext_iff, eq_comm]
  · constructor
    · intro h
      cases h
    · intro h
      omega

/-- A natural number that is not zero can be divided by. -/
theorem ofNatural_raw_ne_zero {n : Nat} {a : Number} (hn : n ≠ 0) (h : ofNatural n = .ok a) :
    a.raw ≠ 0 := by
  have hs : scale ≠ 0 := by decide
  rw [ofNatural_eq_ok.mp h]
  exact Nat.mul_ne_zero hn hs

theorem add_eq_ok {a b c : Number} : a.add b = .ok c ↔ c.raw = a.raw + b.raw := by
  have hc := c.raw_le
  rw [add]
  split
  · simp only [Except.ok.injEq, Number.ext_iff, eq_comm]
  · constructor
    · intro h
      cases h
    · intro h
      omega

theorem sub_eq_ok {a b c : Number} : a.sub b = .ok c ↔ c.raw + b.raw = a.raw := by
  rw [sub]
  split
  · constructor
    · intro h
      cases h
    · intro h
      omega
  · simp only [Except.ok.injEq, Number.ext_iff]
    omega

theorem mul_eq_ok {a b c : Number} : a.mul b = .ok c ↔ c.raw = a.raw * b.raw / scale := by
  have hc := c.raw_le
  rw [mul]
  split
  · simp only [Except.ok.injEq, Number.ext_iff, eq_comm]
  · constructor
    · intro h
      cases h
    · intro h
      omega

theorem div_eq_ok {a b c : Number} :
    a.div b = .ok c ↔ b.raw ≠ 0 ∧ c.raw = a.raw * scale / b.raw := by
  have hc := c.raw_le
  rw [div]
  split
  · rename_i hb
    simp [hb]
  · rename_i hb
    split
    · simp only [Except.ok.injEq, Number.ext_iff, hb, ne_eq, not_false_eq_true, true_and, eq_comm]
    · constructor
      · intro h
        cases h
      · intro h
        omega

theorem ofRatio_ok {n d : Nat} {c : Number} (h : ofRatio n d = .ok c) :
    d ≠ 0 ∧ c.raw = n * scale / d := by
  have hs : 0 < scale := by decide
  simp only [ofRatio, bind_eq_ok, ofNatural_eq_ok, div_eq_ok] at h
  obtain ⟨a, ha, b, hb, hb0, hc⟩ := h
  constructor
  · rintro rfl
    exact hb0 (by rw [hb, Nat.zero_mul])
  · rw [hc, ha, hb, Nat.mul_div_mul_right _ _ hs]

theorem ceil_eq_ok {a c : Number} :
    a.ceil = .ok c ↔ c.raw = (a.raw + (scale - 1)) / scale * scale := by
  have hc := c.raw_le
  rw [ceil]
  by_cases hwhole : a.raw % scale = 0
  · rw [if_pos hwhole, Except.ok.injEq, Number.ext_iff]
    simp only [scale] at hwhole ⊢
    omega
  · have hnext : a.raw - a.raw % scale + scale = (a.raw + (scale - 1)) / scale * scale := by
      simp only [scale] at hwhole ⊢
      omega
    rw [if_neg hwhole, ← hnext]
    split
    · simp only [Except.ok.injEq, Number.ext_iff, eq_comm]
    · constructor
      · intro h
        cases h
      · intro h
        omega

theorem wholePart_eq_ok {a : Number} {n : Nat} :
    a.wholePart 64 = .ok n ↔ n ≤ maxU64 ∧ n = a.raw / scale := by
  have hpow : Nat.pow 2 64 = maxU64 + 1 := rfl
  rw [wholePart, hpow]
  split
  · rename_i h
    rw [Except.ok.injEq]
    omega
  · constructor
    · intro h
      cases h
    · intro h
      omega

end Number

namespace Counter

theorem add_eq_ok {what : String} {a b c : Nat} :
    add what a b = .ok c ↔ c ≤ maxU64 ∧ c = a + b := by
  rw [add]
  split
  · rw [Except.ok.injEq]
    omega
  · constructor
    · intro h
      cases h
    · intro h
      omega

theorem sub_eq_ok {what : String} {a b c : Nat} : sub what a b = .ok c ↔ c + b = a := by
  rw [sub]
  split
  · constructor
    · intro h
      cases h
    · intro h
      omega
  · rw [Except.ok.injEq]
    omega

/-- A signed change adds what it says. -/
theorem change_ok {what : String} {a c : Nat} {delta : Int} (h : change what a delta = .ok c) :
    (c : Int) = a + delta := by
  rw [change] at h
  split at h
  · have := (add_eq_ok.mp h).2
    omega
  · have := sub_eq_ok.mp h
    omega

theorem change_le {what : String} {a c : Nat} {delta : Int} (h : change what a delta = .ok c)
    (ha : a ≤ maxU64) : c ≤ maxU64 := by
  rw [change] at h
  split at h
  · exact (add_eq_ok.mp h).1
  · have := sub_eq_ok.mp h
    omega

theorem change_answered (what : String) {a n : Nat} (hle : n ≤ a) (hfits : a ≤ maxU64) :
    ∃ c, change what a (-n) = .ok c := by
  rw [change]
  split
  · exact ⟨a, add_eq_ok.mpr (by omega)⟩
  · exact ⟨a - n, sub_eq_ok.mpr (by omega)⟩

end Counter

theorem elapsedSeconds_eq_ok {what : String} {last now : Int} {n : Nat} :
    elapsedSeconds what last now = .ok n ↔ now = last + n := by
  rw [elapsedSeconds]
  split
  · constructor
    · intro h
      cases h
    · intro h
      omega
  · rw [Except.ok.injEq]
    omega

theorem requireU64_eq_ok {name : String} {n : Int} {a : Nat} :
    requireU64 name n = .ok a ↔ a ≤ maxU64 ∧ n = a := by
  rw [requireU64]
  split
  · constructor
    · intro h
      cases h
    · intro h
      omega
  · rw [Except.ok.injEq]
    omega

theorem requireU64_answered (name : String) {n : Int} (hnonneg : 0 ≤ n) (hfits : n ≤ maxU64) :
    ∃ a, requireU64 name n = .ok a :=
  ⟨n.toNat, if_neg (by omega)⟩

theorem requireI64_ok {name : String} {n a : Int} (h : requireI64 name n = .ok a) :
    minI64 ≤ a ∧ a ≤ maxI64 ∧ n = a := by
  rw [requireI64] at h
  split at h
  · cases h
  · rw [Except.ok.injEq] at h
    omega

/-! ### Indices -/

/-- The raw worth of a stretch of seconds, rounded down where the rate rounds. -/
def Rate.rawWorth : Rate → Nat → Nat
  | perSecond, seconds => seconds * scale
  | perDay emission, seconds => emission.raw * (seconds * scale / secondsPerDay) / scale
  | perYear fraction, seconds => seconds * scale / secondsPerYear * fraction.raw / scale

@[simp] theorem Rate.rawWorth_zero (rate : Rate) : rate.rawWorth 0 = 0 := by
  cases rate <;> simp [rawWorth]

theorem Rate.worth_ok {rate : Rate} {seconds : Nat} {w : Number} (h : rate.worth seconds = .ok w) :
    w.raw = rate.rawWorth seconds := by
  cases rate with
  | perSecond => exact Number.ofNatural_eq_ok.mp h
  | perDay emission =>
      simp only [worth, bind_eq_ok, Number.mul_eq_ok] at h
      obtain ⟨share, hshare, hw⟩ := h
      rw [hw, (Number.ofRatio_ok hshare).2, rawWorth]
  | perYear fraction =>
      simp only [worth, bind_eq_ok, Number.mul_eq_ok] at h
      obtain ⟨share, hshare, hw⟩ := h
      rw [hw, (Number.ofRatio_ok hshare).2, rawWorth]

/-- The raw worth of a stretch of seconds at a daily emission: the share of the day is rounded down,
the product with the emission is exact. -/
def dailyWorth (emission seconds : Nat) : Nat := emission * (seconds * scale / secondsPerDay)

theorem Rate.daily_ok {emission : Nat} {rate : Rate} (h : Rate.daily emission = .ok rate)
    (seconds : Nat) : rate.rawWorth seconds = dailyWorth emission seconds := by
  have hs : 0 < scale := by decide
  simp only [daily, bind_eq_ok, pure_eq_ok, Number.ofNatural_eq_ok] at h
  obtain ⟨amount, hamount, rfl⟩ := h
  rw [rawWorth, dailyWorth, hamount, Nat.mul_right_comm, Nat.mul_div_cancel _ hs]

/-- The raw worth of a stretch of seconds at a rate of basis points a year: the share of the year, the
fraction and their product are rounded down. -/
def annualWorth (points seconds : Nat) : Nat :=
  seconds * scale / secondsPerYear * (points * scale / Number.basisPoints) / scale

theorem Rate.annual_ok {points : Nat} {rate : Rate} (h : Rate.annual points = .ok rate)
    (seconds : Nat) : rate.rawWorth seconds = annualWorth points seconds := by
  simp only [annual, Number.ofBasisPoints, bind_eq_ok, pure_eq_ok] at h
  obtain ⟨fraction, hfraction, rfl⟩ := h
  rw [rawWorth, annualWorth, (Number.ofRatio_ok hfraction).2]

theorem sharedIndexDelta_ok {elapsed shares : Nat} {rate : Rate} {d : Number}
    (h : sharedIndexDelta elapsed shares rate = .ok d) :
    d.raw = rate.rawWorth elapsed / shares := by
  have hs : 0 < scale := by decide
  rw [sharedIndexDelta] at h
  split at h
  · rename_i hzero
    rw [Except.ok.injEq] at h
    subst h
    rcases hzero with rfl | rfl <;> simp
  · simp only [bind_eq_ok, Number.ofNatural_eq_ok, Number.div_eq_ok] at h
    obtain ⟨w, hw, divisor, hdivisor, -, hd⟩ := h
    rw [hd, hdivisor, Rate.worth_ok hw, Nat.mul_div_mul_right _ _ hs]

theorem advanceSharedIndex_ok {what : String} {index : Number} {last now : Int} {shares : Nat}
    {rate : Rate} {step : IndexAdvance}
    (h : advanceSharedIndex what index last now shares rate = .ok step) :
    now = last + step.elapsed ∧
      step.index.raw = index.raw + rate.rawWorth step.elapsed / shares := by
  simp only [advanceSharedIndex, bind_eq_ok, pure_eq_ok, elapsedSeconds_eq_ok, Number.add_eq_ok] at h
  obtain ⟨elapsed, helapsed, delta, hdelta, index', hindex, rfl⟩ := h
  exact ⟨helapsed, by rw [hindex, sharedIndexDelta_ok hdelta]⟩

theorem advanceRateIndex_ok {index index' : Number} {elapsed shares : Nat} {rate : Rate}
    (h : advanceRateIndex index elapsed shares rate = .ok index') :
    index'.raw = index.raw + if shares = 0 then 0 else rate.rawWorth elapsed := by
  rw [advanceRateIndex] at h
  split at h
  · rename_i hzero
    rw [Except.ok.injEq] at h
    subst h
    rcases hzero with rfl | rfl <;> simp
  · rename_i hshares
    rw [not_or] at hshares
    simp only [bind_eq_ok, Number.add_eq_ok] at h
    obtain ⟨w, hw, hindex⟩ := h
    rw [if_neg hshares.2, hindex, Rate.worth_ok hw]

/-! ### Share accounts -/

theorem accrueShare_ok {what : String} {share : Nat} {last current : Number} {accrual : ShareAccrual}
    (h : accrueShare what share last current = .ok accrual) :
    last.raw ≤ current.raw ∧ accrual.accrued.raw = share * (current.raw - last.raw) ∧
      accrual.lastSeen = current := by
  have hs : 0 < scale := by decide
  rw [accrueShare] at h
  split at h
  · cases h
  rename_i hlt
  have hle : last.raw ≤ current.raw := Nat.le_of_not_lt hlt
  simp only [bind_eq_ok, Number.sub_eq_ok] at h
  obtain ⟨delta, hdelta, h⟩ := h
  have hraw : delta.raw = current.raw - last.raw := by omega
  split at h
  · -- nothing is gained, so the account has seen the current index already
    rename_i hzero
    rw [pure_eq_ok] at h
    subst h
    have h0 : delta.raw = 0 := by rw [hzero, Number.raw_zero]
    have heq : last.raw = current.raw := by omega
    exact ⟨hle, by simp [← hraw, h0], Number.ext heq⟩
  · simp only [bind_eq_ok, pure_eq_ok, Number.ofNatural_eq_ok, Number.mul_eq_ok] at h
    obtain ⟨amount, hamount, accrued, haccrued, rfl⟩ := h
    refine ⟨hle, ?_, rfl⟩
    rw [haccrued, hamount, hraw, Nat.mul_right_comm, Nat.mul_div_cancel _ hs]

/-! ### When accrual is answered -/

theorem Number.exists_raw {n : Nat} (h : n ≤ maxRaw) : ∃ a : Number, a.raw = n := ⟨⟨n, h⟩, rfl⟩

/-- A quotient of natural numbers is at most the numerator, so it fits if that does. -/
theorem Number.ofRatio_answered {n d : Nat} (hd : d ≠ 0) (hn : n * scale ≤ maxRaw)
    (hdivisor : d * scale ≤ maxRaw) : ∃ c, ofRatio n d = .ok c := by
  have hscale : scale ≠ 0 := by decide
  obtain ⟨numerator, hnumerator⟩ := exists_raw hn
  obtain ⟨denominator, hdenominator⟩ := exists_raw hdivisor
  obtain ⟨c, hc⟩ := exists_raw (Nat.le_trans (Nat.div_le_self (n * scale) d) hn)
  refine bind_answered (ofNatural_eq_ok.mpr hnumerator) ?_
  refine bind_answered (ofNatural_eq_ok.mpr hdenominator) ⟨c, div_eq_ok.mpr ⟨?_, ?_⟩⟩
  · rw [hdenominator]
    exact Nat.mul_ne_zero hd hscale
  · rw [hc, hnumerator, hdenominator, Nat.mul_div_mul_right _ _ (Nat.pos_of_ne_zero hscale)]

theorem Rate.daily_answered {emission : Nat} (h : emission * scale ≤ maxRaw) :
    ∃ rate, Rate.daily emission = .ok rate := by
  obtain ⟨amount, hamount⟩ := Number.exists_raw h
  exact bind_answered (Number.ofNatural_eq_ok.mpr hamount) ⟨_, rfl⟩

theorem Rate.annual_answered {points : Nat} (h : points * scale ≤ maxRaw) :
    ∃ rate, Rate.annual points = .ok rate := by
  obtain ⟨fraction, hfraction⟩ := Number.ofRatio_answered (d := Number.basisPoints) (by decide) h (by decide)
  exact bind_answered hfraction ⟨_, rfl⟩

theorem Rate.worth_answered {rate : Rate} {seconds : Nat} (hseconds : seconds * scale ≤ maxRaw)
    (hworth : rate.rawWorth seconds ≤ maxRaw) : ∃ w, rate.worth seconds = .ok w := by
  obtain ⟨w, hw⟩ := Number.exists_raw hworth
  cases rate with
  | perSecond => exact ⟨w, Number.ofNatural_eq_ok.mpr hw⟩
  | perDay emission =>
      obtain ⟨share, hshare⟩ := Number.ofRatio_answered (d := secondsPerDay) (by decide) hseconds (by decide)
      refine bind_answered hshare ⟨w, Number.mul_eq_ok.mpr ?_⟩
      rw [hw, rawWorth, (Number.ofRatio_ok hshare).2]
  | perYear fraction =>
      obtain ⟨share, hshare⟩ := Number.ofRatio_answered (d := secondsPerYear) (by decide) hseconds (by decide)
      refine bind_answered hshare ⟨w, Number.mul_eq_ok.mpr ?_⟩
      rw [hw, rawWorth, (Number.ofRatio_ok hshare).2]

theorem sharedIndexDelta_answered {elapsed shares : Nat} {rate : Rate}
    (helapsed : elapsed * scale ≤ maxRaw) (hworth : rate.rawWorth elapsed ≤ maxRaw)
    (hshares : shares * scale ≤ maxRaw) : ∃ delta, sharedIndexDelta elapsed shares rate = .ok delta := by
  have hscale : 0 < scale := by decide
  rw [sharedIndexDelta]
  split
  · exact ⟨_, rfl⟩
  · rename_i hsome
    rw [not_or] at hsome
    obtain ⟨worth, hanswer⟩ := Rate.worth_answered helapsed hworth
    obtain ⟨divisor, hdivisor⟩ := Number.exists_raw hshares
    obtain ⟨delta, hdelta⟩ := Number.exists_raw (Nat.le_trans (Nat.div_le_self _ shares) hworth)
    refine bind_answered hanswer ?_
    refine bind_answered (Number.ofNatural_eq_ok.mpr hdivisor) ⟨delta, Number.div_eq_ok.mpr ⟨?_, ?_⟩⟩
    · rw [hdivisor]
      exact Nat.mul_ne_zero hsome.2 (Nat.ne_of_gt hscale)
    · rw [hdelta, Rate.worth_ok hanswer, hdivisor, Nat.mul_div_mul_right _ _ hscale]

/-- An index that is divided among shares moves on as long as all numbers fit. -/
theorem advanceSharedIndex_answered (what : String) {index : Number} {last now : Int}
    {shares elapsed : Nat} {rate : Rate} (hnow : now = last + elapsed)
    (helapsed : elapsed * scale ≤ maxRaw) (hindex : index.raw + rate.rawWorth elapsed ≤ maxRaw)
    (hshares : shares * scale ≤ maxRaw) :
    ∃ step, advanceSharedIndex what index last now shares rate = .ok step := by
  have hworth : rate.rawWorth elapsed ≤ maxRaw := Nat.le_trans (Nat.le_add_left _ _) hindex
  obtain ⟨delta, hdelta⟩ := sharedIndexDelta_answered helapsed hworth hshares
  have hgrowth : delta.raw ≤ rate.rawWorth elapsed :=
    Nat.le_trans (Nat.le_of_eq (sharedIndexDelta_ok hdelta)) (Nat.div_le_self _ _)
  obtain ⟨index', hindex'⟩ := Number.exists_raw (n := index.raw + delta.raw) (by omega)
  apply bind_answered (elapsedSeconds_eq_ok.mpr hnow)
  apply bind_answered hdelta
  apply bind_answered (Number.add_eq_ok.mpr hindex')
  exact ⟨_, rfl⟩

theorem advanceRateIndex_answered {index : Number} {elapsed : Nat} (shares : Nat) {rate : Rate}
    (helapsed : elapsed * scale ≤ maxRaw) (hindex : index.raw + rate.rawWorth elapsed ≤ maxRaw) :
    ∃ index', advanceRateIndex index elapsed shares rate = .ok index' := by
  rw [advanceRateIndex]
  split
  · exact ⟨_, rfl⟩
  · have hworth : rate.rawWorth elapsed ≤ maxRaw := Nat.le_trans (Nat.le_add_left _ _) hindex
    obtain ⟨worth, hanswer⟩ := Rate.worth_answered helapsed hworth
    obtain ⟨index', hindex'⟩ := Number.exists_raw hindex
    exact bind_answered hanswer ⟨index', Number.add_eq_ok.mpr (by rw [hindex', Rate.worth_ok hanswer])⟩

/-- An index that is moved on to the time that it stands at stays as it is. -/
theorem advanceSharedIndex_still (what : String) (index : Number) (now : Int) (shares : Nat)
    (rate : Rate) : advanceSharedIndex what index now now shares rate = .ok ⟨index, now, 0, .zero⟩ := by
  simp only [advanceSharedIndex, bind_eq_ok, pure_eq_ok]
  refine ⟨0, elapsedSeconds_eq_ok.mpr (Int.add_zero now).symm, .zero, if_pos (.inl rfl), index, ?_, rfl⟩
  rw [Number.add_eq_ok, Number.raw_zero, Nat.add_zero]

/-- A share account that has seen the index already earns nothing. -/
theorem accrueShare_still (what : String) (share : Nat) (index : Number) :
    accrueShare what share index index = .ok ⟨.zero, index⟩ := by
  rw [accrueShare, if_neg (mt Number.lt_iff.mp (Nat.lt_irrefl _))]
  refine bind_eq_ok.mpr ⟨.zero, Number.sub_eq_ok.mpr ?_, if_pos rfl⟩
  rw [Number.raw_zero, Nat.zero_add]

/-- A share account is settled if the index has not moved back and what is earned fits. -/
theorem accrueShare_answered (what : String) {share : Nat} {last current : Number}
    (hseen : last ≤ current) (hshare : share * scale ≤ maxRaw)
    (hearned : share * (current.raw - last.raw) ≤ maxRaw) :
    ∃ accrual, accrueShare what share last current = .ok accrual := by
  have hscale : 0 < scale := by decide
  have hle : last.raw ≤ current.raw := hseen
  obtain ⟨delta, hdelta⟩ :=
    Number.exists_raw (n := current.raw - last.raw) (Nat.le_trans (Nat.sub_le _ _) current.raw_le)
  obtain ⟨amount, hamount⟩ := Number.exists_raw hshare
  obtain ⟨accrued, haccrued⟩ := Number.exists_raw hearned
  have hproduct : amount.mul delta = .ok accrued := by
    rw [Number.mul_eq_ok, haccrued, hamount, hdelta, Nat.mul_right_comm, Nat.mul_div_cancel _ hscale]
  rw [accrueShare, if_neg (mt Number.lt_iff.mp (Nat.not_lt.mpr hle))]
  refine bind_answered (Number.sub_eq_ok.mpr (show delta.raw + last.raw = current.raw by omega)) ?_
  split
  · exact ⟨_, rfl⟩
  · refine bind_answered (Number.ofNatural_eq_ok.mpr hamount) ?_
    exact bind_answered hproduct ⟨_, rfl⟩

end EmissionLedger
