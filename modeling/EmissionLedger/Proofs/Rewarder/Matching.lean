import EmissionLedger.Proofs.Outcome
import EmissionLedger.Proofs.Rewarder.Book
import Mathlib.Data.Rat.Cast.Order
import Mathlib.Tactic.FieldSimp
import Mathlib.Tactic.Linarith
import Mathlib.Tactic.Ring

/-!
How close a look comes to the exact reward, the new RAY a second for each new time unit. The rate is cut
off at the twelfth place, which costs less than a trillionth of RAY for each unit, and the product is cut
off to whole RAY, which costs less than one more. Nothing is gained by either, so units that are at most
the seconds get at most the RAY. That such a look is answered is `syncAndStage_answered`.

Main statement: `syncAndStage_matches`.
-/

namespace EmissionLedger.PersonalRewarderState

/-! ### What is new -/

/-- The RAY that the pool got since the last look. -/
def newRay (state : PersonalRewarderState) (emitted : ℤ) : ℚ := emitted - state.lastSeenTotalEmittedRay

/-- The time units that the position earned since the last look. -/
def newUnits (state : PersonalRewarderState) (units : Number) : ℚ :=
  ((units.raw : ℚ) - state.lastSeenTimeUnits.raw) / 1000000000000

/-- The seconds since the last look. -/
def newSeconds (state : PersonalRewarderState) (now : ℤ) : ℚ := now - state.lastUpdatedTs

/-! ### Two roundings -/

/-- What the two roundings of a reward cost. -/
theorem lt_reward {emitted seconds n : ℕ} {units : Number} (hpos : 0 < seconds)
    (h : reward emitted seconds units = .ok n) :
    emitted * scale * units.raw < (n + 1) * (scale * scale) * seconds + seconds * units.raw := by
  have hscale : 0 < scale * scale := by decide
  let rate := emitted * scale / seconds
  have hrate : emitted * scale ≤ (rate + 1) * seconds := (Nat.lt_mul_of_div_lt (Nat.lt_succ_self _) hpos).le
  have hwhole : rate * units.raw < (n + 1) * (scale * scale) := by
    rw [reward_ok h, Nat.div_div_eq_div_mul]
    exact Nat.lt_mul_of_div_lt (Nat.lt_succ_self _) hscale
  calc emitted * scale * units.raw
      ≤ (rate + 1) * seconds * units.raw := Nat.mul_le_mul_right _ hrate
    _ = rate * units.raw * seconds + seconds * units.raw := by ring
    _ < (n + 1) * (scale * scale) * seconds + seconds * units.raw :=
        Nat.add_lt_add_right (Nat.mul_lt_mul_of_pos_right hwhole hpos) _

/-- The bounds of a reward between exact quotients. -/
theorem reward_near {emitted seconds n : ℕ} {units : Number} (hpos : 0 < seconds)
    (h : reward emitted seconds units = .ok n) :
    (emitted * (units.raw / scale) / seconds : ℚ) - units.raw / scale / scale - 1 < n ∧
      (n : ℚ) ≤ emitted * (units.raw / scale) / seconds := by
  have hscale : (0 : ℚ) < scale := by norm_num [scale]
  have hseconds : (0 : ℚ) < seconds := by exact_mod_cast hpos
  constructor
  · have hlow : (emitted * scale * units.raw : ℚ) <
        (n + 1) * (scale * scale) * seconds + seconds * units.raw := by
      exact_mod_cast lt_reward hpos h
    have hexact : (emitted * (units.raw / scale) / seconds - units.raw / scale / scale - 1 : ℚ) *
        (scale * scale * seconds) =
          emitted * scale * units.raw - seconds * units.raw - scale * scale * seconds := by
      field_simp
    refine lt_of_mul_lt_mul_right ?_ (mul_pos (mul_pos hscale hscale) hseconds).le
    rw [hexact]
    linarith
  · have hhigh : (n * (seconds * scale) : ℚ) ≤ emitted * units.raw := by
      exact_mod_cast reward_le h
    rw [le_div_iff₀ hseconds, ← mul_div_assoc, le_div_iff₀ hscale, mul_assoc]
    exact hhigh

/-! ### Looks -/

theorem cast_toNat_sub {m : ℤ} {n : ℕ} (h : n ≤ m) : ((m - n).toNat : ℚ) = m - n := by
  rw [← Int.cast_natCast, Int.toNat_of_nonneg (by omega)]
  push_cast
  rfl

theorem newUnits_eq {state : PersonalRewarderState} {units new : Number}
    (hseen : state.lastSeenTimeUnits ≤ units) (hnew : new.raw = units.raw - state.lastSeenTimeUnits.raw) :
    state.newUnits units = new.raw / scale := by
  rw [newUnits, hnew, Nat.cast_sub hseen]
  norm_num [scale]

/-- An answered look after some time stages a reward that is near the exact one. -/
theorem syncAndStage_near {state : PersonalRewarderState} {now emitted : ℤ} {units : Number} {out : Staged}
    (h : state.syncAndStage now emitted units = .ok out) (hlater : state.lastUpdatedTs < now) :
    state.newRay emitted * state.newUnits units / state.newSeconds now -
        state.newUnits units / 1000000000000 - 1 < out.collected ∧
      (out.collected : ℚ) ≤ state.newRay emitted * state.newUnits units / state.newSeconds now ∧
      out.state = ⟨units, emitted.toNat, now.toNat, state.stagedRay + out.collected⟩ := by
  obtain ⟨⟨hray, hts, hseen⟩, ⟨hsame, -⟩ | ⟨-, new, hnew, hreward, hstate⟩⟩ := syncAndStage_cases h
  · omega
  · have hscale : ((scale : ℕ) : ℚ) = 1000000000000 := by norm_num [scale]
    have hgrowth : ((emitted - state.lastSeenTotalEmittedRay).toNat : ℚ) = state.newRay emitted :=
      cast_toNat_sub hray
    have helapsed : ((now - state.lastUpdatedTs).toNat : ℚ) = state.newSeconds now := cast_toNat_sub hts
    obtain ⟨hlow, hhigh⟩ := reward_near (by omega) hreward
    rw [hgrowth, helapsed, ← newUnits_eq hseen hnew] at hlow hhigh
    rw [hscale] at hlow
    exact ⟨hlow, hhigh, hstate⟩

/-- Units that are at most the seconds get at most the RAY. -/
theorem share_le_newRay {state : PersonalRewarderState} {now emitted : ℤ} {units : Number}
    (hray : state.lastSeenTotalEmittedRay ≤ emitted) (hlater : state.lastUpdatedTs < now)
    (hunits : state.newUnits units ≤ state.newSeconds now) :
    state.newRay emitted * state.newUnits units / state.newSeconds now ≤ state.newRay emitted := by
  have hseconds : 0 < state.newSeconds now := by
    rw [newSeconds, sub_pos]
    exact_mod_cast hlater
  have hsome : 0 ≤ state.newRay emitted := by
    rw [newRay, sub_nonneg]
    exact_mod_cast hray
  rw [div_le_iff₀ hseconds]
  exact mul_le_mul_of_nonneg_left hunits hsome

/-- **Rate matching.** For totals and a time that do not fall, a look when no time has passed leaves the
state and stages nothing. An answered look after some time stages at most the new RAY a second for each
new time unit, and falls short of it by less than one RAY and a trillionth for each unit; so it stages at
most the new RAY if the units are at most the seconds. What is staged is added to the staged RAY, and all
that there is counts as seen. -/
theorem syncAndStage_matches {state : PersonalRewarderState} {now emitted : ℤ} {units : Number}
    (hray : state.lastSeenTotalEmittedRay ≤ emitted) (hts : state.lastUpdatedTs ≤ now)
    (hseen : state.lastSeenTimeUnits ≤ units) :
    (now = state.lastUpdatedTs → state.syncAndStage now emitted units = .ok ⟨state, 0⟩) ∧
    (state.lastUpdatedTs < now → ∀ out, state.syncAndStage now emitted units = .ok out →
      state.newRay emitted * state.newUnits units / state.newSeconds now -
        state.newUnits units / 1000000000000 - 1 < out.collected ∧
      (out.collected : ℚ) ≤ state.newRay emitted * state.newUnits units / state.newSeconds now ∧
      (state.newUnits units ≤ state.newSeconds now → (out.collected : ℚ) ≤ state.newRay emitted) ∧
      out.state.stagedRay = state.stagedRay + out.collected ∧
      out.state.lastSeenTimeUnits = units ∧ out.state.lastSeenTotalEmittedRay = emitted ∧
      out.state.lastUpdatedTs = now) := by
  constructor
  · intro hsame
    have hnone : (now - state.lastUpdatedTs).toNat = 0 := by omega
    rw [syncAndStage, checkProgress_eq_ok.mpr ⟨hray, hts, hseen⟩]
    exact if_pos hnone
  · intro hlater out h
    obtain ⟨hlow, hhigh, hstate⟩ := syncAndStage_near h hlater
    refine ⟨hlow, hhigh, fun hunits => hhigh.trans (share_le_newRay hray hlater hunits), ?_⟩
    rw [hstate]
    refine ⟨rfl, rfl, ?_, ?_⟩ <;> dsimp only <;> omega

/-- Ten RAY in three seconds are five for one and a half units; the rate is cut off and four are staged. -/
theorem syncAndStage_matches_cut :
    let state : PersonalRewarderState := ⟨.zero, 10, 100, 5⟩
    let units : Number := ⟨1500000000000, by decide⟩
    state.syncAndStage 100 20 units = .ok ⟨state, 0⟩ ∧
      ∃ out, state.syncAndStage 103 20 units = .ok out ∧ out.collected = 4 ∧
        (out.collected : ℚ) ≤ state.newRay 20 ∧ out.state.stagedRay = 5 + out.collected := by
  intro state units
  have hfour : (state.syncAndStage 103 20 units).toOption.map Staged.collected = some 4 := by
    decide +kernel
  obtain ⟨out, hanswer, hcollected⟩ := Option.map_eq_some_iff.mp hfour
  have hout := toOption_eq_some.mp hanswer
  have hseen : state.lastSeenTimeUnits ≤ units := by decide
  have hfew : state.newUnits units ≤ state.newSeconds 103 := by
    norm_num [newUnits, newSeconds, state, units]
  obtain ⟨hsame, -⟩ := @syncAndStage_matches state 100 20 units (by decide) (by decide) hseen
  obtain ⟨-, hlater⟩ := @syncAndStage_matches state 103 20 units (by decide) (by decide) hseen
  obtain ⟨-, -, hmatched, hstaged, -⟩ := hlater (by decide) out hout
  exact ⟨hsame rfl, out, hout, hcollected, hmatched hfew, hstaged⟩

end EmissionLedger.PersonalRewarderState
