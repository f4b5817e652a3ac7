import EmissionLedger.Proofs.Rewarder.Fairness
import Mathlib.Data.Nat.Cast.Order.Field
import Mathlib.Data.Rat.Cast.Order

/-!
What rewarders pay, against what their pool got. One rewarder never gets more than the pool did.

All rewarders together can: each one multiplies an average over its own interval. When tokens move
while a rewarder has not looked for a while, its position's time units and the pool's RAY come from
different parts of that interval, and another rewarder is paid for the same RAY. If tokens move only
when the rewarders of all positions that hold any have just looked, a position's part of the tokens is
the same over each interval, and the parts of all positions add up to at most one. The potential is
what positions have received together with their parts of the RAY that their rewarders have yet to see.
-/

namespace EmissionLedger

namespace EscrowBook

variable {κ : Type} [DecidableEq κ]

/-- The part of all tokens that a position holds. -/
def share (book : EscrowBook κ) (account : κ) : ℚ :=
  (book.amountOf account : ℚ) / book.tracker.totalLpDeposited

variable {book : EscrowBook κ} {account : κ}

theorem share_nonneg (book : EscrowBook κ) (account : κ) : 0 ≤ book.share account :=
  div_nonneg (Nat.cast_nonneg _) (Nat.cast_nonneg _)

theorem share_eq_zero (h : book.amountOf account = 0) : book.share account = 0 := by
  rw [share, h, Nat.cast_zero, zero_div]

/-- An advance earns a position at most its part of the time. -/
theorem growth_le_share {p : PersonalPosition} (h : book.positions.lookup account = some p)
    (elapsed : ℕ) :
    (p.amount : ℚ) * ((elapsed * scale / book.tracker.totalLpDeposited : ℕ) : ℚ) ≤
      book.share account * (scale * elapsed) := by
  have hfloor : ((elapsed * scale / book.tracker.totalLpDeposited : ℕ) : ℚ) ≤
      (elapsed * scale : ℕ) / book.tracker.totalLpDeposited := Nat.cast_div_le
  have hearned := mul_le_mul_of_nonneg_left hfloor (Nat.cast_nonneg (α := ℚ) p.amount)
  have hpart : (p.amount : ℚ) * ((elapsed * scale : ℕ) / book.tracker.totalLpDeposited) =
      book.share account * (scale * elapsed) := by
    rw [share, amountOf_eq h]
    push_cast
    ring
  exact hearned.trans hpart.le

/-- The parts of different positions add up to at most one. -/
theorem Balanced.shares_le_one {β : Type} {t : Table κ β} (hb : book.Balanced)
    (hsub : t.keys ⊆ book.positions.keys) : (t.total fun account _ => book.share account) ≤ 1 := by
  have hamounts : (t.total fun account _ => book.amountOf account) ≤ book.tracker.totalLpDeposited := by
    rw [hb.total]
    refine (Table.total_le_total_of_subset hsub fun _ => Nat.zero_le _).trans (le_of_eq ?_)
    exact Table.total_congr _ fun account p hp => amountOf_eq hp
  have hshares : (t.total fun account _ => book.share account) =
      ((t.total fun account _ => book.amountOf account : ℕ) : ℚ) / book.tracker.totalLpDeposited := by
    rw [Table.natCast_total, div_eq_mul_inv, ← Table.total_mul]
    rfl
  rw [hshares]
  exact div_le_one_of_le₀ (by exact_mod_cast hamounts) (Nat.cast_nonneg _)

end EscrowBook

namespace PoolBook

variable {ι κ : Type} [DecidableEq ι] [DecidableEq κ] {pool : ι} {book book' : PoolBook ι κ}
variable {call : PoolCall ι κ}

/-- Tokens are moved at a time that is not before the config's, and at which the rewarders of all
positions that hold any, before or after the move, have just looked. -/
def Prepared (book : PoolBook ι κ) (call : PoolCall ι κ) (book' : PoolBook ι κ) : Prop :=
  ∀ c, call = .escrow c → c.change ≠ 0 →
    (book.emission.config.lastUpdatedTs : ℤ) ≤ c.now ∧
      ∀ account r, book.rewarders.lookup account = some r →
        book.escrow.amountOf account ≠ 0 ∨ book'.escrow.amountOf account ≠ 0 →
          (r.state.lastUpdatedTs : ℤ) = c.now

instance (book : PoolBook ι κ) (call : PoolCall ι κ) (book' : PoolBook ι κ) :
    Decidable (book.Prepared call book') :=
  match call with
  | .escrow c =>
    decidable_of_iff (c.change ≠ 0 → (book.emission.config.lastUpdatedTs : ℤ) ≤ c.now ∧
        ∀ account r, book.rewarders.lookup account = some r →
          book.escrow.amountOf account ≠ 0 ∨ book'.escrow.amountOf account ≠ 0 →
            (r.state.lastUpdatedTs : ℤ) = c.now)
      ⟨by rintro h _ ⟨⟩; exact h, fun h => h c rfl⟩
  | .emission _ | .initCp .. | .accrueCp .. | .collectCp _ => isTrue (by rintro _ ⟨⟩)

/-- What a position has received, and its part of the RAY that its rewarder has yet to see. -/
def due (book : PoolBook ι κ) (gauge : Gauge) (account : κ) (r : PayingRewarder) : ℚ :=
  r.received + book.escrow.share account *
    ((gauge.totalRayEmitted : ℚ) - r.state.lastSeenTotalEmittedRay)

/-- A position has earned at most its part of the time since its rewarder looked. -/
def WithinShare (book : PoolBook ι κ) (account : κ) (p : PersonalPosition) (r : PayingRewarder) :
    Prop :=
  ((p.unitsAt book.escrow.tracker.index - r.state.lastSeenTimeUnits.raw : ℤ) : ℚ) ≤
    book.escrow.share account *
      (scale * ((book.escrow.tracker.lastSeenTs : ℚ) - r.state.lastUpdatedTs))

variable (pool) in
/-- Every position has earned at most its part of the time since its rewarder looked, and what is due
to all positions is at most the pool's RAY. -/
structure Solvent (book : PoolBook ι κ) : Prop where
  pending : ∀ account r p, book.rewarders.lookup account = some r →
    book.escrow.positions.lookup account = some p → book.WithinShare account p r
  covered : ∀ gauge, book.emission.gauges.lookup pool = some gauge →
    book.rewarders.total (book.due gauge) ≤ gauge.totalRayEmitted

theorem Sound.keys_subset (hs : Sound pool book) :
    book.rewarders.keys ⊆ book.escrow.positions.keys := by
  intro account hmem
  obtain ⟨r, hr⟩ := Finmap.mem_iff.mp (Finmap.mem_keys.mp hmem)
  obtain ⟨gauge, p, -, hp, -⟩ := hs.fair account r hr
  exact Finmap.mem_keys.mpr (Finmap.mem_of_lookup_eq_some hp)

omit [DecidableEq ι] in
/-- Of new RAY as much is due to the positions as they hold of the tokens. -/
theorem total_due_emitted (book : PoolBook ι κ) (gauge gauge' : Gauge) :
    book.rewarders.total (book.due gauge') = book.rewarders.total (book.due gauge) +
      (book.rewarders.total fun account _ => book.escrow.share account) *
        ((gauge'.totalRayEmitted : ℚ) - gauge.totalRayEmitted) := by
  refine Table.total_eq_add_mul _ fun account r _ => ?_
  rw [due, due]
  ring

theorem Solvent.emission_step (hv : Solvent pool book) (hs : Sound pool book) {c : GaugeCall ι}
    {e' : GaugeBook ι} (h : book.emission.step c = some e') :
    Solvent pool { book with emission := e' } := by
  refine ⟨hv.pending, fun gauge' hg' => ?_⟩
  cases hg : book.emission.gauges.lookup pool with
  | none =>
      -- without a gauge there is no rewarder yet
      have hnone : book.rewarders.total (book.due gauge') = book.rewarders.total fun _ _ => 0 := by
        refine Table.total_congr _ fun account r hr => ?_
        obtain ⟨gauge, p, hgauge, -⟩ := hs.fair account r hr
        rw [hg] at hgauge
        cases hgauge
      show book.rewarders.total (book.due gauge') ≤ gauge'.totalRayEmitted
      rw [hnone, Table.total_zero]
      exact Nat.cast_nonneg _
  | some gauge =>
      obtain ⟨g, hlookup, hray, -⟩ := GaugeBook.gauge_step h hg
      obtain rfl : g = gauge' := Option.some.inj (hlookup.symm.trans hg')
      have hgrowth : (0 : ℚ) ≤ (g.totalRayEmitted : ℚ) - gauge.totalRayEmitted :=
        sub_nonneg.mpr (by exact_mod_cast hray)
      show book.rewarders.total (book.due g) ≤ g.totalRayEmitted
      have hshares := hs.escrow.shares_le_one hs.keys_subset
      have hold := hv.covered gauge hg
      have hpart := mul_le_mul_of_nonneg_right hshares hgrowth
      rw [total_due_emitted book gauge g]
      linarith

omit [DecidableEq ι] in
/-- Over a call on the escrow a position keeps its part of the tokens, or its rewarder has just looked
and the config stands where it looked. -/
theorem share_step {c : EscrowCall κ} {s' : EscrowBook κ} (h : book.escrow.step c = some s')
    (hprepared : Prepared book (.escrow c) { book with escrow := s' }) {account : κ}
    {r : PayingRewarder} {p : PersonalPosition} (hr : book.rewarders.lookup account = some r)
    (hp : book.escrow.positions.lookup account = some p) :
    s'.share account = book.escrow.share account ∨
      (book.emission.config.lastUpdatedTs : ℤ) ≤ c.now ∧ (r.state.lastUpdatedTs : ℤ) = c.now := by
  obtain ⟨p', elapsed, hp', -, -, -, hkept⟩ := EscrowBook.position_step h hp
  by_cases hchange : c.change = 0
  · left
    obtain ⟨hamount, htotal⟩ := hkept hchange
    rw [EscrowBook.share, EscrowBook.share, EscrowBook.amountOf_eq hp, EscrowBook.amountOf_eq hp',
      hamount, htotal]
  · obtain ⟨hclock, hlooked⟩ := hprepared c rfl hchange
    by_cases hholds : book.escrow.amountOf account ≠ 0 ∨ s'.amountOf account ≠ 0
    · exact .inr ⟨hclock, hlooked account r hr hholds⟩
    · left
      rw [not_or, not_not, not_not] at hholds
      rw [EscrowBook.share_eq_zero hholds.1, EscrowBook.share_eq_zero hholds.2]

omit [DecidableEq ι] in
/-- While a position keeps its part of the tokens, it earns at most that part of the time. -/
theorem WithinShare.step {account : κ} {r : PayingRewarder} {p p' : PersonalPosition}
    {s' : EscrowBook κ} {elapsed : ℕ} (hw : book.WithinShare account p r)
    (hp : book.escrow.positions.lookup account = some p)
    (hshare : s'.share account = book.escrow.share account)
    (hts : s'.tracker.lastSeenTs = book.escrow.tracker.lastSeenTs + elapsed)
    (hunits : p'.unitsAt s'.tracker.index = p.unitsAt book.escrow.tracker.index +
      p.amount * ((elapsed * scale / book.escrow.tracker.totalLpDeposited : ℕ) : ℤ)) :
    ({ book with escrow := s' } : PoolBook ι κ).WithinShare account p' r := by
  have hgrowth := book.escrow.growth_le_share hp elapsed
  rw [WithinShare] at hw ⊢
  dsimp only
  -- else the cast would be pushed into the quotient
  generalize elapsed * scale / book.escrow.tracker.totalLpDeposited = growth at hunits hgrowth
  rw [hshare, hunits, hts]
  push_cast at hw ⊢
  linarith

omit [DecidableEq ι] in
/-- A rewarder that looked at the tracker's time has nothing pending, whatever its position holds. -/
theorem within_of_fair {account : κ} {r : PayingRewarder} {p : PersonalPosition} {config : GaugeConfig}
    {gauge : Gauge} (hfair : r.Fair config book.escrow.tracker gauge p)
    (hts : (r.state.lastUpdatedTs : ℤ) = book.escrow.tracker.lastSeenTs) :
    book.WithinShare account p r := by
  have hunits := hfair.units
  have hts' : (r.state.lastUpdatedTs : ℚ) = book.escrow.tracker.lastSeenTs := by exact_mod_cast hts
  rw [hts, sub_self, mul_zero] at hunits
  rw [WithinShare, hts', sub_self, mul_zero, mul_zero]
  exact_mod_cast hunits

theorem Solvent.escrow_step (hv : Solvent pool book) (hs : Sound pool book) {c : EscrowCall κ}
    {s' : EscrowBook κ} (h : book.escrow.step c = some s')
    (hprepared : Prepared book (.escrow c) { book with escrow := s' }) :
    Solvent pool { book with escrow := s' } := by
  refine ⟨fun account r q hr hq => ?_, fun gauge hg => ?_⟩
  · obtain ⟨gauge, p, -, hp, -⟩ := hs.fair account r hr
    obtain ⟨p', elapsed, hp', hts, hnow, hunits, -⟩ := EscrowBook.position_step h hp
    obtain rfl : p' = q := Option.some.inj (hp'.symm.trans hq)
    rcases share_step h hprepared hr hp with hshare | ⟨-, hlooked⟩
    · exact (hv.pending account r p hr hp).step hp hshare hts hunits
    · obtain ⟨gauge', q, -, hq', hfair⟩ := (hs.escrow_step h).fair account r hr
      obtain rfl : q = p' := Option.some.inj (hq'.symm.trans hp')
      exact within_of_fair hfair (hlooked.trans hnow.symm)
  · refine (le_of_eq ?_).trans (hv.covered gauge hg)
    refine Table.total_congr _ fun account r hr => ?_
    obtain ⟨gauge', p, hg', hp, hfair⟩ := hs.fair account r hr
    obtain rfl : gauge' = gauge := Option.some.inj (hg'.symm.trans hg)
    rw [due, due]
    rcases share_step h hprepared hr hp with hshare | ⟨hclock, hlooked⟩
    · rw [hshare]
    · -- the rewarder has seen all RAY
      have hconfig := hfair.clock
      rw [(hfair.seen (by omega)).1, sub_self, mul_zero, mul_zero]

/-- A rewarder's record is replaced by one to which no more is due. -/
theorem Solvent.commit (hv : Solvent pool book) {account : κ} {r r' : PayingRewarder}
    (hr : book.rewarders.lookup account = some r)
    (hdue : ∀ gauge, book.emission.gauges.lookup pool = some gauge →
      book.due gauge account r' ≤ book.due gauge account r)
    (hwithin : ∀ p, book.escrow.positions.lookup account = some p → book.WithinShare account p r') :
    Solvent pool (book.commit account r') := by
  refine ⟨fun a q p hq hp => ?_, fun gauge hg => ?_⟩
  · rcases Table.lookup_insert_eq_some hq with ⟨rfl, rfl⟩ | ⟨-, hq⟩
    · exact hwithin p hp
    · exact hv.pending a q p hq hp
  · have hsum := Table.total_insert (f := book.due gauge) (a := r') hr
    have hold := hv.covered gauge hg
    have hle := hdue gauge hg
    show Table.total (book.rewarders.insert account r') (book.due gauge) ≤ gauge.totalRayEmitted
    linarith

omit [DecidableEq ι] in
theorem within_of_looked {account : κ} {p : PersonalPosition} {r : PayingRewarder}
    (hunits : r.state.lastSeenTimeUnits = p.earnedTimeUnits)
    (hts : r.state.lastUpdatedTs = book.escrow.tracker.lastSeenTs)
    (hposition : p.lastSeenIndex = book.escrow.tracker.index) : book.WithinShare account p r := by
  rw [WithinShare, PersonalPosition.unitsAt_of_seen hposition, hunits, hts, sub_self, sub_self,
    mul_zero, mul_zero, Int.cast_zero]

theorem Solvent.look (hv : Solvent pool book) (hs : Sound pool book) {now : Int} {account : κ}
    {out : Rewarder.CpOutcome} (hl : Looked pool book now account out) :
    Solvent pool (book.looked pool account out) := by
  refine (hv.emission_step hs hl.emission).escrow_step (hs.emission_step hl.emission) hl.escrow ?_
  -- an update moves no tokens
  rintro _ ⟨⟩ hchange
  exact absurd rfl hchange

/-- A rewarder begins with nothing due. -/
theorem Solvent.start (hv : Solvent pool book) (hs : Sound pool book) {now : Int} {account : κ}
    {out : Rewarder.CpOutcome} (hl : Looked pool book now account out)
    (hnone : book.rewarders.lookup account = none)
    (hstate : out.rewarder.rewarder =
      ⟨out.position.earnedTimeUnits, out.gauge.totalRayEmitted, now.toNat, 0⟩) :
    Solvent pool ((book.looked pool account out).commit account ⟨out.rewarder, 0⟩) := by
  have hlooked := hv.look hs hl
  have hts := hl.trackerTs
  refine ⟨fun a r p hr hp => ?_, fun gauge hg => ?_⟩
  · rcases Table.lookup_insert_eq_some hr with ⟨rfl, rfl⟩ | ⟨-, hr⟩
    · obtain rfl : out.position = p := Option.some.inj ((looked_position pool).symm.trans hp)
      refine within_of_looked ?_ ?_ hl.position
      · rw [PayingRewarder.state, hstate]
      · rw [PayingRewarder.state, hstate]
        show now.toNat = out.timeTracker.lastSeenTs
        omega
    · exact hlooked.pending a r p hr hp
  · obtain rfl : out.gauge = gauge := Option.some.inj ((looked_gauge account).symm.trans hg)
    have hdue : (book.looked pool account out).due out.gauge account ⟨out.rewarder, 0⟩ = 0 := by
      rw [due, PayingRewarder.received, PayingRewarder.state, hstate, sub_self, mul_zero]
      simp
    have hsum := Table.total_insert_new (f := (book.looked pool account out).due out.gauge)
      (a := ⟨out.rewarder, 0⟩) hnone
    rw [hdue, zero_add] at hsum
    exact hsum.le.trans (hlooked.covered out.gauge hg)

/-- A reward for units that are within a part of the seconds is within that part of the RAY. -/
theorem reward_le_share {reward seconds ray units : ℕ} {part : ℚ} (hpos : 0 < seconds)
    (hreward : reward * (seconds * scale) ≤ ray * units)
    (hunits : (units : ℚ) ≤ part * (scale * seconds)) : (reward : ℚ) ≤ part * ray := by
  have hscale : 0 < scale := by decide
  have hseconds : (0 : ℚ) < seconds * scale := by exact_mod_cast Nat.mul_pos hpos hscale
  have hpart := mul_le_mul_of_nonneg_left hunits (Nat.cast_nonneg (α := ℚ) ray)
  refine le_of_mul_le_mul_right ?_ hseconds
  calc (reward : ℚ) * (seconds * scale)
      ≤ ray * units := by exact_mod_cast hreward
    _ ≤ ray * (part * (scale * seconds)) := hpart
    _ = part * ray * (seconds * scale) := by ring

/-- A reward is at most the position's part of the RAY that its rewarder had yet to see. -/
theorem Solvent.reward_le (hv : Solvent pool book) {account : κ} {r : PayingRewarder}
    {p : PersonalPosition} {reward seconds emitted : ℕ} (hr : book.rewarders.lookup account = some r)
    (hp : book.escrow.positions.lookup account = some p)
    (hposition : p.lastSeenIndex = book.escrow.tracker.index)
    (hts : book.escrow.tracker.lastSeenTs = r.state.lastUpdatedTs + seconds) (hpos : 0 < seconds)
    (hunits : r.state.lastSeenTimeUnits ≤ p.earnedTimeUnits)
    (hray : r.state.lastSeenTotalEmittedRay ≤ emitted)
    (hreward : reward * (seconds * scale) ≤ (emitted - r.state.lastSeenTotalEmittedRay) *
      (p.earnedTimeUnits.raw - r.state.lastSeenTimeUnits.raw)) :
    (reward : ℚ) ≤ book.escrow.share account * ((emitted : ℚ) - r.state.lastSeenTotalEmittedRay) := by
  have hwithin := hv.pending account r p hr hp
  rw [WithinShare, PersonalPosition.unitsAt_of_seen hposition, hts, Nat.cast_add,
    add_sub_cancel_left] at hwithin
  rw [Number.le_iff] at hunits
  rw [← Nat.cast_sub hray]
  refine reward_le_share hpos hreward ?_
  rw [Nat.cast_sub hunits]
  exact_mod_cast hwithin

theorem Solvent.accrue (hv : Solvent pool book) (hs : Sound pool book) {now : Int} {account : κ}
    {out : Rewarder.CpOutcome} (hl : Looked pool book now account out) {r : PayingRewarder}
    (hr : book.rewarders.lookup account = some r)
    (hstage : r.state.syncAndStage now out.gauge.totalRayEmitted out.position.earnedTimeUnits =
      .ok ⟨out.rewarder.rewarder, out.collected⟩) :
    Solvent pool ((book.looked pool account out).commit account ⟨out.rewarder, r.paid⟩) := by
  have hlooked := hv.look hs hl
  have hts := hl.trackerTs
  have hp : (book.looked pool account out).escrow.positions.lookup account = some out.position :=
    looked_position pool
  obtain ⟨hray, hseen, seconds, hnow, hcases⟩ := PersonalRewarderState.syncAndStage_ok hstage
  rcases hcases with ⟨-, hsame, -⟩ | ⟨hpos, hreward, hnew⟩
  · -- the record stays as it is
    have hrecord : (⟨out.rewarder, r.paid⟩ : PayingRewarder).state = r.state := hsame
    refine hlooked.commit hr (fun gauge _ => ?_) fun p hp' => ?_
    · rw [due, due, PayingRewarder.received, PayingRewarder.received, hrecord]
    · have hold := hlooked.pending account r p hr hp'
      rwa [WithinShare, ← hrecord] at hold
  · have hrecord : (⟨out.rewarder, r.paid⟩ : PayingRewarder).state = ⟨out.position.earnedTimeUnits,
      out.gauge.totalRayEmitted, r.state.lastUpdatedTs + seconds, r.state.stagedRay + out.collected⟩ :=
        hnew
    have hlast : out.timeTracker.lastSeenTs = r.state.lastUpdatedTs + seconds := by omega
    refine hlooked.commit hr (fun gauge hg => ?_) fun p hp' => ?_
    · obtain rfl : out.gauge = gauge := Option.some.inj ((looked_gauge account).symm.trans hg)
      have hpart := hlooked.reward_le hr hp hl.position hlast hpos hseen hray hreward
      rw [due, due, PayingRewarder.received, PayingRewarder.received, hrecord, sub_self, mul_zero,
        add_zero]
      push_cast
      linarith
    · obtain rfl : out.position = p := Option.some.inj (hp.symm.trans hp')
      refine within_of_looked ?_ ?_ hl.position
      · rw [hrecord]
      · rw [hrecord]
        exact hlast.symm

theorem solvent_start (config : GaugeConfig) (tracker : TimeTracker) :
    Solvent pool (⟨⟨config, ∅⟩, ⟨tracker, ∅⟩, ∅⟩ : PoolBook ι κ) := by
  refine ⟨fun account r p hr _ => ?_, fun gauge _ => ?_⟩
  · cases hr
  · rw [Table.total_empty]
    exact Nat.cast_nonneg _

theorem Solvent.step (hv : Solvent pool book) (hs : Sound pool book)
    (h : book.step pool call = some book') (hprepared : Prepared book call book') :
    Solvent pool book' := by
  rcases step_cases h with ⟨c, e', -, hstep, rfl⟩ | ⟨c, s', rfl, hstep, rfl⟩ |
    ⟨now, account, out, -, hl, hnone, hstate, rfl⟩ | ⟨now, account, out, r, -, hl, hr, hstage, rfl⟩ |
    ⟨account, r, -, hr, rfl⟩
  · exact hv.emission_step hs hstep
  · exact hv.escrow_step hs hstep hprepared
  · exact hv.start hs hl hnone hstate
  · exact hv.accrue hs hl hr hstage
  · exact hv.commit hr (fun gauge _ => le_rfl) fun p hp => hv.pending account r p hr hp

theorem solvent_run {start : PoolBook ι κ} (hs : Sound pool start) (hv : Solvent pool start)
    (calls : List (PoolCall ι κ)) (hprepared : Throughout (step pool) Prepared start calls) :
    Solvent pool (run (step pool) start calls) := by
  refine (run_invariant_of_throughout (P := fun book => Sound pool book ∧ Solvent pool book) ?_ calls
    hprepared ⟨hs, hv⟩).2
  rintro book call book' ⟨hs, hv⟩ hstep hcall
  exact ⟨hs.step hstep, hv.step hs hstep hcall⟩

/-- **Solvency.** After every run of a pool no position has received more RAY than the pool was
emitted. If tokens were only moved when the rewarders of all positions that hold any had just looked,
all positions together have not. -/
theorem rewarders_solvent {now : Int} {poolId escrowAccount : Address} {tracker : TimeTracker}
    (hinit : Escrow.initTimeTracker now poolId escrowAccount = .ok tracker) (config : GaugeConfig)
    (pool : ι) (calls : List (PoolCall ι κ)) :
    let start : PoolBook ι κ := ⟨⟨config, ∅⟩, ⟨tracker, ∅⟩, ∅⟩
    let book := run (step pool) start calls
    ∀ gauge, book.emission.gauges.lookup pool = some gauge →
      (∀ account r, book.rewarders.lookup account = some r → r.received ≤ gauge.totalRayEmitted) ∧
        (Throughout (step pool) Prepared start calls →
          (book.rewarders.total fun _ r => r.received) ≤ gauge.totalRayEmitted) := by
  intro start book gauge hg
  have hzero : tracker.totalLpDeposited = 0 := Escrow.initTimeTracker_ok hinit
  have hsound : Sound pool start := sound_start config hzero
  refine ⟨fun account r hr => ?_, fun hprepared => ?_⟩
  · obtain ⟨gauge', p, hg', -, hfair⟩ := (sound_run hsound calls).fair account r hr
    obtain rfl : gauge' = gauge := Option.some.inj (hg'.symm.trans hg)
    exact hfair.received.trans hfair.ray
  · have hsolvent : Solvent pool book := solvent_run hsound (solvent_start config tracker) calls hprepared
    have hcovered := hsolvent.covered gauge hg
    have hreceived : ((book.rewarders.total fun _ r => r.received : ℕ) : ℚ) ≤
        book.rewarders.total (book.due gauge) := by
      rw [Table.natCast_total]
      refine Table.total_le_total fun account r hr => ?_
      obtain ⟨gauge', p, hg', -, hfair⟩ := (sound_run hsound calls).fair account r hr
      obtain rfl : gauge' = gauge := Option.some.inj (hg'.symm.trans hg)
      have hunseen : (0 : ℚ) ≤ (gauge'.totalRayEmitted : ℚ) - r.state.lastSeenTotalEmittedRay :=
        sub_nonneg.mpr (by exact_mod_cast hfair.ray)
      rw [due]
      exact le_add_of_nonneg_right (mul_nonneg (EscrowBook.share_nonneg _ _) hunseen)
    exact_mod_cast hreceived.trans hcovered

/-- Both positions are accrued before the second one gets a token after a day, and again before the
first one gives its token up after two. They share the RAY of the second day, and the second position
has the third day to itself. -/
theorem rewarders_solvent_two_positions :
    let tracker : TimeTracker := ⟨.zero, .zero, .zero, 0, 0⟩
    let config : GaugeConfig := ⟨0, 86400, .zero, 0⟩
    let reactor : Reactor := ⟨.zero, 1, 0, 0, .zero, ⟨.zero, 0⟩⟩
    let other : Address := ⟨String.ofList (List.replicate 64 '1'), by decide⟩
    let calls : List (PoolCall ℕ ℕ) :=
      [.emission (.initPool 0 0 .zero), .escrow (.initPosition 0 0 .zero),
        .escrow (.initPosition 0 1 other), .initCp 0 0, .initCp 0 1, .escrow (.deposit 0 0 1),
        .emission (.changeVotes 0 0 ⟨.zero, .zero, 0⟩ 1 reactor), .accrueCp 86400 0,
        .accrueCp 86400 1, .escrow (.deposit 86400 1 1), .accrueCp 172800 0, .accrueCp 172800 1,
        .collectCp 0, .escrow (.withdraw 172800 0 1), .accrueCp 259200 1]
    let gauge : Gauge := ⟨.zero, 1, ⟨259200 * scale, by decide⟩, 259200⟩
    let units : Number := ⟨129600 * scale, by decide⟩
    let first : PayingRewarder := ⟨⟨.zero, .zero, ⟨units, 172800, 172800, 0⟩⟩, 129600⟩
    let second : PayingRewarder := ⟨⟨other, .zero, ⟨units, 259200, 259200, 129600⟩⟩, 0⟩
    let start : PoolBook ℕ ℕ := ⟨⟨config, ∅⟩, ⟨tracker, ∅⟩, ∅⟩
    let book := run (step 0) start calls
    Escrow.initTimeTracker 0 .zero .zero = .ok tracker ∧
      Throughout (step 0) Prepared start calls ∧
      book.emission.gauges.lookup 0 = some gauge ∧
      book.rewarders.lookup 0 = some first ∧ book.rewarders.lookup 1 = some second ∧
      first.received ≤ gauge.totalRayEmitted ∧ second.received ≤ gauge.totalRayEmitted ∧
      (book.rewarders.total fun _ r => r.received) ≤ gauge.totalRayEmitted := by
  intro tracker config reactor other calls gauge units first second
  have hinit : Escrow.initTimeTracker 0 .zero .zero = .ok tracker := rfl
  have hsolvent := rewarders_solvent hinit config 0 calls gauge
  refine ⟨hinit, ?prepared, ?gauge, ?first, ?second, (hsolvent ?gauge).1 0 first ?first,
    (hsolvent ?gauge).1 1 second ?second, (hsolvent ?gauge).2 ?prepared⟩ <;> decide +kernel

/-- Times that never decrease are not enough. The first position's rewarder sleeps while its token goes
to the second position and the pool gets its first votes. -/
theorem stale_rewarder_overpaid :
    let tracker : TimeTracker := ⟨.zero, .zero, .zero, 0, 0⟩
    let config : GaugeConfig := ⟨0, 86400, .zero, 0⟩
    let reactor : Reactor := ⟨.zero, 1, 0, 0, .zero, ⟨.zero, 0⟩⟩
    let other : Address := ⟨String.ofList (List.replicate 64 '1'), by decide⟩
    let calls : List (PoolCall ℕ ℕ) :=
      [.emission (.initPool 0 0 .zero), .escrow (.initPosition 0 0 .zero),
        .escrow (.initPosition 0 1 other), .escrow (.deposit 0 0 1), .initCp 0 0, .initCp 0 1,
        .escrow (.withdraw 86400 0 1), .escrow (.deposit 86400 1 1), .accrueCp 86400 1,
        .emission (.changeVotes 86400 0 ⟨.zero, .zero, 0⟩ 1 reactor), .accrueCp 172800 1,
        .accrueCp 172800 0]
    let gauge : Gauge := ⟨.zero, 1, ⟨86400 * scale, by decide⟩, 86400⟩
    Escrow.initTimeTracker 0 .zero .zero = .ok tracker ∧
      Emission.initGaugeConfig ⟨86400⟩ 0 = .ok config ∧
      (calls.filterMap PoolCall.time).Pairwise (· ≤ ·) ∧
      (run (step 0) (⟨⟨config, ∅⟩, ⟨tracker, ∅⟩, ∅⟩ : PoolBook ℕ ℕ) calls).emission.gauges.lookup 0 =
        some gauge ∧
      gauge.totalRayEmitted <
        (run (step 0) (⟨⟨config, ∅⟩, ⟨tracker, ∅⟩, ∅⟩ : PoolBook ℕ ℕ) calls).rewarders.total
          fun _ r => r.received := by
  intro tracker config reactor other calls gauge
  refine ⟨rfl, rfl, ?_, ?_, ?_⟩ <;> decide +kernel

end PoolBook

end EmissionLedger
