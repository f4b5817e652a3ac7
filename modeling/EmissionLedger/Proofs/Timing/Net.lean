import EmissionLedger.Proofs.Timing.Absorption
import Mathlib.Algebra.BigOperators.Group.List.Basic
import Mathlib.Tactic.Ring

/-!
What operations at one time leave of a record. A record that many share is moved on by the first of them
and only changes its amount in the later ones, so it ends as it was, moved on, with all their changes
added to its amount. A record that only one of them acts on ends as that one leaves it, by the shared
record moved on from the start. Neither depends on the order.
-/

namespace EmissionLedger

/-! ### Shared records -/

/-- A kind of record that operations move on before they change its amount. -/
structure Meter (σ : Type) where
  advance : σ → Result σ
  amount : σ → ℕ
  put : σ → ℕ → σ
  put_amount : ∀ s, put s (amount s) = s
  put_put : ∀ s m n, put (put s m) n = put s n
  amount_advance : ∀ {s s'}, advance s = .ok s' → amount s' = amount s
  advance_again : ∀ {s s'}, advance s = .ok s' → ∀ n, advance (put s' n) = .ok (put s' n)

namespace Meter

variable {σ : Type} (meter : Meter σ)

/-- The record `s` is what is left of `start` when its amount was changed by each of `changes`: the
record itself if it was not, else the record moved on and with all changes added. -/
inductive Net (start : σ) : List ℤ → σ → Prop where
  | none : Net start [] start
  | some {changes : List ℤ} {moved s : σ} (hne : changes ≠ [])
      (hmoved : meter.advance start = .ok moved) (hput : s = meter.put moved (meter.amount s))
      (hamount : (meter.amount s : ℤ) = meter.amount start + changes.sum) : Net start changes s

variable {meter} {start s s' moved : σ} {changes changes' : List ℤ}

theorem Net.amount (h : meter.Net start changes s) :
    (meter.amount s : ℤ) = meter.amount start + changes.sum := by
  cases h with
  | none => simp
  | some hne hmoved hput hamount => exact hamount

/-- However often the record was changed, it is moved on as it would have been at first. -/
theorem Net.advance (h : meter.Net start changes s) (hs : meter.advance s = .ok moved) :
    ∃ first, meter.advance start = .ok first ∧ moved = meter.put first (meter.amount moved) := by
  cases h with
  | none => exact ⟨moved, hs, (meter.put_amount moved).symm⟩
  | @some _ first _ hne hmoved hput hamount =>
      have hagain := meter.advance_again hmoved (meter.amount s)
      rw [← hput, hs, Except.ok.injEq] at hagain
      rw [hagain]
      exact ⟨first, hmoved, hput⟩

theorem Net.step (h : meter.Net start changes s) {change : ℤ} (hs : meter.advance s = .ok moved)
    (hput : s' = meter.put moved (meter.amount s'))
    (hamount : (meter.amount s' : ℤ) = meter.amount s + change) :
    meter.Net start (change :: changes) s' := by
  obtain ⟨first, hfirst, hmoved⟩ := h.advance hs
  refine .some (List.cons_ne_nil _ _) hfirst ?_ ?_
  · rw [hmoved, meter.put_put] at hput
    exact hput
  · rw [hamount, h.amount, List.sum_cons]
    ring

theorem Net.unique (hperm : changes.Perm changes') (h : meter.Net start changes s)
    (h' : meter.Net start changes' s') : s = s' := by
  have hsum := hperm.sum_eq
  cases h with
  | none =>
      cases h' with
      | none => rfl
      | some hne => exact absurd hperm.symm.eq_nil hne
  | some hne hmoved hput hamount =>
      cases h' with
      | none => exact absurd hperm.eq_nil hne
      | some hne' hmoved' hput' hamount' =>
          cases hmoved.symm.trans hmoved'
          rw [hput, hput', show meter.amount s = meter.amount s' by omega]

/-! ### Many records -/

variable {κ : Type}

/-- Each record is what is left of the one under its key at the start, and there are no others. -/
def NetAll (meter : Meter σ) (first : κ → Option σ) (changes : κ → List ℤ) (all : κ → Option σ) : Prop :=
  ∀ k, Option.Rel (fun start s => meter.Net start (changes k) s) (first k) (all k)

variable {first all all' : κ → Option σ} {changes changes' : κ → List ℤ}

theorem NetAll.found (h : meter.NetAll first changes all) {k : κ} (hs : all k = some s) :
    ∃ start, first k = some start ∧ meter.Net start (changes k) s := by
  have hk := h k
  rw [hs] at hk
  generalize first k = found at hk
  cases hk with
  | some hnet => exact ⟨_, rfl, hnet⟩

theorem NetAll.nil : meter.NetAll first (fun _ => []) first := by
  intro k
  cases first k with
  | none => exact .none
  | some s => exact .some .none

/-- The record under one key is changed once more. -/
theorem NetAll.step [DecidableEq κ] (h : meter.NetAll first changes all) {k : κ} {change : ℤ}
    (hk : first k = some start) (hnet : meter.Net start (change :: changes k) s)
    (hnew : all' k = some s) (hother : ∀ x, x ≠ k → all' x = all x) :
    meter.NetAll first (fun x => if k = x then change :: changes x else changes x) all' := by
  intro x
  dsimp only
  by_cases hx : k = x
  · subst hx
    rw [hk, hnew, if_pos rfl]
    exact .some hnet
  · rw [hother x (Ne.symm hx), if_neg hx]
    exact h x

theorem NetAll.unique (hperm : ∀ k, (changes k).Perm (changes' k))
    (h : meter.NetAll first changes all) (h' : meter.NetAll first changes' all') : all = all' := by
  funext k
  have hk := h k
  have hk' := h' k
  generalize first k = old, all k = new, all' k = new' at hk hk' ⊢
  cases hk with
  | none =>
      cases hk' with
      | none => rfl
  | some hnet =>
      cases hk' with
      | some hnet' => rw [hnet.unique (hperm k) hnet']

end Meter

/-! ### Records of their own -/

/-- A record, and what the last operation on it moved. -/
structure Served (α μ : Type) where
  record : α
  moved : μ

/-- Each record is that of the start, or, if one of the turns was its own, what that turn makes of it. -/
structure OwnNet {ι α τ : Type} (effect : α → τ → α → Prop) (start : ι → Option α)
    (done : List (ι × τ)) (own : ι → Option α) : Prop where
  kept : ∀ k, k ∉ done.map Prod.fst → own k = start k
  turned : ∀ k turn, (k, turn) ∈ done → ∃ a a', start k = some a ∧ effect a turn a' ∧ own k = some a'

namespace OwnNet

variable {ι α τ : Type} {effect : α → τ → α → Prop} {start own own' : ι → Option α}
variable {done done' : List (ι × τ)}

theorem nil : OwnNet effect start [] start := by
  refine ⟨fun _ _ => rfl, fun k turn hmem => ?_⟩
  cases hmem

theorem step (h : OwnNet effect start done own) {k : ι} {turn : τ} {a a' : α}
    (hk : k ∉ done.map Prod.fst) (ha : own k = some a) (heffect : effect a turn a')
    (hnew : own' k = some a') (hother : ∀ x, x ≠ k → own' x = own x) :
    OwnNet effect start ((k, turn) :: done) own' := by
  refine ⟨fun x hx => ?_, fun x turn' hmem => ?_⟩
  · rw [List.map_cons, List.mem_cons, not_or] at hx
    exact (hother x hx.1).trans (h.kept x hx.2)
  · rcases List.mem_cons.mp hmem with heq | hearlier
    · cases heq
      exact ⟨a, a', (h.kept k hk).symm.trans ha, heffect, hnew⟩
    · have hx : x ≠ k := by
        rintro rfl
        exact hk (List.mem_map.mpr ⟨(x, turn'), hearlier, rfl⟩)
      rw [hother x hx]
      exact h.turned x turn' hearlier

theorem unique (h : OwnNet effect start done own) (h' : OwnNet effect start done' own')
    (hperm : done.Perm done')
    (heffect : ∀ {a turn a₁ a₂}, effect a turn a₁ → effect a turn a₂ → a₁ = a₂) : own = own' := by
  funext k
  by_cases hk : k ∈ done.map Prod.fst
  · obtain ⟨⟨_, turn⟩, hmem, rfl⟩ := List.mem_map.mp hk
    obtain ⟨a, a₁, ha, heffect₁, hown⟩ := h.turned _ turn hmem
    obtain ⟨_, a₂, ha', heffect₂, hown'⟩ := h'.turned _ turn (hperm.mem_iff.mp hmem)
    cases ha.symm.trans ha'
    rw [hown, hown', heffect heffect₁ heffect₂]
  · have hk' : k ∉ done'.map Prod.fst := mt (hperm.map Prod.fst).mem_iff.mpr hk
    rw [h.kept k hk, h'.kept k hk']

end OwnNet

/-! ### The escrow -/

/-- A tracker, moved on to `now`. -/
def TimeTracker.meter (now : Int) : Meter TimeTracker where
  advance t := t.advance now
  amount := totalLpDeposited
  put t total := { t with totalLpDeposited := total }
  put_amount _ := rfl
  put_put _ _ _ := rfl
  amount_advance h := by
    obtain ⟨_, -, hadv⟩ := advance_ok h
    exact hadv.total
  advance_again := advance_again

namespace Escrow

/-- What a turn adds to the amounts. -/
def Turn.change : Turn → ℤ
  | deposit amount => amount
  | withdraw amount => -amount
  | update => 0

/-- The tokens that a turn moves. -/
def Turn.transfer : Turn → ℤ
  | deposit amount | withdraw amount => amount
  | update => 0

/-- What a turn at `now` makes of a position, by the tracker before all turns. -/
def Turned (now : Int) (tracker : TimeTracker) (p : Served PersonalPosition ℕ) (turn : Turn)
    (p' : Served PersonalPosition ℕ) : Prop :=
  ∃ t settled, tracker.advance now = .ok t ∧ p.record.settle t = .ok settled ∧
    p'.record = { settled with amount := p'.record.amount } ∧
    (p'.record.amount : ℤ) = p.record.amount + turn.change ∧ (p'.moved : ℤ) = turn.transfer

variable {now : Int} {t : TimeTracker} {p : PersonalPosition}

theorem Turn.perform_ok {turn : Turn} {out : Outcome} (h : turn.perform now t p = .ok out) :
    Moved now t p out turn.change ∧ out.transferAmount = turn.transfer := by
  cases turn with
  | deposit amount => exact deposit_ok h
  | withdraw amount => exact withdraw_ok h
  | update =>
      obtain ⟨hmoved, hnone⟩ := updatePersonal_ok h
      exact ⟨hmoved, congrArg Nat.cast hnone⟩

theorem turned_unique {tracker : TimeTracker} {p p₁ p₂ : Served PersonalPosition ℕ} {turn : Turn}
    (h₁ : Turned now tracker p turn p₁) (h₂ : Turned now tracker p turn p₂) : p₁ = p₂ := by
  obtain ⟨t, settled, ht, hsettle, hrecord₁, hamount₁, htransfer₁⟩ := h₁
  obtain ⟨_, settled', ht', hsettle', hrecord₂, hamount₂, htransfer₂⟩ := h₂
  cases ht.symm.trans ht'
  cases hsettle.symm.trans hsettle'
  obtain ⟨record₁, moved₁⟩ := p₁
  obtain ⟨record₂, moved₂⟩ := p₂
  have hamount : record₁.amount = record₂.amount := by
    dsimp only at hamount₁ hamount₂
    omega
  have hmoved : moved₁ = moved₂ := by
    dsimp only at htransfer₁ htransfer₂
    omega
  have hrecord : record₁ = record₂ := by
    dsimp only at hrecord₁ hrecord₂
    rw [hrecord₁, hrecord₂, hamount]
  rw [hrecord, hmoved]

/-- A turn moves the tracker on, and makes of its position what it would have made at first. -/
theorem perform_net {start : TimeTracker} {changes : List ℤ} {turn : Turn} {out : Outcome} {before : ℕ}
    (hnet : (TimeTracker.meter now).Net start changes t) (h : turn.perform now t p = .ok out) :
    (TimeTracker.meter now).Net start (turn.change :: changes) out.timeTracker ∧
      Turned now start ⟨p, before⟩ turn ⟨out.position, out.transferAmount⟩ := by
  obtain ⟨⟨⟨moved, p', hsync, hput, hp'⟩, htotal, hamount⟩, htransfer⟩ := Turn.perform_ok h
  obtain ⟨hadvance, hsettle⟩ := sync_eq_ok.mp hsync
  obtain ⟨first, hfirst, hmoved⟩ := hnet.advance hadvance
  -- a position is settled by the tracker's index, whatever the total
  rw [hmoved] at hsettle
  exact ⟨hnet.step hadvance hput htotal, first, p', hfirst, hsettle, hp', hamount, htransfer⟩

end Escrow

/-! ### The stake -/

/-- A reactor config, moved on to `now`. -/
def ReactorConfig.meter (now : Int) : Meter ReactorConfig where
  advance c := c.advance now
  amount := totalRayDeposited
  put c total := { c with totalRayDeposited := total }
  put_amount _ := rfl
  put_put _ _ _ := rfl
  amount_advance h := by
    obtain ⟨_, -, hadv⟩ := advance_ok h
    exact hadv.total
  advance_again := advance_again

/-- A count that nothing but its changes moves. -/
def countMeter : Meter ℕ where
  advance := .ok
  amount n := n
  put _ n := n
  put_amount _ := rfl
  put_put _ _ _ := rfl
  amount_advance h := by
    cases h
    rfl
  advance_again _ _ := rfl

namespace Reactor

/-- A reactor but for its locks, which changes of votes share. -/
def unlocked (r : Reactor) : Reactor := { r with lockedVotes := 0 }

theorem eq_of_unlocked {r r' : Reactor} (h : r.unlocked = r'.unlocked)
    (hlocked : r.lockedVotes = r'.lockedVotes) : r = r' := by
  obtain ⟨owner, ray, isoRay, locked, seen, rewards⟩ := r
  obtain ⟨owner', ray', isoRay', locked', seen', rewards'⟩ := r'
  obtain rfl : locked = locked' := hlocked
  rw [unlocked, unlocked, Reactor.mk.injEq] at h
  obtain ⟨rfl, rfl, rfl, -, rfl, rfl⟩ := h
  rfl

theorem Relocked.unlocked_eq {r r' : Reactor} {amount : Int} (h : r.Relocked r' amount) :
    r'.unlocked = r.unlocked := by
  rw [h.reactor]
  rfl

theorem Settled.unlocked {r r' : Reactor} {config : ReactorConfig} (h : r.Settled r' config) :
    r.unlocked.Settled r'.unlocked config :=
  ⟨h.owner, h.ray, rfl, h.isoRay, h.lastSeenIsoRay, h.reward, h.lastSeenReward⟩

/-- A reactor is settled by the config's indices, whatever the total. -/
theorem Settled.of_put {r r' : Reactor} {config : ReactorConfig} {total : ℕ}
    (h : r.Settled r' { config with totalRayDeposited := total }) : r.Settled r' config :=
  ⟨h.owner, h.ray, h.lockedVotes, h.isoRay, h.lastSeenIsoRay, h.reward, h.lastSeenReward⟩

theorem Settled.unique {r r₁ r₂ : Reactor} {config : ReactorConfig} (h₁ : r.Settled r₁ config)
    (h₂ : r.Settled r₂ config) : r₁ = r₂ := by
  obtain ⟨owner, ray, isoRay, locked, seen, ⟨seenReward, reward⟩⟩ := r₁
  obtain ⟨owner', ray', isoRay', locked', seen', ⟨seenReward', reward'⟩⟩ := r₂
  obtain rfl : owner = owner' := h₁.owner.trans h₂.owner.symm
  obtain rfl : ray = ray' := h₁.ray.trans h₂.ray.symm
  obtain rfl : isoRay = isoRay' := h₁.isoRay.trans h₂.isoRay.symm
  obtain rfl : locked = locked' := h₁.lockedVotes.trans h₂.lockedVotes.symm
  obtain rfl : seen = seen' := h₁.lastSeenIsoRay.trans h₂.lastSeenIsoRay.symm
  obtain rfl : seenReward = seenReward' := h₁.lastSeenReward.trans h₂.lastSeenReward.symm
  obtain rfl : reward = reward' := h₁.reward.trans h₂.reward.symm
  rfl

end Reactor

namespace Staking

/-- What a turn adds to the stake. -/
def Turn.change : Turn → ℤ
  | deposit amount => amount
  | withdraw amount => -amount
  | sync | syncAndCollect => 0

/-- What a turn makes of a settled reactor, with the RAY that it moves and the isoRAY that is lost. -/
inductive Turn.Leaves (r : Reactor) : Turn → Served Reactor (ℕ × ℕ) → Prop where
  | deposit {amount : Int} {ray moved : ℕ} (hray : (ray : ℤ) = r.ray + amount)
      (hmoved : (moved : ℤ) = amount) : Leaves r (.deposit amount) ⟨{ r with ray }, moved, 0⟩
  | withdraw {amount : Int} {taken loss ray isoRay : ℕ} (htaken : (taken : ℤ) = amount)
      (hloss : isoRaySlashAmount r.ray taken r.isoRay = .ok loss) (hray : ray + taken = r.ray)
      (hisoRay : isoRay + loss = r.isoRay) :
      Leaves r (.withdraw amount) ⟨{ r with ray, isoRay }, taken, loss⟩
  | sync : Leaves r .sync ⟨r, 0, 0⟩
  | syncAndCollect :
      Leaves r .syncAndCollect ⟨(collectRayRewards r).1, (collectRayRewards r).2, 0⟩

/-- What a turn at `now` makes of a reactor but for its locks, by the config before all turns. -/
def Turned (now : Int) (config : ReactorConfig) (r : Served Reactor (ℕ × ℕ)) (turn : Turn)
    (r' : Served Reactor (ℕ × ℕ)) : Prop :=
  ∃ config' settled, config.advance now = .ok config' ∧ r.record.Settled settled config' ∧
    turn.Leaves settled r'

variable {now : Int} {config config' : ReactorConfig} {r r' : Reactor}

theorem Turn.Leaves.unlocked {turn : Turn} {r' : Served Reactor (ℕ × ℕ)} (h : turn.Leaves r r') :
    turn.Leaves r.unlocked { r' with record := r'.record.unlocked } := by
  cases h with
  | deposit hray hmoved => exact .deposit (r := r.unlocked) hray hmoved
  | withdraw htaken hloss hray hisoRay => exact .withdraw (r := r.unlocked) htaken hloss hray hisoRay
  | sync => exact .sync
  | syncAndCollect => exact .syncAndCollect (r := r.unlocked)

theorem Turn.Leaves.locked {turn : Turn} {r' : Served Reactor (ℕ × ℕ)} (h : turn.Leaves r r') :
    r'.record.lockedVotes = r.lockedVotes := by
  cases h <;> rfl

theorem Turn.Leaves.unique {turn : Turn} {r₁ r₂ : Served Reactor (ℕ × ℕ)} (h₁ : turn.Leaves r r₁)
    (h₂ : turn.Leaves r r₂) : r₁ = r₂ := by
  cases h₁ with
  | @deposit _ ray moved hray hmoved =>
      cases h₂ with
      | @deposit _ ray' moved' hray' hmoved' =>
          obtain rfl : ray = ray' := by omega
          obtain rfl : moved = moved' := by omega
          rfl
  | @withdraw _ taken loss ray isoRay htaken hloss hray hisoRay =>
      cases h₂ with
      | @withdraw _ taken' loss' ray' isoRay' htaken' hloss' hray' hisoRay' =>
          obtain rfl : taken = taken' := by omega
          obtain rfl : loss = loss' := Except.ok.inj (hloss.symm.trans hloss')
          obtain rfl : ray = ray' := by omega
          obtain rfl : isoRay = isoRay' := by omega
          rfl
  | sync =>
      cases h₂
      rfl
  | syncAndCollect =>
      cases h₂
      rfl

theorem turned_unique {r r₁ r₂ : Served Reactor (ℕ × ℕ)} {turn : Turn}
    (h₁ : Turned now config r turn r₁) (h₂ : Turned now config r turn r₂) : r₁ = r₂ := by
  obtain ⟨config', settled, hadvance, hset, hleaves⟩ := h₁
  obtain ⟨config₂, settled₂, hadvance₂, hset₂, hleaves₂⟩ := h₂
  cases hadvance.symm.trans hadvance₂
  obtain rfl : settled = settled₂ := hset.unique hset₂
  exact hleaves.unique hleaves₂

theorem Turn.perform_ok {turn : Turn} {out : Outcome} (h : turn.perform now config r = .ok out) :
    ∃ config' settled, settleAt now config r = .ok (config', settled) ∧
      turn.Leaves settled ⟨out.reactor, out.transferAmount, out.isoRaySlashed⟩ ∧
      out.config = { config' with totalRayDeposited := out.config.totalRayDeposited } ∧
      (out.config.totalRayDeposited : ℤ) = config'.totalRayDeposited + turn.change := by
  cases turn with
  | deposit amount =>
      obtain ⟨config', settled, ray, total, hsettle, hray, htotal, hconfig, hreactor, htransfer,
        hslashed, -⟩ := depositRay_ok h
      refine ⟨config', settled, hsettle, ?_, by rw [hconfig], by rw [hconfig]; exact htotal⟩
      rw [hreactor, hslashed]
      exact .deposit hray htransfer
  | withdraw amount =>
      obtain ⟨config', settled, taken, loss, ray, isoRay, total, hsettle, rfl, hloss, -, hray, hisoRay,
        htotal, rfl⟩ := withdrawRay_ok h
      refine ⟨config', settled, hsettle, .withdraw rfl hloss hray hisoRay, rfl, ?_⟩
      rw [Turn.change]
      dsimp only
      omega
  | sync =>
      obtain ⟨-, -, -, -, -, -, -, -, -, htransfer, hslashed, -⟩ := depositRay_ok h
      refine ⟨out.config, out.reactor, syncReactor_settleAt h, ?_, rfl, (add_zero _).symm⟩
      rw [hslashed, Int.natCast_eq_zero.mp htransfer]
      exact .sync
  | syncAndCollect =>
      simp only [perform, syncAndCollectRayRewards, bind_eq_ok, pure_eq_ok] at h
      obtain ⟨synced, hsync, rfl⟩ := h
      exact ⟨synced.config, synced.reactor, syncReactor_settleAt hsync, .syncAndCollect, rfl,
        (add_zero _).symm⟩

/-- A turn moves the config on, makes of its reactor what it would have made at first, and leaves the
locks. -/
theorem perform_net {start : ReactorConfig} {changes : List ℤ} {turn : Turn} {out : Outcome}
    {before : ℕ × ℕ} (hnet : (ReactorConfig.meter now).Net start changes config)
    (h : turn.perform now config r = .ok out) :
    (ReactorConfig.meter now).Net start (turn.change :: changes) out.config ∧
      Turned now start ⟨r.unlocked, before⟩ turn
        ⟨out.reactor.unlocked, out.transferAmount, out.isoRaySlashed⟩ ∧
      out.reactor.lockedVotes = r.lockedVotes := by
  obtain ⟨config', settled, hsettle, hleaves, hput, htotal⟩ := Turn.perform_ok h
  obtain ⟨hadvance, hset⟩ := settleAt_ok hsettle
  obtain ⟨first, hfirst, hmoved⟩ := hnet.advance hadvance
  have hamount := (ReactorConfig.meter now).amount_advance hadvance
  refine ⟨hnet.step hadvance hput ?_, ⟨first, settled.unlocked, hfirst, ?_, hleaves.unlocked⟩, ?_⟩
  · rw [← hamount]
    exact htotal
  · rw [hmoved] at hset
    exact hset.of_put.unlocked
  · exact hleaves.locked.trans hset.lockedVotes

end Staking

/-! ### The votes -/

/-- A gauge config, moved on to `now`. -/
def GaugeConfig.meter (now : Int) : Meter GaugeConfig where
  advance c := c.advance now
  amount := totalVotes
  put c votes := { c with totalVotes := votes }
  put_amount _ := rfl
  put_put _ _ _ := rfl
  amount_advance h := by
    obtain ⟨_, -, hadv⟩ := advance_ok h
    exact hadv.votes
  advance_again := advance_again

/-- A gauge, settled by a config that is moved on to `now`. -/
def Gauge.meter (now : Int) (config : GaugeConfig) : Meter Gauge where
  advance g := do
    let config ← config.advance now
    g.settle config.index
  amount := totalVotes
  put g votes := { g with totalVotes := votes }
  put_amount _ := rfl
  put_put _ _ _ := rfl
  amount_advance h := by
    obtain ⟨_, -, hsettle⟩ := bind_eq_ok.mp h
    exact (settle_ok hsettle).votes
  advance_again h votes := by
    obtain ⟨config', hadvance, hsettle⟩ := bind_eq_ok.mp h
    exact bind_ok hadvance (settle_again hsettle votes)

/-- A change of votes, by the gauge and the reactor that it brings together. -/
structure Vote (γ κ : Type) where
  gauge : γ
  voter : κ
  amount : Int

namespace Emission

/-- What a change of votes makes of the owner's votes for the pool. -/
def Turned {γ κ : Type} (p : PersonalGauge) (vote : Vote γ κ) (p' : PersonalGauge) : Prop :=
  p' = { p with votes := p'.votes } ∧ (p'.votes : ℤ) = p.votes + vote.amount

theorem turned_unique {γ κ : Type} {p p₁ p₂ : PersonalGauge} {vote : Vote γ κ} (h₁ : Turned p vote p₁)
    (h₂ : Turned p vote p₂) : p₁ = p₂ := by
  obtain ⟨heq₁, hvotes₁⟩ := h₁
  obtain ⟨heq₂, hvotes₂⟩ := h₂
  have hvotes : p₁.votes = p₂.votes := by omega
  rw [heq₁, heq₂, hvotes]

/-- A change of votes moves the config on and the gauge, by the index that the first one moved the config
to, and changes nothing of the reactor but its locks. -/
theorem changeVotes_net {now amount : Int} {start config : GaugeConfig} {gauge₀ gauge : Gauge}
    {locked₀ : ℕ} {personal : PersonalGauge} {reactor : Reactor} {out : VoteChange}
    {changes pool locks : List ℤ} (hconfig : (GaugeConfig.meter now).Net start changes config)
    (hgauge : (Gauge.meter now start).Net gauge₀ pool gauge)
    (hlocks : countMeter.Net locked₀ locks reactor.lockedVotes)
    (h : changeVotes now config gauge personal amount reactor = .ok out) :
    (GaugeConfig.meter now).Net start (amount :: changes) out.config ∧
      (Gauge.meter now start).Net gauge₀ (amount :: pool) out.gauge ∧
      countMeter.Net locked₀ (amount :: locks) out.reactor.lockedVotes ∧
      out.reactor.unlocked = reactor.unlocked := by
  have hvoted := changeVotes_ok h
  obtain ⟨synced, hsync, hput, hputg⟩ := hvoted.synced
  obtain ⟨hadvance, hsettle⟩ := syncPoolIndex_eq_ok.mp hsync
  have hlock := moveLock_ok hvoted.lock
  have hadvanceg : (Gauge.meter now start).advance gauge = .ok synced.gauge := by
    obtain ⟨first, hfirst, hmoved⟩ := hconfig.advance hadvance
    rw [hmoved] at hsettle
    exact bind_ok hfirst hsettle
  exact ⟨hconfig.step hadvance hput hvoted.globalVotes, hgauge.step hadvanceg hputg hvoted.poolVotes,
    hlocks.step rfl rfl hlock.locked, hlock.unlocked_eq⟩

end Emission

end EmissionLedger
