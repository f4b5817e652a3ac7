import EmissionLedger.Proofs.Timing.Net

/-!
Operations at one time may be made in any order. Each acts on a record of its own, a position, a reactor
or an owner's votes for a pool, and on records that it shares with the others; a reactor is also shared,
by its locks. What the operations leave of all records is known from what they were and from the records
before, so two orders differ only in whether all of them are answered: a withdrawal may have to wait for
a deposit.

Main statements: `Board.Net.play`, `Board.order_irrelevant`.
-/

namespace EmissionLedger

/-! ### All records -/

/-- The records that operations at one time act on: the tracker of a pool with its positions, the reactor
config with its reactors, and the gauge config with its gauges and the votes of all owners. -/
structure Board (ι κ γ π : Type) where
  tracker : TimeTracker
  positions : Table ι (Served PersonalPosition ℕ)
  stake : ReactorConfig
  reactors : Table κ (Served Reactor (ℕ × ℕ))
  emission : GaugeConfig
  gauges : Table γ Gauge
  pledges : Table π PersonalGauge

/-- An operation, by the record that is its own. -/
inductive BoardCall (ι κ γ π : Type) where
  | escrow (account : ι) (turn : Escrow.Turn)
  | stake (account : κ) (turn : Staking.Turn)
  | votes (account : π) (vote : Vote γ κ)

namespace BoardCall

variable {ι κ γ π : Type}

/-- The own record of an operation: a position, a reactor, or an owner's votes for a pool. -/
def own : BoardCall ι κ γ π → ι ⊕ κ ⊕ π
  | escrow account _ => .inl account
  | stake account _ => .inr (.inl account)
  | votes account _ => .inr (.inr account)

/-- The turns of positions. -/
def escrow? : BoardCall ι κ γ π → Option (ι × Escrow.Turn)
  | escrow account turn => some (account, turn)
  | _ => none

/-- The turns of reactors. -/
def stake? : BoardCall ι κ γ π → Option (κ × Staking.Turn)
  | stake account turn => some (account, turn)
  | _ => none

/-- The changes of votes. -/
def votes? : BoardCall ι κ γ π → Option (π × Vote γ κ)
  | votes account vote => some (account, vote)
  | _ => none

/-- What is no operation's own record has had no turn among those of one kind. -/
theorem not_turned {ν τ : Type} {select : BoardCall ι κ γ π → Option (ν × τ)} {inj : ν → ι ⊕ κ ⊕ π}
    (hselect : ∀ call k turn, select call = some (k, turn) → call.own = inj k)
    {done : List (BoardCall ι κ γ π)} {k : ν} (h : inj k ∉ done.map own) :
    k ∉ (done.filterMap select).map Prod.fst := by
  intro hk
  obtain ⟨⟨_, turn⟩, hmem, rfl⟩ := List.mem_map.mp hk
  obtain ⟨call, hcall, heq⟩ := List.mem_filterMap.mp hmem
  exact h (List.mem_map.mpr ⟨call, hcall, hselect call _ turn heq⟩)

theorem own_of_escrow (call : BoardCall ι κ γ π) (k : ι) (turn : Escrow.Turn)
    (h : call.escrow? = some (k, turn)) : call.own = .inl k := by
  cases call <;> cases h
  rfl

theorem own_of_stake (call : BoardCall ι κ γ π) (k : κ) (turn : Staking.Turn)
    (h : call.stake? = some (k, turn)) : call.own = .inr (.inl k) := by
  cases call <;> cases h
  rfl

theorem own_of_votes (call : BoardCall ι κ γ π) (k : π) (vote : Vote γ κ)
    (h : call.votes? = some (k, vote)) : call.own = .inr (.inr k) := by
  cases call <;> cases h
  rfl

end BoardCall

namespace Board

variable {ι κ γ π : Type} [DecidableEq ι] [DecidableEq κ] [DecidableEq γ] [DecidableEq π]

/-- The board after an answered operation at `now`. -/
def step (now : Int) (b : Board ι κ γ π) : BoardCall ι κ γ π → Option (Board ι κ γ π)
  | .escrow account turn => do
      let p ← b.positions.lookup account
      let out ← (turn.perform now b.tracker p.record).toOption
      return { b with
        tracker := out.timeTracker
        positions := b.positions.insert account ⟨out.position, out.transferAmount⟩ }
  | .stake account turn => do
      let r ← b.reactors.lookup account
      let out ← (turn.perform now b.stake r.record).toOption
      return { b with
        stake := out.config
        reactors := b.reactors.insert account ⟨out.reactor, out.transferAmount, out.isoRaySlashed⟩ }
  | .votes account vote => do
      let personal ← b.pledges.lookup account
      let gauge ← b.gauges.lookup vote.gauge
      let r ← b.reactors.lookup vote.voter
      let out ← (Emission.changeVotes now b.emission gauge personal vote.amount r.record).toOption
      return { b with
        emission := out.config
        gauges := b.gauges.insert vote.gauge out.gauge
        pledges := b.pledges.insert account out.personalGauge
        reactors := b.reactors.insert vote.voter { r with record := out.reactor } }

section Steps

variable {now : Int} {b b' : Board ι κ γ π}

theorem step_escrow {account : ι} {turn : Escrow.Turn} :
    b.step now (.escrow account turn) = some b' ↔
      ∃ p out, b.positions.lookup account = some p ∧ turn.perform now b.tracker p.record = .ok out ∧
        { b with
          tracker := out.timeTracker
          positions := b.positions.insert account ⟨out.position, out.transferAmount⟩ } = b' := by
  simp [step, Option.bind_eq_some_iff]

theorem step_stake {account : κ} {turn : Staking.Turn} :
    b.step now (.stake account turn) = some b' ↔
      ∃ r out, b.reactors.lookup account = some r ∧ turn.perform now b.stake r.record = .ok out ∧
        { b with
          stake := out.config
          reactors := b.reactors.insert account
            ⟨out.reactor, out.transferAmount, out.isoRaySlashed⟩ } = b' := by
  simp [step, Option.bind_eq_some_iff]

theorem step_votes {account : π} {vote : Vote γ κ} : b.step now (.votes account vote) = some b' ↔
    ∃ personal gauge r out, b.pledges.lookup account = some personal ∧
      b.gauges.lookup vote.gauge = some gauge ∧ b.reactors.lookup vote.voter = some r ∧
      Emission.changeVotes now b.emission gauge personal vote.amount r.record = .ok out ∧
      { b with
        emission := out.config
        gauges := b.gauges.insert vote.gauge out.gauge
        pledges := b.pledges.insert account out.personalGauge
        reactors := b.reactors.insert vote.voter { r with record := out.reactor } } = b' := by
  simp [step, Option.bind_eq_some_iff]

end Steps

/-- The board after operations at `now` that are all answered, one after another. -/
def play (now : Int) (b : Board ι κ γ π) (calls : List (BoardCall ι κ γ π)) : Option (Board ι κ γ π) :=
  calls.foldlM (step now) b

/-- The changes of votes that name a record by `k`. -/
def changesOf {α : Type} [DecidableEq α] (key : Vote γ κ → α) (votes : List (π × Vote γ κ)) (k : α) :
    List ℤ :=
  (votes.filter fun v => key v.2 = k).map (·.2.amount)

/-- A reactor but for its locks, with what its last turn moved. -/
def accountIn (reactors : Table κ (Served Reactor (ℕ × ℕ))) (k : κ) : Option (Served Reactor (ℕ × ℕ)) :=
  (reactors.lookup k).map fun r => { r with record := r.record.unlocked }

/-- The locks of a reactor. -/
def locksIn (reactors : Table κ (Served Reactor (ℕ × ℕ))) (k : κ) : Option ℕ :=
  (reactors.lookup k).map fun r => r.record.lockedVotes

/-- What operations leave of a board. -/
structure Net (now : Int) (start : Board ι κ γ π) (done : List (BoardCall ι κ γ π))
    (b : Board ι κ γ π) : Prop where
  tracker : (TimeTracker.meter now).Net start.tracker
    ((done.filterMap BoardCall.escrow?).map (·.2.change)) b.tracker
  positions : OwnNet (Escrow.Turned now start.tracker) (fun k => start.positions.lookup k)
    (done.filterMap BoardCall.escrow?) (fun k => b.positions.lookup k)
  stake : (ReactorConfig.meter now).Net start.stake
    ((done.filterMap BoardCall.stake?).map (·.2.change)) b.stake
  accounts : OwnNet (Staking.Turned now start.stake) (accountIn start.reactors)
    (done.filterMap BoardCall.stake?) (accountIn b.reactors)
  locks : countMeter.NetAll (locksIn start.reactors)
    (changesOf Vote.voter (done.filterMap BoardCall.votes?)) (locksIn b.reactors)
  emission : (GaugeConfig.meter now).Net start.emission
    ((done.filterMap BoardCall.votes?).map (·.2.amount)) b.emission
  gauges : (Gauge.meter now start.emission).NetAll (fun k => start.gauges.lookup k)
    (changesOf Vote.gauge (done.filterMap BoardCall.votes?)) (fun k => b.gauges.lookup k)
  pledges : OwnNet Emission.Turned (fun k => start.pledges.lookup k)
    (done.filterMap BoardCall.votes?) (fun k => b.pledges.lookup k)

variable {now : Int} {start b b' : Board ι κ γ π} {done : List (BoardCall ι κ γ π)}

section Reactors

variable {reactors reactors' : Table κ (Served Reactor (ℕ × ℕ))} {k : κ} {r r' : Served Reactor (ℕ × ℕ)}

theorem accountIn_insert : accountIn (reactors.insert k r) k =
    some { r with record := r.record.unlocked } := by
  rw [accountIn, Finmap.lookup_insert]
  rfl

theorem accountIn_insert_of_ne {x : κ} (h : x ≠ k) :
    accountIn (reactors.insert k r) x = accountIn reactors x := by
  rw [accountIn, Finmap.lookup_insert_of_ne _ h, accountIn]

theorem locksIn_insert : locksIn (reactors.insert k r) k = some r.record.lockedVotes := by
  rw [locksIn, Finmap.lookup_insert]
  rfl

theorem locksIn_insert_of_ne {x : κ} (h : x ≠ k) : locksIn (reactors.insert k r) x = locksIn reactors x := by
  rw [locksIn, Finmap.lookup_insert_of_ne _ h, locksIn]

/-- Locks are not part of an account. -/
theorem accountIn_insert_eq (hr : reactors.lookup k = some r) (hmoved : r'.moved = r.moved)
    (hsame : r'.record.unlocked = r.record.unlocked) :
    accountIn (reactors.insert k r') = accountIn reactors := by
  funext x
  by_cases hx : x = k
  · subst hx
    rw [accountIn_insert, accountIn, hr, hmoved, hsame]
    rfl
  · exact accountIn_insert_of_ne hx

theorem locksIn_insert_eq (hr : reactors.lookup k = some r)
    (hsame : r'.record.lockedVotes = r.record.lockedVotes) :
    locksIn (reactors.insert k r') = locksIn reactors := by
  funext x
  by_cases hx : x = k
  · subst hx
    rw [locksIn_insert, locksIn, hr, hsame]
    rfl
  · exact locksIn_insert_of_ne hx

/-- Reactors are known from their accounts and their locks. -/
theorem reactors_ext (haccount : accountIn reactors = accountIn reactors')
    (hlocks : locksIn reactors = locksIn reactors') : reactors = reactors' := by
  refine Finmap.ext_lookup fun k => ?_
  have ha := congrFun haccount k
  have hl := congrFun hlocks k
  rw [accountIn, accountIn] at ha
  rw [locksIn, locksIn] at hl
  cases hr : reactors.lookup k with
  | none =>
      rw [hr, Option.map_none, eq_comm, Option.map_eq_none_iff] at ha
      exact ha.symm
  | some r =>
      rw [hr, Option.map_some, eq_comm, Option.map_eq_some_iff] at ha hl
      obtain ⟨r', hr', hrecord⟩ := ha
      obtain ⟨_, hr'', hlocked⟩ := hl
      cases hr'.symm.trans hr''
      rw [Served.mk.injEq] at hrecord
      obtain ⟨record, moved⟩ := r
      obtain ⟨record', moved'⟩ := r'
      obtain rfl : record' = record := Reactor.eq_of_unlocked hrecord.1 hlocked
      obtain rfl : moved' = moved := hrecord.2
      exact hr'.symm

end Reactors

theorem net_start (now : Int) (start : Board ι κ γ π) : start.Net now [] start :=
  ⟨.none, .nil, .none, .nil, .nil, .none, .nil, .nil⟩

omit [DecidableEq ι] [DecidableEq κ] [DecidableEq γ] [DecidableEq π] in
theorem changesOf_cons {α : Type} [DecidableEq α] (key : Vote γ κ → α) (account : π) (vote : Vote γ κ)
    (votes : List (π × Vote γ κ)) : changesOf key ((account, vote) :: votes) =
      fun k => if key vote = k then vote.amount :: changesOf key votes k else changesOf key votes k := by
  funext k
  by_cases hk : key vote = k
  · simp [changesOf, hk]
  · simp [changesOf, hk]

theorem Net.escrow (hnet : start.Net now done b) {account : ι} {turn : Escrow.Turn}
    (hown : .inl account ∉ done.map BoardCall.own) (h : b.step now (.escrow account turn) = some b') :
    start.Net now (.escrow account turn :: done) b' := by
  obtain ⟨p, out, hp, hout, rfl⟩ := step_escrow.mp h
  have hfirst := BoardCall.not_turned BoardCall.own_of_escrow hown
  obtain ⟨htracker, hturned⟩ := Escrow.perform_net hnet.tracker hout
  refine ⟨htracker, ?_, hnet.stake, hnet.accounts, hnet.locks, hnet.emission, hnet.gauges, hnet.pledges⟩
  exact hnet.positions.step hfirst hp hturned (Finmap.lookup_insert _)
    fun x hx => Finmap.lookup_insert_of_ne _ hx

theorem Net.stakeTurn (hnet : start.Net now done b) {k : κ} {turn : Staking.Turn}
    (hown : .inr (.inl k) ∉ done.map BoardCall.own) (h : b.step now (.stake k turn) = some b') :
    start.Net now (.stake k turn :: done) b' := by
  obtain ⟨r, out, hr, hout, rfl⟩ := step_stake.mp h
  have hfirst := BoardCall.not_turned BoardCall.own_of_stake hown
  obtain ⟨hstake, hturned, hlocked⟩ := Staking.perform_net hnet.stake hout
  have hfound : accountIn b.reactors k = some { r with record := r.record.unlocked } := by
    rw [accountIn, hr]
    rfl
  refine ⟨hnet.tracker, hnet.positions, hstake, ?_, ?_, hnet.emission, hnet.gauges, hnet.pledges⟩
  · exact hnet.accounts.step hfirst hfound hturned accountIn_insert fun x hx => accountIn_insert_of_ne hx
  · rw [locksIn_insert_eq hr hlocked]
    exact hnet.locks

theorem Net.votesTurn (hnet : start.Net now done b) {k : π} {vote : Vote γ κ}
    (hown : .inr (.inr k) ∉ done.map BoardCall.own) (h : b.step now (.votes k vote) = some b') :
    start.Net now (.votes k vote :: done) b' := by
  obtain ⟨personal, gauge, r, out, hp, hg, hr, hout, rfl⟩ := step_votes.mp h
  have hfirst := BoardCall.not_turned BoardCall.own_of_votes hown
  have hfound : locksIn b.reactors vote.voter = some r.record.lockedVotes := by
    rw [locksIn, hr]
    rfl
  obtain ⟨gauge₀, hg₀, hgauge⟩ := hnet.gauges.found hg
  obtain ⟨locked₀, hlocked₀, hlocked⟩ := hnet.locks.found hfound
  obtain ⟨hemission, hgauge', hlocked', hsame⟩ :=
    Emission.changeVotes_net hnet.emission hgauge hlocked hout
  have hvoted := Emission.changeVotes_ok hout
  refine ⟨hnet.tracker, hnet.positions, hnet.stake, ?_, ?_, hemission, ?_, ?_⟩
  · have hkept : accountIn (b.reactors.insert vote.voter { r with record := out.reactor }) =
        accountIn b.reactors := accountIn_insert_eq hr rfl hsame
    rw [hkept]
    exact hnet.accounts
  · show countMeter.NetAll _ (changesOf Vote.voter ((k, vote) :: done.filterMap BoardCall.votes?)) _
    rw [changesOf_cons]
    exact hnet.locks.step hlocked₀ hlocked' locksIn_insert fun x hx => locksIn_insert_of_ne hx
  · show (Gauge.meter now start.emission).NetAll _
      (changesOf Vote.gauge ((k, vote) :: done.filterMap BoardCall.votes?)) _
    rw [changesOf_cons]
    exact hnet.gauges.step hg₀ hgauge' (Finmap.lookup_insert _)
      fun x hx => Finmap.lookup_insert_of_ne _ hx
  · exact hnet.pledges.step hfirst hp ⟨hvoted.personalGauge, hvoted.votes⟩ (Finmap.lookup_insert _)
      fun x hx => Finmap.lookup_insert_of_ne _ hx

theorem Net.step (hnet : start.Net now done b) {call : BoardCall ι κ γ π}
    (hown : call.own ∉ done.map BoardCall.own) (h : b.step now call = some b') :
    start.Net now (call :: done) b' := by
  cases call with
  | escrow account turn => exact hnet.escrow hown h
  | stake account turn => exact hnet.stakeTurn hown h
  | votes account vote => exact hnet.votesTurn hown h

/-- Operations whose own records are different leave what is known from them. -/
theorem Net.play {calls : List (BoardCall ι κ γ π)} (hnet : start.Net now done b)
    (hown : ((calls ++ done).map BoardCall.own).Nodup) (h : b.play now calls = some b') :
    ∃ all, all.Perm (calls ++ done) ∧ start.Net now all b' := by
  induction calls generalizing b done with
  | nil =>
      cases h
      exact ⟨done, .refl _, hnet⟩
  | cons call rest ih =>
      obtain ⟨next, hstep, hrest⟩ := foldlM_cons_eq_some.mp h
      have hmiddle : (call :: rest ++ done).Perm (rest ++ call :: done) := List.perm_middle.symm
      have hown' : ((rest ++ call :: done).map BoardCall.own).Nodup :=
        (hmiddle.map BoardCall.own).nodup_iff.mp hown
      have hfirst : call.own ∉ done.map BoardCall.own := by
        intro hk
        rw [List.cons_append, List.map_cons, List.nodup_cons, List.map_append] at hown
        exact hown.1 (List.mem_append_right _ hk)
      obtain ⟨all, hall, hnet'⟩ := ih (hnet.step hfirst hstep) hown' hrest
      exact ⟨all, hall.trans hmiddle.symm, hnet'⟩

theorem Net.unique {done' : List (BoardCall ι κ γ π)} (hperm : done.Perm done')
    (h : start.Net now done b) (h' : start.Net now done' b') : b = b' := by
  have hescrow := hperm.filterMap BoardCall.escrow?
  have hstake := hperm.filterMap BoardCall.stake?
  have hvotes := hperm.filterMap BoardCall.votes?
  have hchanges {α : Type} [DecidableEq α] (key : Vote γ κ → α) (k : α) :
      (changesOf key (done.filterMap BoardCall.votes?) k).Perm
        (changesOf key (done'.filterMap BoardCall.votes?) k) := (hvotes.filter _).map _
  have hpositions := h.positions.unique h'.positions hescrow Escrow.turned_unique
  have haccounts := h.accounts.unique h'.accounts hstake Staking.turned_unique
  have hlocks := h.locks.unique (hchanges _) h'.locks
  have hgauges := h.gauges.unique (hchanges _) h'.gauges
  have hpledges := h.pledges.unique h'.pledges hvotes Emission.turned_unique
  have htracker := h.tracker.unique (hescrow.map _) h'.tracker
  have hstaked := h.stake.unique (hstake.map _) h'.stake
  have hemission := h.emission.unique (hvotes.map _) h'.emission
  obtain ⟨tracker, positions, stake, reactors, emission, gauges, pledges⟩ := b
  obtain ⟨tracker', positions', stake', reactors', emission', gauges', pledges'⟩ := b'
  obtain rfl : tracker = tracker' := htracker
  obtain rfl : positions = positions' := Finmap.ext_lookup (congrFun hpositions)
  obtain rfl : stake = stake' := hstaked
  obtain rfl : reactors = reactors' := reactors_ext haccounts hlocks
  obtain rfl : emission = emission' := hemission
  obtain rfl : gauges = gauges' := Finmap.ext_lookup (congrFun hgauges)
  obtain rfl : pledges = pledges' := Finmap.ext_lookup (congrFun hpledges)
  rfl

/-- **Order.** Operations at one time, each on its own position, reactor or votes for a pool, leave the
same records and have moved and slashed the same amounts in any two orders in which all of them are
answered. -/
theorem order_irrelevant (now : Int) (start : Board ι κ γ π) {calls calls' : List (BoardCall ι κ γ π)}
    (hperm : calls.Perm calls') (hown : (calls.map BoardCall.own).Nodup) {b b' : Board ι κ γ π}
    (h : start.play now calls = some b) (h' : start.play now calls' = some b') : b = b' := by
  have hown' : (calls'.map BoardCall.own).Nodup := (hperm.map _).nodup_iff.mp hown
  obtain ⟨all, hall, hnet⟩ := (net_start now start).play (by rwa [List.append_nil]) h
  obtain ⟨all', hall', hnet'⟩ := (net_start now start).play (by rwa [List.append_nil]) h'
  rw [List.append_nil] at hall hall'
  exact hnet.unique (hall.trans (hperm.trans hall'.symm)) hnet'

/-- After a day a deposit and a withdrawal share the tracker, a withdrawal and a deposit the stake, and
three changes of votes share a gauge or a reactor. -/
theorem order_irrelevant_day :
    let other : Address := ⟨String.ofList (List.replicate 64 '1'), by decide⟩
    let position (amount : ℕ) : Served PersonalPosition ℕ := ⟨⟨.zero, .zero, amount, .zero, .zero⟩, 0⟩
    let reactor (owner : Address) : Served Reactor (ℕ × ℕ) :=
      ⟨⟨owner, 10, 0, 0, .zero, ⟨.zero, 0⟩⟩, 0, 0⟩
    let pledges : Table ℕ PersonalGauge := ((Finmap.insert 0 ⟨.zero, .zero, 0⟩ ∅).insert 1
      ⟨.zero, other, 0⟩).insert 2 ⟨other, .zero, 0⟩
    let start : Board ℕ ℕ ℕ ℕ :=
      { tracker := ⟨.zero, .zero, .zero, 3, 0⟩
        positions := (Finmap.insert 0 (position 1) ∅).insert 1 (position 2)
        stake := ⟨20, 86400, .zero, 10000, .zero, 0⟩
        reactors := (Finmap.insert 0 (reactor .zero) ∅).insert 1 (reactor other)
        emission := ⟨2, 86400, .zero, 0⟩
        gauges := (Finmap.insert 0 ⟨.zero, 1, .zero, 0⟩ ∅).insert 1 ⟨other, 1, .zero, 0⟩
        pledges }
    let calls : List (BoardCall ℕ ℕ ℕ ℕ) :=
      [.escrow 0 (.deposit 5), .escrow 1 (.withdraw 2), .stake 0 (.withdraw 3), .stake 1 (.deposit 4),
        .votes 0 ⟨0, 0, 2⟩, .votes 1 ⟨1, 0, 1⟩, .votes 2 ⟨0, 1, 4⟩]
    calls.Perm calls.reverse ∧ (calls.map BoardCall.own).Nodup ∧
      ∃ b, start.play 86400 calls = some b ∧ start.play 86400 calls.reverse = some b ∧
        b.tracker.totalLpDeposited = 6 := by
  intro other position reactor pledges start calls
  have hperm : calls.Perm calls.reverse := (List.reverse_perm calls).symm
  have hown : (calls.map BoardCall.own).Nodup := by decide
  obtain ⟨b, hb, htotal⟩ := Option.map_eq_some_iff.mp (show
    (start.play 86400 calls).map (·.tracker.totalLpDeposited) = some 6 by decide +kernel)
  obtain ⟨b', hb'⟩ := Option.isSome_iff_exists.mp (show
    (start.play 86400 calls.reverse).isSome by decide +kernel)
  obtain rfl : b = b' := order_irrelevant 86400 start hperm hown hb hb'
  exact ⟨hperm, hown, b, hb, hb', htotal⟩

end Board

end EmissionLedger
