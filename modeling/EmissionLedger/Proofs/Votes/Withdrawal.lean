import EmissionLedger.Proofs.Escrow.Withdrawal
import EmissionLedger.Proofs.Staking.Earnings
import EmissionLedger.Proofs.Staking.Withdrawal
import EmissionLedger.Proofs.Votes.Consistency

/-!
Nobody's tokens are stuck. An owner who wants to leave takes back the votes for one pool after the
other and then takes out all RAY. What was pledged is there on every level, so votes can always be taken
back; a config that was moved on stays where it is when the next pool is settled at the same time; and
when no votes are pledged any more, none are locked.

Main statement: tokens can be taken out of the escrow at any time, and an owner whose reactor and pools
can be settled can leave (`no_stuck_funds`).
-/

namespace EmissionLedger

/-! ### Settling twice at one time -/

theorem GaugeConfig.advance_again {c c' : GaugeConfig} {now : Int} (h : c.advance now = .ok c')
    (votes : ℕ) : ({ c' with totalVotes := votes } : GaugeConfig).advance now =
      .ok { c' with totalVotes := votes } := by
  obtain ⟨elapsed, -, hadv⟩ := advance_ok h
  have hts := ts_of_advance h
  simp only [advance, bind_eq_ok] at h ⊢
  obtain ⟨rate, hrate, -⟩ := h
  rw [← hadv.emission] at hrate
  refine ⟨rate, hrate, ⟨c'.index, now, 0, .zero⟩, ?_, if_pos rfl⟩
  rw [hts]
  exact advanceSharedIndex_still _ _ _ _ _

namespace Emission

variable {now : Int} {config : GaugeConfig} {gauge other : Gauge} {synced synced' : Synced}

/-- A pool that could be settled still can after another one was, at the same time. -/
theorem syncPoolIndex_again (h : syncPoolIndex now config gauge = .ok synced)
    (hother : syncPoolIndex now config other = .ok synced') (votes : ℕ) :
    ∃ out, syncPoolIndex now { synced.config with totalVotes := votes } other = .ok out := by
  obtain ⟨hadvance, -⟩ := syncPoolIndex_eq_ok.mp h
  obtain ⟨hadvance', hsettle⟩ := syncPoolIndex_eq_ok.mp hother
  have hconfig : synced.config = synced'.config := Except.ok.inj (hadvance.symm.trans hadvance')
  rw [← hconfig] at hsettle
  exact bind_answered (GaugeConfig.advance_again hadvance votes) (bind_answered hsettle ⟨_, rfl⟩)

theorem moveLock_answered {reactor : Reactor} {votes : ℕ} (hlocked : votes ≤ reactor.lockedVotes)
    (hfits : votes ≤ maxU64) : ∃ reactor', moveLock reactor (-votes) = .ok reactor' := by
  rw [moveLock, if_neg (by omega)]
  split
  · rw [neg_neg]
    apply bind_answered (requireU64_eq_ok.mpr ⟨hfits, rfl⟩)
    rw [if_neg (not_lt.mpr hlocked)]
    exact bind_answered (Counter.sub_eq_ok.mpr (Nat.sub_add_cancel hlocked)) ⟨_, rfl⟩
  · exact ⟨_, rfl⟩

/-- Votes that are there on every level can be taken back when the pool can be settled. -/
theorem changeVotes_answered {personal : PersonalGauge} {reactor : Reactor}
    (hlink : personal.poolGauge = gauge.poolId) (howner : reactor.owner = personal.owner)
    (hlocked : personal.votes ≤ reactor.lockedVotes) (hpool : personal.votes ≤ gauge.totalVotes)
    (hglobal : gauge.totalVotes ≤ config.totalVotes) (hfits : config.totalVotes ≤ maxU64)
    (hvotes : personal.votes ≤ 2 ^ 63) (hsync : syncPoolIndex now config gauge = .ok synced) :
    ∃ out, changeVotes now config gauge personal (-personal.votes) reactor = .ok out := by
  have hi64 : requireI64 "amount" (-personal.votes) = .ok (-personal.votes) := by
    have hmin : minI64 = -2 ^ 63 := rfl
    have hmax : maxI64 = 2 ^ 63 - 1 := rfl
    rw [requireI64, if_neg (by omega)]
  have hlinks : checkLinks gauge personal reactor = .ok () := by
    rw [checkLinks, if_neg (not_not.mpr hlink), if_neg (not_not.mpr howner)]
  have hpledge : checkPledge personal reactor (-personal.votes) = .ok () := by
    rw [checkPledge, if_neg (by omega), if_neg (by omega)]
  obtain ⟨reactor', hlock⟩ := moveLock_answered hlocked (by omega)
  obtain ⟨⟨_, -, hadv⟩, hset⟩ := syncPoolIndex_ok hsync
  have hconfig := hadv.votes
  have hgauge := hset.votes
  obtain ⟨total, htotal⟩ := Counter.change_answered "total_votes"
    (show personal.votes ≤ synced.config.totalVotes by omega) (by omega)
  obtain ⟨pool, hpool⟩ := Counter.change_answered "pool votes"
    (show personal.votes ≤ synced.gauge.totalVotes by omega) (by omega)
  obtain ⟨votes, hvotes⟩ := Counter.change_answered "personal votes" (Nat.le_refl personal.votes)
    (by omega)
  apply bind_answered hi64
  apply bind_answered hlinks
  apply bind_answered hpledge
  apply bind_answered hlock
  apply bind_answered hsync
  apply bind_answered htotal
  apply bind_answered hpool
  exact bind_answered hvotes ⟨_, rfl⟩

end Emission

/-! ### The standing of a book -/

/-- A total of votes that is added to is checked, and it only shrinks otherwise. -/
theorem GaugeBook.total_le_of_step {ι : Type} [DecidableEq ι] {book book' : GaugeBook ι}
    {call : GaugeCall ι} (h : book.step call = some book') (hle : book.config.totalVotes ≤ maxU64) :
    book'.config.totalVotes ≤ maxU64 := by
  obtain ⟨out, hout, rfl⟩ := step_eq_some.mp h
  cases call with
  | initPool now account poolId =>
      obtain ⟨-, hinit⟩ := answer_initPool.mp hout
      obtain ⟨_, -, hadv⟩ := GaugeConfig.advance_ok (Emission.initPoolGauge_ok hinit).1
      exact hadv.votes.trans_le hle
  | sync now account =>
      obtain ⟨gauge, -, hsync⟩ := answer_sync.mp hout
      obtain ⟨⟨_, -, hadv⟩, -⟩ := Emission.syncPoolIndex_ok hsync
      exact hadv.votes.trans_le hle
  | changeVotes now account personal amount reactor =>
      obtain ⟨gauge, change, -, hchange, rfl⟩ := answer_changeVotes.mp hout
      simp only [Emission.changeVotes, bind_eq_ok, pure_eq_ok] at hchange
      obtain ⟨_, -, _, -, _, -, _, -, synced, hsync, total, htotal, _, -, _, -, rfl⟩ := hchange
      obtain ⟨⟨_, -, hadv⟩, -⟩ := Emission.syncPoolIndex_ok hsync
      exact Counter.change_le htotal (hadv.votes.trans_le hle)

namespace VoteBook

/-- The votes that an owner has pledged to a pool. -/
def votesOn (book : VoteBook) (owner pool : Address) : ℕ :=
  book.pledges.valueAt PersonalGauge.votes (owner, pool)

/-- What holds in every state that can be reached: votes add up and stake adds up, a pledge stands under
the owner and the pool that it names, and the total of votes is a 64-bit number. -/
structure Orderly (book : VoteBook) : Prop where
  consistent : book.Consistent
  stake : book.stake.Balanced
  keyed : ∀ key p, book.pledges.lookup key = some p → p.owner = key.1 ∧ p.poolGauge = key.2
  total : ∀ emission, book.emission = some emission → emission.config.totalVotes ≤ maxU64

variable {book book' : VoteBook} {call : VoteCall}

theorem orderly_start {config : ReactorConfig} (h : config.totalRayDeposited = 0) :
    (start config).Orderly := by
  refine ⟨consistent_start config, StakeBook.balanced_start h, ?_, ?_⟩
  · intro key p hp
    cases hp
  · intro emission he
    cases he

theorem Orderly.step (ho : book.Orderly) (h : book.step call = some book') : book'.Orderly := by
  have hconsistent := ho.consistent.step h
  cases call with
  | stake call =>
      obtain ⟨stake, hstep, rfl⟩ := step_stake.mp h
      have hcall : book.stake.reactorStep (.stake call) = some stake := hstep
      exact ⟨hconsistent, ho.stake.step hcall, ho.keyed, ho.total⟩
  | initGaugeConfig settings now =>
      obtain ⟨-, config, hinit, rfl⟩ := step_initGaugeConfig.mp h
      refine ⟨hconsistent, ho.stake, ho.keyed, ?_⟩
      rintro _ ⟨⟩
      exact (Emission.initGaugeConfig_ok hinit).2.1.trans_le (Nat.zero_le _)
  | initPool now pool =>
      obtain ⟨e, e', he, hstep, rfl⟩ := step_initPool.mp h
      refine ⟨hconsistent, ho.stake, ho.keyed, ?_⟩
      rintro _ ⟨⟩
      exact GaugeBook.total_le_of_step hstep (ho.total e he)
  | sync now pool =>
      obtain ⟨e, e', he, hstep, rfl⟩ := step_sync.mp h
      refine ⟨hconsistent, ho.stake, ho.keyed, ?_⟩
      rintro _ ⟨⟩
      exact GaugeBook.total_le_of_step hstep (ho.total e he)
  | initPersonalGauge owner pool =>
      obtain ⟨e, gauge, he, hg, -, rfl⟩ := step_initPersonalGauge.mp h
      refine ⟨hconsistent, ho.stake, Table.forall_insert ho.keyed ⟨rfl, ?_⟩, ho.total⟩
      exact (ho.consistent.emission e he).2 pool gauge hg
  | changeVotes now pool pledge staker amount =>
      obtain ⟨e, gauge, personal, reactor, out, he, hg, hp, hr, hout, rfl⟩ := step_changeVotes.mp h
      have hvoted := Emission.changeVotes_ok hout
      have hlock := Emission.moveLock_ok hvoted.lock
      refine ⟨hconsistent, ho.stake.insert hr hlock.moved, ?_, ?_⟩
      · refine Table.forall_insert ho.keyed ?_
        rw [hvoted.personalGauge]
        exact ho.keyed pledge personal hp
      · rintro _ ⟨⟩
        exact GaugeBook.total_le_of_step (GaugeBook.step_changeVotes hg hout) (ho.total e he)

theorem orderly_run {config : ReactorConfig} (h : config.totalRayDeposited = 0)
    (calls : List VoteCall) : (run step (start config) calls).Orderly :=
  run_invariant (fun _ _ _ ho hs => ho.step hs) calls (orderly_start h)

theorem Orderly.pledgedBy_eq_zero (ho : book.Orderly) {owner : Address}
    (h : ∀ pool, book.votesOn owner pool = 0) : book.pledgedBy owner = 0 := by
  unfold pledgedBy pledged
  refine (Table.total_congr _ ?_).trans (Table.total_zero book.pledges)
  rintro ⟨o, pool⟩ p hp
  split
  · rename_i howner
    obtain ⟨hkey, -⟩ := ho.keyed _ p hp
    dsimp only at hkey
    have hvotes := h pool
    rw [votesOn, ← howner, hkey, Table.valueAt_of_lookup hp] at hvotes
    exact hvotes
  · rfl

/-! ### Leaving -/

theorem step_sync_isSome {now : Int} {pool : Address} : (book.step (.sync now pool)).isSome ↔
    ∃ e gauge synced, book.emission = some e ∧ e.gauges.lookup pool = some gauge ∧
      Emission.syncPoolIndex now e.config gauge = .ok synced := by
  rw [Option.isSome_iff_exists]
  constructor
  · rintro ⟨_, hstep⟩
    obtain ⟨e, _, he, hemission, -⟩ := step_sync.mp hstep
    obtain ⟨synced, hanswer, -⟩ := GaugeBook.step_eq_some.mp hemission
    obtain ⟨gauge, hg, hsync⟩ := GaugeBook.answer_sync.mp hanswer
    exact ⟨e, gauge, synced, he, hg, hsync⟩
  · rintro ⟨e, gauge, synced, he, hg, hsync⟩
    exact ⟨_, step_sync.mpr ⟨e, _, he, GaugeBook.step_sync hg hsync, rfl⟩⟩

theorem step_stakeSync_isSome {now : Int} {owner : Address} :
    (book.step (.stake (.sync now owner))).isSome ↔
      ∃ r out, book.stake.reactors.lookup owner = some r ∧
        Staking.syncReactor now book.stake.config r = .ok out := by
  rw [Option.isSome_iff_exists]
  constructor
  · rintro ⟨_, hstep⟩
    obtain ⟨_, hstake, -⟩ := step_stake.mp hstep
    obtain ⟨_, _, hanswer, -⟩ := StakeBook.step_eq_some.mp hstake
    obtain ⟨r, out, hr, hsync, -⟩ := StakeBook.answer_sync.mp hanswer
    exact ⟨r, out, hr, hsync⟩
  · rintro ⟨r, out, hr, hsync⟩
    have hanswer := StakeBook.answer_sync.mpr ⟨r, out, hr, hsync, rfl, rfl⟩
    exact ⟨_, step_stake.mpr ⟨_, StakeBook.step_eq_some.mpr ⟨_, _, hanswer, rfl⟩, rfl⟩⟩

/-- The calls by which an owner leaves: all votes are taken back, pool by pool, and then all RAY is taken
out. -/
def exitCalls (book : VoteBook) (now : Int) (owner : Address) (pools : List Address) : List VoteCall :=
  pools.map (fun pool => .changeVotes now pool (owner, pool) owner (-book.votesOn owner pool)) ++
    [.stake (.withdraw now owner (book.stake.rayOf owner))]

/-- An owner is on the way out: votes are left on some pools only, these pools and the reactor can be
settled, and the RAY is still staked. -/
structure Leaving (now : Int) (owner : Address) (votes : Address → ℕ) (ray : ℕ)
    (pools : List Address) (book : VoteBook) : Prop where
  orderly : book.Orderly
  nodup : pools.Nodup
  pledged : ∀ pool ∈ pools, ∃ p, book.pledges.lookup (owner, pool) = some p ∧ p.votes = votes pool
  fits : ∀ pool ∈ pools, votes pool ≤ 2 ^ 63
  settled : ∀ pool ∈ pools, (book.step (.sync now pool)).isSome
  others : ∀ pool, pool ∉ pools → book.votesOn owner pool = 0
  staked : book.stake.rayOf owner = ray
  stake : (book.step (.stake (.sync now owner))).isSome

variable {now : Int} {owner pool : Address} {votes : Address → ℕ} {ray : ℕ} {pools : List Address}

theorem Leaving.takeBack (h : Leaving now owner votes ray (pool :: pools) book) :
    ∃ book', book.step (.changeVotes now pool (owner, pool) owner (-votes pool)) = some book' ∧
      Leaving now owner votes ray pools book' := by
  obtain ⟨hnew, hnodup⟩ := List.nodup_cons.mp h.nodup
  obtain ⟨p, hp, hvotes⟩ := h.pledged pool List.mem_cons_self
  obtain ⟨e, gauge, synced, he, hg, hsync⟩ := step_sync_isSome.mp (h.settled pool List.mem_cons_self)
  obtain ⟨r, _, hr, hstake⟩ := step_stakeSync_isSome.mp h.stake
  have hc := h.orderly.consistent
  have hkeyed : gauge.poolId = pool := (hc.emission e he).2 pool gauge hg
  obtain ⟨howner, hpool⟩ := h.orderly.keyed _ p hp
  dsimp only at howner hpool
  obtain ⟨out, hout⟩ := Emission.changeVotes_answered (hpool.trans hkeyed.symm)
    ((hc.stake owner r hr).1.trans howner.symm) (hc.votes_le_locked hp (howner ▸ hr))
    (hc.votes_le_gauge he hp (hpool ▸ hg)) (hc.gauge_le_total he hg) (h.orderly.total e he)
    (hvotes ▸ h.fits pool List.mem_cons_self) hsync
  have hstep : book.step (.changeVotes now pool (owner, pool) owner (-votes pool)) =
      some (book.commit e pool (owner, pool) owner out) := by
    rw [← hvotes]
    exact step_changeVotes.mpr ⟨e, gauge, p, r, out, he, hg, hp, hr, hout, rfl⟩
  have hvoted := Emission.changeVotes_ok hout
  have hreactor := (Emission.moveLock_ok hvoted.lock).reactor
  obtain ⟨_, hsettled, hconfig, -⟩ := hvoted.synced
  cases hsync.symm.trans hsettled
  have hother : ∀ {q}, q ≠ pool → ¬(owner, q) = (owner, pool) :=
    fun hne heq => hne (Prod.mk.inj heq).2
  refine ⟨_, hstep, h.orderly.step hstep, hnodup, ?_, ?_, ?_, ?_, ?_, ?_⟩
  · -- the pledges to the other pools are still there
    intro q hq
    obtain ⟨p', hp', hvotes'⟩ := h.pledged q (List.mem_cons_of_mem _ hq)
    have hne : q ≠ pool := fun heq => hnew (heq ▸ hq)
    exact ⟨p', (Finmap.lookup_insert_of_ne _ (hother hne)).trans hp', hvotes'⟩
  · intro q hq
    exact h.fits q (List.mem_cons_of_mem _ hq)
  · -- the config stands at this time already, so the other pools are settled as before
    intro q hq
    obtain ⟨e₂, gauge', _, he₂, hg', hsync'⟩ :=
      step_sync_isSome.mp (h.settled q (List.mem_cons_of_mem _ hq))
    cases he.symm.trans he₂
    have hne : q ≠ pool := fun heq => hnew (heq ▸ hq)
    obtain ⟨again, hagain⟩ := Emission.syncPoolIndex_again hsync hsync' out.config.totalVotes
    rw [← hconfig] at hagain
    exact step_sync_isSome.mpr
      ⟨_, gauge', again, rfl, (Finmap.lookup_insert_of_ne _ hne).trans hg', hagain⟩
  · intro q hq
    by_cases heq : q = pool
    · subst heq
      have hnone : out.personalGauge.votes = 0 := by
        have hchange := hvoted.votes
        omega
      exact Table.valueAt_insert_self.trans hnone
    · have hold := h.others q (List.not_mem_cons_of_ne_of_not_mem heq hq)
      exact (Table.valueAt_insert_of_ne (hother heq)).trans hold
  · have hray : out.reactor.ray = r.ray := by rw [hreactor]
    rw [← h.staked]
    exact (Table.valueAt_insert_self.trans hray).trans (Table.valueAt_of_lookup hr).symm
  · obtain ⟨_, hstake'⟩ := Staking.syncReactor_relocked hstake out.reactor.lockedVotes
    rw [← hreactor] at hstake'
    exact step_stakeSync_isSome.mpr ⟨out.reactor, _, Finmap.lookup_insert _, hstake'⟩

theorem Leaving.withdraw (h : Leaving now owner votes ray [] book) :
    ∃ last r, book.step (.stake (.withdraw now owner ray)) = some last ∧
      last.stake.reactors.lookup owner = some r ∧ r.ray = 0 ∧ r.isoRay = 0 ∧ r.lockedVotes = 0 := by
  obtain ⟨r, _, hr, hstake⟩ := step_stakeSync_isSome.mp h.stake
  have hfree : r.lockedVotes = 0 := by
    have hlocked := h.orderly.consistent.locked owner
    rw [StakeBook.lockedOf, hr, Option.elim_some] at hlocked
    exact hlocked.trans (h.orderly.pledgedBy_eq_zero fun pool => h.others pool List.not_mem_nil)
  have htotal : r.ray ≤ book.stake.config.totalRayDeposited := by
    rw [h.orderly.stake.total]
    exact Table.le_total (f := fun _ r => r.ray) hr fun _ _ _ => Nat.zero_le _
  obtain ⟨out, hout, hleft⟩ :=
    Staking.withdrawRay_all hstake hfree (h.orderly.stake.bare owner r hr) htotal
  have hray : book.stake.rayOf owner = r.ray := Table.valueAt_of_lookup hr
  let stake : StakeBook := ⟨out.config, book.stake.reactors.insert owner out.reactor⟩
  have hanswer := StakeBook.answer_withdraw.mpr ⟨r, out, hr, hout, rfl, rfl⟩
  have hstep : book.stake.step (.withdraw now owner r.ray) = some stake :=
    StakeBook.step_eq_some.mpr ⟨_, _, hanswer, rfl⟩
  refine ⟨{ book with stake }, out.reactor, ?_, Finmap.lookup_insert _, hleft⟩
  rw [← h.staked, hray]
  exact step_stake.mpr ⟨stake, hstep, rfl⟩

theorem Leaving.exit (h : Leaving now owner votes ray pools book) :
    ∃ last r, List.foldlM step book (pools.map (fun pool => .changeVotes now pool (owner, pool) owner
        (-votes pool)) ++ [.stake (.withdraw now owner ray)]) = some last ∧
      last.stake.reactors.lookup owner = some r ∧ r.ray = 0 ∧ r.isoRay = 0 ∧ r.lockedVotes = 0 := by
  induction pools generalizing book with
  | nil =>
      obtain ⟨last, r, hstep, hleft⟩ := h.withdraw
      exact ⟨last, r, foldlM_cons_eq_some.mpr ⟨last, hstep, rfl⟩, hleft⟩
  | cons pool rest ih =>
      obtain ⟨book', hstep, hleaving⟩ := h.takeBack
      obtain ⟨last, r, hrun, hleft⟩ := ih hleaving
      exact ⟨last, r, foldlM_cons_eq_some.mpr ⟨book', hstep, hrun⟩, hleft⟩

end VoteBook

/-! ### No stuck funds -/

/-- **No stuck funds.** After every run of the escrow, what a position holds can be taken out at any time
from the tracker's on that fits 64 bits, and as much is paid as the position loses. After every run of the
stake and the votes, an owner whose reactor and pools can be settled can leave: the votes for all pools
can be taken back in any order, at most `2 ^ 63` of them on each, then all RAY can be taken out, and
neither RAY nor isoRAY nor a locked vote is left. -/
theorem no_stuck_funds {ι : Type} [DecidableEq ι] :
    (∀ start poolId escrowAccount tracker,
        Escrow.initTimeTracker start poolId escrowAccount = .ok tracker →
        ∀ (calls : List (EscrowCall ι)) (account : ι) (p : PersonalPosition),
          let book := run EscrowBook.step ⟨tracker, ∅⟩ calls
          book.positions.lookup account = some p →
          ∀ now amount : ℕ, book.tracker.lastSeenTs ≤ now → now ≤ maxU64 → amount ≤ p.amount →
            ∃ out, Escrow.withdraw now book.tracker p amount = .ok out ∧
              out.transferAmount = amount ∧ out.position.amount + amount = p.amount) ∧
      ∀ settings start config, Staking.initReactorConfig settings start = .ok config →
        ∀ (calls : List VoteCall) (owner : Address) (pools : List Address) (now : Int),
          let book := run VoteBook.step (VoteBook.start config) calls
          pools.Nodup →
          (∀ pool, book.votesOn owner pool ≠ 0 → pool ∈ pools) →
          (∀ pool ∈ pools, (owner, pool) ∈ book.pledges ∧ book.votesOn owner pool ≤ 2 ^ 63 ∧
            (book.step (.sync now pool)).isSome) →
          (book.step (.stake (.sync now owner))).isSome →
          ∃ last r, (book.exitCalls now owner pools).foldlM VoteBook.step book = some last ∧
            last.stake.reactors.lookup owner = some r ∧
            r.ray = 0 ∧ r.isoRay = 0 ∧ r.lockedVotes = 0 := by
  constructor
  · intro start poolId escrowAccount tracker hinit calls account p book hp now amount hnow hfits hamount
    have hbalanced : (⟨tracker, ∅⟩ : EscrowBook ι).Balanced :=
      EscrowBook.balanced_start tracker (Escrow.initTimeTracker_ok hinit)
    have hbounded := EscrowBook.bounded_run (EscrowBook.bounded_start hinit) hbalanced calls
    obtain ⟨out, hout⟩ := hbounded.withdraw_answered (EscrowBook.balanced_run hbalanced calls) hp
      hnow hfits hamount
    obtain ⟨hmoved, hpaid⟩ := Escrow.withdraw_ok hout
    have hleft := hmoved.amount
    exact ⟨out, hout, by omega, by omega⟩
  · intro settings start config hinit calls owner pools now book hnodup hall hpools hstake
    have horderly : book.Orderly := VoteBook.orderly_run (Staking.initReactorConfig_ok hinit).1 calls
    have hleaving : VoteBook.Leaving now owner (book.votesOn owner) (book.stake.rayOf owner) pools book := by
      refine ⟨horderly, hnodup, ?_, fun pool hpool => (hpools pool hpool).2.1,
        fun pool hpool => (hpools pool hpool).2.2, ?_, rfl, hstake⟩
      · intro pool hpool
        obtain ⟨p, hp⟩ := Finmap.mem_iff.mp (hpools pool hpool).1
        exact ⟨p, hp, (Table.valueAt_of_lookup hp).symm⟩
      · intro pool hpool
        by_contra hvotes
        exact hpool (hall pool hvotes)
    exact hleaving.exit

/-- Two of three tokens are taken out. A staker whose isoRAY has grown to as much as the RAY in a year,
and who has more votes on two pools than RAY, leaves a day later. -/
theorem no_stuck_funds_voter :
    let tracker : TimeTracker := ⟨.zero, .zero, .zero, 0, 0⟩
    let position : PersonalPosition := ⟨.zero, .zero, 3, .zero, .zero⟩
    let config : ReactorConfig := ⟨0, 86400, .zero, 10000, .zero, 0⟩
    let other : Address := ⟨String.ofList (List.replicate 64 '1'), by decide⟩
    let deposits : List (EscrowCall ℕ) := [.initPosition 0 0 .zero, .deposit 0 0 3]
    let calls : List VoteCall :=
      [.stake (.initReactor .zero), .stake (.deposit 0 .zero 1000), .initGaugeConfig ⟨86400⟩ 0,
        .initPool 0 .zero, .initPool 0 other, .initPersonalGauge .zero .zero,
        .initPersonalGauge .zero other, .stake (.sync 31536000 .zero),
        .changeVotes 31536000 .zero (.zero, .zero) .zero 600,
        .changeVotes 31536000 other (.zero, other) .zero 700]
    let escrow := run EscrowBook.step ⟨tracker, ∅⟩ deposits
    let book := run VoteBook.step (VoteBook.start config) calls
    escrow.positions.lookup 0 = some position ∧
      (∃ out, Escrow.withdraw (12 : ℕ) escrow.tracker position (2 : ℕ) = .ok out ∧
        out.transferAmount = 2 ∧ out.position.amount + 2 = position.amount) ∧
      (∃ r ∈ book.stake.reactors.lookup .zero, r.ray = 1000 ∧ r.isoRay = 1000 ∧ r.lockedVotes = 1300) ∧
      ∃ last r, (book.exitCalls 31622400 .zero [other, .zero]).foldlM VoteBook.step book = some last ∧
        last.stake.reactors.lookup .zero = some r ∧ r.ray = 0 ∧ r.isoRay = 0 ∧ r.lockedVotes = 0 := by
  intro tracker position config other deposits calls escrow book
  obtain ⟨htokens, hvotes⟩ := no_stuck_funds (ι := ℕ)
  have hposition : escrow.positions.lookup 0 = some position := by rfl
  have hkeys : book.pledges.keys = {(.zero, .zero), (.zero, other)} := by decide +kernel
  refine ⟨hposition, ?_, by decide +kernel, ?_⟩
  · exact htokens 0 .zero .zero tracker rfl deposits 0 position hposition 12 2 (by decide +kernel)
      (by decide) (by decide)
  · refine hvotes ⟨86400, 10000⟩ 0 config rfl calls .zero [other, .zero] 31622400 (by decide) ?_ ?_
      (by decide +kernel)
    · intro pool hpool
      by_contra hne
      refine hpool (Table.valueAt_of_none (Finmap.lookup_eq_none.mpr ?_))
      rw [← Finmap.mem_keys, hkeys]
      simpa [or_comm] using hne
    · decide +kernel

end EmissionLedger
