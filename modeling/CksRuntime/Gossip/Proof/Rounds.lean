import CksRuntime.Gossip.Rounds
import CksRuntime.Gossip.Proof.Envelope
import CksRuntime.Gossip.Proof.Membership
import Mathlib.Algebra.BigOperators.Intervals

/-!
# The pace of a service's rounds

A peer that keeps failing is chosen no sooner than its backoff allows, so a number of failures in a
row take at least the backoffs between them (`failures_take`). A peer that is removed while a round
is with it comes back with the outcome of the round (`removed_returns_iff`).
-/

set_option autoImplicit false

namespace CksRuntime

open Transition Effect Binary64

/-! ## The record of a peer -/

namespace PeerScheduler

variable {stats : Peers} {c : BackoffConfig} {peer : String}

theorem statsFor_init (peers : List String) (peer : String) : statsFor (init peers) peer = {} := by
  have hfold : ∀ stats : Peers, statsFor stats peer = {} →
      statsFor (peers.foldl (fun stats peer => stats.set peer {}) stats) peer = {} := by
    induction peers with
    | nil => exact fun _ h => h
    | cons peer' peers ih =>
      intro stats h
      refine ih _ ?_
      rw [statsFor_set]
      split
      · rfl
      · exact h
  exact hfold ∅ rfl

theorem statsFor_addPeer (stats : Peers) (peer peer' : String) :
    statsFor (addPeer peer' stats) peer = statsFor stats peer := by
  unfold addPeer statsFor
  rw [Table.lookup_insertNew]
  split
  · rename_i h
    rw [h]
    cases stats.lookup peer' <;> rfl
  · rfl

theorem statsFor_removePeer (stats : Peers) (peer peer' : String) :
    statsFor (removePeer peer' stats) peer = if peer = peer' then {} else statsFor stats peer := by
  unfold removePeer statsFor
  rw [Table.lookup_erase_eq]
  split <;> rfl

/-- The peer whose record an event changes. -/
def Event.changed : Event → Option String
  | .add _ => none
  | .remove peer | .success peer _ | .failure peer _ => some peer

theorem statsFor_step_ne {event : Event} (h : event.changed ≠ some peer) :
    statsFor (step c stats event) peer = statsFor stats peer := by
  cases event with
  | add peer' => exact statsFor_addPeer stats peer peer'
  | remove peer' =>
    exact (statsFor_removePeer stats peer peer').trans (if_neg fun he => h (congrArg some he.symm))
  | success peer' t =>
    exact (statsFor_set stats peer' _ peer).trans (if_neg fun he => h (congrArg some he.symm))
  | failure peer' t =>
    have hne : peer ≠ peer' := fun he => h (congrArg some he.symm)
    rw [step_failure]
    by_cases hrange : InRange c stats peer'
    · obtain ⟨m, hm⟩ := Option.ne_none_iff_exists'.1 hrange.2
      rw [recordFailure_ok c t hrange.1 hm, stateOf_ok, statsFor_set, if_neg hne, statsFor_set,
        if_neg hne]
    · rw [recordFailure_error c t hrange, stateOf_error, statsFor_set, if_neg hne]

/-- The backoff after a failure that `e` others in a row went before, in milliseconds; 0 where it
has no value. -/
def backoffMs (c : BackoffConfig) (e : Nat) : Int :=
  if e < 1024 then (mul (capped c e) thousand).elim 0 fun m => (trunc m : Nat) else 0

theorem backoffUntilMs_failure (c : BackoffConfig) (stats : Peers) (peer : String) (t : Int)
    (h : backoffMs c (statsFor stats peer).consecutiveFailures ≠ 0) :
    (statsFor (step c stats (.failure peer t)) peer).backoffUntilMs =
      t + backoffMs c (statsFor stats peer).consecutiveFailures := by
  unfold backoffMs at h ⊢
  by_cases hlt : (statsFor stats peer).consecutiveFailures < 1024
  · rw [if_pos hlt] at h ⊢
    cases hm : mul (capped c (statsFor stats peer).consecutiveFailures) thousand with
    | none =>
      rw [hm] at h
      exact absurd rfl h
    | some m =>
      rw [step_failure, recordFailure_ok c t hlt hm, stateOf_ok, statsFor_set_self]
      rfl
  · rw [if_neg hlt] at h
    exact absurd rfl h

end PeerScheduler

namespace PeerDiscovery

open PeerScheduler

theorem statsFor_discoverFrom (B : Builtins) (selfAddress : Option String)
    (reply : GossipTransport.HttpResult) (stats : Peers) (peer : String) :
    statsFor (stateOf (discoverFrom B selfAddress reply stats)) peer = statsFor stats peer := by
  have hfold : ∀ (discovered : List String) (m : Merging),
      statsFor (discovered.foldl (Merging.add selfAddress) m).scheduler peer =
        statsFor m.scheduler peer := by
    intro discovered
    induction discovered with
    | nil => exact fun _ => rfl
    | cons address discovered ih =>
      intro m
      rw [List.foldl_cons, ih, Merging.add]
      split
      · rfl
      · exact statsFor_addPeer m.scheduler peer address
  unfold discoverFrom
  cases fetchPeers B reply with
  | ok discovered => exact hfold discovered _
  | error exc => cases exc <;> rfl

end PeerDiscovery

namespace GossipService

open PeerScheduler (backoffMs statsFor)

variable {C : GossipConfig} {w w' : GossipService} {peer : String}

/-! ## The failures of a peer -/

theorem failures_append (peer : String) (events : List PeerScheduler.Event)
    (event : PeerScheduler.Event) :
    failures peer (events ++ [event]) = failuresAfter peer (failures peer events) event := by
  rw [failures, List.foldl_append, List.foldl_cons, List.foldl_nil]
  rfl

theorem failures_append_ne {event : PeerScheduler.Event} (h : event.changed ≠ some peer)
    (events : List PeerScheduler.Event) :
    failures peer (events ++ [event]) = failures peer events := by
  rw [failures_append]
  cases event with
  | add peer' => rfl
  | remove peer' => exact if_neg fun he => h (congrArg some he)
  | success peer' t => exact if_neg fun he => h (congrArg some he)
  | failure peer' t => exact if_neg fun he => h (congrArg some he)

theorem failures_adds (peer : String) (events : List PeerScheduler.Event) (added : List String) :
    failures peer (events ++ added.map .add) = failures peer events := by
  induction added using List.reverseRecOn with
  | nil => rw [List.map_nil, List.append_nil]
  | append_singleton added a ih =>
    rw [List.map_append, ← List.append_assoc, List.map_singleton, failures_append, ih]
    rfl

/-- What the record of a peer, the round and the clock keep of its failures. -/
structure Paced (C : GossipConfig) (peer : String) (w : GossipService) : Prop where
  counted : (statsFor w.scheduler peer).consecutiveFailures = (failures peer w.events).length
  past : ∀ t ∈ failures peer w.events, t ≤ w.nowMs
  waits : ∀ ts t, failures peer w.events = ts ++ [t] → backoffMs C.backoff ts.length ≠ 0 →
    (statsFor w.scheduler peer).backoffUntilMs = t + backoffMs C.backoff ts.length
  waited : ∀ r ∈ w.round, r.peer = peer → ∀ ts t, failures peer w.events = ts ++ [t] →
    t + backoffMs C.backoff ts.length ≤ w.nowMs
  spaced : ∀ ts t t' ts', failures peer w.events = ts ++ t :: t' :: ts' →
    t + backoffMs C.backoff ts.length ≤ t'

namespace Paced

/-- Nothing has happened to the peer, and the round is with it only if it was. -/
theorem other (h : Paced C peer w) (hstats : statsFor w'.scheduler peer = statsFor w.scheduler peer)
    (hfailures : failures peer w'.events = failures peer w.events) (hnow : w.nowMs ≤ w'.nowMs)
    (hround : ∀ r' ∈ w'.round, r'.peer = peer → ∃ r ∈ w.round, r.peer = peer) : Paced C peer w' where
  counted := by rw [hstats, hfailures, h.counted]
  past t ht := by
    rw [hfailures] at ht
    exact (h.past t ht).trans hnow
  waits ts t hts hne := by
    rw [hfailures] at hts
    rw [hstats]
    exact h.waits ts t hts hne
  waited r' hr' hpeer ts t hts := by
    rw [hfailures] at hts
    obtain ⟨r, hr, hpeer⟩ := hround r' hr' hpeer
    exact (h.waited r hr hpeer ts t hts).trans hnow
  spaced ts t t' ts' hts := by
    rw [hfailures] at hts
    exact h.spaced ts t t' ts' hts

theorem of_nil (hcount : (statsFor w.scheduler peer).consecutiveFailures = 0)
    (hnil : failures peer w.events = []) : Paced C peer w where
  counted := by rw [hcount, hnil, List.length_nil]
  past t ht := by
    rw [hnil] at ht
    cases ht
  waits ts t hts := by
    rw [hnil] at hts
    exact absurd hts (by simp)
  waited r _ _ ts t hts := by
    rw [hnil] at hts
    exact absurd hts (by simp)
  spaced ts t t' ts' hts := by
    rw [hnil] at hts
    exact absurd hts (by simp)

theorem failed (h : Paced C peer w) {t : Int} (hnow : w.nowMs ≤ t)
    (hround : ∃ r ∈ w.round, r.peer = peer) :
    Paced C peer { w.recorded C (.failure peer t) with round := none, nowMs := t } := by
  have hfailures : failures peer (w.recorded C (.failure peer t)).events =
      failures peer w.events ++ [t] := by
    rw [recorded, failures_append, failuresAfter, if_pos rfl]
  obtain ⟨r, hr, hpeer⟩ := hround
  refine ⟨?_, fun t' ht' => ?_, fun ts t' hts hne => ?_, fun r' hr' => (by cases hr'),
    fun ts t₁ t₂ ts' hts => ?_⟩
  · change (statsFor (PeerScheduler.step C.backoff w.scheduler (.failure peer t))
      peer).consecutiveFailures = (failures peer (w.recorded C (.failure peer t)).events).length
    rw [PeerScheduler.consecutiveFailures_step, hfailures, h.counted, List.length_append,
      List.length_singleton]
  · change t' ∈ failures peer (w.recorded C (.failure peer t)).events at ht'
    rw [hfailures] at ht'
    rcases List.mem_append.1 ht' with ht' | ht'
    · exact (h.past t' ht').trans hnow
    · rw [List.mem_singleton.1 ht']
  · change failures peer (w.recorded C (.failure peer t)).events = _ at hts
    rw [hfailures] at hts
    obtain ⟨rfl, hlast⟩ := List.append_inj' hts rfl
    cases hlast
    rw [← h.counted] at hne ⊢
    exact PeerScheduler.backoffUntilMs_failure C.backoff w.scheduler peer t hne
  · change failures peer (w.recorded C (.failure peer t)).events = _ at hts
    rw [hfailures] at hts
    -- the last two failures, or two earlier ones
    induction ts' using List.reverseRecOn with
    | nil =>
      have hsplit : failures peer w.events ++ [t] = (ts ++ [t₁]) ++ [t₂] := by
        rw [hts, List.append_assoc]
        rfl
      obtain ⟨hts', hlast⟩ := List.append_inj' hsplit rfl
      cases hlast
      exact (h.waited r hr hpeer ts t₁ hts').trans hnow
    | append_singleton ts' t' _ =>
      have hsplit : failures peer w.events ++ [t] = (ts ++ t₁ :: t₂ :: ts') ++ [t'] := by
        rw [hts, List.append_assoc]
        rfl
      exact h.spaced ts t₁ t₂ ts' (List.append_inj' hsplit rfl).1

/-- An event of another peer. -/
theorem recorded_ne (h : Paced C peer w) {event : PeerScheduler.Event}
    (hne : event.changed ≠ some peer) {round : Option GossipRound} {nowMs : Int}
    (hnow : w.nowMs ≤ nowMs)
    (hround : ∀ r' ∈ round, r'.peer = peer → ∃ r ∈ w.round, r.peer = peer) :
    Paced C peer { w.recorded C event with round := round, nowMs := nowMs } :=
  h.other (PeerScheduler.statsFor_step_ne hne) (failures_append_ne hne w.events) hnow hround

theorem step (h : Paced C peer w) {call : RoundCall} (hst : Step C w call w')
    (hforward : Forward w call) : Paced C peer w' := by
  have hnone : ∀ r' ∈ (none : Option GossipRound), r'.peer = peer → ∃ r ∈ w.round, r.peer = peer :=
    fun r' hr' => by cases hr'
  have hsame : ∀ r' ∈ w.round, r'.peer = peer → ∃ r ∈ w.round, r.peer = peer :=
    fun r' hr' hp => ⟨r', hr', hp⟩
  -- what is discovered adds peers and changes no record
  have hmerged : ∀ {reply : GossipTransport.HttpResult} {round : Option GossipRound},
      (∀ r' ∈ round, r'.peer = peer → ∃ r ∈ w.round, r.peer = peer) →
      Paced C peer { w.merged C reply with round := round } := fun hround =>
    h.other (PeerDiscovery.statsFor_discoverFrom C.builtins C.selfAddress _ w.scheduler peer)
      (failures_adds peer w.events _) le_rfl hround
  cases hst with
  | choosePeer peer' t hround helig =>
    refine ⟨h.counted, fun t' ht' => (h.past t' ht').trans hforward, h.waits, ?_, h.spaced⟩
    intro r hr hpeer ts t' hts
    cases hr
    dsimp only at hpeer
    subst hpeer
    by_cases hzero : backoffMs C.backoff ts.length = 0
    · rw [hzero, add_zero]
      refine (h.past t' ?_).trans hforward
      rw [hts]
      simp
    -- a peer is eligible when its backoff has run out
    · obtain ⟨s, hs, hle⟩ := PeerScheduler.mem_eligiblePeers.1 helig
      rw [← h.waits ts t' hts hzero, statsFor, hs]
      exact hle
  | @exchanged t peer' sessionId rest hround =>
    by_cases hpeer : peer' = peer
    · subst hpeer
      refine .of_nil ?_ ?_
      · exact congrArg PeerStats.consecutiveFailures (PeerScheduler.statsFor_set_self w.scheduler
          peer' _)
      · exact (failures_append peer' w.events _).trans (if_pos rfl)
    · have hne : (PeerScheduler.Event.success peer' t).changed ≠ some peer :=
        fun he => hpeer (Option.some.inj he)
      refine h.recorded_ne hne hforward fun r hr hp => ?_
      cases hr
      exact absurd hp hpeer
  | @failed t peer' sessionId rest hround =>
    by_cases hpeer : peer' = peer
    · subst hpeer
      exact h.failed hforward ⟨_, hround, rfl⟩
    · have hne : (PeerScheduler.Event.failure peer' t).changed ≠ some peer :=
        fun he => hpeer (Option.some.inj he)
      exact h.recorded_ne hne hforward hnone
  | raised hround => exact h.other rfl rfl le_rfl hnone
  | discoverFrom reply hround hd => exact hmerged hnone
  | ended hround hd => exact h.other rfl rfl le_rfl hnone
  | discovered reply hd => exact hmerged hsame
  | addPeer peer' =>
    have hne : (PeerScheduler.Event.add peer').changed ≠ some peer := fun he => by cases he
    exact h.recorded_ne hne le_rfl hsame
  | removePeer peer' =>
    by_cases hpeer : peer' = peer
    · subst hpeer
      refine .of_nil ?_ ((failures_append peer' w.events _).trans (if_pos rfl))
      exact congrArg PeerStats.consecutiveFailures
        ((PeerScheduler.statsFor_removePeer w.scheduler peer' peer').trans (if_pos rfl))
    · have hne : (PeerScheduler.Event.remove peer').changed ≠ some peer :=
        fun he => hpeer (Option.some.inj he)
      exact h.recorded_ne hne le_rfl hsame
  | trackSession sessionId => exact h.other rfl rfl le_rfl hsame
  | untrackSession sessionId => exact h.other rfl rfl le_rfl hsame

end Paced

theorem paced_reachable (hw : ((system C).restrict Forward).Reachable w) (peer : String) :
    Paced C peer w := by
  refine hw.invariant (fun w hi => ?_) fun w call w' _ h hst => h.step hst.1 hst.2
  obtain ⟨⟨peers, hpeers⟩, -, hevents⟩ := hi
  refine .of_nil ?_ (by rw [hevents]; rfl)
  rw [hpeers, PeerScheduler.statsFor_init]

/-- **A peer that is down costs few rounds.** As long as the clock does not go back, a failure of a
peer comes after one before it in a row by all the backoffs between them. -/
theorem failures_take (hw : ((system C).restrict Forward).Reachable w) (peer : String) {i j : Nat}
    {t t' : Int} (hij : i ≤ j) (hi : (failures peer w.events)[i]? = some t)
    (hj : (failures peer w.events)[j]? = some t') :
    t + ∑ e ∈ Finset.Ico i j, backoffMs C.backoff e ≤ t' := by
  have h := paced_reachable hw peer
  induction j, hij using Nat.le_induction generalizing t' with
  | base =>
    rw [hi] at hj
    cases hj
    rw [Finset.Ico_self, Finset.sum_empty, add_zero]
  | succ j hij ih =>
    have hlt : j + 1 < (failures peer w.events).length := (List.getElem?_eq_some_iff.1 hj).1
    have hprev := List.getElem?_eq_getElem (Nat.lt_of_succ_lt hlt)
    have hsplit : failures peer w.events = (failures peer w.events).take j ++
        (failures peer w.events)[j] :: t' :: (failures peer w.events).drop (j + 2) := by
      rw [← (List.getElem?_eq_some_iff.1 hj).2, ← List.drop_eq_getElem_cons hlt,
        ← List.drop_eq_getElem_cons (Nat.lt_of_succ_lt hlt), List.take_append_drop]
    have hstep := h.spaced _ _ _ _ hsplit
    rw [List.length_take, Nat.min_eq_left (by omega)] at hstep
    rw [Finset.sum_Ico_succ_top hij]
    have hfirst := ih hprev
    omega

/-- A service with one peer and one session. -/
def pairConfig : GossipConfig where
  backoff := PeerScheduler.defaultBackoff
  builtins := GossipEnvelope.strictBuiltins
  discovery := false
  selfAddress := none

/-- A service with one peer and one session. -/
def pairService : GossipService where
  scheduler := PeerScheduler.init ["p"]
  sessionIds := ["s"]

/-- The peer has been chosen. -/
def pairChosen (w : GossipService) (nowMs : Int) : GossipService :=
  { w with round := some ⟨"p", ["s"]⟩, nowMs := nowMs }

/-- The exchange with it has failed. -/
def pairFailed (w : GossipService) (nowMs : Int) : GossipService :=
  { w.recorded pairConfig (.failure "p" nowMs) with round := none, nowMs := nowMs }

theorem pairFailed_reachable : ((system pairConfig).restrict Forward).Reachable
    (pairFailed (pairChosen (pairFailed (pairChosen pairService 0) 0) 1000) 1000) := by
  have h₀ : ((system pairConfig).restrict Forward).Reachable pairService :=
    .init ⟨⟨["p"], rfl⟩, rfl, rfl⟩
  have h₁ := h₀.step ⟨Step.choosePeer "p" 0 rfl (by decide), le_rfl⟩
  have h₂ := h₁.step ⟨Step.failed 0 rfl, le_rfl⟩
  have helig : "p" ∈ PeerScheduler.eligiblePeers
      (pairFailed (pairChosen pairService 0) 0).scheduler 1000 := by
    decide +kernel
  have h₃ := h₂.step ⟨Step.choosePeer "p" 1000 rfl helig,
    show (0 : Int) ≤ 1000 by decide⟩
  exact h₃.step ⟨Step.failed 1000 rfl, le_rfl⟩

/-- The second failure waits for the base backoff, of a second. -/
theorem failures_take_twice :
    0 + ∑ e ∈ Finset.Ico 0 1, backoffMs PeerScheduler.defaultBackoff e ≤ 1000 ∧
      backoffMs PeerScheduler.defaultBackoff 0 = 1000 :=
  ⟨failures_take pairFailed_reachable "p" (Nat.zero_le 1) rfl rfl, by decide +kernel⟩

/-! ## A peer that is removed -/

theorem mem_merged {reply : GossipTransport.HttpResult} :
    peer ∈ PeerScheduler.peers (w.merged C reply).scheduler ↔
      peer ∈ PeerScheduler.peers w.scheduler ∨ Adds C peer (.discovered reply) :=
  PeerDiscovery.mem_discoverFrom

theorem Step.stays {call : RoundCall} (hst : Step C w call w')
    (h : peer ∈ PeerScheduler.peers w.scheduler) (hremove : call ≠ .removePeer peer) :
    peer ∈ PeerScheduler.peers w'.scheduler := by
  have hrecorded : ∀ {event : PeerScheduler.Event}, event ≠ .remove peer →
      peer ∈ PeerScheduler.peers (w.recorded C event).scheduler := by
    intro event hne
    cases event with
    | add peer' => exact PeerScheduler.mem_peers_addPeer.2 (.inr h)
    | remove peer' => exact PeerScheduler.mem_peers_removePeer.2 ⟨fun he => hne (by rw [he]), h⟩
    | success peer' t => exact PeerScheduler.mem_peers_set.2 (.inr h)
    | failure peer' t => exact (PeerScheduler.mem_peers_failure C.backoff t).2 (.inr h)
  cases hst with
  | choosePeer | raised | ended | trackSession | untrackSession => exact h
  | exchanged | failed | addPeer => exact hrecorded fun he => by cases he
  | discoverFrom | discovered => exact mem_merged.2 (.inl h)
  | removePeer peer' =>
    refine hrecorded fun he => ?_
    cases he
    exact hremove rfl

/-- The outcome of a round puts its peer in the scheduler. -/
theorem Step.back {call : RoundCall} (hst : Step C w call w') (hcall : isOutcome call = true)
    {r : GossipRound} (hr : r ∈ w.round) : r.peer ∈ PeerScheduler.peers w'.scheduler := by
  cases hst with
  | exchanged t hround =>
    rw [hround] at hr
    cases hr
    exact PeerScheduler.mem_peers_set.2 (.inl rfl)
  | failed t hround =>
    rw [hround] at hr
    cases hr
    exact (PeerScheduler.mem_peers_failure C.backoff t).2 (.inl rfl)
  | choosePeer | raised | discoverFrom | ended | discovered | addPeer | removePeer | trackSession
  | untrackSession => cases hcall

/-- A call of a round that is with another peer, or has no outcome for this one. -/
theorem Step.away {call : RoundCall} (hst : Step C w call w') (hcall : ofRound call = true)
    (h : peer ∉ PeerScheduler.peers w.scheduler) (hadd : ¬Adds C peer call)
    (hround : isOutcome call = true → ∀ r ∈ w.round, r.peer ≠ peer) :
    peer ∉ PeerScheduler.peers w'.scheduler ∧ ∀ r' ∈ w'.round, r'.peer ≠ peer := by
  cases hst with
  | choosePeer peer' t _ helig =>
    refine ⟨h, fun r' hr' hp => h ?_⟩
    cases hr'
    obtain ⟨s, hs, -⟩ := PeerScheduler.mem_eligiblePeers.1 helig
    subst hp
    exact PeerScheduler.mem_peers.2 (AList.lookup_isSome.1 (by rw [hs, Option.isSome_some]))
  | @exchanged t peer' sessionId rest hr =>
    have hne : peer' ≠ peer := hround rfl _ hr
    refine ⟨fun hmem => ?_, fun r' hr' => ?_⟩
    · rcases PeerScheduler.mem_peers_set.1 hmem with heq | hmem
      · exact hne heq.symm
      · exact h hmem
    · cases hr'
      exact hne
  | @failed t peer' sessionId rest hr =>
    have hne : peer' ≠ peer := hround rfl _ hr
    refine ⟨fun hmem => ?_, fun r' hr' => absurd hr' (Option.not_mem_none r')⟩
    rcases (PeerScheduler.mem_peers_failure C.backoff t).1 hmem with heq | hmem
    · exact hne heq.symm
    · exact h hmem
  | raised | ended => exact ⟨h, fun r' hr' => absurd hr' (Option.not_mem_none r')⟩
  | discoverFrom reply hr hd =>
    refine ⟨fun hmem => ?_, fun r' hr' => absurd hr' (Option.not_mem_none r')⟩
    exact (mem_merged.1 hmem).elim h hadd
  | discovered | addPeer | removePeer | trackSession | untrackSession => cases hcall

/-- A call that is no round's. -/
theorem Step.aside {call : RoundCall} (hst : Step C w call w') (hcall : ofRound call = false)
    (h : peer ∉ PeerScheduler.peers w.scheduler) (hadd : ¬Adds C peer call) :
    peer ∉ PeerScheduler.peers w'.scheduler ∧ w'.round = w.round := by
  cases hst with
  | choosePeer | exchanged | failed | raised | discoverFrom | ended => cases hcall
  | discovered reply hd => exact ⟨fun hmem => (mem_merged.1 hmem).elim h hadd, rfl⟩
  | addPeer peer' =>
    refine ⟨fun hmem => ?_, rfl⟩
    rcases PeerScheduler.mem_peers_addPeer.1 hmem with heq | hmem
    · exact hadd heq.symm
    · exact h hmem
  | removePeer peer' => exact ⟨fun hmem => h (PeerScheduler.mem_peers_removePeer.1 hmem).2, rfl⟩
  | trackSession | untrackSession => exact ⟨h, rfl⟩

/-- The scheduler has the peer again, or neither it nor the round has it; before the first call of
a round, the round is as it was. -/
def Fate (peer : String) (w : GossipService) (calls : List RoundCall) (w' : GossipService) : Prop :=
  match calls.find? ofRound with
  | none => peer ∉ PeerScheduler.peers w'.scheduler ∧ w'.round = w.round
  | some call =>
    if isOutcome call = true ∧ ∃ r ∈ w.round, r.peer = peer then
      peer ∈ PeerScheduler.peers w'.scheduler
    else peer ∉ PeerScheduler.peers w'.scheduler ∧ ∀ r' ∈ w'.round, r'.peer ≠ peer

theorem fate {calls : List RoundCall} (hpath : (system C).Path w calls w')
    (h : peer ∉ PeerScheduler.peers w.scheduler) (hadd : ∀ call ∈ calls, ¬Adds C peer call)
    (hremove : .removePeer peer ∉ calls) : Fate peer w calls w' := by
  induction hpath with
  | refl => exact ⟨h, rfl⟩
  | @tail w₁ w₂ calls call hpath hst ih =>
    have ih := ih (fun call hcall => hadd call (List.mem_append_left _ hcall))
      (fun hmem => hremove (List.mem_append_left _ hmem))
    have hadd' := hadd call (by simp)
    have hremove' : call ≠ .removePeer peer := fun he => hremove (by simp [he])
    unfold Fate at ih ⊢
    rw [List.find?_append]
    cases hfind : calls.find? ofRound with
    | some first =>
      rw [hfind] at ih
      dsimp only [Option.some_or] at ih ⊢
      split at ih
      · rename_i hback
        rw [if_pos hback]
        exact hst.stays ih hremove'
      · rename_i hback
        rw [if_neg hback]
        by_cases hcall : ofRound call = true
        · exact hst.away hcall ih.1 hadd' fun _ => ih.2
        · obtain ⟨habsent, hround⟩ := hst.aside (Bool.eq_false_iff.2 hcall) ih.1 hadd'
          rw [hround]
          exact ⟨habsent, ih.2⟩
    | none =>
      rw [hfind] at ih
      obtain ⟨habsent, hround⟩ := ih
      rw [Option.none_or, List.find?_singleton]
      -- nothing of the round so far: this call may be the one that brings the peer back
      by_cases hcall : ofRound call = true
      · rw [if_pos hcall]
        dsimp only
        split
        · rename_i hback
          obtain ⟨hout, r, hr, rfl⟩ := hback
          exact hst.back hout (by rw [hround]; exact hr)
        · rename_i hback
          refine hst.away hcall habsent hadd' fun hout r hr hp => hback ⟨hout, r, ?_, hp⟩
          rw [← hround]
          exact hr
      · rw [if_neg hcall]
        obtain ⟨habsent', hround'⟩ := hst.aside (Bool.eq_false_iff.2 hcall) habsent hadd'
        exact ⟨habsent', hround'.trans hround⟩

theorem removed_returns_iff {calls : List RoundCall} (hpath : (system C).Path w calls w')
    (h : peer ∉ PeerScheduler.peers w.scheduler) (hadd : ∀ call ∈ calls, ¬Adds C peer call)
    (hremove : .removePeer peer ∉ calls) :
    peer ∈ PeerScheduler.peers w'.scheduler ↔
      (∃ r ∈ w.round, r.peer = peer) ∧ OutcomeFirst calls := by
  have hfate := fate hpath h hadd hremove
  unfold Fate at hfate
  unfold OutcomeFirst
  cases hfind : calls.find? ofRound with
  | none =>
    rw [hfind] at hfate
    exact iff_of_false hfate.1 fun hc => by simp at hc
  | some call =>
    rw [hfind] at hfate
    dsimp only at hfate
    split at hfate
    · rename_i hback
      exact iff_of_true hfate ⟨hback.2, call, rfl, hback.1⟩
    · rename_i hback
      refine iff_of_false hfate.1 fun hc => hback ?_
      obtain ⟨hround, call', hcall', hout⟩ := hc
      cases hcall'
      exact ⟨hout, hround⟩

/-- The peer is removed while the round is with it, which then fails. -/
theorem removed_returns_iff_failed : ∃ w w' : GossipService, (system pairConfig).Reachable w ∧
    "p" ∉ PeerScheduler.peers w.scheduler ∧ (system pairConfig).Path w [.failed 1] w' ∧
      "p" ∈ PeerScheduler.peers w'.scheduler := by
  have h₀ : (system pairConfig).Reachable pairService := .init ⟨⟨["p"], rfl⟩, rfl, rfl⟩
  have h₁ := h₀.step (Step.choosePeer "p" 0 rfl (by decide))
  have h₂ := h₁.step (Step.removePeer "p")
  have hpath := (System.Path.refl _).tail
    (show (system pairConfig).step ((pairChosen pairService 0).recorded pairConfig (.remove "p"))
      (.failed 1) _ from Step.failed 1 rfl)
  have hgone : "p" ∉ PeerScheduler.peers
      ((pairChosen pairService 0).recorded pairConfig (.remove "p")).scheduler := by
    decide
  refine ⟨_, _, h₂, hgone, hpath, (removed_returns_iff hpath hgone ?_ (by simp)).2
    ⟨⟨_, rfl, rfl⟩, _, rfl, rfl⟩⟩
  intro call hcall
  rw [List.nil_append, List.mem_singleton] at hcall
  rw [hcall]
  exact id

end GossipService

end CksRuntime
