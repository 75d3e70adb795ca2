import CksRuntime.Gossip.Membership
import CksRuntime.Gossip.Proof.Scheduling
import CksRuntime.Lib.Doubling

/-!
# What peer exchange learns

A replica schedules nothing but what leads back to somebody's configuration, and never its own
address unless it is configured with it (`known_learnable`). While nothing is removed, each pass
doubles how far a replica sees (`passes_complete`).
-/

set_option autoImplicit false

namespace CksRuntime

open JsonText Effect Transition

namespace PeerScheduler

variable {stats : Peers} {peer a : String}

theorem mem_peers : a ∈ peers stats ↔ a ∈ stats := by
  rw [peers, List.mem_map, ← AList.lookup_isSome, Option.isSome_iff_exists]
  constructor
  · rintro ⟨⟨k, s⟩, hmem, rfl⟩
    exact ⟨s, Table.mem_rows.1 hmem⟩
  · rintro ⟨s, hs⟩
    exact ⟨(a, s), Table.mem_rows.2 hs, rfl⟩

theorem mem_peers_set {s : PeerStats} : a ∈ peers (stats.set peer s) ↔ a = peer ∨ a ∈ peers stats := by
  rw [mem_peers, mem_peers, ← AList.lookup_isSome, Table.lookup_set, ← AList.lookup_isSome]
  split
  · rename_i h
    simp [h]
  · rename_i h
    simp [h]

theorem mem_peers_init {seeds : List String} : a ∈ peers (init seeds) ↔ a ∈ seeds := by
  have hfold : ∀ {stats : Peers}, a ∈ peers (seeds.foldl (fun stats peer => stats.set peer {}) stats) ↔
      a ∈ peers stats ∨ a ∈ seeds := by
    induction seeds with
    | nil => simp
    | cons seed seeds ih =>
      intro stats
      rw [List.foldl_cons, ih, mem_peers_set, List.mem_cons]
      tauto
  rw [init, hfold]
  exact or_iff_right (by simp [mem_peers])

theorem mem_peers_addPeer : a ∈ peers (addPeer peer stats) ↔ a = peer ∨ a ∈ peers stats := by
  rw [mem_peers, mem_peers, addPeer, Table.insertNew]
  split
  · rename_i h
    constructor
    · exact .inr
    · rintro (rfl | ha)
      · exact h
      · exact ha
  · exact AList.mem_insert _

theorem mem_peers_removePeer : a ∈ peers (removePeer peer stats) ↔ a ≠ peer ∧ a ∈ peers stats := by
  rw [mem_peers, mem_peers, removePeer, AList.mem_erase]

theorem mem_peers_failure (c : BackoffConfig) (nowMs : Int) :
    a ∈ peers (step c stats (.failure peer nowMs)) ↔ a = peer ∨ a ∈ peers stats := by
  rw [step_failure]
  by_cases h : InRange c stats peer
  · obtain ⟨m, hm⟩ := Option.ne_none_iff_exists'.1 h.2
    rw [recordFailure_ok c nowMs h.1 hm, stateOf_ok, mem_peers_set, mem_peers_set]
    simp
  · rw [recordFailure_error c nowMs h, stateOf_error, mem_peers_set]

/-- The peer that an event adds, if it adds one. -/
def Event.added : Event → Option String
  | .add peer | .success peer _ | .failure peer _ => some peer
  | .remove _ => none

theorem mem_of_step {c : BackoffConfig} {event : Event} (h : a ∈ peers (step c stats event)) :
    event.added = some a ∨ a ∈ peers stats := by
  cases event with
  | add peer =>
    rcases mem_peers_addPeer.1 h with rfl | h
    · exact .inl rfl
    · exact .inr h
  | remove peer => exact .inr (mem_peers_removePeer.1 h).2
  | success peer nowMs =>
    rcases mem_peers_set.1 h with rfl | h
    · exact .inl rfl
    · exact .inr h
  | failure peer nowMs =>
    rcases (mem_peers_failure c nowMs).1 h with rfl | h
    · exact .inl rfl
    · exact .inr h

theorem mem_step {c : BackoffConfig} {event : Event} (h : a ∈ peers stats)
    (hkept : ∀ peer, event ≠ .remove peer) : a ∈ peers (step c stats event) := by
  cases event with
  | add peer => exact mem_peers_addPeer.2 (.inr h)
  | remove peer => exact absurd rfl (hkept peer)
  | success peer nowMs => exact mem_peers_set.2 (.inr h)
  | failure peer nowMs => exact (mem_peers_failure c nowMs).2 (.inr h)

end PeerScheduler

/-! ## An exchange -/

namespace PeerDiscovery

open PeerScheduler (Peers peers mem_peers mem_peers_addPeer)

theorem mem_peerList {known : List String} {selfAddress : Option String} {a : String} :
    a ∈ peerList known selfAddress ↔ selfAddress = some a ∨ a ∈ known := by
  unfold peerList
  cases selfAddress with
  | none => simp
  | some address =>
    dsimp only
    split
    · rename_i h
      rw [List.mem_eraseDups] at h ⊢
      constructor
      · exact .inr
      · rintro (heq | h')
        · cases heq
          exact h
        · exact h'
    · rw [List.mem_cons, List.mem_eraseDups, Option.some.injEq, eq_comm]

/-- What is sent is what is read. -/
theorem fetchPeers_handlePeers (B : Builtins) (known : List String) (selfAddress : Option String) :
    fetchPeers B (handlePeers known selfAddress) = .ok (peerList known selfAddress) := by
  have hread : ∀ l : List String, (l.map fun peer => Json.string peer.toList).map
      (fun peer => String.ofList (B.toStr peer)) = l := fun l => by
    rw [List.map_map]
    exact List.map_id'' (fun peer => String.ofList_toList) l
  have hlookup : ∀ x : Json, [("peers".toList, x)].lookup "peers".toList = some x := fun x =>
    List.lookup_cons_self
  simp only [fetchPeers, handlePeers, hlookup, hread]
  rfl

/-- The address is one to schedule. -/
theorem mem_merging_add {m : Merging} (hm : m.known = (peers m.scheduler).toFinset)
    (selfAddress : Option String) (address a : String) :
    (m.add selfAddress address).known = (peers (m.add selfAddress address).scheduler).toFinset ∧
      (a ∈ peers (m.add selfAddress address).scheduler ↔
        a ∈ peers m.scheduler ∨ a = address ∧ selfAddress ≠ some a) := by
  unfold Merging.add
  by_cases h : some address = selfAddress ∨ address ∈ m.known
  · rw [if_pos h]
    refine ⟨hm, .inl, ?_⟩
    rintro (ha | ⟨rfl, hne⟩)
    · exact ha
    · rcases h with h | h
      · exact absurd h.symm hne
      · rw [hm, List.mem_toFinset] at h
        exact h
  · rw [if_neg h]
    obtain ⟨hself, hnew⟩ := not_or.1 h
    constructor
    · ext b
      rw [Finset.mem_insert, hm, List.mem_toFinset, List.mem_toFinset, mem_peers_addPeer]
    · rw [mem_peers_addPeer]
      constructor
      · rintro (rfl | ha)
        · exact .inr ⟨rfl, fun he => hself he.symm⟩
        · exact .inl ha
      · rintro (ha | ⟨rfl, -⟩)
        · exact .inr ha
        · exact .inl rfl

/-- What is merged, and nothing of what is scheduled is lost. -/
theorem mem_mergeDiscoveredPeers {stats : Peers} {discovered : List String}
    {selfAddress : Option String} {a : String} :
    a ∈ peers (mergeDiscoveredPeers stats discovered selfAddress).1 ↔
      a ∈ peers stats ∨ a ∈ discovered ∧ selfAddress ≠ some a := by
  have hfold : ∀ {m : Merging}, m.known = (peers m.scheduler).toFinset →
      (a ∈ peers (discovered.foldl (Merging.add selfAddress) m).scheduler ↔
        a ∈ peers m.scheduler ∨ a ∈ discovered ∧ selfAddress ≠ some a) := by
    induction discovered with
    | nil => simp
    | cons address discovered ih =>
      intro m hm
      obtain ⟨hm', hmem⟩ := mem_merging_add hm selfAddress address a
      rw [List.foldl_cons, ih hm', hmem, List.mem_cons]
      tauto
  exact hfold rfl

theorem mem_discoverFrom {B : Builtins} {selfAddress : Option String}
    {reply : GossipTransport.HttpResult} {stats : Peers} {a : String} :
    a ∈ peers (stateOf (discoverFrom B selfAddress reply stats)) ↔ a ∈ peers stats ∨
      ∃ discovered, fetchPeers B reply = .ok discovered ∧ a ∈ discovered ∧ selfAddress ≠ some a := by
  unfold discoverFrom
  cases h : fetchPeers B reply with
  | ok discovered =>
    dsimp only
    rw [stateOf_ok, mem_mergeDiscoveredPeers]
    simp
  | error exc => cases exc <;> simp

end PeerDiscovery

/-- The scheduler is what the server reads, and each replica is found where it says. -/
structure Deployment.Live {R : Type} (D : Deployment R) : Prop where
  knownPeers : ∀ r, D.knownPeers r = .scheduler
  advertised : ∀ r, D.advertised r = D.selfAddress r
  host : ∀ r a, D.selfAddress r = some a → D.host a = some r

namespace Membership

open PeerDiscovery PeerScheduler

variable {R : Type} {D : Deployment R} {configured : R → Set String}

/-! ## Where a scheduled address comes from -/

/-- Somebody is configured with the address, or a replica that leads to is asked for it, or gives it
as its own. Nobody learns of the address it has for its own. -/
inductive Learnable (D : Deployment R) (configured : R → Set String) : R → String → Prop
  | configured {r : R} {a : String} : a ∈ configured r → Learnable D configured r a
  | advertised {r q : R} {p a : String} : Learnable D configured r p → D.host p = some q →
      D.advertised q = some a → D.selfAddress r ≠ some a → Learnable D configured r a
  | relayed {r q : R} {p a : String} : Learnable D configured r p → D.host p = some q →
      D.knownPeers q = .scheduler → Learnable D configured q a → D.selfAddress r ≠ some a →
      Learnable D configured r a
  | fixed {r q : R} {p a : String} {peers : List String} : Learnable D configured r p →
      D.host p = some q → D.knownPeers q = .fixed peers → a ∈ peers → D.selfAddress r ≠ some a →
      Learnable D configured r a

/-- Nobody learns of its own address. -/
theorem Learnable.own {r : R} {a : String} (h : Learnable D configured r a)
    (hown : D.selfAddress r = some a) : a ∈ configured r := by
  cases h with
  | configured ha => exact ha
  | advertised _ _ _ hne => exact absurd hown hne
  | relayed _ _ _ _ hne => exact absurd hown hne
  | fixed _ _ _ _ hne => exact absurd hown hne

/-- What is known, contacted or answered somewhere is learnable there. -/
structure Explained (D : Deployment R) (configured : R → Set String) (w : Membership R) : Prop where
  known : ∀ r, ∀ a ∈ w.known r, Learnable D configured r a
  contacted : ∀ r peer, (r, peer) ∈ w.contacted → Learnable D configured r peer
  answers : ∀ r reply, (r, reply) ∈ w.answers → ∀ discovered,
    fetchPeers D.builtins reply = .ok discovered → ∀ a ∈ discovered, D.selfAddress r ≠ some a →
      Learnable D configured r a

variable [DecidableEq R] {w w' : Membership R}

theorem mem_known_withScheduler {r q : R} {stats : Peers} {a : String} :
    a ∈ (w.withScheduler r stats).known q ↔ if q = r then a ∈ peers stats else a ∈ w.known q := by
  unfold known withScheduler
  by_cases h : q = r
  · subst h
    simp
  · simp [h]

theorem Explained.withScheduler (h : Explained D configured w) {r : R} {stats : Peers}
    (hstats : ∀ a ∈ peers stats, Learnable D configured r a) :
    Explained D configured (w.withScheduler r stats) where
  known q a ha := by
    rw [mem_known_withScheduler] at ha
    split at ha
    · rename_i hq
      rw [hq]
      exact hstats a ha
    · exact h.known q a ha
  contacted := h.contacted
  answers := h.answers

theorem Explained.step (h : Explained D configured w) {call : MembershipCall R}
    (hst : Step D configured w call w') : Explained D configured w' := by
  cases hst with
  | contact r peer hpeer =>
    refine ⟨h.known, fun q p hp => ?_, h.answers⟩
    rcases List.mem_append.1 hp with hp | hp
    · exact h.contacted q p hp
    · cases List.mem_singleton.1 hp
      exact h.known r peer hpeer
  | schedule r event hevent =>
    refine h.withScheduler fun a ha => ?_
    rcases mem_of_step ha with hadd | ha
    · cases event with
      | add peer =>
        cases hadd
        exact .configured hevent
      | remove peer => cases hadd
      | success peer nowMs =>
        cases hadd
        exact h.contacted r _ hevent
      | failure peer nowMs =>
        cases hadd
        exact h.contacted r _ hevent
    · exact h.known r a ha
  | @answer r peer q reply hcontacted hhost hreply =>
    refine ⟨h.known, h.contacted, fun r' reply' hmem discovered hfetch a ha hne => ?_⟩
    rcases List.mem_append.1 hmem with hmem | hmem
    · exact h.answers r' reply' hmem discovered hfetch a ha hne
    · cases List.mem_singleton.1 hmem
      -- the one who answers was contacted, and tells of itself and of its own peers
      have hpeer := h.contacted r peer hcontacted
      rw [← hreply, fetchPeers_handlePeers, Except.ok.injEq] at hfetch
      rw [← hfetch, mem_peerList] at ha
      rcases ha with hown | ha
      · exact .advertised hpeer hhost hown hne
      · cases hk : D.knownPeers q with
        | absent =>
          rw [hk] at ha
          cases ha
        | scheduler =>
          rw [hk] at ha
          exact .relayed hpeer hhost hk (h.known q a ha) hne
        | fixed peers =>
          rw [hk] at ha
          exact .fixed hpeer hhost hk ha hne
  | merge r reply hreply =>
    refine h.withScheduler fun a ha => ?_
    rcases mem_discoverFrom.1 ha with ha | ⟨discovered, hfetch, ha, hne⟩
    · exact h.known r a ha
    · rcases hreply with hreply | ⟨exc, hexc⟩
      · exact h.answers r reply hreply discovered hfetch a ha hne
      -- a reply that is an error tells of nobody
      · rw [hexc] at hfetch
        cases hfetch

/-- **Where a scheduled address comes from.** In every run, whatever fails, is late or is removed
meanwhile, a replica schedules and contacts only what leads back to a configuration, and schedules
its own address only if it is itself configured with it. -/
theorem known_learnable (hw : (system D configured).Reachable w) (r : R) :
    (∀ a ∈ w.known r, Learnable D configured r a) ∧
      (∀ a, (r, a) ∈ w.contacted → Learnable D configured r a) ∧
      ∀ a ∈ w.known r, D.selfAddress r = some a → a ∈ configured r := by
  have hexplained : Explained D configured w := by
    refine hw.invariant (fun w hi => ?_) fun w call w' _ h hst => h.step hst
    obtain ⟨hknown, hcontacted, hanswers⟩ := hi
    refine ⟨fun r a ha => .configured (hknown r a ha), fun r peer hmem => ?_,
      fun r reply hmem => ?_⟩
    · rw [hcontacted] at hmem
      cases hmem
    · rw [hanswers] at hmem
      cases hmem
  exact ⟨hexplained.known r, hexplained.contacted r,
    fun a ha hown => (hexplained.known r a ha).own hown⟩

/-! ## Passes -/

/-- Where nothing is removed, nothing is forgotten. -/
theorem known_step {call : MembershipCall R} (hst : Step D configured w call w')
    (hkept : ∀ r peer, call ≠ .schedule r (.remove peer)) (r : R) : w.known r ⊆ w'.known r := by
  intro a ha
  cases hst with
  | contact => exact ha
  | schedule r' event hevent =>
    rw [mem_known_withScheduler]
    split
    · rename_i hr
      rw [hr] at ha
      exact mem_step ha fun peer he => hkept r' peer (by rw [he])
    · exact ha
  | answer => exact ha
  | merge r' reply hreply =>
    rw [mem_known_withScheduler]
    split
    · rename_i hr
      rw [hr] at ha
      exact mem_discoverFrom.2 (.inl ha)
    · exact ha

theorem known_path {calls : List (MembershipCall R)}
    (hp : (system D configured).Path w calls w')
    (hkept : ∀ r peer, .schedule r (.remove peer) ∉ calls) (r : R) : w.known r ⊆ w'.known r := by
  induction hp with
  | refl => exact Set.Subset.refl _
  | @tail w₁ w₂ calls call _ hst ih =>
    have hsub := ih fun r peer hmem => hkept r peer (List.mem_append_left _ hmem)
    refine hsub.trans (known_step hst (fun r peer he => ?_) r)
    exact hkept r peer (List.mem_append_right _ (by rw [he]; exact List.mem_singleton_self _))

/-- What a pass learns: all that those asked knew when it began, and their own addresses. -/
theorem Pass.learns (hD : D.Live) {calls : List (MembershipCall R)}
    (hp : (system D configured).Path w calls w') (h : Pass D w calls) {r q : R} {p a : String}
    (hpeer : p ∈ w.known r) (hhost : D.host p = some q)
    (ha : a ∈ w.known q ∨ D.selfAddress q = some a) (hne : D.selfAddress r ≠ some a) :
    a ∈ w'.known r := by
  obtain ⟨reply, hanswer, hmerge⟩ := h.asked r p hpeer q hhost
  -- when the answer was given, what it holds
  have hholds : ∃ discovered, fetchPeers D.builtins reply = .ok discovered ∧ a ∈ discovered := by
    obtain ⟨before, after, w₁, w₂, rfl, hp₁, hst, -⟩ := hp.of_mem hanswer
    have hsub := known_path hp₁ (fun r peer hmem => h.kept r peer (List.mem_append_left _ hmem)) q
    cases hst with
    | @answer r p q' reply _ hhost' hreply =>
      rw [hhost, Option.some.injEq] at hhost'
      subst hhost'
      refine ⟨_, by rw [← hreply]; exact fetchPeers_handlePeers _ _ _, mem_peerList.2 ?_⟩
      rw [hD.advertised, hD.knownPeers]
      rcases ha with ha | ha
      · exact .inr (hsub ha)
      · exact .inl ha
  -- and when it was merged, it was learned
  obtain ⟨discovered, hfetch, hmem⟩ := hholds
  obtain ⟨before, after, w₁, w₂, rfl, -, hst, hp₂⟩ := hp.of_mem hmerge
  have hlearned : a ∈ w₂.known r := by
    cases hst with
    | merge r reply hreply =>
      rw [mem_known_withScheduler, if_pos rfl]
      exact mem_discoverFrom.2 (.inr ⟨discovered, hfetch, hmem, hne⟩)
  refine known_path hp₂ (fun r peer hrem => h.kept r peer ?_) r hlearned
  exact List.mem_append_right _ (List.mem_cons_of_mem _ hrem)

/-- **Completeness.** After `n` passes, in which peers are asked and answer in any order, a replica
has scheduled every address within `2 ^ n` hops of its own seeds, its own apart. -/
theorem passes_complete (hD : D.Live) {n : Nat} (hp : Passes D configured w n w') {m : Nat} {r : R}
    {a : String} (hm : m ≤ 2 ^ n) (hops : Doubling.Hops D.host w.known m r a)
    (hne : D.selfAddress r ≠ some a) : a ∈ w'.known r := by
  have hwithin : Doubling.Within D.host D.selfAddress w.known w'.known (2 ^ n) := by
    clear hm hops hne
    induction hp with
    | zero => exact Doubling.within_one _ _ _
    | succ _ hpath hpass ih =>
      rw [pow_succ, mul_comm]
      exact ih.double hD.host (known_path hpath hpass.kept) fun r p q a hpeer hhost ha hne =>
        hpass.learns hD hpath hpeer hhost ha hne
  exact hwithin m r a hm hops hne

/-! ## Three replicas in a row -/

/-- `0` has `1` for a seed, and `1` has `2`. -/
def rowAddress (r : Fin 3) : String := ["a", "b", "c"].get r

/-- Three replicas, each known to the one before. -/
def row : Deployment (Fin 3) where
  host a := (List.finRange 3).find? fun r => rowAddress r = a
  selfAddress r := some (rowAddress r)
  advertised r := some (rowAddress r)
  knownPeers _ := .scheduler
  backoff := PeerScheduler.defaultBackoff
  builtins := ⟨fun _ => [], fun _ => .error .typeError, fun _ => .error .typeError,
    fun _ => .error .typeError⟩

/-- The peers each is configured with. -/
def rowSeeds (r : Fin 3) : List String := [["b"], ["c"], []].get r

/-- Before anything is discovered. -/
def rowStart : Membership (Fin 3) where
  schedulers r := PeerScheduler.init (rowSeeds r)

/-- The answer of `r` at the start. -/
def rowAnswer (r : Fin 3) : GossipTransport.HttpResult :=
  handlePeers (rowSeeds r) (some (rowAddress r))

/-- Each asks the next, and merges what it is told. -/
def rowCalls : List (MembershipCall (Fin 3)) :=
  [.contact 0 "b", .contact 1 "c", .answer 0 "b" (rowAnswer 1), .answer 1 "c" (rowAnswer 2),
    .merge 0 (rowAnswer 1), .merge 1 (rowAnswer 2)]

/-- The same peers, as a set. -/
def rowSeed (r : Fin 3) : Set String := { a | a ∈ rowSeeds r }

theorem rowStart_init : (system row rowSeed).init rowStart :=
  ⟨fun _ _ ha => mem_peers_init.1 ha, rfl, rfl⟩

theorem row_path : ∃ w, (system row rowSeed).Path rowStart rowCalls w := by
  have h₁ := (System.Path.refl (S := system row rowSeed) rowStart).tail
    (Step.contact 0 "b" (by decide))
  have h₂ := h₁.tail (Step.contact 1 "c" (by decide))
  have h₃ := h₂.tail (Step.answer 0 "b" (by decide) (by decide) (rfl : rowAnswer 1 = _))
  have h₄ := h₃.tail (Step.answer 1 "c" (by decide) (by decide) (rfl : rowAnswer 2 = _))
  have h₅ := h₄.tail (Step.merge 0 (rowAnswer 1) (.inl (by simp)))
  have h₆ := h₅.tail (Step.merge 1 (rowAnswer 2) (.inl (by simp [withScheduler])))
  exact ⟨_, h₆⟩

theorem row_live : row.Live where
  knownPeers _ := rfl
  advertised _ := rfl
  host r a h := by
    cases h
    revert r
    decide

theorem row_pass : Pass row rowStart rowCalls where
  kept r peer hmem := by simp [rowCalls] at hmem
  asked r peer hpeer q hhost := by
    have hseed : peer ∈ rowSeeds r := mem_peers_init.1 hpeer
    refine ⟨rowAnswer (if r = 0 then 1 else 2), ?_⟩
    by_cases h0 : r = 0
    · subst h0
      cases List.mem_singleton.1 hseed
      simp [rowCalls]
    · by_cases h1 : r = 1
      · subst h1
        cases List.mem_singleton.1 hseed
        simp [rowCalls]
      · have h2 : r = 2 := by omega
        subst h2
        cases hseed

/-- After one pass `0` has scheduled `2`, of which only `1` knew. -/
theorem passes_complete_row : ∃ w, (system row rowSeed).Path rowStart rowCalls w ∧ "c" ∈ w.known 0 := by
  obtain ⟨w, hpath⟩ := row_path
  have hops : Doubling.Hops row.host rowStart.known 2 0 "c" :=
    .cons (p := "b") (q := 1) (mem_peers_init.2 (by decide)) (by decide)
      (.one (mem_peers_init.2 (by decide)))
  exact ⟨w, hpath, passes_complete row_live (.succ (.zero _) hpath row_pass) (n := 1) (by decide)
    hops (by decide)⟩

/-- It has learned of it from `1`, and who is contacted from there on is learned of as well. -/
theorem known_learnable_row : ∃ w, (system row rowSeed).Reachable w ∧
    (∀ a ∈ w.known 0, Learnable row rowSeed 0 a) ∧
      ∀ a, (0, a) ∈ w.contacted → Learnable row rowSeed 0 a := by
  obtain ⟨w, hpath⟩ := row_path
  have hreach := hpath.reachable (.init rowStart_init)
  have hlearnable := known_learnable hreach 0
  exact ⟨w, hreach, hlearnable.1, hlearnable.2.1⟩

end Membership

end CksRuntime
