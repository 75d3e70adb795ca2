import CksRuntime.Gossip.Mesh
import CksRuntime.Gossip.Proof.Effect

/-!
# The clocks of a mesh

Only a replica itself moves the session on by its own clock, so nobody has ever seen more of it than
it has committed (`Inv`, `inv_reachable`). What a step does to the session where it runs is one of
the six cases of `Moved`. Of the two things the duplicate-id guard refuses, a snapshot ahead of the
receiver's own clock never arrives; one that is level with it does, as soon as a peer has built on
the receiver's last commit (`refuses_iff`).
-/

set_option autoImplicit false

namespace CksRuntime

open Transition Effect VersionVector GossipAdapter

variable {K : Core} {R : Type}

namespace Mesh

/-- The clocks in the metadata of a session at `r`: its own at least `c`, and no other further than
what its replica has committed. -/
structure Clocks (replicaId : R → String) (sessionId : String) (w : Mesh K R) (r : R) (c : Int)
    (m : Metadata) : Prop where
  node : ∀ q, m.nodeId ≠ some (replicaId q)
  own : c ≤ (fromMetadata m).get (replicaId r)
  others : ∀ q, q ≠ r → 0 ≤ (fromMetadata m).get (replicaId q) ∧
    (fromMetadata m).get (replicaId q) ≤ w.own replicaId sessionId q

/-- The history has all that the replicas hold, and none of it counts more commits of a replica than
that has made. -/
structure Inv (replicaId : R → String) (sessionId : String) (w : Mesh K R) : Prop where
  replica : ∀ q, (w.adapters q).replicaId = replicaId q ∧
    (w.adapters q).node.replicaId = some (replicaId q)
  recorded : ∀ q, ∀ s ∈ w.session sessionId q, s ∈ w.history
  held : ∀ s ∈ w.history, s.sessionId = sessionId ∧ ∀ q, s.metadata.nodeId ≠ some (replicaId q) ∧
    0 ≤ s.vector.get (replicaId q) ∧ s.vector.get (replicaId q) ≤ w.own replicaId sessionId q

/-- What a step leaves of the session at `r`; the index says whether its call has returned. -/
inductive Moved (replicaId : R → String) (sessionId : String) (w : Mesh K R) (r : R) :
    Option (Session K) → Bool → Prop
  | absent {b : Bool} : w.session sessionId r = none → Moved replicaId sessionId w r none b
  | created {b : Bool} {s' : Session K} : w.history = [] → s'.sessionId = sessionId →
      (∀ q, s'.metadata.nodeId ≠ some (replicaId q)) → s'.vector.clocks = ∅ →
      Moved replicaId sessionId w r (some s') b
  | kept {b : Bool} {s s' : Session K} : w.session sessionId r = some s → SnapshotOf s s' →
      Moved replicaId sessionId w r (some s') b
  | absorbed {b : Bool} {s s' t : Session K} : w.session sessionId r = some s → t ∈ w.history →
      K.structurallyEquivalent s.knowledgeStructure t.knowledgeStructure →
      s'.sessionId = sessionId → s'.knowledgeStructure = s.knowledgeStructure →
      s'.metadata = (GossipAdapter.absorbed s t).metadata →
      Moved replicaId sessionId w r (some s') b
  | committed {b : Bool} {s' : Session K} : s'.sessionId = sessionId →
      Clocks replicaId sessionId w r (w.own replicaId sessionId r + 1) s'.metadata →
      Moved replicaId sessionId w r (some s') b
  /-- A commit has raised before it bumped the clocks. -/
  | raised {s' : Session K} : s'.sessionId = sessionId →
      Clocks replicaId sessionId w r (w.own replicaId sessionId r) s'.metadata →
      Moved replicaId sessionId w r (some s') false

variable {replicaId : R → String} {sessionId : String} {w : Mesh K R} {r : R}

/-! ## Clocks -/

theorem own_of_some {s : Session K} (hs : w.session sessionId r = some s) :
    w.own replicaId sessionId r = s.vector.get (replicaId r) := by
  rw [own, hs]
  rfl

theorem own_of_none (hs : w.session sessionId r = none) : w.own replicaId sessionId r = 0 := by
  rw [own, hs]
  rfl

theorem Inv.own_nonneg (h : Inv replicaId sessionId w) (r : R) :
    0 ≤ w.own replicaId sessionId r := by
  cases hs : w.session sessionId r with
  | none => rw [own_of_none hs]
  | some s =>
    rw [own_of_some hs]
    exact ((h.held s (h.recorded r s hs)).2 r).2.1

/-- A session of the history has clocks that a session at any replica may have, its own apart. -/
theorem Inv.clocks (h : Inv replicaId sessionId w) {s : Session K} (hs : s ∈ w.history) (r : R) :
    Clocks replicaId sessionId w r (s.vector.get (replicaId r)) s.metadata :=
  ⟨fun q => ((h.held s hs).2 q).1, le_rfl, fun q _ => ((h.held s hs).2 q).2⟩

theorem Inv.clocks_own (h : Inv replicaId sessionId w) {s : Session K}
    (hs : w.session sessionId r = some s) :
    Clocks replicaId sessionId w r (w.own replicaId sessionId r) s.metadata := by
  rw [own_of_some hs]
  exact h.clocks (h.recorded r s hs) r

theorem Clocks.absorbed {c : Int} {s t : Session K}
    (hs : Clocks replicaId sessionId w r c s.metadata) (h : Inv replicaId sessionId w)
    (ht : t ∈ w.history) :
    Clocks replicaId sessionId w r c (GossipAdapter.absorbed s t).metadata where
  node := hs.node
  own := hs.own.trans (get_le_absorb s.vector t.vector _)
  others q hq := ⟨(hs.others q hq).1.trans (get_le_absorb s.vector t.vector _),
    get_absorb_le (hs.others q hq).2 ((h.held t ht).2 q).2.2⟩

/-- A commit bumps the replica's own clock, and no other replica's. -/
theorem Clocks.bump (hinj : Function.Injective replicaId) {c : Int} {m : Metadata}
    (hm : Clocks replicaId sessionId w r c m) :
    Clocks replicaId sessionId w r (c + 1) (Pipeline.bumpMetadata (some (replicaId r)) m) := by
  refine ⟨fun q => ?_, ?_, fun q hq => ?_⟩
  · rw [nodeId_bumpMetadata]
    exact hm.node q
  · rw [vector_bumpMetadata, get_bumpVector, if_neg (hm.node r), if_pos rfl]
    have := hm.own
    omega
  · have hne : some (replicaId r) ≠ some (replicaId q) := fun he => hq (hinj (Option.some.inj he).symm)
    rw [vector_bumpMetadata, get_bumpVector, if_neg (hm.node q), if_neg hne, Int.add_zero,
      Int.add_zero]
    exact hm.others q hq

/-- Items whose merges have seen no more than is committed leave such clocks. -/
theorem Clocks.items {c : Int} {m : Metadata} (hm : Clocks replicaId sessionId w r c m)
    {registry : OperationRegistry K} {done : List (Item K)} {tx : Transaction K}
    (hdone : ∀ x ∈ done, x ∈ tx.items)
    (hsources : ∀ source, tx.Sources registry source → ∀ q, q ≠ r →
      source.vector.get (replicaId q) ≤ w.own replicaId sessionId q) :
    Clocks replicaId sessionId w r c (itemsMetadata registry done m) := by
  have hle := le_itemsMetadata registry done m
  refine ⟨fun q => ?_, hm.own.trans (get_mono hle _), fun q hq => ⟨?_, ?_⟩⟩
  · rw [nodeId_itemsMetadata]
    exact hm.node q
  · exact (hm.others q hq).1.trans (get_mono hle _)
  · exact get_itemsMetadata_le (hm.others q hq).2 fun x hx op hop source hsource =>
      hsources source ⟨x, hdone x hx, op, hop, hsource⟩ q hq

/-! ## What a step leaves -/

/-- Whatever a step leaves at `r` has clocks a session there may have. -/
theorem Moved.clocks {new : Option (Session K)} {b : Bool}
    (hm : Moved replicaId sessionId w r new b) (h : Inv replicaId sessionId w) :
    ∀ s' ∈ new, s'.sessionId = sessionId ∧
      Clocks replicaId sessionId w r (w.own replicaId sessionId r) s'.metadata := by
  intro s' hs'
  cases hm with
  | absent => cases hs'
  | created hhist hid hnode hvec =>
    cases hs'
    -- nobody has a session before the first is created
    have hnone : ∀ q, w.session sessionId q = none := by
      intro q
      cases hs : w.session sessionId q with
      | none => rfl
      | some s =>
        have hmem := h.recorded q s hs
        rw [hhist] at hmem
        exact absurd hmem List.not_mem_nil
    have hget : ∀ k, (fromMetadata s'.metadata).get k = 0 := fun k =>
      get_of_notMem (by
        rw [show (fromMetadata s'.metadata).clocks = ∅ from hvec]
        exact Finmap.notMem_empty)
    refine ⟨hid, hnode, ?_, fun q _ => ?_⟩
    · rw [hget, own_of_none (hnone r)]
    · rw [hget, own_of_none (hnone q)]
      exact ⟨le_rfl, le_rfl⟩
  | @kept _ s _ hs hsame =>
    cases hs'
    rw [hsame.sessionId, hsame.metadata]
    exact ⟨(h.held s (h.recorded r s hs)).1, h.clocks_own hs⟩
  | @absorbed _ s _ t hs ht heq hid hks hm =>
    cases hs'
    rw [hm]
    exact ⟨hid, (h.clocks_own hs).absorbed h ht⟩
  | committed hid hc =>
    cases hs'
    exact ⟨hid, hc.node, (Int.le_add_one le_rfl).trans hc.own, hc.others⟩
  | raised hid hc =>
    cases hs'
    exact ⟨hid, hc⟩

variable [DecidableEq R] {a : Adapter K}

theorem adapters_after_self : (w.after sessionId r a).adapters r = a := Function.update_self _ _ _

theorem adapters_after_ne {q : R} (hq : q ≠ r) :
    (w.after sessionId r a).adapters q = w.adapters q := Function.update_of_ne hq _ _

theorem session_after_self :
    (w.after sessionId r a).session sessionId r = a.node.sessions sessionId := by
  rw [session, adapters_after_self]

theorem session_after_ne {q : R} (hq : q ≠ r) :
    (w.after sessionId r a).session sessionId q = w.session sessionId q := by
  rw [session, adapters_after_ne hq, session]

theorem own_after_ne {q : R} (hq : q ≠ r) :
    (w.after sessionId r a).own replicaId sessionId q = w.own replicaId sessionId q := by
  rw [own, session_after_ne hq, own]

/-- No step moves an own clock back. -/
theorem Moved.own_le {b : Bool} (hm : Moved replicaId sessionId w r (a.node.sessions sessionId) b)
    (h : Inv replicaId sessionId w) (q : R) :
    w.own replicaId sessionId q ≤ (w.after sessionId r a).own replicaId sessionId q := by
  by_cases hq : q = r
  · subst hq
    have hc := hm.clocks h
    cases hs : a.node.sessions sessionId with
    | none =>
      rw [hs] at hm
      cases hm with
      | absent hnone => rw [own_of_none hnone, own_of_none (session_after_self.trans hs)]
    | some s =>
      rw [own_of_some (session_after_self.trans hs)]
      exact (hc s hs).2.own
  · rw [own_after_ne hq]

theorem Moved.inv {b : Bool} (hm : Moved replicaId sessionId w r (a.node.sessions sessionId) b)
    (h : Inv replicaId sessionId w) (hrep : a.replicaId = replicaId r)
    (hnode : a.node.replicaId = some (replicaId r)) :
    Inv replicaId sessionId (w.after sessionId r a) := by
  refine ⟨fun q => ?_, fun q s hs => ?_, fun s hmem => ?_⟩
  · by_cases hq : q = r
    · subst hq
      rw [adapters_after_self]
      exact ⟨hrep, hnode⟩
    · rw [adapters_after_ne hq]
      exact h.replica q
  · by_cases hq : q = r
    · subst hq
      rw [session_after_self] at hs
      exact List.mem_append_right _ (Option.mem_toList.2 hs)
    · rw [session_after_ne hq] at hs
      exact List.mem_append_left _ (h.recorded q s hs)
  · rcases List.mem_append.1 hmem with hs | hs
    · obtain ⟨hid, hc⟩ := h.held s hs
      exact ⟨hid, fun q => ⟨(hc q).1, (hc q).2.1, (hc q).2.2.trans (hm.own_le h q)⟩⟩
    · rw [Option.mem_toList] at hs
      obtain ⟨hid, hc⟩ := hm.clocks h s hs
      refine ⟨hid, fun q => ⟨hc.node q, ?_⟩⟩
      by_cases hq : q = r
      · subst hq
        rw [own_of_some (session_after_self.trans hs)]
        exact ⟨(h.own_nonneg q).trans hc.own, le_rfl⟩
      · rw [own_after_ne hq]
        exact hc.others q hq

end Mesh

/-! ## The steps -/

theorem SnapshotOf.vector {s remote : Session K} (h : SnapshotOf s remote) :
    remote.vector = s.vector := congrArg fromMetadata h.metadata

theorem SnapshotOf.absorbed {t remote : Session K} (h : SnapshotOf t remote) (s : Session K) :
    GossipAdapter.absorbed s remote = GossipAdapter.absorbed s t := by
  rw [GossipAdapter.absorbed, h.vector, GossipAdapter.absorbed]

theorem Quiet.reported {n n' : Node K} (h : Quiet n n') {sessionId : String}
    (hr : Reported sessionId n') : Reported sessionId n := by
  obtain ⟨events, hev, hq⟩ := h
  obtain ⟨ownReplicaId, localClock, remoteClock, hmem⟩ := hr
  rw [hev] at hmem
  rcases List.mem_append.1 hmem with hmem | hmem
  · exact ⟨ownReplicaId, localClock, remoteClock, hmem⟩
  · exact absurd trivial (hq _ hmem)

namespace Mesh

variable {replicaId : R → String} {sessionId : String} {w : Mesh K R} {r : R}
  {env : GossipEnv K} {remote t : Session K}

theorem reconciled_moved (hinj : Function.Injective replicaId) (h : Inv replicaId sessionId w)
    {s s' : Session K} {b : Bool} (hs : w.session sessionId r = some s) (ht : t ∈ w.history)
    (hsnap : SnapshotOf t remote) (hid : s'.sessionId = sessionId)
    (hrec : Reconciled (some (replicaId r)) s remote s' b) :
    Moved replicaId sessionId w r (some s') b := by
  have hids := (h.held s (h.recorded r s hs)).1
  have habs := hsnap.absorbed s
  cases hrec with
  | kept hks hm => exact .kept hs ⟨hid.trans hids.symm, hks, hm⟩
  | absorbed heq hks hm =>
    rw [hsnap.knowledgeStructure] at heq
    exact .absorbed hs ht heq hid hks (by rw [hm, habs])
  | committed m hm hbump =>
    have hc : Clocks replicaId sessionId w r (w.own replicaId sessionId r) m := by
      rcases hm with rfl | rfl
      · exact h.clocks_own hs
      · rw [habs]
        exact (h.clocks_own hs).absorbed h ht
    refine .committed hid ?_
    rw [hbump]
    exact hc.bump hinj
  | raised hm =>
    refine .raised hid ?_
    rcases hm with hm | hm
    · rw [hm]
      exact h.clocks_own hs
    · rw [hm, habs]
      exact (h.clocks_own hs).absorbed h ht

theorem adopted_moved (hinj : Function.Injective replicaId) (h : Inv replicaId sessionId w)
    {s' : Session K} {b : Bool} (hs : w.session sessionId r = none) (ht : t ∈ w.history)
    (hsnap : SnapshotOf t remote) (henv : ∀ q, env.nodeId ≠ replicaId q)
    (hid : s'.sessionId = sessionId) (had : Adopted env (some (replicaId r)) remote s' b) :
    Moved replicaId sessionId w r (some s') b := by
  have hvec : fromMetadata (bootstrapped env.nodeId remote).metadata = t.vector := hsnap.vector
  have hc : Clocks replicaId sessionId w r (w.own replicaId sessionId r)
      (bootstrapped env.nodeId remote).metadata := by
    refine ⟨fun q he => henv q (Option.some.inj he), ?_, fun q _ => ?_⟩
    · rw [hvec, own_of_none hs]
      exact ((h.held t ht).2 r).2.1
    · rw [hvec]
      exact ((h.held t ht).2 q).2
  rcases had with hm | ⟨rfl, hm⟩
  · refine .committed hid ?_
    rw [hm]
    exact hc.bump hinj
  · refine .raised hid ?_
    rw [hm]
    exact hc

/-- A delivery. What it publishes of a duplicate id, the guard has found. -/
theorem deliver_moved (hinj : Function.Injective replicaId) (h : Inv replicaId sessionId w)
    (ht : t ∈ w.history) (hsnap : SnapshotOf t remote) (henv : ∀ q, env.nodeId ≠ replicaId q)
    (hbranch : env.branchId ≠ sessionId) {a : Adapter K}
    (ha : stateOf (applyRemoteSession env remote (w.adapters r)) = a) :
    a.replicaId = replicaId r ∧ a.node.replicaId = some (replicaId r) ∧
      Moved replicaId sessionId w r (a.node.sessions sessionId)
        (returned (applyRemoteSession env remote (w.adapters r))) ∧
      (Reported sessionId a.node → Reported sessionId (w.adapters r).node ∨
        Refuses sessionId w (.deliver r env remote)) := by
  obtain ⟨hrep, hnode⟩ := h.replica r
  have hremote : remote.sessionId = sessionId := hsnap.sessionId.trans (h.held t ht).1
  cases hs : w.session sessionId r with
  | none =>
    have hs' : (w.adapters r).node.sessions remote.sessionId = none := by
      rw [hremote]
      exact hs
    obtain ⟨hrep', hleaves⟩ := apply_unknown env hs'
    rw [ha] at hrep' hleaves
    rw [hnode, hremote] at hleaves
    -- the snapshot is adopted, unless the call has raised before
    rcases hleaves with ⟨rfl, -⟩ | hleaves
    · rw [hremote] at hs'
      rw [hs']
      exact ⟨hrep, hnode, .absent hs, .inl⟩
    · obtain ⟨s', hnew, hid, had⟩ := hleaves.session
      rw [hnew]
      exact ⟨hrep'.trans hrep, hleaves.replicaId.trans hnode,
        adopted_moved hinj h hs ht hsnap henv hid had, fun hr => .inl (hleaves.quiet.reported hr)⟩
  | some s =>
    have hs' : (w.adapters r).node.sessions remote.sessionId = some s := by
      rw [hremote]
      exact hs
    have hid : s.sessionId = remote.sessionId :=
      (h.held s (h.recorded r s hs)).1.trans hremote.symm
    obtain ⟨hrep', hcase⟩ := apply_known env hs' hid (by rw [hremote]; exact hbranch)
    rw [ha] at hrep' hcase
    rw [hnode, hremote] at hcase
    -- refused as from a duplicate, or reconciled
    rcases hcase with ⟨hdup, hnode', hsame⟩ | ⟨-, hleaves⟩
    · rw [hremote] at hs'
      rw [hsame, hs']
      exact ⟨hrep'.trans hrep, hnode', .kept hs ⟨rfl, rfl, rfl⟩, fun _ => .inr ⟨s, hs, hdup⟩⟩
    · obtain ⟨s', hnew, hid', hrec⟩ := hleaves.session
      rw [hnew]
      exact ⟨hrep'.trans hrep, hleaves.replicaId.trans hnode,
        reconciled_moved hinj h hs ht hsnap hid' hrec, fun hr => .inl (hleaves.quiet.reported hr)⟩

theorem commit_moved (hinj : Function.Injective replicaId) (h : Inv replicaId sessionId w)
    {env : Env K} {tx : Transaction K} {s : Session K} (hs : w.session sessionId r = some s)
    (henv : env.replicaId = (w.adapters r).node.replicaId)
    (hsources : ∀ source, tx.Sources env.registry source → ∀ q, q ≠ r →
      source.vector.get (replicaId q) ≤ w.own replicaId sessionId q) {n : Node K}
    (hn : stateOf (Runtime.onSession sessionId s tx (Pipeline.commit env) (w.adapters r).node) = n) :
    n.replicaId = some (replicaId r) ∧
      Moved replicaId sessionId w r (n.sessions sessionId)
        (returned (Runtime.onSession sessionId s tx (Pipeline.commit env) (w.adapters r).node)) ∧
      (Reported sessionId n → Reported sessionId (w.adapters r).node) := by
  rw [Runtime.stateOf_onSession] at hn
  rw [returned_onSession]
  obtain ⟨done, hdone, ks, metadata, ds, history, active, hses, hmeta⟩ :=
    Pipeline.commit_session env ⟨s, tx, (w.adapters r).node.shared⟩
  obtain ⟨events, hev, hall⟩ := Pipeline.commit_events env ⟨s, tx, (w.adapters r).node.shared⟩
  have hc : Clocks replicaId sessionId w r (w.own replicaId sessionId r)
      (itemsMetadata env.registry done s.metadata) := (h.clocks_own hs).items hdone hsources
  have hid : s.sessionId = sessionId := (h.held s (h.recorded r s hs)).1
  have hquiet : Quiet (w.adapters r).node n := by
    subst hn
    exact ⟨events, hev, fun e he => (hall e he).not_duplicate⟩
  refine ⟨?_, ?_, hquiet.reported⟩
  · subst hn
    exact (h.replica r).2
  · subst hn
    dsimp only
    rw [Function.update_self, hses]
    rw [henv, (h.replica r).2] at hmeta
    rcases hmeta with rfl | ⟨hret, rfl⟩
    · exact .committed hid (hc.bump hinj)
    · rw [hret]
      exact .raised hid hc

theorem create_moved {env : CallEnv K} (hhist : w.history = []) (hid : env.sessionId = sessionId)
    (henv : ∀ q, env.nodeId ≠ replicaId q) (ks : K.Structure) {n : Node K}
    (hn : stateOf (Runtime.createSession env ks (w.adapters r).node) = n) :
    n.replicaId = (w.adapters r).node.replicaId ∧
      Moved replicaId sessionId w r (n.sessions sessionId) true ∧
      (Reported sessionId n → Reported sessionId (w.adapters r).node) := by
  obtain ⟨hses, hrep, hev⟩ := Runtime.stateOf_adopt env
    (SessionManager.newSession env.sessionId env.nodeId ks) (w.adapters r).node
  rw [show stateOf (Runtime.adopt env (SessionManager.newSession env.sessionId env.nodeId ks)
    (w.adapters r).node) = n from hn] at hses hrep hev
  have hquiet : Quiet (w.adapters r).node n := by
    rcases hev with hev | hev
    · exact ⟨[], by rw [hev, List.append_nil], fun e he => absurd he List.not_mem_nil⟩
    · refine ⟨_, hev, fun e he => ?_⟩
      rw [List.mem_singleton.1 he]
      exact id
  refine ⟨hrep, ?_, hquiet.reported⟩
  have hnew : n.sessions sessionId =
      some (SessionManager.newSession env.sessionId env.nodeId ks) := by
    rw [hses, ← hid]
    exact Function.update_self _ _ _
  rw [hnew]
  exact .created hhist hid (fun q he => henv q (Option.some.inj he)) rfl

variable [DecidableEq R]

/-- A step leaves one replica changed, in one of the ways of `Moved`. -/
theorem step_moved (hinj : Function.Injective replicaId) (h : Inv replicaId sessionId w)
    {w' : Mesh K R} {l : MeshCall K R} (hst : Step replicaId sessionId w l w') :
    ∃ r a b, w' = w.after sessionId r a ∧ a.replicaId = replicaId r ∧
      a.node.replicaId = some (replicaId r) ∧
      Moved replicaId sessionId w r (a.node.sessions sessionId) b ∧
      (Returns sessionId w l → b = true) ∧
      (Reported sessionId a.node → Reported sessionId (w.adapters r).node ∨
        Refuses sessionId w l) := by
  cases hst with
  | create r env ks hhist hid henv hn =>
    obtain ⟨hrep, hmoved, hrepd⟩ := create_moved hhist hid henv ks hn
    exact ⟨r, _, true, rfl, (h.replica r).1, hrep.trans (h.replica r).2, hmoved, fun _ => rfl,
      fun hr => .inl (hrepd hr)⟩
  | commit r env tx hs henv hsources hn =>
    obtain ⟨hrep, hmoved, hrepd⟩ := commit_moved hinj h hs henv hsources hn
    exact ⟨r, _, _, rfl, (h.replica r).1, hrep, hmoved, fun hret => hret _ hs,
      fun hr => .inl (hrepd hr)⟩
  | deliver r env remote ht hsnap henv hbranch ha =>
    obtain ⟨hrep, hnode, hmoved, hrepd⟩ := deliver_moved hinj h ht hsnap henv hbranch ha
    exact ⟨r, _, _, rfl, hrep, hnode, hmoved, id, hrepd⟩
  | elsewhere r a hrep hnode hsame hrepd =>
    refine ⟨r, a, true, rfl, hrep.trans (h.replica r).1, hnode.trans (h.replica r).2, ?_,
      fun _ => rfl, fun hr => .inl (hrepd hr)⟩
    cases hs : w.session sessionId r with
    | none =>
      rw [hs] at hsame
      cases hnew : a.node.sessions sessionId with
      | none => exact .absent hs
      | some s' => rw [hnew] at hsame; cases hsame
    | some s =>
      rw [hs] at hsame
      cases hnew : a.node.sessions sessionId with
      | none => rw [hnew] at hsame; cases hsame
      | some s' =>
        rw [hnew] at hsame
        cases hsame with
        | some hsnap => exact .kept hs hsnap

theorem inv_init (hi : (system K replicaId sessionId).init w) : Inv replicaId sessionId w := by
  obtain ⟨hhist, hall⟩ := hi
  refine ⟨fun q => ⟨(hall q).1, (hall q).2.1⟩, fun q s hs => ?_, fun s hs => ?_⟩
  · rw [(hall q).2.2.1] at hs
    cases hs
  · rw [hhist] at hs
    cases hs

theorem inv_reachable (hinj : Function.Injective replicaId)
    (hr : (system K replicaId sessionId).Reachable w) : Inv replicaId sessionId w := by
  refine hr.invariant (fun _ => inv_init) fun w l w' _ h hst => ?_
  obtain ⟨r, a, b, rfl, hrep, hnode, hmoved, -⟩ := step_moved hinj h hst
  exact hmoved.inv h hrep hnode

/-! ## The guard -/

/-- A snapshot never arrives ahead of the receiver's own clock, so a delivery is refused exactly
when somebody has built on the receiver's last commit. -/
theorem refuses_iff (hinj : Function.Injective replicaId)
    (hr : (system K replicaId sessionId).Reachable w) {w' : Mesh K R} {l : MeshCall K R}
    (hst : Step replicaId sessionId w l w') :
    Refuses sessionId w l ↔ ¬NotBuiltOn replicaId sessionId w l := by
  have h := inv_reachable hinj hr
  cases hst with
  | deliver r env remote ht hsnap henv hbranch ha =>
    have hle : remote.vector.get (replicaId r) ≤ w.own replicaId sessionId r := by
      rw [hsnap.vector]
      exact ((h.held _ ht).2 r).2.2
    unfold Refuses NotBuiltOn
    dsimp only
    push Not
    refine exists_congr fun s => and_congr_right fun hs => ?_
    rw [own_of_some hs] at hle
    rw [(h.replica r).1]
    unfold duplicateIdDetected
    constructor
    · rintro (hlt | ⟨hpos, heq, hne⟩)
      · omega
      · exact ⟨by omega, heq, hne⟩
    · rintro ⟨hpos, heq, hne⟩
      exact .inr ⟨by omega, heq, hne⟩
  | _ => simp [Refuses, NotBuiltOn]

/-- **The guard and distinct replica ids.** The guard is wrong whenever a snapshot comes back in
which somebody has built on the receiver's last commit, and never else; in a run without such
deliveries it reports nothing. -/
theorem duplicate_id_reported_iff (hinj : Function.Injective replicaId)
    (hr : (system K replicaId sessionId).Reachable w) :
    (∀ l w', Step replicaId sessionId w l w' →
      (Refuses sessionId w l ↔ ¬NotBuiltOn replicaId sessionId w l)) ∧
    (((system K replicaId sessionId).restrict (NotBuiltOn replicaId sessionId)).Reachable w →
      ∀ r, ¬Reported sessionId (w.adapters r).node) := by
  refine ⟨fun l w' => refuses_iff hinj hr, fun hrestrict => ?_⟩
  clear hr
  refine hrestrict.invariant (fun w hi r => (hi.2 r).2.2.2) fun w l w' hw hrep hst q => ?_
  obtain ⟨hst, hcond⟩ := hst
  obtain ⟨r, a, b, rfl, -, -, -, -, hreported⟩ :=
    step_moved hinj (inv_reachable hinj hw.of_restrict) hst
  by_cases hq : q = r
  · subst hq
    rw [adapters_after_self]
    intro hnew
    rcases hreported hnew with hold | href
    · exact hrep q hold
    · exact (refuses_iff hinj hw.of_restrict hst).1 href hcond
  · rw [adapters_after_ne hq]
    exact hrep q

/-! ## Two replicas -/

/-- `true` is the replica `"a"`, `false` the replica `"b"`. -/
def pairId (r : Bool) : String := if r then "a" else "b"

theorem pairId_injective : Function.Injective pairId := by
  intro p q h
  cases p <;> cases q <;> first | rfl | (revert h; decide)

/-- What a commit at `r` meets. -/
def pairEnv (r : Bool) (versionId : String) : Env Core.register :=
  { replicaId := some (pairId r), versionId := versionId }

/-- What a delivery meets. -/
def pairGossip (versionId nodeId : String) : GossipEnv Core.register where
  pipeline := { replicaId := none, versionId := versionId }
  transactionId := "t"
  nodeId := nodeId
  branchId := "branch"
  branchNodeId := "branch-node"

/-- A transaction that sets the register. -/
def setTo (n : Nat) : Transaction Core.register where
  transactionId := "t"
  operations := [⟨"set", .replaceState (some n)⟩]
  initialState := (0 : Nat)

theorem setTo_sources {n : Nat} {registry : OperationRegistry Core.register}
    {source : Session Core.register} : ¬(setTo n).Sources registry source := by
  rintro ⟨x, hx, op, hop, hs⟩
  rw [List.mem_singleton.1 hx] at hop
  cases hop
  cases hs

/-- The two replicas, before there is a session. -/
def pair : Mesh Core.register Bool where
  adapters r := { node := { replicaId := some (pairId r) }, replicaId := pairId r }

/-- `a` has created the session, at zero. -/
def pairCreated : Mesh Core.register Bool :=
  pair.after "s" true { pair.adapters true with
    node := stateOf (Runtime.createSession ⟨"s", "n", none, fun _ => none⟩ (0 : Nat)
      (pair.adapters true).node) }

/-- The session `a` has created. -/
def createdAtA : Session Core.register := SessionManager.newSession "s" "n" (0 : Nat)

/-- `a` has committed `5`. -/
def pairCommitted : Mesh Core.register Bool :=
  pairCreated.after "s" true { pairCreated.adapters true with
    node := stateOf (Runtime.onSession "s" createdAtA (setTo 5)
      (Pipeline.commit (pairEnv true "v1")) (pairCreated.adapters true).node) }

/-- The session after `a`'s commit. -/
def committedAtA : Session Core.register :=
  (stateOf (Pipeline.commit (pairEnv true "v1")
    ⟨createdAtA, setTo 5, (pairCreated.adapters true).node.shared⟩)).session

/-- `b` has adopted that. -/
def pairAdopted : Mesh Core.register Bool :=
  pairCommitted.after "s" false
    (stateOf (applyRemoteSession (pairGossip "v2" "m") committedAtA (pairCommitted.adapters false)))

/-- The session as `b` has it from `a`. -/
def adoptedAtB : Session Core.register := (pairAdopted.session "s" false).get (by decide)

/-- `b` has committed `7`. -/
def pairBuiltOn : Mesh Core.register Bool :=
  pairAdopted.after "s" false { pairAdopted.adapters false with
    node := stateOf (Runtime.onSession "s" adoptedAtB (setTo 7)
      (Pipeline.commit (pairEnv false "v3")) (pairAdopted.adapters false).node) }

/-- The session after `b`'s commit. -/
def committedAtB : Session Core.register := (pairBuiltOn.session "s" false).get (by decide)

/-- `a` has been sent that. -/
def pairRefused : Mesh Core.register Bool :=
  pairBuiltOn.after "s" true
    (stateOf (applyRemoteSession (pairGossip "v4" "m'") committedAtB (pairBuiltOn.adapters true)))

theorem pairAdopted_session : pairAdopted.session "s" false = some adoptedAtB :=
  (Option.some_get _).symm

/-- Until then every call has returned, and nothing was built on. -/
theorem pairAdopted_reachable :
    ((system Core.register pairId "s").restrict fun w l =>
      NotBuiltOn pairId "s" w l ∧ Returns "s" w l).Reachable pairAdopted := by
  have h₀ : ((system Core.register pairId "s").restrict fun w l =>
      NotBuiltOn pairId "s" w l ∧ Returns "s" w l).Reachable pair := by
    refine .init ⟨rfl, fun r => ⟨rfl, rfl, rfl, ?_⟩⟩
    rintro ⟨ownReplicaId, localClock, remoteClock, hmem⟩
    exact absurd hmem List.not_mem_nil
  have h₁ := h₀.step ⟨Step.create true ⟨"s", "n", none, fun _ => none⟩ (0 : Nat) rfl rfl
    (by decide) rfl, trivial, trivial⟩
  have h₂ := h₁.step ⟨Step.commit true (pairEnv true "v1") (setTo 5) (s := createdAtA) rfl rfl
    (fun source hs => absurd hs setTo_sources) rfl, trivial, ?_⟩
  · refine h₂.step ⟨Step.deliver false (pairGossip "v2" "m") committedAtA (s := committedAtA)
      ?_ ⟨rfl, rfl, rfl⟩ (by decide) (by decide) rfl, ?_, ?_⟩
    · exact (inv_reachable pairId_injective h₂.of_restrict).recorded true committedAtA rfl
    · intro s hs
      cases hs
    · show returned _ = true
      decide
  · intro s hs
    cases hs
    decide

/-- `a` has absorbed what `b` made of its session. -/
def pairInStep : Mesh Core.register Bool :=
  pairAdopted.after "s" true
    (stateOf (applyRemoteSession (pairGossip "v3" "m'") adoptedAtB (pairAdopted.adapters true)))

theorem pairInStep_reachable :
    ((system Core.register pairId "s").restrict fun w l =>
      NotBuiltOn pairId "s" w l ∧ Returns "s" w l).Reachable pairInStep := by
  refine pairAdopted_reachable.step
    ⟨Step.deliver true (pairGossip "v3" "m'") adoptedAtB (s := adoptedAtB) ?_ ⟨rfl, rfl, rfl⟩
      (by decide) (by decide) rfl, ?_, ?_⟩
  · exact (inv_reachable pairId_injective pairAdopted_reachable.of_restrict).recorded false _
      pairAdopted_session
  · intro s hs hpos hsame
    have hs' : pairAdopted.session "s" true = some s := hs
    cases hs'
    decide
  · show returned _ = true
    decide

/-- Two replicas each of which has taken the other's session. -/
theorem duplicate_id_unreported_inStep :
    ¬Reported "s" (pairInStep.adapters true).node ∧
      ¬Reported "s" (pairInStep.adapters false).node := by
  have hr := pairInStep_reachable.mono fun _ _ h => h.1
  have hquiet := (duplicate_id_reported_iff pairId_injective hr.of_restrict).2 hr
  exact ⟨hquiet true, hquiet false⟩

/-- The second replica commits to the session it has adopted and sends it back: the first takes it
for a clone of its own. -/
theorem duplicate_id_reported_distinct :
    (system Core.register pairId "s").Reachable pairRefused ∧
      Reported "s" (pairRefused.adapters true).node := by
  have h₃ := pairAdopted_reachable.of_restrict
  have h₄ := h₃.step (Step.commit false (pairEnv false "v3") (setTo 7) pairAdopted_session rfl
    (fun source hs => absurd hs setTo_sources) rfl)
  have hs : pairBuiltOn.session "s" false = some committedAtB := (Option.some_get _).symm
  refine ⟨h₄.step (Step.deliver true (pairGossip "v4" "m'") committedAtB
    ((inv_reachable pairId_injective h₄).recorded false _ hs) ⟨rfl, rfl, rfl⟩ (by decide)
    (by decide) rfl), "a", 1, 1, ?_⟩
  decide

end Mesh

end CksRuntime
