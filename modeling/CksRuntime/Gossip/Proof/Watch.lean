import CksRuntime.Gossip.Proof.Effect
import CksRuntime.Gossip.Watch

/-!
# When a conflict is reported once

Every delivery is one input of a filter that remembers the last vector it has reported
(`deliver_memo`): a conflict is offered to it, a resolution clears it, and nothing else touches it.
-/

set_option autoImplicit false

namespace CksRuntime

open Effect Transition

variable {K : Core}

theorem Event.OfTransaction.not_gossipConflict {transactionId : String} {e : Event}
    (h : e.OfTransaction transactionId) : e.isGossipConflict = false := by
  cases e <;> first | rfl | exact h.elim

/-- A call that has published no conflict and registered no branch. -/
structure Unreported (branchId : String) (n n' : Node K) : Prop where
  branch : n'.sessions branchId = n.sessions branchId
  events : ∃ events, n'.shared.events = n.shared.events ++ events ∧
    ∀ e ∈ events, e.isGossipConflict = false

namespace Unreported

variable {branchId : String} {n n₁ n' : Node K}

theorem refl (n : Node K) : Unreported branchId n n where
  branch := rfl
  events := ⟨[], by simp⟩

theorem trans (h : Unreported branchId n n₁) (h' : Unreported branchId n₁ n') :
    Unreported branchId n n' where
  branch := h'.branch.trans h.branch
  events := by
    obtain ⟨es, hes, hq⟩ := h.events
    obtain ⟨es', hes', hq'⟩ := h'.events
    refine ⟨es ++ es', by rw [hes', hes, List.append_assoc], fun e he => ?_⟩
    rcases List.mem_append.1 he with he | he
    · exact hq e he
    · exact hq' e he

theorem registered {s : Session K} (h : s.sessionId ≠ branchId) :
    Unreported branchId n (n.registered s) where
  branch := Function.update_of_ne h.symm _ _
  events := ⟨[], by simp [Node.registered]⟩

theorem saved (s : Session K) : Unreported branchId n (n.saved s) where
  branch := rfl
  events := ⟨[], by simp [Node.saved]⟩

theorem published {event : Event} (h : event.isGossipConflict = false) :
    Unreported branchId n (n.published event) where
  branch := rfl
  events := ⟨[event], rfl, fun e he => by rw [List.mem_singleton.1 he]; exact h⟩

theorem publishedBetween_eq (h : Unreported branchId n n') : Watch.publishedBetween n n' = 0 := by
  obtain ⟨es, hes, hq⟩ := h.events
  rw [Watch.publishedBetween, hes, List.drop_left, List.countP_eq_zero]
  intro e he
  simp [hq e he]

/-- What is published after it is all that has been published. -/
theorem publishedBetween_append (h : Unreported branchId n n₁) {events : List Event} {count : Nat}
    (hev : n'.shared.events = n₁.shared.events ++ events)
    (hcount : events.countP Event.isGossipConflict = count) :
    Watch.publishedBetween n n' = count := by
  obtain ⟨es, hes, hq⟩ := h.events
  have hnone : es.countP Event.isGossipConflict = 0 := by
    rw [List.countP_eq_zero]
    intro e he
    simp [hq e he]
  rw [Watch.publishedBetween, hev, hes, List.append_assoc, List.drop_left, List.countP_append,
    hnone, hcount, Nat.zero_add]

theorem branchedBetween_eq (h : Unreported branchId n n') :
    Watch.branchedBetween branchId n n' = 0 := by
  rw [Watch.branchedBetween, h.branch]
  cases n.sessions branchId <;> simp

end Unreported

namespace GossipAdapter

variable {env : GossipEnv K} {s remote : Session K} {n : Node K} {a : Adapter K}
  {branchId : String}

/-! ## Calls that report nothing -/

theorem commitTransaction_unreported (env : GossipEnv K) (operations : List (Operation K))
    (h : s.sessionId ≠ branchId) (n : Node K) :
    Unreported branchId n (stateOf (commitTransaction env s operations n)) := by
  rw [commitTransaction_run]
  by_cases hact : s.hasActiveTransaction
  · rw [if_pos hact]
    exact .refl n
  · rw [if_neg hact, Runtime.stateOf_onSession]
    obtain ⟨events, hev, hall⟩ :=
      Pipeline.commit_events (commitEnv env n.replicaId) (commitCtx env s operations n)
    have hbegun : (Runtime.begun env.transactionId s.sessionId s n).sessions branchId =
        n.sessions branchId := Function.update_of_ne h.symm _ _
    refine ⟨(Function.update_of_ne h.symm _ _).trans hbegun, events, hev, fun e he => ?_⟩
    exact (hall e he).not_gossipConflict

theorem absorbVector_unreported (env : GossipEnv K) (remote : Session K)
    (h : s.sessionId ≠ branchId) (n : Node K) :
    Unreported branchId n (stateOf (absorbVector env s remote n)) := by
  unfold absorbVector
  split
  · exact .refl n
  · rw [bind_run, Runtime.register_run]
    dsimp only
    rw [Runtime.saveSession_run]
    have hreg : Unreported branchId n (n.registered (absorbed s remote)) := .registered h
    cases env.saveSessionFault with
    | none => exact hreg.trans (.saved _)
    | some exc => exact hreg

theorem fastForward_unreported (env : GossipEnv K) (remote : Session K)
    (h : s.sessionId ≠ branchId) (n : Node K) :
    Unreported branchId n (stateOf (fastForward env s remote n)) := by
  rw [fastForward_run]
  have hreg : Unreported branchId n (n.registered (absorbed s remote)) := .registered h
  exact hreg.trans (commitTransaction_unreported (s := absorbed s remote) env _ h _)

theorem bootstrap_unreported (env : GossipEnv K) (h : remote.sessionId ≠ branchId) (n : Node K) :
    Unreported branchId n (stateOf (bootstrapRemoteSession env remote n)) := by
  have hreg : Unreported branchId n (n.registered (bootstrapped env.nodeId remote)) :=
    .registered h
  have hrun : bootstrapRemoteSession env remote n =
      (Runtime.saveSession env.saveSessionFault (bootstrapped env.nodeId remote) >>= fun _ =>
        commitTransaction env (bootstrapped env.nodeId remote) [] >>= fun _ => pure true)
        (n.registered (bootstrapped env.nodeId remote)) := rfl
  rw [hrun, bind_run, Runtime.saveSession_run]
  cases env.saveSessionFault with
  | some exc => exact hreg
  | none =>
    dsimp only [Option.elim]
    rw [stateOf_bind_pure]
    exact (hreg.trans (.saved _)).trans
      (commitTransaction_unreported (s := bootstrapped env.nodeId remote) env _ h _)

theorem reportDuplicateId_unreported (branchId : String) (env : GossipEnv K) (s remote : Session K)
    (a : Adapter K) :
    Unreported branchId a.node (stateOf (reportDuplicateId env s remote a)).node ∧
      (stateOf (reportDuplicateId env s remote a)).pendingConflictVectors =
        a.pendingConflictVectors := by
  rw [reportDuplicateId, bind_get_run]
  split
  · exact ⟨.refl _, rfl⟩
  · rw [bind_modify_run, stateOf_runtime, Runtime.stateOf_publish]
    exact ⟨.published rfl, rfl⟩

/-! ## How a delivery ends -/

/-- A delivery on `a` has ended in `r`: it has left the pending conflict alone, it has cleared it,
or it has escalated a conflict on the adapter it had got to. -/
inductive Ends (env : GossipEnv K) (remote : Session K) (a : Adapter K)
    (r : EStateM.Result (Err K.Obj) (Adapter K) Bool) : Prop
  | idle : ¬Conflicts env remote a → Unreported env.branchId a.node (stateOf r).node →
      (stateOf r).pendingConflictVectors = a.pendingConflictVectors →
      (accepted r = true → a.node.sessions remote.sessionId = none) → Ends env remote a r
  | resolved : ¬Conflicts env remote a → Unreported env.branchId a.node (stateOf r).node →
      (stateOf r).pendingConflictVectors =
        Function.update a.pendingConflictVectors remote.sessionId none →
      accepted r = true → (a.node.sessions remote.sessionId).isSome → Ends env remote a r
  | escalated (s : Session K) (probe : ExecutionResult K) (a₁ : Adapter K) :
      Conflicts env remote a → Unreported env.branchId a.node a₁.node →
      a₁.pendingConflictVectors = a.pendingConflictVectors →
      r = escalate env s remote probe a₁ → Ends env remote a r

theorem conflicts_iff (hs : a.node.sessions remote.sessionId = some s) :
    Conflicts env remote a ↔ env.crdtFault = none ∧ ¬duplicateIdDetected a.replicaId s remote ∧
      ¬K.structurallyEquivalent s.knowledgeStructure remote.knowledgeStructure ∧
      ¬s.vector.dominates remote.vector ∧ ¬remote.vector.dominates s.vector ∧
      (OperationExecutor.execute (mergeOperation remote) a.node.shared.storage s).1.status =
        .failed := by
  simp [Conflicts, hs]

/-- A call that ends a conflict when it returns. -/
theorem ends_resolved {a₁ : Adapter K} {α : Type} {call : RuntimeM K α}
    (hc : ¬Conflicts env remote a) (hknown : (a.node.sessions remote.sessionId).isSome)
    (hpending : a₁.pendingConflictVectors = a.pendingConflictVectors)
    (hcall : Unreported env.branchId a.node (stateOf (call a₁.node))) :
    Ends env remote a (resolved remote.sessionId call a₁) := by
  rw [resolved, bind_run, runtime_run]
  cases hr : call a₁.node with
  | ok x n' =>
    rw [hr] at hcall
    refine .resolved hc hcall ?_ rfl hknown
    show Function.update a₁.pendingConflictVectors _ _ = _
    rw [hpending]
  | error exc n' =>
    rw [hr] at hcall
    exact .idle hc hcall hpending (fun hreply => by cases hreply)

theorem ends_merge {a₁ : Adapter K} (hs : a.node.sessions remote.sessionId = some s)
    (hbranch : s.sessionId ≠ env.branchId) (hcrdt : env.crdtFault = none)
    (hdup : ¬duplicateIdDetected a.replicaId s remote)
    (heq : ¬K.structurallyEquivalent s.knowledgeStructure remote.knowledgeStructure)
    (hdom : ¬s.vector.dominates remote.vector) (hff : ¬remote.vector.dominates s.vector)
    (hnode : a₁.node = a.node)
    (hpending : a₁.pendingConflictVectors = a.pendingConflictVectors) :
    Ends env remote a (merge env s remote a₁) := by
  have hknown : (a.node.sessions remote.sessionId).isSome := by rw [hs]; rfl
  rw [merge, bind_get_run, hnode]
  have hprobe := probe_session hff a.node.shared.storage
  have hconf : Conflicts env remote a ↔ (OperationExecutor.execute (mergeOperation remote)
      a.node.shared.storage s).1.status = .failed := by
    rw [conflicts_iff hs]
    simp [hcrdt, hdup, heq, hdom, hff]
  set p := OperationExecutor.execute (mergeOperation remote) a.node.shared.storage s with hp
  obtain ⟨probe, s'⟩ := p
  dsimp only at hprobe hconf ⊢
  subst hprobe
  have hreg : Unreported env.branchId a.node (a.node.registered s') := .registered hbranch
  rw [bind_run, runtime_run, hnode, Runtime.register_run]
  dsimp only
  by_cases hfailed : probe.status = .failed
  · rw [if_pos hfailed]
    exact .escalated s' probe { a₁ with node := a.node.registered s' } (hconf.2 hfailed) hreg
      hpending rfl
  · rw [if_neg hfailed]
    rw [← hconf] at hfailed
    exact ends_resolved hfailed hknown hpending
      (hreg.trans (commitTransaction_unreported env _ hbranch _))

theorem ends_reconcile {a₁ : Adapter K} (hs : a.node.sessions remote.sessionId = some s)
    (hbranch : s.sessionId ≠ env.branchId) (hcrdt : env.crdtFault = none)
    (hdup : ¬duplicateIdDetected a.replicaId s remote) (hnode : a₁.node = a.node)
    (hpending : a₁.pendingConflictVectors = a.pendingConflictVectors) :
    Ends env remote a (reconcile env s remote a₁) := by
  have hknown : (a.node.sessions remote.sessionId).isSome := by rw [hs]; rfl
  have hc : Conflicts env remote a ↔ _ := conflicts_iff hs
  unfold reconcile
  by_cases heq : K.structurallyEquivalent s.knowledgeStructure remote.knowledgeStructure
  · rw [if_pos heq]
    refine ends_resolved (fun h => (hc.1 h).2.2.1 heq) hknown hpending ?_
    rw [hnode]
    exact absorbVector_unreported env remote hbranch _
  · rw [if_neg heq]
    by_cases hdom : s.vector.dominates remote.vector
    · rw [if_pos hdom]
      refine ends_resolved (fun h => (hc.1 h).2.2.2.1 hdom) hknown hpending ?_
      rw [hnode]
      exact .refl _
    · rw [if_neg hdom]
      by_cases hff : remote.vector.dominates s.vector
      · rw [if_pos hff]
        refine ends_resolved (fun h => (hc.1 h).2.2.2.2.1 hff) hknown hpending ?_
        rw [hnode]
        exact fastForward_unreported env remote hbranch _
      · rw [if_neg hff]
        exact ends_merge hs hbranch hcrdt hdup heq hdom hff hnode hpending

theorem apply_ends (hfresh : FreshBranch env remote a.node) :
    Ends env remote a (applyRemoteSession env remote a) := by
  rw [apply_run]
  cases hcrdt : env.crdtFault with
  | some exc =>
    refine .idle ?_ (.refl _) rfl nofun
    intro hc
    cases hcrdt.symm.trans hc.1
  | none =>
    dsimp only [Option.elim]
    cases hs : a.node.sessions remote.sessionId with
    | none =>
      have hboot := bootstrap_unreported env hfresh.delivered a.node
      refine .idle ?_ ?_ ?_ fun _ => hs
      · intro ⟨_, s, hs', _⟩
        cases hs.symm.trans hs'
      · rw [stateOf_runtime]
        exact hboot
      · rw [stateOf_runtime]
    | some s =>
      dsimp only
      by_cases hdup : duplicateIdDetected a.replicaId s remote
      · rw [if_pos hdup]
        obtain ⟨hunrep, hpending⟩ := reportDuplicateId_unreported env.branchId env s remote a
        refine .idle (fun h => ((conflicts_iff hs).1 h).2.1 hdup) ?_ ?_ ?_
        · rwa [stateOf_bind_pure]
        · rwa [stateOf_bind_pure]
        · rw [bind_run]
          cases reportDuplicateId env s remote a <;> exact nofun
      · rw [if_neg hdup]
        exact ends_reconcile hs (hfresh.session s hs) hcrdt hdup rfl rfl

/-! ## Escalating -/

theorem escalate_of_pending {probe : ExecutionResult K}
    (h : a.pendingConflictVectors remote.sessionId = some remote.vector) :
    escalate env s remote probe a = .ok false a := by
  rw [escalate, bind_get_run, if_pos h]
  rfl

/-- A conflict that is not the pending one is kept in a branch and published, whatever raises. -/
theorem escalate_of_new (env : GossipEnv K) (s : Session K) (probe : ExecutionResult K)
    (h : a.pendingConflictVectors remote.sessionId ≠ some remote.vector) :
    accepted (escalate env s remote probe a) = false ∧
      (stateOf (escalate env s remote probe a)).pendingConflictVectors =
        Function.update a.pendingConflictVectors remote.sessionId (some remote.vector) ∧
      ((stateOf (escalate env s remote probe a)).node.sessions env.branchId).isSome ∧
      ∃ events, (stateOf (escalate env s remote probe a)).node.shared.events =
          a.node.shared.events ++ events ∧ events.countP Event.isGossipConflict = 1 := by
  obtain ⟨branchId, hrun⟩ := registerConflictBranch_run env s remote a
  obtain ⟨hses, -, hev⟩ := Runtime.stateOf_adopt
    ⟨env.branchId, env.branchNodeId, env.branchSaveFault, env.pipeline.subscriber⟩
    (conflictBranch env s remote a.replicaId) a.node
  rw [escalate, bind_get_run, if_neg h, bind_of_ok hrun, bind_modify_run]
  set n := stateOf (Runtime.adopt
    ⟨env.branchId, env.branchNodeId, env.branchSaveFault, env.pipeline.subscriber⟩
    (conflictBranch env s remote a.replicaId) a.node) with hn
  -- the branch is there even if saving it raises
  have hkept : (n.sessions env.branchId).isSome := by
    rw [hses]
    show (Function.update a.node.sessions env.branchId (some (conflictBranch env s remote
      a.replicaId)) env.branchId).isSome
    rw [Function.update_self]
    rfl
  have hevents : ∀ event : Event, event.isGossipConflict = true →
      ∃ events, (n.published event).shared.events = a.node.shared.events ++ events ∧
        events.countP Event.isGossipConflict = 1 := by
    intro event hconf
    rcases hev with hev | hev
    · refine ⟨[event], ?_, by simp [hconf]⟩
      simp [Node.published, hev]
    · have hcreated : (Event.sessionCreated
          (conflictBranch env s remote a.replicaId).sessionId).isGossipConflict = false := rfl
      refine ⟨[.sessionCreated (conflictBranch env s remote a.replicaId).sessionId, event], ?_,
        by simp [hconf, hcreated]⟩
      simp [Node.published, hev]
  rw [bind_run, runtime_run, Runtime.publish_run]
  cases env.pipeline.subscriber (.gossipConflictDetected a.replicaId s.sessionId branchId
      (conflictsOf probe)) with
  | none => exact ⟨rfl, rfl, hkept, hevents _ rfl⟩
  | some exc => exact ⟨rfl, rfl, hkept, hevents _ rfl⟩

end GossipAdapter

namespace Watch

variable {env : GossipEnv K} {remote : Session K}

/-! ## A delivery as an input of the filter -/

/-- What the adapter remembers of a session's conflict, beside what it has reported of it. -/
def memo (w : Watch K) (sessionId : String) : LastSeen.Memo VersionVector :=
  ⟨w.adapter.pendingConflictVectors sessionId, w.published sessionId⟩

theorem extend_none (reports : List VersionVector) (v : VersionVector) :
    extend reports false 0 v = reports := by simp [extend]

theorem extend_one (reports : List VersionVector) (v : VersionVector) :
    extend reports false 1 v = reports ++ [v] := by simp [extend]

theorem extend_resolved (reports : List VersionVector) (v : VersionVector) :
    extend reports true 0 v = [] := by simp [extend]

/-- A delivery is about one session. -/
theorem deliver_published (w : Watch K) {sessionId : String} (h : sessionId ≠ remote.sessionId) :
    (w.deliver env remote).published sessionId = w.published sessionId :=
  Function.update_of_ne h _ _

theorem deliver_branched (w : Watch K) {sessionId : String} (h : sessionId ≠ remote.sessionId) :
    (w.deliver env remote).branched sessionId = w.branched sessionId :=
  Function.update_of_ne h _ _

/-- The logs of the session delivered to. -/
structure Logs (w : Watch K) (env : GossipEnv K) (remote : Session K) (resolved : Bool)
    (count : Nat) : Prop where
  published : (w.deliver env remote).published remote.sessionId =
    extend (w.published remote.sessionId) resolved count remote.vector
  branched : (w.deliver env remote).branched remote.sessionId =
    extend (w.branched remote.sessionId) resolved count remote.vector

/-- They are what the call has published and registered. -/
theorem logs_deliver {w : Watch K} {resolved : Bool} {count : Nat}
    (hres : (GossipAdapter.accepted (GossipAdapter.applyRemoteSession env remote w.adapter) &&
      (w.adapter.node.sessions remote.sessionId).isSome) = resolved)
    (hpub : publishedBetween w.adapter.node (w.deliver env remote).adapter.node = count)
    (hbr : branchedBetween env.branchId w.adapter.node (w.deliver env remote).adapter.node =
      count) :
    Logs w env remote resolved count := by
  subst hres hpub
  constructor
  · exact Function.update_self _ _ _
  · rw [← hbr]
    exact Function.update_self _ _ _

/-- What a delivery does to the adapter's memory, and what it reports. -/
inductive Delivers (w : Watch K) (env : GossipEnv K) (remote : Session K) : Prop
  | idle : ¬GossipAdapter.Conflicts env remote w.adapter → Logs w env remote false 0 →
      (w.deliver env remote).adapter.pendingConflictVectors =
        w.adapter.pendingConflictVectors → Delivers w env remote
  | resolved : ¬GossipAdapter.Conflicts env remote w.adapter → Logs w env remote true 0 →
      (w.deliver env remote).adapter.pendingConflictVectors =
        Function.update w.adapter.pendingConflictVectors remote.sessionId none →
      Delivers w env remote
  | repeated : GossipAdapter.Conflicts env remote w.adapter →
      w.adapter.pendingConflictVectors remote.sessionId = some remote.vector →
      Logs w env remote false 0 →
      (w.deliver env remote).adapter.pendingConflictVectors =
        w.adapter.pendingConflictVectors → Delivers w env remote
  | reported : GossipAdapter.Conflicts env remote w.adapter →
      w.adapter.pendingConflictVectors remote.sessionId ≠ some remote.vector →
      Logs w env remote false 1 →
      (w.deliver env remote).adapter.pendingConflictVectors =
        Function.update w.adapter.pendingConflictVectors remote.sessionId (some remote.vector) →
      Delivers w env remote

theorem delivers {w : Watch K} (hfresh : GossipAdapter.FreshBranch env remote w.adapter.node) :
    Delivers w env remote := by
  cases GossipAdapter.apply_ends hfresh with
  | idle hconf hunrep hpending hacc =>
    refine .idle hconf ?_ hpending
    apply logs_deliver ?_ hunrep.publishedBetween_eq hunrep.branchedBetween_eq
    cases h : GossipAdapter.accepted (GossipAdapter.applyRemoteSession env remote w.adapter) with
    | false => rfl
    | true => simp [hacc h]
  | resolved hconf hunrep hpending hacc hknown =>
    refine .resolved hconf ?_ hpending
    apply logs_deliver ?_ hunrep.publishedBetween_eq hunrep.branchedBetween_eq
    simp [hacc, hknown]
  | escalated s probe a₁ hconf hunrep hpending hr =>
    -- the vector is the one last reported, or a new one
    by_cases hpend : a₁.pendingConflictVectors remote.sessionId = some remote.vector
    · rw [GossipAdapter.escalate_of_pending hpend] at hr
      have hadapter : (w.deliver env remote).adapter = a₁ := congrArg stateOf hr
      rw [hpending] at hpend
      refine .repeated hconf hpend ?_ (by rw [hadapter, hpending])
      apply logs_deliver ?_ (hadapter ▸ hunrep.publishedBetween_eq)
        (hadapter ▸ hunrep.branchedBetween_eq)
      rw [hr]
      rfl
    · obtain ⟨hacc, hlast, hkept, events, hev, hcount⟩ :=
        GossipAdapter.escalate_of_new env s probe hpend
      rw [← hr] at hacc hlast hkept hev
      rw [hpending] at hpend hlast
      have hpub : publishedBetween w.adapter.node (w.deliver env remote).adapter.node = 1 :=
        hunrep.publishedBetween_append hev hcount
      have hbr : branchedBetween env.branchId w.adapter.node
          (w.deliver env remote).adapter.node = 1 := by
        rw [branchedBetween, hfresh.unregistered]
        exact if_pos ⟨rfl, hkept⟩
      refine .reported hconf hpend (logs_deliver ?_ hpub hbr) hlast
      rw [hacc]
      rfl

/-- What the filter is given by a delivery. -/
inductive Feeds (w : Watch K) (env : GossipEnv K) (remote : Session K) :
    Option (LastSeen.Input VersionVector) → Prop
  | none : ¬GossipAdapter.Conflicts env remote w.adapter → Feeds w env remote none
  | clear : ¬GossipAdapter.Conflicts env remote w.adapter → Feeds w env remote (some .clear)
  | offer : GossipAdapter.Conflicts env remote w.adapter →
      Feeds w env remote (some (.offer remote.vector))

/-- **A delivery refines the filter**: on the session it is about, whose two logs stay one. -/
theorem deliver_memo {w : Watch K} (hfresh : GossipAdapter.FreshBranch env remote w.adapter.node)
    (hlogs : w.branched remote.sessionId = w.published remote.sessionId) :
    (w.deliver env remote).branched remote.sessionId =
        (w.deliver env remote).published remote.sessionId ∧
      ∃ input, Feeds w env remote input ∧ (w.deliver env remote).memo remote.sessionId =
        input.elim (w.memo remote.sessionId) (w.memo remote.sessionId).step := by
  cases delivers hfresh with
  | idle hconf hl hlast =>
    refine ⟨by rw [hl.published, hl.branched, hlogs], none, .none hconf, ?_⟩
    rw [memo, hl.published, extend_none, hlast]
    rfl
  | resolved hconf hl hlast =>
    refine ⟨by rw [hl.published, hl.branched, hlogs], some .clear, .clear hconf, ?_⟩
    rw [memo, hl.published, extend_resolved, hlast, Function.update_self]
    rfl
  | repeated hconf hpend hl hlast =>
    refine ⟨by rw [hl.published, hl.branched, hlogs], _, .offer hconf, ?_⟩
    have hstep : (w.memo remote.sessionId).step (.offer remote.vector) =
        w.memo remote.sessionId := LastSeen.Memo.step_of_last hpend
    rw [Option.elim, hstep, memo, hl.published, extend_none, hlast]
    rfl
  | reported hconf hpend hl hlast =>
    refine ⟨by rw [hl.published, hl.branched, hlogs], _, .offer hconf, ?_⟩
    have hstep : (w.memo remote.sessionId).step (.offer remote.vector) =
        ⟨some remote.vector, w.published remote.sessionId ++ [remote.vector]⟩ :=
      LastSeen.Memo.step_of_ne hpend
    rw [Option.elim, hstep, memo, hl.published, extend_one, hlast, Function.update_self]

/-- No other session's conflict is touched. -/
theorem deliver_memo_of_ne {w : Watch K} {sessionId : String}
    (hfresh : GossipAdapter.FreshBranch env remote w.adapter.node)
    (hne : sessionId ≠ remote.sessionId) :
    (w.deliver env remote).memo sessionId = w.memo sessionId := by
  have hpending : (w.deliver env remote).adapter.pendingConflictVectors sessionId =
      w.adapter.pendingConflictVectors sessionId := by
    cases delivers hfresh with
    | idle _ _ hlast => rw [hlast]
    | resolved _ _ hlast => rw [hlast, Function.update_of_ne hne]
    | repeated _ _ _ hlast => rw [hlast]
    | reported _ _ _ hlast => rw [hlast, Function.update_of_ne hne]
  rw [memo, hpending, deliver_published w hne]
  rfl

/-! ## Runs -/

/-- The adapter's memory is of its last report, and branches and events go together. -/
structure Inv (w : Watch K) : Prop where
  logs : ∀ sessionId, w.branched sessionId = w.published sessionId
  faithful : ∀ sessionId, (w.memo sessionId).Faithful

theorem inv_init {w : Watch K} (h : (system K).init w) : Inv w := by
  obtain ⟨node, replicaId, rfl⟩ := h
  exact ⟨fun _ => rfl, fun _ => rfl⟩

theorem inv_step {w w' : Watch K} {l : WatchCall K} (h : Inv w) (hst : Step w l w') : Inv w' := by
  cases hst with
  | elsewhere node => exact ⟨h.logs, h.faithful⟩
  | deliver env remote hfresh =>
    obtain ⟨hlogs, input, -, hmemo⟩ := deliver_memo hfresh (h.logs remote.sessionId)
    constructor
    · intro sessionId
      by_cases hid : sessionId = remote.sessionId
      · rw [hid]
        exact hlogs
      · rw [deliver_branched w hid, deliver_published w hid]
        exact h.logs sessionId
    · intro sessionId
      by_cases hid : sessionId = remote.sessionId
      · rw [hid, hmemo]
        cases input with
        | none => exact h.faithful remote.sessionId
        | some i => exact (h.faithful remote.sessionId).step i
      · rw [deliver_memo_of_ne hfresh hid]
        exact h.faithful sessionId

/-- A step keeps reports single exactly when it meets the condition. -/
theorem once_step_iff {w w' : Watch K} {l : WatchCall K} (h : Inv w) (hn : w.OncePerContent)
    (hst : Step w l w') : w'.OncePerContent ↔ w.RepeatsLast l := by
  have h' := inv_step h hst
  have honce : w'.OncePerContent ↔ ∀ sessionId, (w'.memo sessionId).reported.Nodup := by
    constructor
    · intro ho sessionId
      exact (ho sessionId).1
    · intro ho sessionId
      refine ⟨ho sessionId, ?_⟩
      rw [h'.logs]
      exact ho sessionId
  rw [honce]
  cases hst with
  | elsewhere node => exact iff_of_true (fun sessionId => (hn sessionId).1) trivial
  | deliver env remote hfresh =>
    have hold : (w.memo remote.sessionId).reported.Nodup := (hn remote.sessionId).1
    obtain ⟨-, input, hfeeds, hmemo⟩ := deliver_memo hfresh (h.logs remote.sessionId)
    have hothers : (∀ sessionId, ((w.deliver env remote).memo sessionId).reported.Nodup) ↔
        ((w.deliver env remote).memo remote.sessionId).reported.Nodup := by
      constructor
      · intro hall
        exact hall _
      · intro hthis sessionId
        by_cases hid : sessionId = remote.sessionId
        · rwa [hid]
        · rw [deliver_memo_of_ne hfresh hid]
          exact (hn sessionId).1
    rw [hothers, hmemo]
    cases hfeeds with
    | none hconf => exact iff_of_true hold fun hc => absurd hc hconf
    | clear hconf => exact iff_of_true List.nodup_nil fun hc => absurd hc hconf
    | offer hconf =>
      show ((w.memo remote.sessionId).step (.offer remote.vector)).reported.Nodup ↔ _
      rw [LastSeen.Memo.step_nodup_iff (h.faithful remote.sessionId) hold]
      exact ⟨fun hlast _ => hlast, fun hlast => hlast hconf⟩

theorem reachable_inv {w : Watch K} (h : (system K).Reachable w) : Inv w :=
  h.invariant (fun _ => inv_init) fun _ _ _ _ hi hst => inv_step hi hst

/-- **Conflicts are reported once**, in every run whose deliveries meet the condition. -/
theorem conflicts_reported_once {w : Watch K}
    (h : ((system K).restrict RepeatsLast).Reachable w) : w.OncePerContent := by
  refine h.invariant (P := OncePerContent) ?_ ?_
  · intro w₀ hinit sessionId
    obtain ⟨node, replicaId, rfl⟩ := hinit
    exact ⟨List.nodup_nil, List.nodup_nil⟩
  · intro w₀ l w₁ hreach honce hst
    exact (once_step_iff (reachable_inv hreach.of_restrict) honce hst.1).2 hst.2

/-! ## Two peers that take turns -/

/-- A replica whose session `"s"` has been set to 1, from the empty state. -/
def watchStart : Watch Core.register where
  adapter := {
    node := {
      replicaId := some "r"
      sessions := Function.update (fun _ => none) "s" (some {
        knowledgeStructure := (1 : Nat)
        sessionId := "s"
        metadata := (⟨Finmap.singleton "r" 1⟩ : VersionVector).toMetadata {} }) }
    replicaId := "r" }

/-- A peer that has set it to something else. -/
def peerSnapshot (peer : String) (content : Nat) : Session Core.register where
  knowledgeStructure := content
  sessionId := "s"
  metadata := (⟨Finmap.singleton peer 1⟩ : VersionVector).toMetadata {}
  parentVersionId := some EMPTY_STATE_VERSION_ID

/-- What a delivery meets. -/
def watchEnv (branchId : String) : GossipEnv Core.register where
  pipeline := { replicaId := some "r", versionId := "v" }
  transactionId := "t"
  nodeId := "n"
  branchId := branchId
  branchNodeId := branchId

/-- After `"b"`'s snapshot. -/
def watchOne : Watch Core.register := watchStart.deliver (watchEnv "b1") (peerSnapshot "b" 2)

/-- After `"b"`'s and `"c"`'s. -/
def watchTwo : Watch Core.register := watchOne.deliver (watchEnv "b2") (peerSnapshot "c" 3)

theorem watchStart_init : (system Core.register).init watchStart := ⟨_, "r", rfl⟩

theorem freshBranch_of_registered {n : Node K} (hfree : n.sessions env.branchId = none)
    (hid : remote.sessionId ≠ env.branchId)
    (hs : (n.sessions remote.sessionId).map (·.sessionId) = some remote.sessionId) :
    GossipAdapter.FreshBranch env remote n := by
  refine ⟨hfree, hid, fun s hreg => ?_⟩
  rw [hreg] at hs
  have hsame : s.sessionId = remote.sessionId := Option.some.inj hs
  rwa [hsame]

/-- `"b"`'s snapshot repeated at once is not reported again. -/
theorem conflicts_reported_once_repeated :
    (watchOne.deliver (watchEnv "b2") (peerSnapshot "b" 2)).OncePerContent := by
  apply conflicts_reported_once
  have hone : ((system Core.register).restrict RepeatsLast).Reachable watchOne := by
    refine .step (.init watchStart_init) (l := .deliver (watchEnv "b1") (peerSnapshot "b" 2)) ⟨?_, ?_⟩
    · exact .deliver _ _ (freshBranch_of_registered rfl (by decide) rfl)
    · intro _ hmem
      exact absurd hmem List.not_mem_nil
  refine .step hone (l := .deliver (watchEnv "b2") (peerSnapshot "b" 2)) ⟨?_, ?_⟩
  · exact .deliver _ _ (freshBranch_of_registered rfl (by decide) rfl)
  · intro _ _
    rfl

/-- `"b"`, `"c"` and `"b"` again: the first conflict is reported a second time. -/
theorem conflict_reported_again :
    ¬∀ w : Watch Core.register, (system Core.register).Reachable w → w.OncePerContent := by
  intro h
  have hone : (system Core.register).Reachable watchOne :=
    .step (.init watchStart_init) (.deliver _ _ (freshBranch_of_registered rfl (by decide) rfl))
  have htwo : (system Core.register).Reachable watchTwo :=
    .step hone (.deliver _ _ (freshBranch_of_registered rfl (by decide) rfl))
  have honce := h _ (.step htwo (.deliver (watchEnv "b3") (peerSnapshot "b" 2)
    (freshBranch_of_registered rfl (by decide) rfl)))
  have hnodup := (honce "s").1
  revert hnodup
  decide

end Watch

end CksRuntime
