import CksRuntime.Gossip.Adapter
import CksRuntime.Pipeline.Proof.Commit
import CksRuntime.Runtime.Proof.Runtime

/-!
# What applying a snapshot leaves

What a delivery does to the session it is about, returning or raising: `Reconciled` for a session
the replica has, `Adopted` for one it has not. Its clocks move in four ways only, the absorb and the
bump of a commit, each or neither (`Reconciled.metadata`).
-/

set_option autoImplicit false

namespace CksRuntime

open Effect VersionVector

variable {K : Core}

/-- The event the guard publishes. -/
def Event.DuplicateReplicaId : Event → Prop
  | .duplicateReplicaIdDetected _ _ _ _ => True
  | _ => False

theorem Event.OfTransaction.not_duplicate {transactionId : String} {e : Event}
    (h : e.OfTransaction transactionId) : ¬e.DuplicateReplicaId := by
  cases e <;> first | exact h.elim | exact fun hd => hd.elim

/-- What a call has published contains no such event. -/
def Quiet (n n' : Node K) : Prop :=
  ∃ events, n'.shared.events = n.shared.events ++ events ∧
    ∀ e ∈ events, ¬e.DuplicateReplicaId

theorem Quiet.refl (n : Node K) : Quiet n n :=
  ⟨[], (List.append_nil _).symm, fun _ he => absurd he List.not_mem_nil⟩

theorem Quiet.trans {n₁ n₂ n₃ : Node K} (h : Quiet n₁ n₂) (h' : Quiet n₂ n₃) : Quiet n₁ n₃ := by
  obtain ⟨es, hes, hq⟩ := h
  obtain ⟨es', hes', hq'⟩ := h'
  refine ⟨es ++ es', by rw [hes', hes, List.append_assoc], fun e he => ?_⟩
  rcases List.mem_append.1 he with he | he
  · exact hq e he
  · exact hq' e he

theorem quiet_published {n : Node K} {event : Event} (h : ¬event.DuplicateReplicaId) :
    Quiet n (n.published event) :=
  ⟨[event], rfl, fun e he => by rw [List.mem_singleton.1 he]; exact h⟩

/-- A call on the session `sessionId`: it leaves a session `P` there. -/
structure Leaves (sessionId : String) (n n' : Node K) (P : Session K → Prop) : Prop where
  session : ∃ s', n'.sessions sessionId = some s' ∧ s'.sessionId = sessionId ∧ P s'
  replicaId : n'.replicaId = n.replicaId
  quiet : Quiet n n'

theorem Leaves.mono {sessionId : String} {n n' : Node K} {P Q : Session K → Prop}
    (h : Leaves sessionId n n' P) (hPQ : ∀ s, P s → Q s) : Leaves sessionId n n' Q := by
  obtain ⟨⟨s', hs', hid, hp⟩, hrep, hq⟩ := h
  exact ⟨⟨s', hs', hid, hPQ s' hp⟩, hrep, hq⟩

/-- What a call does after one that has published quietly. -/
theorem Leaves.after {sessionId : String} {n n₁ n' : Node K} {P : Session K → Prop}
    (h : Leaves sessionId n₁ n' P) (hrep : n₁.replicaId = n.replicaId) (hq : Quiet n n₁) :
    Leaves sessionId n n' P :=
  ⟨h.session, h.replicaId.trans hrep, hq.trans h.quiet⟩

namespace GossipAdapter

variable {env : GossipEnv K}

/-! ## Calls on the Runtime -/

theorem runtime_run {α : Type} (call : RuntimeM K α) (a : Adapter K) :
    runtime call a = match call a.node with
      | .ok r n => .ok r { a with node := n }
      | .error exc n => .error exc { a with node := n } := rfl

theorem stateOf_runtime {α : Type} (call : RuntimeM K α) (a : Adapter K) :
    stateOf (runtime call a) = { a with node := stateOf (call a.node) } := by
  rw [runtime_run]
  cases call a.node <;> rfl

/-- A reconciliation by `call` returns when it does, with `True`. -/
theorem resolved_run {α : Type} (sessionId : String) (call : RuntimeM K α) (a : Adapter K) :
    (stateOf (resolved sessionId call a)).node = stateOf (call a.node) ∧
      (stateOf (resolved sessionId call a)).replicaId = a.replicaId ∧
      returned (resolved sessionId call a) = returned (call a.node) := by
  rw [resolved, bind_run, runtime_run]
  cases call a.node <;> exact ⟨rfl, rfl, rfl⟩

/-! ## Transactions -/

/-- The context a transaction begun and filled by the adapter commits in. -/
def commitCtx (env : GossipEnv K) (s : Session K) (operations : List (Operation K))
    (n : Node K) : Ctx K where
  session := { s with activeTransaction := some env.transactionId }
  transaction := {
    transactionId := env.transactionId
    operations := operations
    initialState := s.knowledgeStructure }
  shared := { n.shared with transactions := n.shared.transactions ++ [env.transactionId] }

theorem commitTransaction_run (env : GossipEnv K) (s : Session K)
    (operations : List (Operation K)) (n : Node K) :
    commitTransaction env s operations n =
      if s.hasActiveTransaction then
        .error (.runtimeError "Session already has an active transaction.") n
      else
        Runtime.onSession s.sessionId { s with activeTransaction := some env.transactionId }
          (commitCtx env s operations n).transaction
          (Pipeline.commit (commitEnv env n.replicaId))
          (Runtime.begun env.transactionId s.sessionId s n) := by
  rw [commitTransaction, bind_get_run, bind_run, Runtime.beginTransaction_run]
  by_cases h : s.hasActiveTransaction
  · rw [if_pos h, if_pos h]
  · rw [if_neg h, if_neg h]
    rfl

theorem returned_onSession {α : Type} (sessionId : String) (s : Session K) (tx : Transaction K)
    (call : PipelineM K α) (n : Node K) :
    returned (Runtime.onSession sessionId s tx call n) = returned (call ⟨s, tx, n.shared⟩) := by
  unfold Runtime.onSession
  cases call ⟨s, tx, n.shared⟩ <;> rfl

/-- Operations that do not fast-forward leave the metadata alone. -/
theorem itemsMetadata_operations {registry : OperationRegistry K} {tx : Transaction K}
    {m : Metadata} (hreq : tx.requests = [])
    (hff : ∀ op ∈ tx.operations, ¬op.FastForwards (fromMetadata m)) {done : List (Item K)}
    (hdone : ∀ x ∈ done, x ∈ tx.items) : itemsMetadata registry done m = m := by
  refine itemsMetadata_of_not fun x hx hf => ?_
  have hitem := hdone x hx
  rw [Transaction.items, hreq, List.map_nil, List.append_nil, List.mem_map] at hitem
  obtain ⟨op, hop, rfl⟩ := hitem
  obtain ⟨op', hop', hf⟩ := hf
  cases hop'
  exact hff op hop hf

/-- What a commit of the adapter's does to the session it is about: its operations do not touch the
clocks, so the bump of the commit is all there is. -/
theorem commitTransaction_leaves (env : GossipEnv K) {s : Session K}
    (operations : List (Operation K)) {n : Node K}
    (hreg : n.sessions s.sessionId = some s)
    (hff : ∀ op ∈ operations, ¬op.FastForwards s.vector) :
    Leaves s.sessionId n (stateOf (commitTransaction env s operations n)) fun s' =>
      s'.metadata = Pipeline.bumpMetadata n.replicaId s.metadata ∨
        returned (commitTransaction env s operations n) = false ∧ s'.metadata = s.metadata := by
  rw [commitTransaction_run]
  by_cases hact : s.hasActiveTransaction
  · rw [if_pos hact]
    exact ⟨⟨s, hreg, rfl, .inr ⟨rfl, rfl⟩⟩, rfl, .refl _⟩
  rw [if_neg hact, Runtime.stateOf_onSession, returned_onSession]
  have hctx : (⟨{ s with activeTransaction := some env.transactionId },
      (commitCtx env s operations n).transaction,
      (Runtime.begun env.transactionId s.sessionId s n).shared⟩ : Ctx K) =
      commitCtx env s operations n := rfl
  rw [hctx]
  obtain ⟨done, hdone, ks, metadata, ds, history, active, hs, hmeta⟩ :=
    Pipeline.commit_session (commitEnv env n.replicaId) (commitCtx env s operations n)
  obtain ⟨events, hev, hall⟩ :=
    Pipeline.commit_events (commitEnv env n.replicaId) (commitCtx env s operations n)
  have hsame : itemsMetadata (commitEnv env n.replicaId).registry done s.metadata = s.metadata :=
    itemsMetadata_operations rfl hff hdone
  refine ⟨⟨_, Function.update_self _ _ _, by rw [hs]; rfl, ?_⟩, rfl,
    ⟨events, hev, fun e he => (hall e he).not_duplicate⟩⟩
  have hms : (commitCtx env s operations n).session.metadata = s.metadata := rfl
  rw [hms, hsame] at hmeta
  rw [hs]
  exact hmeta

/-! ## Reconciling -/

/-- What a delivery leaves of the session `s` the replica has; the index says whether it returns. -/
inductive Reconciled (replicaId : Option String) (s remote s' : Session K) : Bool → Prop
  | kept {b : Bool} : s'.knowledgeStructure = s.knowledgeStructure → s'.metadata = s.metadata →
      Reconciled replicaId s remote s' b
  | absorbed {b : Bool} : K.structurallyEquivalent s.knowledgeStructure remote.knowledgeStructure →
      s'.knowledgeStructure = s.knowledgeStructure →
      s'.metadata = (absorbed s remote).metadata → Reconciled replicaId s remote s' b
  | committed {b : Bool} (m : Metadata) : m = s.metadata ∨ m = (absorbed s remote).metadata →
      s'.metadata = Pipeline.bumpMetadata replicaId m → Reconciled replicaId s remote s' b
  /-- A commit has raised before it bumped the clocks. -/
  | raised : s'.metadata = s.metadata ∨ s'.metadata = (absorbed s remote).metadata →
      Reconciled replicaId s remote s' false

variable {s remote : Session K} {n : Node K} {a : Adapter K}

theorem absorbVector_leaves (hreg : n.sessions s.sessionId = some s)
    (heq : K.structurallyEquivalent s.knowledgeStructure remote.knowledgeStructure) :
    Leaves s.sessionId n (stateOf (absorbVector env s remote n)) fun s' =>
      Reconciled n.replicaId s remote s' (returned (absorbVector env s remote n)) := by
  unfold absorbVector
  split
  · exact ⟨⟨s, hreg, rfl, .kept rfl rfl⟩, rfl, .refl _⟩
  · rw [bind_run, Runtime.register_run]
    dsimp only
    rw [Runtime.saveSession_run]
    cases env.saveSessionFault <;>
      exact ⟨⟨absorbed s remote, Function.update_self _ _ _, rfl, .absorbed heq rfl rfl⟩, rfl, .refl _⟩

theorem fastForward_run (env : GossipEnv K) (s remote : Session K) (n : Node K) :
    fastForward env s remote n = commitTransaction env (absorbed s remote)
      [fastForwardOperation remote] (n.registered (absorbed s remote)) := rfl

/-- The vector is absorbed whether or not the commit goes through. -/
theorem fastForward_metadata (env : GossipEnv K) (s remote : Session K) (n : Node K) :
    Leaves s.sessionId n (stateOf (fastForward env s remote n)) fun s' =>
      s'.metadata = Pipeline.bumpMetadata n.replicaId (absorbed s remote).metadata ∨
        returned (fastForward env s remote n) = false ∧
          s'.metadata = (absorbed s remote).metadata := by
  have hcommit := commitTransaction_leaves env (s := absorbed s remote)
    [fastForwardOperation remote] (n := n.registered (absorbed s remote))
    (Function.update_self _ _ _) fun op hop hf => by
      rw [List.mem_singleton] at hop
      subst hop
      exact Operation.not_fastForwards_of_none rfl _ hf
  rw [fastForward_run]
  exact hcommit.after (n := n) rfl (.refl n)

theorem fastForward_leaves (s remote : Session K) (n : Node K) :
    Leaves s.sessionId n (stateOf (fastForward env s remote n)) fun s' =>
      Reconciled n.replicaId s remote s' (returned (fastForward env s remote n)) := by
  refine (fastForward_metadata env s remote n).mono fun s' hs' => ?_
  rcases hs' with hm | ⟨hret, hm⟩
  · exact .committed _ (.inr rfl) hm
  · rw [hret]
    exact .raised (.inr hm)

/-- A merge that is probed does not fast-forward, so the probe leaves the session alone. -/
theorem not_fastForwards_merge (hff : ¬remote.vector.dominates s.vector) :
    ¬(mergeOperation remote).FastForwards s.vector := by
  rintro ⟨source, hsource, hf⟩
  cases hsource
  exact hff hf.2

theorem probe_session (hff : ¬remote.vector.dominates s.vector) (storage : Storage K) :
    (OperationExecutor.execute (mergeOperation remote) storage s).2 = s := by
  rw [OperationExecutor.execute_session,
    Operation.metadataAfter_of_not (not_fastForwards_merge hff)]

/-- The branch a conflict is kept in. -/
def conflictBranch (env : GossipEnv K) (s remote : Session K) (replicaId : String) : Session K :=
  { SessionManager.newBranch env.branchId env.branchNodeId s remote.knowledgeStructure
      remote.parentVersionId with
    metadata := {
      nodeId := some env.branchNodeId
      extra := Finmap.singleton "gossip_source_replica_id" (.text replicaId) } }

theorem registerConflictBranch_run (env : GossipEnv K) (s remote : Session K) (a : Adapter K) :
    ∃ branchId, registerConflictBranch env s remote a = .ok branchId { a with
      node := stateOf (Runtime.adopt
        ⟨env.branchId, env.branchNodeId, env.branchSaveFault, env.pipeline.subscriber⟩
        (conflictBranch env s remote a.replicaId) a.node) } := by
  have hcall : Runtime.registerForeignBranch
      ⟨env.branchId, env.branchNodeId, env.branchSaveFault, env.pipeline.subscriber⟩ s
      remote.knowledgeStructure remote.parentVersionId
      { extra := Finmap.singleton "gossip_source_replica_id" (.text a.replicaId) } = Runtime.adopt
        ⟨env.branchId, env.branchNodeId, env.branchSaveFault, env.pipeline.subscriber⟩
        (conflictBranch env s remote a.replicaId) := rfl
  unfold registerConflictBranch
  rw [hcall]
  cases Runtime.adopt ⟨env.branchId, env.branchNodeId, env.branchSaveFault,
      env.pipeline.subscriber⟩ (conflictBranch env s remote a.replicaId) a.node with
  | ok branch n => exact ⟨_, rfl⟩
  | error exc n => exact ⟨_, rfl⟩

/-- A conflict is kept in another session. -/
theorem escalate_leaves (remote : Session K) (hreg : a.node.sessions s.sessionId = some s)
    (hbranch : env.branchId ≠ s.sessionId) (probe : ExecutionResult K) :
    (stateOf (escalate env s remote probe a)).replicaId = a.replicaId ∧
      Leaves s.sessionId a.node (stateOf (escalate env s remote probe a)).node (· = s) := by
  rw [escalate, bind_get_run]
  split
  · exact ⟨rfl, ⟨s, hreg, rfl, rfl⟩, rfl, .refl _⟩
  · obtain ⟨branchId, hrun⟩ := registerConflictBranch_run env s remote a
    obtain ⟨hses, hrep, hev⟩ := Runtime.stateOf_adopt
      ⟨env.branchId, env.branchNodeId, env.branchSaveFault, env.pipeline.subscriber⟩
      (conflictBranch env s remote a.replicaId) a.node
    rw [bind_of_ok hrun, bind_modify_run]
    set n := stateOf (Runtime.adopt
      ⟨env.branchId, env.branchNodeId, env.branchSaveFault, env.pipeline.subscriber⟩
      (conflictBranch env s remote a.replicaId) a.node) with hn
    have hkeep : n.sessions s.sessionId = some s := by
      rw [hses]
      exact (Function.update_of_ne hbranch.symm _ _).trans hreg
    have hquiet : Quiet a.node n := by
      rcases hev with hev | hev
      · exact ⟨[], by rw [hev, List.append_nil], fun e he => absurd he List.not_mem_nil⟩
      · refine ⟨_, hev, fun e he => ?_⟩
        rw [List.mem_singleton.1 he]
        exact id
    have hpub : ∀ event : Event, ¬event.DuplicateReplicaId →
        Leaves s.sessionId a.node (n.published event) (· = s) := fun event he =>
      ⟨⟨s, hkeep, rfl, rfl⟩, hrep, hquiet.trans (quiet_published he)⟩
    rw [bind_run, runtime_run, Runtime.publish_run]
    cases env.pipeline.subscriber (.gossipConflictDetected a.replicaId s.sessionId branchId
        (conflictsOf probe)) with
    | none => exact ⟨rfl, hpub _ id⟩
    | some exc => exact ⟨rfl, hpub _ id⟩

theorem merge_leaves (hreg : a.node.sessions s.sessionId = some s)
    (hbranch : env.branchId ≠ s.sessionId) (hff : ¬remote.vector.dominates s.vector) :
    (stateOf (merge env s remote a)).replicaId = a.replicaId ∧
      Leaves s.sessionId a.node (stateOf (merge env s remote a)).node fun s' =>
        Reconciled a.node.replicaId s remote s' (returned (merge env s remote a)) := by
  rw [merge, bind_get_run]
  have hprobe := probe_session hff a.node.shared.storage
  set r := OperationExecutor.execute (mergeOperation remote) a.node.shared.storage s with hr
  obtain ⟨probe, s'⟩ := r
  dsimp only at hprobe ⊢
  replace hprobe := hprobe.symm
  subst hprobe
  have hsame : a.node.registered s = a.node := by
    rw [Node.registered, Function.update_eq_self_iff.2 hreg.symm]
  rw [bind_run, runtime_run, Runtime.register_run, hsame]
  dsimp only
  split
  · obtain ⟨hrep, hleaves⟩ := escalate_leaves remote hreg hbranch probe
    refine ⟨hrep, hleaves.mono fun s' hs' => ?_⟩
    rw [hs']
    exact .kept rfl rfl
  · obtain ⟨hnode, hrep, hret⟩ := resolved_run remote.sessionId
      (commitTransaction env s [mergeOperation remote]) a
    rw [hnode, hret]
    refine ⟨hrep, (commitTransaction_leaves env [mergeOperation remote] hreg fun op hop hf => ?_).mono
      fun s' hs' => ?_⟩
    · rw [List.mem_singleton] at hop
      subst hop
      exact not_fastForwards_merge hff hf
    · rcases hs' with hm | ⟨hret', hm⟩
      · exact .committed _ (.inl rfl) hm
      · rw [hret']
        exact .raised (.inl hm)

theorem reconcile_leaves (env : GossipEnv K) (remote : Session K) (a : Adapter K)
    (hreg : a.node.sessions s.sessionId = some s)
    (hbranch : env.branchId ≠ s.sessionId) :
    (stateOf (reconcile env s remote a)).replicaId = a.replicaId ∧
      Leaves s.sessionId a.node (stateOf (reconcile env s remote a)).node fun s' =>
        Reconciled a.node.replicaId s remote s' (returned (reconcile env s remote a)) := by
  unfold reconcile
  split
  · rename_i heq
    obtain ⟨hnode, hrep, hret⟩ := resolved_run remote.sessionId (absorbVector env s remote) a
    rw [hnode, hret]
    exact ⟨hrep, absorbVector_leaves hreg heq⟩
  · split
    · obtain ⟨hnode, hrep, hret⟩ := resolved_run remote.sessionId (pure () : RuntimeM K Unit) a
      rw [hnode, hret]
      exact ⟨hrep, ⟨s, hreg, rfl, .kept rfl rfl⟩, rfl, .refl _⟩
    · split
      · obtain ⟨hnode, hrep, hret⟩ := resolved_run remote.sessionId (fastForward env s remote) a
        rw [hnode, hret]
        exact ⟨hrep, fastForward_leaves s remote a.node⟩
      · rename_i hff
        exact merge_leaves hreg hbranch hff

/-! ## Adopting -/

/-- What a delivery leaves when the replica had no such session: the snapshot's clocks under a node
id of its own, and the bump of the commit, unless it raised before. -/
def Adopted (env : GossipEnv K) (replicaId : Option String) (remote s' : Session K) (b : Bool) :
    Prop :=
  s'.metadata = Pipeline.bumpMetadata replicaId (bootstrapped env.nodeId remote).metadata ∨
    b = false ∧ s'.metadata = (bootstrapped env.nodeId remote).metadata

theorem bootstrap_leaves (env : GossipEnv K) (remote : Session K) (n : Node K) :
    Leaves remote.sessionId n (stateOf (bootstrapRemoteSession env remote n)) fun s' =>
      Adopted env n.replicaId remote s' (returned (bootstrapRemoteSession env remote n)) := by
  have hreg : (n.registered (bootstrapped env.nodeId remote)).sessions remote.sessionId =
      some (bootstrapped env.nodeId remote) := Function.update_self _ _ _
  have hrun : bootstrapRemoteSession env remote n =
      (Runtime.saveSession env.saveSessionFault (bootstrapped env.nodeId remote) >>= fun _ =>
        commitTransaction env (bootstrapped env.nodeId remote) [] >>= fun _ => pure true)
        (n.registered (bootstrapped env.nodeId remote)) := rfl
  rw [hrun, bind_run, Runtime.saveSession_run]
  cases env.saveSessionFault with
  | some exc => exact ⟨⟨_, hreg, rfl, .inr ⟨rfl, rfl⟩⟩, rfl, .refl _⟩
  | none =>
    dsimp only [Option.elim]
    have hcommit := commitTransaction_leaves env (s := bootstrapped env.nodeId remote) []
      (n := (n.registered (bootstrapped env.nodeId remote)).saved (bootstrapped env.nodeId remote))
      hreg fun op hop => absurd hop List.not_mem_nil
    replace hcommit := hcommit.after (n := n) rfl (.refl n)
    rw [bind_run]
    cases hc : commitTransaction env (bootstrapped env.nodeId remote) []
        ((n.registered (bootstrapped env.nodeId remote)).saved (bootstrapped env.nodeId remote)) with
    | ok v n' =>
      rw [hc] at hcommit
      exact hcommit
    | error exc n' =>
      rw [hc] at hcommit
      exact hcommit

/-! ## A delivery -/

theorem apply_run (env : GossipEnv K) (remote : Session K) (a : Adapter K) :
    applyRemoteSession env remote a = env.crdtFault.elim
      (match a.node.sessions remote.sessionId with
        | none => runtime (bootstrapRemoteSession env remote) a
        | some s =>
          if duplicateIdDetected a.replicaId s remote then
            (reportDuplicateId env s remote >>= fun _ => pure false) a
          else
            reconcile env s remote { a with
              pendingDuplicateIds := Function.update a.pendingDuplicateIds remote.sessionId ∅ })
      (.error · a) := by
  rw [applyRemoteSession, bind_run, mergeCrdtObjects]
  cases env.crdtFault with
  | some exc => rfl
  | none =>
    dsimp only [Option.elim]
    cases hs : a.node.sessions remote.sessionId with
    | none => simp only [pure_run, bind_get_run, hs]
    | some s =>
      simp only [pure_run, bind_get_run, hs]
      split <;> rfl

/-- The guard writes nothing to the session. -/
theorem reportDuplicateId_state (env : GossipEnv K) (s remote : Session K) (a : Adapter K) :
    (stateOf (reportDuplicateId env s remote a)).replicaId = a.replicaId ∧
      (stateOf (reportDuplicateId env s remote a)).node.replicaId = a.node.replicaId ∧
      (stateOf (reportDuplicateId env s remote a)).node.sessions = a.node.sessions := by
  rw [reportDuplicateId, bind_get_run]
  split
  · exact ⟨rfl, rfl, rfl⟩
  · rw [bind_modify_run, stateOf_runtime, Runtime.stateOf_publish]
    exact ⟨rfl, rfl, rfl⟩

/-- A delivery to a replica that has not the session: nothing, or the session is adopted. -/
theorem apply_unknown (env : GossipEnv K) (hs : a.node.sessions remote.sessionId = none) :
    (stateOf (applyRemoteSession env remote a)).replicaId = a.replicaId ∧
      (stateOf (applyRemoteSession env remote a) = a ∧
          returned (applyRemoteSession env remote a) = false ∨
        Leaves remote.sessionId a.node (stateOf (applyRemoteSession env remote a)).node fun s' =>
          Adopted env a.node.replicaId remote s' (returned (applyRemoteSession env remote a))) := by
  rw [apply_run]
  cases env.crdtFault with
  | some exc => exact ⟨rfl, .inl ⟨rfl, rfl⟩⟩
  | none =>
    rw [hs]
    dsimp only [Option.elim]
    have hleaves := bootstrap_leaves env remote a.node
    rw [runtime_run]
    cases hb : bootstrapRemoteSession env remote a.node with
    | ok b n =>
      rw [hb] at hleaves
      exact ⟨rfl, .inr hleaves⟩
    | error exc n =>
      rw [hb] at hleaves
      exact ⟨rfl, .inr hleaves⟩

/-- A delivery to a replica that has the session: it is refused, or reconciled. -/
theorem apply_known (env : GossipEnv K) (hs : a.node.sessions remote.sessionId = some s)
    (hid : s.sessionId = remote.sessionId) (hbranch : env.branchId ≠ remote.sessionId) :
    (stateOf (applyRemoteSession env remote a)).replicaId = a.replicaId ∧
      (duplicateIdDetected a.replicaId s remote ∧
          (stateOf (applyRemoteSession env remote a)).node.replicaId = a.node.replicaId ∧
          (stateOf (applyRemoteSession env remote a)).node.sessions = a.node.sessions ∨
        ¬duplicateIdDetected a.replicaId s remote ∧
          Leaves remote.sessionId a.node (stateOf (applyRemoteSession env remote a)).node fun s' =>
            Reconciled a.node.replicaId s remote s'
              (returned (applyRemoteSession env remote a))) := by
  rw [apply_run]
  cases env.crdtFault with
  | some exc =>
    refine ⟨rfl, ?_⟩
    by_cases hdup : duplicateIdDetected a.replicaId s remote
    · exact .inl ⟨hdup, rfl, rfl⟩
    · exact .inr ⟨hdup, ⟨s, hs, hid, .kept rfl rfl⟩, rfl, .refl _⟩
  | none =>
    rw [hs]
    dsimp only [Option.elim]
    split
    · rename_i hdup
      rw [stateOf_bind_pure]
      obtain ⟨hrep, hnode, hses⟩ := reportDuplicateId_state env s remote a
      exact ⟨hrep, .inl ⟨hdup, hnode, hses⟩⟩
    · rename_i hdup
      rw [← hid] at hs hbranch
      obtain ⟨hrep, hleaves⟩ := reconcile_leaves env remote { a with
        pendingDuplicateIds := Function.update a.pendingDuplicateIds remote.sessionId ∅ } hs hbranch
      refine ⟨hrep, .inr ⟨hdup, ?_⟩⟩
      rw [hid] at hleaves
      exact hleaves

end GossipAdapter

end CksRuntime
