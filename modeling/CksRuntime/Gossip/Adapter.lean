import CksRuntime.Runtime.Runtime

/-!
# The gossip adapter

`gossip/adapter.py`: how a replica applies a peer's snapshot of a session. A session it has not
seen is adopted; one it has is compared with the snapshot, by content first and then by vector, and
takes the snapshot's vector, its content, or a three-way merge. `apply_remote_session` is serialized
per session, so a call is one step. The adapter's event bus is the Runtime's, as by default.
-/

set_option autoImplicit false

namespace CksRuntime

variable {K : Core}

/-- A Runtime with its adapter. A set that is missing from `_pending_duplicate_ids` is empty. -/
structure Adapter (K : Core) where
  node : Node K
  replicaId : String
  pendingConflictVectors : String → Option VersionVector := fun _ => none
  pendingDuplicateIds : String → Finset Int := fun _ => ∅

/-- A call on the adapter. -/
abbrev GossipM (K : Core) := EStateM (Err K.Obj) (Adapter K)

/-- What applying a snapshot draws and meets: the pipeline's own environment, the fresh ids, and
which of the calls out of the adapter raise. The CRDT object store, which a snapshot's objects go
into first, is another store: it may only raise. -/
structure GossipEnv (K : Core) where
  pipeline : Env K
  transactionId : String
  /-- The node id of an adopted session. -/
  nodeId : String
  /-- The ids of the branch a conflict is kept in. -/
  branchId : String
  branchNodeId : String
  crdtFault : Option (Err K.Obj) := none
  saveSessionFault : Option (Err K.Obj) := none
  branchSaveFault : Option (Err K.Obj) := none

namespace GossipAdapter

/-! ## Calls on the Runtime -/

/-- A call on the Runtime the adapter has. -/
def runtime {α : Type} (call : RuntimeM K α) : GossipM K α := fun a =>
  match call a.node with
  | .ok r n => .ok r { a with node := n }
  | .error exc n => .error exc { a with node := n }

variable (env : GossipEnv K)

/-- The pipeline of the Runtime: its commits are under the Runtime's own replica id. -/
def commitEnv (replicaId : Option String) : Env K :=
  { env.pipeline with replicaId := replicaId }

/-- `begin_transaction`, `add_operation` and `commit_transaction`. -/
def commitTransaction (s : Session K) (operations : List (Operation K)) :
    RuntimeM K (Version K) := do
  let replicaId := (← get).replicaId
  let tx ← Runtime.beginTransaction env.transactionId s.sessionId s
  Runtime.onSession s.sessionId { s with activeTransaction := some tx.transactionId }
    { tx with operations := operations } (Pipeline.commit (commitEnv env replicaId))

/-! ## Adopting a session -/

/-- The session `_bootstrap_remote_session` makes of a snapshot: its content and vector, a node id
of its own, and the empty state for its fork point. -/
def bootstrapped (nodeId : String) (remote : Session K) : Session K where
  knowledgeStructure := remote.knowledgeStructure
  sessionId := remote.sessionId
  metadata := { remote.metadata with nodeId := some nodeId }
  snapshotInterval := remote.snapshotInterval
  interval_pos := remote.interval_pos
  parentSessionId := remote.parentSessionId
  parentVersionId := some EMPTY_STATE_VERSION_ID

/-- `_bootstrap_remote_session`: registered and saved, then committed as a version. -/
def bootstrapRemoteSession (remote : Session K) : RuntimeM K Bool := do
  let s := bootstrapped env.nodeId remote
  SessionManager.restore s
  Runtime.saveSession env.saveSessionFault s
  let _ ← commitTransaction env s []
  pure true

/-! ## The duplicate-replica-id guard -/

/-- The snapshot's clock for this replica is ahead of the replica's own, or level with it over
other content. -/
def duplicateIdDetected (replicaId : String) (s remote : Session K) : Prop :=
  s.vector.get replicaId < remote.vector.get replicaId ∨
    0 < remote.vector.get replicaId ∧ remote.vector.get replicaId = s.vector.get replicaId ∧
      ¬K.structurallyEquivalent s.knowledgeStructure remote.knowledgeStructure

instance (replicaId : String) (s remote : Session K) :
    Decidable (duplicateIdDetected replicaId s remote) := by
  unfold duplicateIdDetected; exact inferInstance

/-- A detection is published once for each clock. -/
def reportDuplicateId (s remote : Session K) : GossipM K Unit := do
  let a ← get
  let clock := remote.vector.get a.replicaId
  if clock ∈ a.pendingDuplicateIds remote.sessionId then pure ()
  else do
    modify fun a =>
      { a with
        pendingDuplicateIds := Function.update a.pendingDuplicateIds remote.sessionId
          (insert clock (a.pendingDuplicateIds remote.sessionId)) }
    runtime (Runtime.publish env.pipeline.subscriber (.duplicateReplicaIdDetected
      remote.sessionId a.replicaId (s.vector.get a.replicaId) clock))

/-! ## Conflicts -/

/-- A way to reconcile that ends in `return True`: a pending conflict is over with it. -/
def resolved {α : Type} (sessionId : String) (call : RuntimeM K α) : GossipM K Bool := do
  let _ ← runtime call
  modify fun a =>
    { a with pendingConflictVectors := Function.update a.pendingConflictVectors sessionId none }
  pure true

/-- The ids in conflict, or what the merge failed with. -/
def conflictsOf (probe : ExecutionResult K) : List String :=
  match probe.error with
  | some (.mergeConflict conflicts) => conflicts.map (·.objectId)
  | some exc => [exc.message]
  | none => ["None"]

/-- `_register_conflict_branch`: whatever registering the branch raises is swallowed. -/
def registerConflictBranch (s remote : Session K) : GossipM K String := fun a =>
  match Runtime.registerForeignBranch
      ⟨env.branchId, env.branchNodeId, env.branchSaveFault, env.pipeline.subscriber⟩ s
      remote.knowledgeStructure remote.parentVersionId
      { extra := Finmap.singleton "gossip_source_replica_id" (.text a.replicaId) } a.node with
  | .ok branch n => .ok branch.sessionId { a with node := n }
  | .error _ n => .ok "" { a with node := n }

/-- A conflict already reported for the same vector is not reported again. -/
def escalate (s remote : Session K) (probe : ExecutionResult K) : GossipM K Bool := do
  let a ← get
  if a.pendingConflictVectors remote.sessionId = some remote.vector then pure false
  else do
    let sourceSessionId ← registerConflictBranch env s remote
    modify fun a =>
      { a with
        pendingConflictVectors := Function.update a.pendingConflictVectors remote.sessionId
          (some remote.vector) }
    runtime (Runtime.publish env.pipeline.subscriber (.gossipConflictDetected a.replicaId
      s.sessionId sourceSessionId (conflictsOf probe)))
    pure false

/-! ## Reconciling with the local session -/

/-- `local_vector.absorb(remote_vector)`, written to the session. -/
def absorbed (s remote : Session K) : Session K :=
  { s with metadata := (s.vector.absorb remote.vector).toMetadata s.metadata }

/-- Over equivalent content only the vector is taken. The registered session is the object itself:
what is written to it is registered (`SessionManager.register`) at once. -/
def absorbVector (s remote : Session K) : RuntimeM K Unit :=
  if s.vector.dominates remote.vector then pure ()
  else do
    SessionManager.register (absorbed s remote)
    Runtime.saveSession env.saveSessionFault (absorbed s remote)

/-- The operation of a fast-forward: the remote structure replaces the local one. -/
def fastForwardOperation (remote : Session K) : Operation K :=
  ⟨"gossip-fast-forward", .replaceState (some remote.knowledgeStructure)⟩

/-- The vector is taken before the transaction that takes the content is begun. -/
def fastForward (s remote : Session K) : RuntimeM K (Version K) := do
  SessionManager.register (absorbed s remote)
  commitTransaction env (absorbed s remote) [fastForwardOperation remote]

/-- The operation of a merge with the remote session. -/
def mergeOperation (remote : Session K) : Operation K :=
  ⟨"gossip-merge", .merge { sourceSession := some remote }⟩

/-- The merge is probed on the session itself, and committed if it does not fail. -/
def merge (s remote : Session K) : GossipM K Bool := do
  let a ← get
  let (probe, s) := OperationExecutor.execute (mergeOperation remote) a.node.shared.storage s
  runtime (SessionManager.register s)
  if probe.status = .failed then escalate env s remote probe
  else resolved remote.sessionId (commitTransaction env s [mergeOperation remote])

/-- `_apply_remote_session_locked` past the guard. -/
def reconcile (s remote : Session K) : GossipM K Bool :=
  if K.structurallyEquivalent s.knowledgeStructure remote.knowledgeStructure then
    resolved remote.sessionId (absorbVector env s remote)
  else if s.vector.dominates remote.vector then resolved remote.sessionId (pure ())
  else if remote.vector.dominates s.vector then
    resolved remote.sessionId (fastForward env s remote)
  else merge env s remote

/-- `_merge_crdt_objects`. -/
def mergeCrdtObjects : GossipM K Unit :=
  match env.crdtFault with
  | some exc => throw exc
  | none => pure ()

/-- `apply_remote_session`. -/
def applyRemoteSession (remote : Session K) : GossipM K Bool := do
  mergeCrdtObjects env
  let a ← get
  match a.node.sessions remote.sessionId with
  | none => runtime (bootstrapRemoteSession env remote)
  | some s =>
    if duplicateIdDetected a.replicaId s remote then do
      reportDuplicateId env s remote
      pure false
    else do
      modify fun a =>
        { a with
          pendingDuplicateIds := Function.update a.pendingDuplicateIds remote.sessionId ∅ }
      reconcile env s remote

end GossipAdapter

end CksRuntime
