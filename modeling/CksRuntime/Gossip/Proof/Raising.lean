import CksRuntime.Gossip.Proof.Effect

/-!
# A delivery that raises

A delivery has written nothing when it raises exactly if it raises in the CRDT merge, in reporting a
duplicate replica id, in saving a vector that was empty and stays so, or in beginning the
transaction of a three-way merge (`untouched_iff`). A fast-forward takes the snapshot's vector
before it begins its transaction, and an adopted session is registered before it is committed: these
have always written.
-/

set_option autoImplicit false

namespace CksRuntime

open Effect VersionVector

variable {K : Core}

/-- Neither the session's content and metadata, its vector with it, nor which sessions are
registered and stored has changed. -/
structure Untouched (sessionId : String) (n n' : Node K) : Prop where
  knowledgeStructure : (n'.sessions sessionId).map (·.knowledgeStructure) =
    (n.sessions sessionId).map (·.knowledgeStructure)
  metadata : (n'.sessions sessionId).map (·.metadata) = (n.sessions sessionId).map (·.metadata)
  registered : ∀ id, (n'.sessions id).isSome = (n.sessions id).isSome
  stored : ∀ id, (n'.shared.storage.sessions id).isSome = (n.shared.storage.sessions id).isSome

theorem Untouched.refl (sessionId : String) (n : Node K) : Untouched sessionId n n :=
  ⟨rfl, rfl, fun _ => rfl, fun _ => rfl⟩

namespace GossipAdapter

/-- The delivery does not get to its first write: the CRDT merge raises, the guard refuses, both
vectors are empty and the content equivalent, or a three-way merge that would succeed finds a
transaction open. -/
def StopsBeforeWriting (env : GossipEnv K) (remote : Session K) (a : Adapter K) : Prop :=
  env.crdtFault.isSome ∨ ∃ s, a.node.sessions remote.sessionId = some s ∧
    (duplicateIdDetected a.replicaId s remote ∨
      K.structurallyEquivalent s.knowledgeStructure remote.knowledgeStructure ∧
        remote.vector.clocks = ∅ ∧ s.metadata.versionVector = some (.dict ∅ ∅) ∨
      ¬K.structurallyEquivalent s.knowledgeStructure remote.knowledgeStructure ∧
        ¬s.vector.dominates remote.vector ∧ ¬remote.vector.dominates s.vector ∧
        (OperationExecutor.execute (mergeOperation remote) a.node.shared.storage s).1.status ≠
          .failed ∧
        s.hasActiveTransaction)

variable {env : GossipEnv K} {s remote : Session K} {n n' : Node K} {a a' : Adapter K}
  {e : Err K.Obj}

/-! ## Vectors that move -/

/-- The metadata an absorb leaves is the old one only if both vectors are empty, the session's as
recorded. -/
theorem absorbed_metadata_iff (hd : ¬s.vector.dominates remote.vector) :
    (absorbed s remote).metadata = s.metadata ↔
      remote.vector.clocks = ∅ ∧ s.metadata.versionVector = some (.dict ∅ ∅) := by
  constructor
  · intro h
    have hvec : s.vector.absorb remote.vector = s.vector := congrArg fromMetadata h
    obtain ⟨hs, hr⟩ := (absorb_eq_self_iff hd).1 hvec
    have hraw := congrArg Metadata.versionVector h
    refine ⟨hr, hraw.symm.trans ?_⟩
    have hclocks : (s.vector.absorb remote.vector).clocks = ∅ := by rw [hvec, hs]
    exact congrArg (fun clocks => some (RawVector.dict clocks ∅)) hclocks
  · rintro ⟨hr, hraw⟩
    have hs : s.vector.clocks = ∅ := by rw [Session.vector, fromMetadata, hraw]
    have hm : (absorbed s remote).metadata =
        { s.metadata with versionVector := some (.dict (s.vector.absorb remote.vector).clocks ∅) } :=
      rfl
    rw [hm, absorb_empty _ hr, hs, ← hraw]

/-- A session whose clocks have gone up is not the one it was. -/
theorem not_untouched_of_lt {s' : Session K} {sessionId : String}
    (hs : n.sessions sessionId = some s) (hs' : n'.sessions sessionId = some s')
    (h : fromMetadata s.metadata < fromMetadata s'.metadata) : ¬Untouched sessionId n n' := by
  intro hu
  have hm := hu.metadata
  rw [hs, hs'] at hm
  have hm' : s'.metadata = s.metadata := Option.some.inj hm
  rw [hm'] at h
  exact lt_irrefl _ h

/-! ## The ways to raise -/

theorem resolved_error {α : Type} {sessionId : String} {call : RuntimeM K α}
    (h : resolved sessionId call a = .error e a') : call a.node = .error e a'.node := by
  rw [resolved, bind_eq_error, runtime_run] at h
  cases hc : call a.node with
  | ok r n =>
    rw [hc] at h
    obtain h | ⟨r', a₁, -, h⟩ := h <;> cases h
  | error exc n =>
    rw [hc] at h
    obtain h | ⟨r', a₁, h, -⟩ := h
    · cases h
      rfl
    · cases h

/-- A merge that the probe found to succeed succeeds in the commit: the probed session differs from
the committed one in its open transaction only. -/
theorem probe_status (s : Session K) (transactionId : Option String) (storage : Storage K) :
    (OperationExecutor.execute (mergeOperation remote) storage
        { s with activeTransaction := transactionId }).1.status =
      (OperationExecutor.execute (mergeOperation remote) storage s).1.status := by
  refine OperationExecutor.status_congr ?_
  have hresult := Operation.execute_merge_result (m := { sourceSession := some remote }) rfl
    "gossip-merge" storage
  exact (hresult { s with activeTransaction := transactionId }).trans (hresult s).symm

/-- A commit of one operation that does not fail raises after it has bumped the clocks. -/
theorem commit_error_bumped {c c' : Ctx K} {penv : Env K} {op : Operation K}
    (hops : c.transaction.operations = [op]) (hreq : c.transaction.requests = [])
    (hok : (OperationExecutor.execute op c.shared.storage c.session).1.status ≠ .failed)
    (h : Pipeline.commit penv c = .error e c') :
    c'.session.metadata =
      Pipeline.bumpMetadata penv.replicaId (itemsMetadata penv.registry c.transaction.items
        c.session.metadata) := by
  have hitems : c.transaction.items = [.operation op] := by
    rw [Transaction.items, hops, hreq]
    rfl
  obtain hstage | ⟨c₁, hex, hraise⟩ := Pipeline.commit_error h
  · -- the stage raises only if the operation fails
    exfalso
    have hne : ¬(c.transaction.operations.isEmpty ∧ c.transaction.requests.isEmpty : Prop) := by
      rw [hops]
      simp
    rw [Pipeline.executeStage, bind_get_run, if_neg hne, Pipeline.executeOperations_run, hitems,
      List.forM_cons, List.forM_nil, bind_eq_error] at hstage
    obtain hstage | ⟨u, c₁, -, hstage⟩ := hstage
    · obtain ⟨operationId, hx⟩ : ∃ operationId, (Item.operation op).execute penv c =
          Pipeline.finishResult penv operationId (some op)
            (OperationExecutor.execute op c.shared.storage c.session).1
            { c with session :=
                { c.session with metadata := op.metadataAfter c.session.metadata } } :=
        Item.execute_of_operation rfl c
      rw [hx] at hstage
      exact hok (Pipeline.finishResult_error hstage).1
    · cases hstage
  · obtain ⟨ks, ds, hs⟩ := hex.session
    obtain ⟨-, rfl⟩ | ⟨v, -, hv⟩ := Pipeline.commitStage_error hraise
    · rw [Session.bumped, hs]
    · obtain ⟨active, -, hses⟩ := hv.session
      rw [hses, Session.versioned, hs]

/-- The session is there after a delivery that adopts it, raising or not. -/
theorem not_untouched_of_unknown {sessionId : String} {P : Session K → Prop}
    (hs : n.sessions sessionId = none) (h : Leaves sessionId n n' P) : ¬Untouched sessionId n n' := by
  obtain ⟨s', hs', -⟩ := h.session
  intro hu
  have hreg := hu.registered sessionId
  rw [hs, hs'] at hreg
  cases hreg

/-- Reporting a duplicate publishes an event, and nothing else. -/
theorem reportDuplicateId_untouched (env : GossipEnv K) (s remote : Session K) (a : Adapter K)
    (sessionId : String) :
    Untouched sessionId a.node (stateOf (reportDuplicateId env s remote a)).node := by
  rw [reportDuplicateId, bind_get_run]
  split
  · exact .refl _ _
  · rw [bind_modify_run, stateOf_runtime, Runtime.stateOf_publish]
    exact ⟨rfl, rfl, fun _ => rfl, fun _ => rfl⟩

theorem absorbVector_error (h : absorbVector env s remote n = .error e n') :
    ¬s.vector.dominates remote.vector ∧ n' = n.registered (absorbed s remote) := by
  unfold absorbVector at h
  split at h
  · cases h
  · rename_i hd
    rw [bind_run, Runtime.register_run] at h
    dsimp only at h
    rw [Runtime.saveSession_run] at h
    cases hf : env.saveSessionFault with
    | none => rw [hf] at h; cases h
    | some exc =>
      rw [hf] at h
      cases h
      exact ⟨hd, rfl⟩

/-- Registering the absorbed session changes its metadata, if anything. -/
theorem untouched_absorbed_iff (hreg : n.sessions s.sessionId = some s) :
    Untouched s.sessionId n (n.registered (absorbed s remote)) ↔
      (absorbed s remote).metadata = s.metadata := by
  have hself : (n.registered (absorbed s remote)).sessions s.sessionId =
      some (absorbed s remote) := Function.update_self _ _ _
  constructor
  · intro hu
    have hm := hu.metadata
    rw [hreg, hself] at hm
    exact Option.some.inj hm
  · intro hm
    refine ⟨by rw [hreg, hself]; rfl, ?_, fun id => ?_, fun _ => rfl⟩
    · rw [hreg, hself]
      exact congrArg some hm
    · by_cases hid : id = s.sessionId
      · subst hid
        rw [hreg, hself]
        rfl
      · have hother : (n.registered (absorbed s remote)).sessions id = n.sessions id :=
          Function.update_of_ne hid _ _
        rw [hother]

/-- A conflict that raises has registered its branch. -/
theorem escalate_error {probe : ExecutionResult K} (hfresh : a.node.sessions env.branchId = none)
    (h : escalate env s remote probe a = .error e a') (sessionId : String) :
    ¬Untouched sessionId a.node a'.node := by
  rw [escalate, bind_get_run] at h
  split at h
  · cases h
  · obtain ⟨branchId, hrun⟩ := registerConflictBranch_run env s remote a
    obtain ⟨hses, -, -⟩ := Runtime.stateOf_adopt
      ⟨env.branchId, env.branchNodeId, env.branchSaveFault, env.pipeline.subscriber⟩
      (conflictBranch env s remote a.replicaId) a.node
    rw [bind_of_ok hrun, bind_modify_run] at h
    set n := stateOf (Runtime.adopt
      ⟨env.branchId, env.branchNodeId, env.branchSaveFault, env.pipeline.subscriber⟩
      (conflictBranch env s remote a.replicaId) a.node) with hn
    have hstate : ∀ event : Event, (n.published event).sessions env.branchId =
        some (conflictBranch env s remote a.replicaId) := fun event => by
      rw [Node.published, hses]
      exact Function.update_self _ _ _
    rw [bind_run, runtime_run, Runtime.publish_run] at h
    cases hsub : env.pipeline.subscriber (.gossipConflictDetected a.replicaId s.sessionId branchId
        (conflictsOf probe)) with
    | none => rw [hsub] at h; cases h
    | some exc =>
      rw [hsub] at h
      cases h
      intro hu
      have hnew := hu.registered env.branchId
      rw [hstate, hfresh] at hnew
      cases hnew

/-- A merge that would succeed raises untouched if its transaction is refused, and with its clocks
bumped else. -/
theorem commitMerge_untouched_iff (hreg : n.sessions s.sessionId = some s)
    (hnode : s.metadata.nodeId.isSome) (hff : ¬remote.vector.dominates s.vector)
    (hok : (OperationExecutor.execute (mergeOperation remote) n.shared.storage s).1.status ≠ .failed)
    (h : commitTransaction env s [mergeOperation remote] n = .error e n') :
    Untouched s.sessionId n n' ↔ s.hasActiveTransaction := by
  have hrun := h
  rw [commitTransaction_run] at hrun
  by_cases hact : s.hasActiveTransaction
  · rw [if_pos hact] at hrun
    cases hrun
    exact iff_of_true (.refl _ _) hact
  · rw [if_neg hact] at hrun
    refine iff_of_false ?_ hact
    unfold Runtime.onSession at hrun
    split at hrun
    · cases hrun
    · rename_i exc c hc
      cases hrun
      have hbumped := commit_error_bumped (c := commitCtx env s [mergeOperation remote] n) rfl rfl
        (by rw [← probe_status s (some env.transactionId)] at hok; exact hok) hc
      have hsame : itemsMetadata (commitEnv env n.replicaId).registry
          (commitCtx env s [mergeOperation remote] n).transaction.items s.metadata = s.metadata :=
        itemsMetadata_operations rfl (fun op hop => by
          rw [List.mem_singleton.1 hop]
          exact not_fastForwards_merge hff) fun x hx => hx
      refine not_untouched_of_lt hreg (Function.update_self _ _ _) ?_
      have hms : (commitCtx env s [mergeOperation remote] n).session.metadata = s.metadata := rfl
      rw [hms, hsame] at hbumped
      rw [hbumped]
      exact lt_bumpMetadata (.inl hnode)

/-! ## Reconciling -/

theorem merge_untouched_iff (hreg : a.node.sessions s.sessionId = some s)
    (hnode : s.metadata.nodeId.isSome) (hfresh : a.node.sessions env.branchId = none)
    (hff : ¬remote.vector.dominates s.vector) (h : merge env s remote a = .error e a') :
    Untouched s.sessionId a.node a'.node ↔
      (OperationExecutor.execute (mergeOperation remote) a.node.shared.storage s).1.status ≠
          .failed ∧ s.hasActiveTransaction := by
  rw [merge, bind_get_run] at h
  have hprobe := probe_session hff a.node.shared.storage
  set r := OperationExecutor.execute (mergeOperation remote) a.node.shared.storage s with hr
  obtain ⟨probe, s'⟩ := r
  dsimp only at hprobe h ⊢
  replace hprobe := hprobe.symm
  subst hprobe
  have hsame : a.node.registered s = a.node := by
    rw [Node.registered, Function.update_eq_self_iff.2 hreg.symm]
  rw [bind_run, runtime_run, Runtime.register_run, hsame] at h
  dsimp only at h
  split at h
  · rename_i hfail
    exact iff_of_false (escalate_error hfresh h s.sessionId) fun hc => hc.1 hfail
  · rename_i hok
    have hok' : (OperationExecutor.execute (mergeOperation remote) a.node.shared.storage s).1.status ≠
        .failed := by rw [← hr]; exact hok
    have hcommit := commitMerge_untouched_iff hreg hnode hff hok' (resolved_error h)
    exact hcommit.trans ⟨fun hact => ⟨hok, hact⟩, fun hc => hc.2⟩

theorem reconcile_untouched_iff (hreg : a.node.sessions s.sessionId = some s)
    (hnode : s.metadata.nodeId.isSome) (hfresh : a.node.sessions env.branchId = none)
    (h : reconcile env s remote a = .error e a') :
    Untouched s.sessionId a.node a'.node ↔
      K.structurallyEquivalent s.knowledgeStructure remote.knowledgeStructure ∧
          remote.vector.clocks = ∅ ∧ s.metadata.versionVector = some (.dict ∅ ∅) ∨
        ¬K.structurallyEquivalent s.knowledgeStructure remote.knowledgeStructure ∧
          ¬s.vector.dominates remote.vector ∧ ¬remote.vector.dominates s.vector ∧
          (OperationExecutor.execute (mergeOperation remote) a.node.shared.storage s).1.status ≠
            .failed ∧ s.hasActiveTransaction := by
  unfold reconcile at h
  split at h
  · rename_i heq
    obtain ⟨hd, hn⟩ := absorbVector_error (resolved_error h)
    rw [hn, untouched_absorbed_iff hreg, absorbed_metadata_iff hd]
    simp [heq]
  · rename_i hne
    split at h
    · cases h
    · rename_i hd
      split at h
      · rename_i hdom
        refine iff_of_false ?_ fun hc => ?_
        · have hleaves := fastForward_metadata env s remote a.node
          rw [resolved_error h, stateOf_error] at hleaves
          obtain ⟨s', hs', -, hm⟩ := hleaves.session
          -- a fast-forward has absorbed the remote vector before it raises
          have hlt : fromMetadata s.metadata < fromMetadata (absorbed s remote).metadata :=
            lt_absorb ⟨hd, hdom⟩
          refine not_untouched_of_lt hreg hs' ?_
          rcases hm with hm | ⟨-, hm⟩
          · rw [hm]
            exact hlt.trans_le (le_bumpMetadata _ _)
          · rw [hm]
            exact hlt
        · rcases hc with hc | hc
          · exact hne hc.1
          · exact hc.2.2.1 hdom
      · rename_i hff
        rw [merge_untouched_iff hreg hnode hfresh hff h]
        simp [hne, hd, hff]

end GossipAdapter

/-! ## Main result -/

open GossipAdapter

/-- **When a delivery that raises leaves no trace**: exactly when it stops before its first
write. -/
theorem untouched_iff {env : GossipEnv K} {remote : Session K} {a a' : Adapter K} {e : Err K.Obj}
    (hids : ∀ id, ∀ s ∈ a.node.sessions id, s.sessionId = id)
    (hnodes : ∀ id, ∀ s ∈ a.node.sessions id, s.metadata.nodeId.isSome)
    (hfresh : a.node.sessions env.branchId = none)
    (h : applyRemoteSession env remote a = .error e a') :
    Untouched remote.sessionId a.node a'.node ↔ StopsBeforeWriting env remote a := by
  rw [apply_run] at h
  unfold StopsBeforeWriting
  cases hcrdt : env.crdtFault with
  | some exc =>
    rw [hcrdt] at h
    cases h
    exact iff_of_true (.refl _ _) (.inl rfl)
  | none =>
    rw [hcrdt] at h
    dsimp only [Option.elim] at h
    cases hs : a.node.sessions remote.sessionId with
    | none =>
      rw [hs] at h
      refine iff_of_false (not_untouched_of_unknown hs
        (P := fun s' => Adopted env a.node.replicaId remote s' false) ?_) fun hc => ?_
      · have hleaves := bootstrap_leaves env remote a.node
        rw [runtime_run] at h
        cases hb : bootstrapRemoteSession env remote a.node with
        | ok b n => rw [hb] at h; cases h
        | error exc n =>
          rw [hb] at h hleaves
          cases h
          exact hleaves
      · obtain hc | ⟨s, hc, -⟩ := hc <;> cases hc
    | some s =>
      rw [hs] at h
      dsimp only at h
      have hid := hids _ s hs
      have hnode := hnodes _ s hs
      by_cases hdup : duplicateIdDetected a.replicaId s remote
      · rw [if_pos hdup] at h
        have hstate := stateOf_bind_pure (reportDuplicateId env s remote) false a
        rw [h, stateOf_error] at hstate
        refine iff_of_true ?_ (.inr ⟨s, rfl, .inl hdup⟩)
        rw [hstate]
        exact reportDuplicateId_untouched env s remote a _
      · rw [if_neg hdup] at h
        have hreg := hs
        rw [← hid] at hreg
        have hiff := reconcile_untouched_iff (a := { a with
          pendingDuplicateIds := Function.update a.pendingDuplicateIds remote.sessionId ∅ })
          hreg hnode hfresh h
        rw [hid] at hiff
        refine hiff.trans ⟨fun hc => .inr ⟨s, rfl, .inr hc⟩, fun hc => ?_⟩
        obtain hc | ⟨s', hs', hc⟩ := hc
        · cases hc
        · cases hs'
          exact hc.resolve_left hdup

/-! ## Refused transactions -/

namespace GossipAdapter

/-- A replica whose session has a transaction open. -/
def busyAdapter (s : Session Core.register) : Adapter Core.register where
  node := {
    replicaId := some "r"
    sessions := fun id => if id = "s" then some { s with activeTransaction := some "t" } else none }
  replicaId := "r"

/-- A session of the register. -/
def registerSession (nodeId : String) (ks : Nat) (vector : VersionVector) :
    Session Core.register :=
  { SessionManager.newSession "s" nodeId ks with
    metadata := vector.toMetadata { nodeId := some nodeId }
    parentVersionId := some EMPTY_STATE_VERSION_ID }

/-- What a delivery meets. -/
def registerEnv : GossipEnv Core.register where
  pipeline := { replicaId := none, versionId := "v" }
  transactionId := "t'"
  nodeId := "b"
  branchId := "s'"
  branchNodeId := "b'"

/-- No clock of the one is known to the other. -/
def concurrentLocal : Session Core.register :=
  registerSession "n" 0 ((⟨∅⟩ : VersionVector).bump "n")

/-- The snapshot that is concurrent with it. -/
def concurrentRemote : Session Core.register :=
  registerSession "m" 7 ((⟨∅⟩ : VersionVector).bump "m")

/-- The snapshot has seen the session's own commit, and one more. -/
def aheadRemote : Session Core.register :=
  registerSession "m" 7 (((⟨∅⟩ : VersionVector).bump "n").bump "m")

/-- The session the snapshot is ahead of. -/
def behindLocal : Session Core.register :=
  registerSession "n" 5 ((⟨∅⟩ : VersionVector).bump "n")

/-- The replica the snapshot has been refused by. -/
def refusedAdapter : Adapter Core.register :=
  stateOf (applyRemoteSession registerEnv aheadRemote (busyAdapter behindLocal))

/-- The same once its transaction is over. -/
def idleAdapter : Adapter Core.register :=
  { refusedAdapter with node := { refusedAdapter.node with
    sessions := fun id =>
      (refusedAdapter.node.sessions id).map ({ · with activeTransaction := none }) } }

end GossipAdapter

/-- A three-way merge that finds a transaction open leaves no trace. -/
theorem untouched_refused_merge :
    ∃ e a', applyRemoteSession registerEnv concurrentRemote (busyAdapter concurrentLocal) =
        .error e a' ∧ Untouched "s" (busyAdapter concurrentLocal).node a'.node := by
  have hret : returned (applyRemoteSession registerEnv concurrentRemote
      (busyAdapter concurrentLocal)) = false := by decide
  have hsession : ∀ id, ∀ s ∈ (busyAdapter concurrentLocal).node.sessions id,
      id = "s" ∧ s = { concurrentLocal with activeTransaction := some "t" } := by
    intro id s hs
    rw [busyAdapter, Option.mem_def] at hs
    dsimp only at hs
    split at hs
    · rename_i hid
      cases hs
      exact ⟨hid, rfl⟩
    · cases hs
  cases h : applyRemoteSession registerEnv concurrentRemote (busyAdapter concurrentLocal) with
  | ok b a' =>
    rw [h] at hret
    cases hret
  | error e a' =>
    refine ⟨e, a', rfl, (untouched_iff ?_ ?_ rfl h).2 (.inr ⟨_, rfl, .inr (.inr ?_)⟩)⟩
    · intro id s hs
      obtain ⟨rfl, rfl⟩ := hsession id s hs
      rfl
    · intro id s hs
      obtain ⟨-, rfl⟩ := hsession id s hs
      rfl
    · exact ⟨by decide, by decide, by decide, by decide, rfl⟩

/-- A fast-forward that finds a transaction open has taken the snapshot's vector: when the snapshot
comes again it is taken for known, and its content is lost. -/
theorem refused_fastForward_lost :
    returned (applyRemoteSession registerEnv aheadRemote (busyAdapter behindLocal)) = false ∧
      ¬Untouched "s" (busyAdapter behindLocal).node refusedAdapter.node ∧
      returned (applyRemoteSession registerEnv aheadRemote idleAdapter) = true ∧
      ((stateOf (applyRemoteSession registerEnv aheadRemote idleAdapter)).node.sessions "s").map
        (·.knowledgeStructure) = some (5 : Nat) := by
  refine ⟨by decide, fun hu => ?_, by decide, by decide⟩
  have hm := congrArg (Option.map fun m => (VersionVector.fromMetadata m).get "m") hu.metadata
  revert hm
  decide

end CksRuntime
