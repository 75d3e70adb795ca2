import CksRuntime.Pipeline.Proof.Probe
import CksRuntime.Runtime.Proof.Desk
import Mathlib.Data.Fintype.EquivFin

/-!
# Merging the same source again

When the vector a merge leaves dominates the source's, the source is absorbed: whatever is done to
the session afterwards, another merge of it is a no-op (`absorbs_iff_dominates`). The fast-forward
absorbs it in the operation; a three-way merge leaves the vector to the bump of its commit
(`merge_absorbs_iff`).
-/

set_option autoImplicit false

namespace CksRuntime

open VersionVector Effect

variable {K : Core}

/-! ## What may happen to a session -/

/-- A call on the session, with whatever it meets. -/
inductive SessionCall (K : Core)
  | begin (transactionId : String)
  | commit (env : Env K) (tx : Transaction K) (shared : Shared K)
  | rollback (env : Env K) (tx : Transaction K) (shared : Shared K)
  | abort (env : Env K) (tx : Transaction K) (shared : Shared K)
  /-- An operation executed outside of a transaction. -/
  | execute (op : Operation K) (storage : Storage K)

namespace SessionCall

/-- The session a call leaves, whether it returns or raises. -/
def run (s : Session K) : SessionCall K → Session K
  | .begin transactionId =>
    match TransactionManager.begin transactionId s with
    | .ok (_, s') => s'
    | .error _ => s
  | .commit env tx shared => (stateOf (Pipeline.commit env ⟨s, tx, shared⟩)).session
  | .rollback env tx shared => (stateOf (Pipeline.rollback env ⟨s, tx, shared⟩)).session
  | .abort env tx shared => (stateOf (Pipeline.abort env ⟨s, tx, shared⟩)).session
  | .execute op storage => (OperationExecutor.execute op storage s).2

/-- What a list of calls leaves. -/
def runAll (calls : List (SessionCall K)) (s : Session K) : Session K := calls.foldl run s

/-- No call takes a clock back. -/
theorem le_run (call : SessionCall K) (s : Session K) : s.vector ≤ (run s call).vector := by
  cases call with
  | begin transactionId =>
    simp only [run, TransactionManager.begin]
    by_cases h : s.hasActiveTransaction
    · simp [h]
    · simp only [h]
      exact le_rfl
  | commit env tx shared =>
    obtain ⟨done, -, ks, metadata, ds, history, active, hs, hm⟩ :=
      Pipeline.commit_session env ⟨s, tx, shared⟩
    have hle : s.vector ≤ fromMetadata (itemsMetadata env.registry done s.metadata) :=
      le_itemsMetadata env.registry done s.metadata
    show s.vector ≤ (stateOf (Pipeline.commit env ⟨s, tx, shared⟩)).session.vector
    rw [hs]
    show s.vector ≤ fromMetadata metadata
    rcases hm with rfl | ⟨-, rfl⟩
    · exact hle.trans (le_bumpMetadata _ _)
    · exact hle
  | rollback env tx shared =>
    show s.vector ≤ (stateOf (Pipeline.rollback env ⟨s, tx, shared⟩)).session.vector
    rw [(Pipeline.rollback_rolledBack env ⟨s, tx, shared⟩).session]
    exact le_rfl
  | abort env tx shared =>
    show s.vector ≤ (stateOf (Pipeline.abort env ⟨s, tx, shared⟩)).session.vector
    rw [abort_session]
    exact le_rfl
  | execute op storage =>
    show s.vector ≤ (OperationExecutor.execute op storage s).2.vector
    rw [OperationExecutor.execute_session]
    show s.vector ≤ fromMetadata (op.metadataAfter s.metadata)
    rw [Operation.vector_metadataAfter]
    exact op.le_vectorAfter _

theorem le_runAll (calls : List (SessionCall K)) (s : Session K) :
    s.vector ≤ (runAll calls s).vector := by
  induction calls generalizing s with
  | nil => exact le_rfl
  | cons call calls ih => exact (le_run call s).trans (ih _)

end SessionCall

/-! ## Absorbing a source -/

/-- The merge of `source` with the base and the resolutions given. -/
def mergeFrom (source : Session K) (operationId : String) (baseVersionId : Option String)
    (baseStructure : Option K.Structure) (resolutions : Option (Dict (Resolution K.Obj))) :
    Operation K :=
  ⟨operationId, .merge ⟨some source, baseVersionId, baseStructure, resolutions⟩⟩

/-- Every merge of `source` into `s` succeeds with the content `s` has and leaves `s` as it is. -/
def MergesAsNoOp (source s : Session K) : Prop :=
  ∀ operationId baseVersionId baseStructure resolutions (storage : Storage K),
    OperationExecutor.execute
        (mergeFrom source operationId baseVersionId baseStructure resolutions) storage s =
      ({ ExecutionResult.completed operationId (.state s.knowledgeStructure) with
          operation := some (mergeFrom source operationId baseVersionId baseStructure resolutions) },
        s)

/-- The vector of `s` says that `s` has what `source` has, and whatever is done to `s` later,
another merge of `source` is a no-op. -/
structure Absorbs (s source : Session K) : Prop where
  vector : s.vector.dominates source.vector ∨ s.vector = source.vector
  remerge : ∀ calls, MergesAsNoOp source (SessionCall.runAll calls s)

theorem mergesAsNoOp_of_dominates {source s : Session K}
    (h : s.vector.dominates source.vector) : MergesAsNoOp source s := by
  intro operationId baseVersionId baseStructure resolutions storage
  simp [OperationExecutor.execute, Operation.execute, MergeArgs.execute, mergeFrom, h,
    ExecutionResult.completed]

/-- A merge that is not on the no-op path moves the vector, or it looks for its base: one that names
a version the session has not reports FAILED. -/
theorem dominates_of_mergesAsNoOp {source s : Session K} (h : MergesAsNoOp source s) :
    s.vector.dominates source.vector := by
  by_contra hd
  obtain ⟨versionId, hfresh⟩ := Infinite.exists_notMem_finset
    (insert EMPTY_STATE_VERSION_ID (s.versionHistory.map (·.versionId)).toFinset)
  have hrun := h "" (some versionId) none none {}
  by_cases hff : source.vector.dominates s.vector
  · have hlt : s.vector < (mergeFrom source "" (some versionId) none none).vectorAfter s.vector :=
      Operation.lt_vectorAfter ⟨source, rfl, hd, hff⟩
    have hs := congrArg (fun r => r.2.vector) hrun
    rw [OperationExecutor.vector_execute] at hs
    exact hlt.ne' hs
  · have hindex : versionIndex s.versionHistory versionId = none := by
      rw [versionIndex, List.findIdx?_eq_none_iff]
      intro v hv
      have hne : v.versionId ≠ versionId := by
        rintro rfl
        apply hfresh
        simp only [Finset.mem_insert, List.mem_toFinset, List.mem_map]
        exact .inr ⟨v, hv, rfl⟩
      simpa using hne
    have hempty : versionId ≠ EMPTY_STATE_VERSION_ID := by
      rintro rfl
      exact hfresh (Finset.mem_insert_self _ _)
    have hstatus := congrArg (fun r => r.1.status) hrun
    simp [OperationExecutor.execute, Operation.execute, MergeArgs.execute, mergeFrom, hd, hff,
      MergeArgs.threeWay, MergeArgs.resolveBase, hempty, Session.getVersionState, hindex,
      Except.map, Err.isValueError, ExecutionResult.failed, ExecutionResult.completed] at hstatus

theorem absorbs_iff_dominates {s source : Session K} :
    Absorbs s source ↔ s.vector.dominates source.vector := by
  constructor
  · intro h
    exact dominates_of_mergesAsNoOp (h.remerge [])
  · intro h
    refine ⟨.inl h, fun calls => mergesAsNoOp_of_dominates ?_⟩
    exact dominates_mono h (SessionCall.le_runAll calls s)

/-! ## What a commit adds -/

/-- What the commit itself adds to a clock. -/
def commitBump (nodeId replicaId : Option String) (k : String) : Int :=
  (if nodeId = some k then 1 else 0) + (if replicaId = some k then 1 else 0)

/-- The source is ahead of `v` only at clocks the commit bumps, and by no more. -/
def WithinBump (nodeId replicaId : Option String) (v source : VersionVector) : Prop :=
  (nodeId.isSome ∨ replicaId.isSome ∨ v.clocks ≠ ∅) ∧
    ∀ k ∈ source.clocks, source.get k ≤ v.get k + commitBump nodeId replicaId k

theorem bumpVector_dominates_iff {nodeId replicaId : Option String} {v source : VersionVector} :
    (Pipeline.bumpVector nodeId replicaId v).dominates source ↔
      WithinBump nodeId replicaId v source := by
  have hget : ∀ k, (Pipeline.bumpVector nodeId replicaId v).get k =
      v.get k + commitBump nodeId replicaId k := by
    intro k
    rw [get_bumpVector, commitBump, add_assoc]
  have hne : (Pipeline.bumpVector nodeId replicaId v).clocks ≠ ∅ ↔
      nodeId.isSome ∨ replicaId.isSome ∨ v.clocks ≠ ∅ := by
    constructor
    · intro h
      obtain ⟨k, hk⟩ := exists_mem_of_ne_empty h
      rcases mem_bumpVector.1 hk with rfl | rfl | hk
      · exact .inl rfl
      · exact .inr (.inl rfl)
      · exact .inr (.inr (clocks_ne_empty hk))
    · intro h
      obtain ⟨k, hk⟩ : ∃ k, k ∈ (Pipeline.bumpVector nodeId replicaId v).clocks := by
        rcases h with h | h | h
        · obtain ⟨k, rfl⟩ := Option.isSome_iff_exists.1 h
          exact ⟨k, mem_bumpVector.2 (.inl rfl)⟩
        · obtain ⟨k, rfl⟩ := Option.isSome_iff_exists.1 h
          exact ⟨k, mem_bumpVector.2 (.inr (.inl rfl))⟩
        · obtain ⟨k, hk⟩ := exists_mem_of_ne_empty h
          exact ⟨k, mem_bumpVector.2 (.inr (.inr hk))⟩
      exact clocks_ne_empty hk
  rw [dominates_iff, hne, WithinBump]
  simp only [hget]

/-- The vector a commit leaves: what its items have absorbed, bumped. -/
theorem vector_of_commit {env : Env K} {c c' : Ctx K} {v : Version K}
    (h : Pipeline.commit env c = .ok v c') :
    c'.session.vector = Pipeline.bumpVector c.session.metadata.nodeId env.replicaId
      (fromMetadata (itemsMetadata env.registry c.transaction.items c.session.metadata)) := by
  obtain ⟨c₁, hex, -, hc⟩ := Pipeline.commit_ok h
  obtain ⟨ks, ds, hs⟩ := hex.session
  rw [Session.vector, hc.session, Session.versioned, hs]
  dsimp only
  rw [vector_bumpMetadata, nodeId_itemsMetadata]

/-! ## A committed merge -/

/-- The merge is decided by the vectors alone. -/
def OnFastPath (target source : VersionVector) : Prop :=
  target.dominates source ∨ source.dominates target

theorem itemsMetadata_middle (registry : OperationRegistry K) (before after : List (Item K))
    (x : Item K) (m : Metadata) :
    itemsMetadata registry (before ++ x :: after) m =
      itemsMetadata registry after (x.metadataAfter registry (itemsMetadata registry before m)) := by
  rw [itemsMetadata_append]
  rfl

/-- **When a merge absorbs its source**: on a fast path, or when the source is ahead of the target
only at clocks the commit bumps. `before` and `after` are the transaction's other items; without
them both vectors are the target's. -/
theorem merge_absorbs_iff {env : Env K} {c c' : Ctx K} {v : Version K}
    {before after : List (Item K)} {x : Item K} {op : Operation K} {source : Session K}
    (hitems : c.transaction.items = before ++ x :: after)
    (hop : x.operation? env.registry = some op) (hsource : op.kind.mergeSource = some source)
    (hcommit : Pipeline.commit env c = .ok v c') :
    Absorbs c'.session source ↔
      OnFastPath (fromMetadata (itemsMetadata env.registry before c.session.metadata))
          source.vector ∨
        WithinBump c.session.metadata.nodeId env.replicaId
          (fromMetadata (itemsMetadata env.registry (before ++ after) c.session.metadata))
          source.vector := by
  set m := itemsMetadata env.registry before c.session.metadata with hm
  have hvec := vector_of_commit hcommit
  rw [hitems, itemsMetadata_middle, ← hm] at hvec
  rw [absorbs_iff_dominates, hvec, bumpVector_dominates_iff]
  -- what dominates the source when the merge has run dominates it after the commit
  have hlater : (fromMetadata (x.metadataAfter env.registry m)).dominates source.vector →
      WithinBump c.session.metadata.nodeId env.replicaId (fromMetadata
        (itemsMetadata env.registry after (x.metadataAfter env.registry m))) source.vector := by
    intro h
    rw [← bumpVector_dominates_iff]
    apply dominates_mono h
    exact (le_itemsMetadata env.registry after _).trans (le_bumpVector _ _ _)
  rw [Item.metadataAfter_of_operation hop] at hlater ⊢
  by_cases hnoop : (fromMetadata m).dominates source.vector
  · have hstay := Operation.metadataAfter_of_source_not hsource fun hff => hff.1 hnoop
    rw [hstay] at hlater ⊢
    exact iff_of_true (hlater hnoop) (.inl (.inl hnoop))
  · by_cases hforward : source.vector.dominates (fromMetadata m)
    · rw [Operation.metadataAfter_of_source hsource ⟨hnoop, hforward⟩] at hlater ⊢
      exact iff_of_true (hlater (absorb_dominates _ hforward.1)) (.inl (.inr hforward))
    · have hstay := Operation.metadataAfter_of_source_not hsource fun hff => hforward hff.2
      have hslow : ¬OnFastPath (fromMetadata m) source.vector := not_or.2 ⟨hnoop, hforward⟩
      rw [hstay, itemsMetadata_append, ← hm]
      exact (or_iff_right hslow).symm

/-! ## A merge that is not absorbed -/

/-- A session without objects, after one commit of its own. -/
def absorbTarget : Session Core.slot where
  knowledgeStructure := none
  sessionId := "s"
  metadata := (⟨Finmap.singleton "a" 1⟩ : VersionVector).toMetadata { nodeId := some "a" }

/-- It has added the object, from the same empty state; `clocks` says what it has seen. -/
def absorbSource (clocks : VersionVector) : Session Core.slot where
  knowledgeStructure := some "obj"
  sessionId := "s"
  metadata := clocks.toMetadata { nodeId := some "b" }
  parentVersionId := some EMPTY_STATE_VERSION_ID

/-- A transaction of one operation. -/
def absorbTx (transactionId : String) (op : Operation Core.slot) : Transaction Core.slot where
  transactionId := transactionId
  operations := [op]
  initialState := none

/-- A merge of a source with these clocks. -/
def absorbMerge (clocks : VersionVector) : Operation Core.slot :=
  mergeFrom (absorbSource clocks) "merge" none none none

/-- What a commit meets. -/
def absorbEnv (versionId : String) : Env Core.slot := { replicaId := none, versionId := versionId }

/-- The transaction of the merge, on the target. -/
def absorbCtx (clocks : VersionVector) : Ctx Core.slot :=
  ⟨absorbTarget, absorbTx "t" (absorbMerge clocks), {}⟩

/-- The target's own commit, and one on top of it. -/
def seenClocks : VersionVector := (⟨Finmap.singleton "a" 1⟩ : VersionVector).bump "b"

/-- A commit made without the target's. -/
def unseenClocks : VersionVector := ⟨Finmap.singleton "b" 1⟩

theorem absorbCtx_commits_seen :
    ∃ v c', Pipeline.commit (absorbEnv "v") (absorbCtx seenClocks) = .ok v c' := ⟨_, _, rfl⟩

theorem absorbCtx_commits_unseen :
    ∃ v c', Pipeline.commit (absorbEnv "v") (absorbCtx unseenClocks) = .ok v c' := ⟨_, _, rfl⟩

/-- The source has seen the target's commit: a fast-forward. -/
theorem merge_absorbs_fastForward :
    ∃ v c', Pipeline.commit (absorbEnv "v") (absorbCtx seenClocks) = .ok v c' ∧
      Absorbs c'.session (absorbSource seenClocks) := by
  obtain ⟨v, c', hcommit⟩ := absorbCtx_commits_seen
  refine ⟨v, c', hcommit, ?_⟩
  have hitems : (absorbCtx seenClocks).transaction.items =
      [] ++ .operation (absorbMerge seenClocks) :: [] := rfl
  apply (merge_absorbs_iff hitems rfl rfl hcommit).2
  exact .inl (.inr (by decide))

/-- The source has not: the three-way merge takes the object, and not the clock. -/
theorem merged_source_not_absorbed :
    ¬∀ (env : Env Core.slot) (c c' : Ctx Core.slot) (v : Version Core.slot)
      (op : Operation Core.slot) (source : Session Core.slot),
      c.transaction.items = [.operation op] → op.kind.mergeSource = some source →
      Pipeline.commit env c = .ok v c' → Absorbs c'.session source := by
  intro h
  obtain ⟨v, c', hcommit⟩ := absorbCtx_commits_unseen
  have habs := h _ _ _ _ (absorbMerge unseenClocks) _ rfl rfl hcommit
  have hdom := absorbs_iff_dominates.1 habs
  rw [vector_of_commit hcommit] at hdom
  revert hdom
  decide

/-- Merged, deleted, merged again: the object is back. -/
example : (SessionCall.runAll [
    .commit (absorbEnv "v1") (absorbTx "t1" (absorbMerge unseenClocks)) {},
    .commit (absorbEnv "v2") (absorbTx "t2" ⟨"delete", .replaceState (some none)⟩) {},
    .commit (absorbEnv "v3") (absorbTx "t3" (absorbMerge unseenClocks)) {}]
    absorbTarget).knowledgeStructure = some "obj" := by
  rfl

end CksRuntime
