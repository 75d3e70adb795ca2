import CksRuntime.Execution.Executor
import CksRuntime.Versioning.Proof.VectorOrder

/-!
# What executing an operation does to its session

One field, and only by a merge that fast-forwards: the metadata takes the join of the two vectors
(`Operation.metadataAfter`, `execute_session`). Everything the pipeline's proofs need of the eleven
operation classes is stated here, so that they never look at `Operation.execute` again.
-/

set_option autoImplicit false

namespace CksRuntime

open VersionVector

variable {K : Core}

/-- The session a merge takes its content from. -/
def OperationKind.mergeSource : OperationKind K → Option (Session K)
  | .merge args => args.sourceSession
  | _ => none

namespace Operation

/-- The operation is a merge that takes the fast-forward path on a session with vector `v`. -/
def FastForwards (op : Operation K) (v : VersionVector) : Prop :=
  ∃ source ∈ op.kind.mergeSource, VersionVector.FastForwards v source.vector

instance (op : Operation K) (v : VersionVector) : Decidable (op.FastForwards v) := by
  unfold FastForwards
  cases op.kind.mergeSource with
  | none => exact .isFalse (by simp)
  | some source => exact decidable_of_iff (VersionVector.FastForwards v source.vector) (by simp)

/-- The vector the operation leaves. -/
def vectorAfter (op : Operation K) (v : VersionVector) : VersionVector :=
  match op.kind.mergeSource with
  | some source => if VersionVector.FastForwards v source.vector then v.absorb source.vector else v
  | none => v

/-- The metadata the operation leaves. -/
def metadataAfter (op : Operation K) (m : Metadata) : Metadata :=
  if op.FastForwards (fromMetadata m) then (op.vectorAfter (fromMetadata m)).toMetadata m else m

/-! ## The vector -/

theorem vectorAfter_of_not {op : Operation K} {v : VersionVector} (h : ¬op.FastForwards v) :
    op.vectorAfter v = v := by
  unfold vectorAfter
  cases hs : op.kind.mergeSource with
  | none => rfl
  | some source => exact if_neg fun hf => h ⟨source, hs, hf⟩

theorem vectorAfter_of_source {op : Operation K} {source : Session K}
    (hs : op.kind.mergeSource = some source) {v : VersionVector}
    (hf : VersionVector.FastForwards v source.vector) :
    op.vectorAfter v = v.absorb source.vector := by
  simp only [vectorAfter, hs, if_pos hf]

theorem metadataAfter_of_not {op : Operation K} {m : Metadata}
    (h : ¬op.FastForwards (fromMetadata m)) : op.metadataAfter m = m := if_neg h

theorem metadataAfter_of_source {op : Operation K} {source : Session K}
    (hs : op.kind.mergeSource = some source) {m : Metadata}
    (hf : VersionVector.FastForwards (fromMetadata m) source.vector) :
    op.metadataAfter m = ((fromMetadata m).absorb source.vector).toMetadata m := by
  rw [metadataAfter, if_pos ⟨source, hs, hf⟩, vectorAfter_of_source hs hf]

theorem metadataAfter_of_source_not {op : Operation K} {source : Session K}
    (hs : op.kind.mergeSource = some source) {m : Metadata}
    (hf : ¬VersionVector.FastForwards (fromMetadata m) source.vector) :
    op.metadataAfter m = m := by
  apply metadataAfter_of_not
  rintro ⟨source', hs', hff⟩
  obtain rfl := Option.some.inj (hs.symm.trans hs')
  exact hf hff

theorem vector_metadataAfter (op : Operation K) (m : Metadata) :
    fromMetadata (op.metadataAfter m) = op.vectorAfter (fromMetadata m) := by
  unfold metadataAfter
  split
  · rfl
  · rename_i h
    rw [vectorAfter_of_not h]

@[simp] theorem nodeId_metadataAfter (op : Operation K) (m : Metadata) :
    (op.metadataAfter m).nodeId = m.nodeId := by
  unfold metadataAfter
  split <;> rfl

theorem lt_vectorAfter {op : Operation K} {v : VersionVector} (h : op.FastForwards v) :
    v < op.vectorAfter v := by
  obtain ⟨source, hs, hf⟩ := h
  rw [vectorAfter_of_source hs hf]
  exact lt_absorb hf

theorem le_vectorAfter (op : Operation K) (v : VersionVector) : v ≤ op.vectorAfter v := by
  by_cases h : op.FastForwards v
  · exact (lt_vectorAfter h).le
  · rw [vectorAfter_of_not h]

/-- A clock the operation's source does not exceed stays below the same bound. -/
theorem get_vectorAfter_le {op : Operation K} {v : VersionVector} {k : String} {b : Int}
    (hv : v.get k ≤ b) (hs : ∀ source ∈ op.kind.mergeSource, source.vector.get k ≤ b) :
    (op.vectorAfter v).get k ≤ b := by
  unfold vectorAfter
  cases h : op.kind.mergeSource with
  | none => exact hv
  | some source =>
    dsimp only
    split
    · exact get_absorb_le hv (hs source h)
    · exact hv

/-! ## The session -/

theorem not_fastForwards_of_none {op : Operation K} (hk : op.kind.mergeSource = none)
    (v : VersionVector) : ¬op.FastForwards v := by
  rintro ⟨source, hs, -⟩
  rw [hk] at hs
  cases hs

theorem execute_merge_session (m : MergeArgs K) (operationId : String) (storage : Storage K)
    (s : Session K) :
    (m.execute operationId storage s).2 =
      { s with metadata := (⟨operationId, .merge m⟩ : Operation K).metadataAfter s.metadata } := by
  unfold MergeArgs.execute
  cases hs : m.sourceSession with
  | none =>
    have hsrc : (⟨operationId, .merge m⟩ : Operation K).kind.mergeSource = none := hs
    rw [metadataAfter_of_not (not_fastForwards_of_none hsrc _)]
  | some source =>
    have hsrc : (⟨operationId, .merge m⟩ : Operation K).kind.mergeSource = some source := hs
    have hiff : (⟨operationId, .merge m⟩ : Operation K).FastForwards s.vector ↔
        VersionVector.FastForwards s.vector source.vector := by
      simp [FastForwards, hsrc]
    by_cases h1 : s.vector.dominates source.vector
    · rw [metadataAfter_of_not fun h => (hiff.1 h).1 h1]
      simp [h1]
    · by_cases h2 : source.vector.dominates s.vector
      · rw [metadataAfter_of_source hsrc (m := s.metadata) ⟨h1, h2⟩]
        simp only [h1, h2, if_true, if_false]
        rfl
      · rw [metadataAfter_of_not fun h => h2 (hiff.1 h).2]
        simp [h1, h2]

/-- What a merge with a source results in: one of the two fast paths, or the three-way merge. -/
theorem execute_merge_result {m : MergeArgs K} {source : Session K}
    (hs : m.sourceSession = some source) (operationId : String) (storage : Storage K)
    (s : Session K) :
    (m.execute operationId storage s).1 =
      if s.vector.dominates source.vector then .ok (.completed operationId (.state s.knowledgeStructure))
      else if source.vector.dominates s.vector then
        .ok (.completed operationId (.state source.knowledgeStructure))
      else m.threeWay operationId storage source s := by
  unfold MergeArgs.execute
  rw [hs]
  by_cases h1 : s.vector.dominates source.vector
  · simp only [h1, if_true]
  · by_cases h2 : source.vector.dominates s.vector <;> simp only [h1, h2, if_true, if_false]

/-- **The frame of an operation**: no field of the session but the metadata. -/
theorem execute_session (op : Operation K) (storage : Storage K) (s : Session K) :
    (op.execute storage s).2 = { s with metadata := op.metadataAfter s.metadata } := by
  obtain ⟨operationId, kind⟩ := op
  cases kind with
  | merge args => exact execute_merge_session args operationId storage s
  | _ =>
    rw [metadataAfter_of_not (not_fastForwards_of_none rfl _)]
    rfl

/-- A fast-forward succeeds, with the source's content. -/
theorem execute_of_source {op : Operation K} {source : Session K}
    (hs : op.kind.mergeSource = some source) {s : Session K}
    (hf : VersionVector.FastForwards s.vector source.vector) (storage : Storage K) :
    (op.execute storage s).1 =
      .ok (.completed op.operationId (.state source.knowledgeStructure)) := by
  obtain ⟨operationId, kind⟩ := op
  cases kind with
  | merge args =>
    change args.sourceSession = some source at hs
    change (args.execute operationId storage s).1 = _
    unfold MergeArgs.execute
    simp [hs, hf.1, hf.2]
  | _ => cases hs

end Operation

namespace OperationExecutor

theorem execute_session (op : Operation K) (storage : Storage K) (s : Session K) :
    (execute op storage s).2 = { s with metadata := op.metadataAfter s.metadata } := by
  rw [← op.execute_session storage s]
  unfold execute
  split <;> simp_all

theorem execute_operation (op : Operation K) (storage : Storage K) (s : Session K) :
    (execute op storage s).1.operation = some op := by
  unfold execute
  split <;> rfl

/-- Whether it fails is up to the result of the operation alone. -/
theorem status_congr {op op' : Operation K} {storage storage' : Storage K} {s s' : Session K}
    (h : (op.execute storage s).1 = (op'.execute storage' s').1) :
    (execute op storage s).1.status = (execute op' storage' s').1.status := by
  unfold execute
  cases hr : op.execute storage s with
  | mk r t =>
    cases hr' : op'.execute storage' s' with
    | mk r' t' =>
      rw [hr, hr'] at h
      dsimp only at h
      subst h
      cases r <;> rfl

/-- What fails has not fast-forwarded. -/
theorem not_fastForwards_of_failed {op : Operation K} {storage : Storage K} {s : Session K}
    (h : (execute op storage s).1.status = .failed) : ¬op.FastForwards s.vector := by
  rintro ⟨source, hs, hf⟩
  have hr := op.execute_of_source hs hf storage
  unfold execute at h
  split at h
  · rename_i result s' he
    rw [he] at hr
    cases hr
    cases h
  · rename_i exc s' he
    rw [he] at hr
    cases hr

end OperationExecutor

end CksRuntime
