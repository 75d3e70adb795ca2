import CksRuntime.Core.Laws
import CksRuntime.Operations.Proof.Effect
import CksRuntime.Pipeline.Pipeline

/-!
# Probing a merge

The gossip adapter and the bridge execute a merge once to see its outcome before they commit a
transaction that holds it. A probe is pure on three of the four paths of `MergeOperation.execute`;
on the fast-forward it moves the session's vector, and every later execution is a no-op that keeps
the target's content (`probePure_iff`, `execute_after_fastForward`).
-/

set_option autoImplicit false

namespace CksRuntime

open VersionVector

variable {K : Core}

/-- `n` executions of an operation, each on the session the one before left. -/
def OperationExecutor.probe (op : Operation K) (storage : Storage K) : Nat → Session K → Session K
  | 0, s => s
  | n + 1, s => probe op storage n (execute op storage s).2

/-- The content and the vector a commit leaves, when it returns. -/
def Pipeline.committed (env : Env K) (c : Ctx K) : Option (K.Structure × VersionVector) :=
  match commit env c with
  | .ok _ c' => some (c'.session.knowledgeStructure, c'.session.vector)
  | .error _ _ => none

/-- `n` probes of `op` change no field of the session, and committing the transaction after them
leaves what committing it directly does. -/
def ProbePure (env : Env K) (op : Operation K) (n : Nat) (c : Ctx K) : Prop :=
  OperationExecutor.probe op c.shared.storage n c.session = c.session ∧
    Pipeline.committed env { c with session := OperationExecutor.probe op c.shared.storage n c.session } =
      Pipeline.committed env c

namespace OperationExecutor

theorem probe_of_not_fastForwards {op : Operation K} {s : Session K}
    (h : ¬op.FastForwards s.vector) (storage : Storage K) : ∀ n, probe op storage n s = s
  | 0 => rfl
  | n + 1 => by
    have hs : (execute op storage s).2 = s := by
      rw [execute_session, Operation.metadataAfter_of_not h]
    rw [probe, hs]
    exact probe_of_not_fastForwards h storage n

theorem vector_execute (op : Operation K) (storage : Storage K) (s : Session K) :
    (execute op storage s).2.vector = op.vectorAfter s.vector := by
  rw [execute_session]
  exact op.vector_metadataAfter s.metadata

theorem le_probe (op : Operation K) (storage : Storage K) :
    ∀ n s, s.vector ≤ (probe op storage n s).vector
  | 0, _ => le_rfl
  | n + 1, s => by
    have hv := vector_execute op storage s
    refine le_trans (b := op.vectorAfter s.vector) (op.le_vectorAfter _) ?_
    rw [← hv]
    exact le_probe op storage n _

theorem lt_probe_succ {op : Operation K} {s : Session K} (h : op.FastForwards s.vector)
    (storage : Storage K) (n : Nat) : s.vector < (probe op storage (n + 1) s).vector := by
  refine lt_of_lt_of_le (Operation.lt_vectorAfter h) ?_
  have hv := vector_execute op storage s
  rw [← hv]
  exact le_probe op storage n _

/-- After a fast-forward the session's vector dominates the source's: executed again, the merge
reports success with the target's own content. -/
theorem execute_after_fastForward {op : Operation K} {source : Session K}
    (hs : op.kind.mergeSource = some source) {s : Session K}
    (hf : VersionVector.FastForwards s.vector source.vector) (storage : Storage K) :
    (execute op storage (execute op storage s).2).1.payload =
      some (.state s.knowledgeStructure) := by
  obtain ⟨operationId, kind⟩ := op
  cases kind with
  | merge args =>
    have hargs : args.sourceSession = some source := hs
    set s' := (execute (⟨operationId, .merge args⟩ : Operation K) storage s).2 with hs'
    have hv : s'.vector = s.vector.absorb source.vector := by
      rw [hs', vector_execute]
      exact Operation.vectorAfter_of_source hs hf
    have hk : s'.knowledgeStructure = s.knowledgeStructure := by rw [hs', execute_session]
    have hd : s'.vector.dominates source.vector := by
      rw [hv]
      exact absorb_dominates _ hf.2.1
    simp [execute, Operation.execute, MergeArgs.execute, hargs, hd, ExecutionResult.completed, hk]
  | _ => cases hs

end OperationExecutor

/-- **When a merge may be probed**: exactly when it does not fast-forward. -/
theorem probePure_iff (env : Env K) (operationId : String) (source : Session K)
    (baseVersionId : Option String) (baseStructure : Option K.Structure)
    (resolutions : Option (Dict (Resolution K.Obj))) (n : Nat) (c : Ctx K) :
    ProbePure env ⟨operationId, .merge ⟨some source, baseVersionId, baseStructure, resolutions⟩⟩ n c ↔
      n = 0 ∨ ¬VersionVector.FastForwards c.session.vector source.vector := by
  set op : Operation K :=
    ⟨operationId, .merge ⟨some source, baseVersionId, baseStructure, resolutions⟩⟩
  have hiff : op.FastForwards c.session.vector ↔
      VersionVector.FastForwards c.session.vector source.vector := by
    simp [op, Operation.FastForwards, OperationKind.mergeSource]
  rw [← hiff]
  constructor
  · rintro ⟨hpure, -⟩
    by_contra hn
    push Not at hn
    obtain ⟨m, rfl⟩ := Nat.exists_eq_succ_of_ne_zero hn.1
    have hlt := OperationExecutor.lt_probe_succ hn.2 c.shared.storage m
    rw [hpure] at hlt
    exact lt_irrefl _ hlt
  · intro h
    have hpure : OperationExecutor.probe op c.shared.storage n c.session = c.session := by
      rcases h with rfl | h
      · rfl
      · exact OperationExecutor.probe_of_not_fastForwards h _ n
    exact ⟨hpure, by rw [hpure]⟩

/-! ## A probe that loses the source -/

/-- A target at `a:1` and a source that has committed on top of it. -/
def probeTarget : Ctx Core.register where
  session := {
    knowledgeStructure := 1
    sessionId := "target"
    metadata := (⟨Finmap.singleton "a" 1⟩ : VersionVector).toMetadata { nodeId := some "a" }
    activeTransaction := some "tx" }
  transaction := { transactionId := "tx", initialState := 1 }
  shared := {}

/-- The session merged in, which has seen commits of two replicas. -/
def probeSource : Session Core.register where
  knowledgeStructure := 2
  sessionId := "source"
  metadata := ((⟨Finmap.singleton "a" 1⟩ : VersionVector).bump "b").toMetadata { nodeId := some "b" }

/-- The merge. -/
def probeMerge : Operation Core.register := ⟨"merge", .merge { sourceSession := some probeSource }⟩

/-- Committed directly, the merge takes the source's content; after one probe it keeps the
target's, under the same vector. -/
theorem probe_drops_source :
    ¬ProbePure { replicaId := none, versionId := "v" } probeMerge 1
      { probeTarget with transaction := { probeTarget.transaction with operations := [probeMerge] } } := by
  rintro ⟨-, h⟩
  revert h
  decide

end CksRuntime
