import CksRuntime.Lib.Respects
import CksRuntime.Pipeline.Proof.Items

/-!
# What the pipeline never reads

The diagnostics of a session, what its Runtime collects of diagnostics, events and transaction ids,
and the results of a transaction: two commits that differ in no more, or in the diagnostics of the
sessions they merge from, return or raise the same and leave the same (`reads_commit`).
-/

set_option autoImplicit false

namespace CksRuntime

open Effect

variable {K : Core}

/-! ## What is left of each -/

/-- `save_session`: "diagnostics are not persisted by default". -/
def Session.durable (s : Session K) : Session K := { s with diagnostics := [] }

/-- A merge, with what storage would keep of its source. -/
def MergeArgs.durable (m : MergeArgs K) : MergeArgs K :=
  { m with sourceSession := m.sourceSession.map Session.durable }

/-- The same of any operation. -/
def OperationKind.durable : OperationKind K → OperationKind K
  | .merge args => .merge args.durable
  | kind => kind

/-- The same of an operation with its id. -/
def Operation.durable (op : Operation K) : Operation K := { op with kind := op.kind.durable }

/-- What the pipeline reads of a transaction. -/
def Transaction.durable (tx : Transaction K) : Transaction K :=
  { tx with operations := tx.operations.map Operation.durable, results := [] }

/-- What it reads of what the sessions share: the store alone. -/
def Shared.durable (shared : Shared K) : Shared K := { storage := shared.storage }

/-- What it reads. -/
def Ctx.durable (c : Ctx K) : Ctx K :=
  ⟨c.session.durable, c.transaction.durable, c.shared.durable⟩

/-! ## An operation -/

theorem MergeArgs.execute_durable (m : MergeArgs K) (operationId : String) (storage : Storage K)
    (s : Session K) :
    m.durable.execute operationId storage s = m.execute operationId storage s := by
  unfold MergeArgs.execute MergeArgs.durable
  cases m.sourceSession <;> rfl

theorem MergeArgs.execute_session_durable (m : MergeArgs K) (operationId : String)
    (storage : Storage K) (s : Session K) :
    m.execute operationId storage s.durable =
      ((m.execute operationId storage s).1, (m.execute operationId storage s).2.durable) := by
  unfold MergeArgs.execute
  cases m.sourceSession with
  | none => rfl
  | some source =>
    dsimp only
    have hvector : s.durable.vector = s.vector := rfl
    rw [hvector]
    split
    · rfl
    · split <;> rfl

namespace Operation

variable (op : Operation K) (storage : Storage K) (s : Session K)

theorem execute_durable : op.durable.execute storage s = op.execute storage s := by
  obtain ⟨operationId, kind⟩ := op
  cases kind with
  | merge args => exact args.execute_durable operationId storage s
  | _ => rfl

theorem execute_session_durable : op.execute storage s.durable =
    ((op.execute storage s).1, (op.execute storage s).2.durable) := by
  obtain ⟨operationId, kind⟩ := op
  cases kind with
  | merge args => exact args.execute_session_durable operationId storage s
  | _ => rfl

end Operation

theorem OperationExecutor.execute_durable {op op' : Operation K} {s s' : Session K}
    (storage : Storage K) (hop : op.durable = op'.durable) (hs : s.durable = s'.durable) :
    OperationExecutor.execute op' storage s' =
      ({ (OperationExecutor.execute op storage s).1 with operation := some op' },
        (OperationExecutor.execute op' storage s').2) ∧
      (OperationExecutor.execute op storage s).2.durable =
        (OperationExecutor.execute op' storage s').2.durable := by
  have hid : op.operationId = op'.operationId := (congrArg Operation.operationId hop :)
  have hrun := op.execute_session_durable storage s
  have hrun' := op'.execute_session_durable storage s'
  rw [← op.execute_durable, hop, hs, op'.execute_durable, hrun'] at hrun
  obtain ⟨hfst, hsnd⟩ := Prod.mk.inj hrun
  unfold OperationExecutor.execute
  rcases h : op.execute storage s with ⟨r, t⟩
  rcases h' : op'.execute storage s' with ⟨r', t'⟩
  rw [h, h'] at hfst hsnd
  dsimp only at hfst hsnd
  subst hfst
  cases r' with
  | ok result => exact ⟨rfl, hsnd.symm⟩
  | error exc =>
    refine ⟨?_, hsnd.symm⟩
    dsimp only
    rw [hid]

/-! ## The pipeline -/

theorem Ctx.session_of_durable {c c' : Ctx K} (h : c.durable = c'.durable) :
    c.session.durable = c'.session.durable := (congrArg Ctx.session h :)

theorem Ctx.storage_of_durable {c c' : Ctx K} (h : c.durable = c'.durable) :
    c.shared.storage = c'.shared.storage := (congrArg (·.shared.storage) h :)

namespace Pipeline

variable (env : Env K)

/-- A program that reads nothing of what is not kept. -/
abbrev Reads {α : Type} (x : PipelineM K α) : Prop := Respects Ctx.durable x

end Pipeline

end CksRuntime
