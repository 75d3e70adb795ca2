import CksRuntime.Lib.Respects
import CksRuntime.Pipeline.Pipeline

/-!
# The pipeline and its operations

Once its operations have been executed a commit reads neither them nor their results, so a commit of
two operations that execute alike (`SameResult`) does the same (`commit_eq`).
-/

set_option autoImplicit false

namespace CksRuntime

open Effect

variable {K : Core}

/-- All but the operations of the transaction and their results. -/
def Ctx.besides (c : Ctx K) : Ctx K :=
  { c with transaction := { c.transaction with operations := [], results := [] } }

theorem Ctx.session_of_besides {c c' : Ctx K} (h : c.besides = c'.besides) :
    c.session = c'.session := (congrArg Ctx.session h :)

theorem Ctx.shared_of_besides {c c' : Ctx K} (h : c.besides = c'.besides) :
    c.shared = c'.shared := (congrArg Ctx.shared h :)

theorem Ctx.transactionId_of_besides {c c' : Ctx K} (h : c.besides = c'.besides) :
    c.transaction.transactionId = c'.transaction.transactionId :=
  (congrArg (·.transaction.transactionId) h :)

namespace Pipeline

variable (env : Env K)

theorem respects_modify {g : Ctx K → Ctx K} (h : ∀ c, (g c).besides = g c.besides) :
    Respects Ctx.besides (modify g : PipelineM K PUnit) := by
  refine .modify fun c c' hc => ?_
  rw [h, h, hc]

theorem respects_raiseIf (fault : Option (Err K.Obj)) :
    Respects Ctx.besides (raiseIf fault : PipelineM K Unit) := by
  cases fault with
  | none => exact .pure _
  | some exc => exact .throw exc

theorem respects_publish (event : Event) : Respects Ctx.besides (publish env event) :=
  .bind (respects_modify fun _ => rfl) fun _ => respects_raiseIf _

theorem respects_store (fault : Option (Err K.Obj)) {f : Ctx K → Except (Err K.Obj) (Storage K)}
    (hf : ∀ c, f c.besides = f c) : Respects Ctx.besides (store fault f) := by
  refine .bind (respects_raiseIf fault) fun _ => .get_bind (fun c => ?_) fun c c' hc => ?_
  · cases f c with
    | ok storage => exact respects_modify fun _ => rfl
    | error exc => exact .throw exc
  · rw [← hf c, hc, hf c']

theorem respects_finishTransaction (outcome : TransactionStatus) :
    Respects Ctx.besides (finishTransaction outcome : PipelineM K Unit) := by
  refine respects_modify fun c => ?_
  have hfinish : ({ c.transaction.finish outcome with operations := [], results := [] } :
      Transaction K) = Transaction.finish
        { c.transaction with operations := [], results := [] } outcome := by
    unfold Transaction.finish Transaction.completed
    split <;> rfl
  unfold Ctx.besides
  dsimp only
  rw [hfinish]

theorem respects_rollback : Respects Ctx.besides (rollback env) := by
  refine .bind (respects_modify fun _ => rfl) fun _ => .bind (respects_finishTransaction _)
    fun _ => .bind (respects_store _ fun _ => rfl) fun _ => .get_bind (fun c => ?_) fun c c' hc => ?_
  · exact respects_publish env _
  · rw [Ctx.session_of_besides hc, Ctx.transactionId_of_besides hc]

theorem respects_handleResult (operationId : String) (result : ExecutionResult K) :
    Respects Ctx.besides (handleResult env operationId result) := by
  unfold handleResult
  split
  · exact .bind (respects_rollback env) fun _ => .throw _
  · exact .bind (respects_modify fun _ => rfl) fun _ => respects_modify fun _ => rfl

theorem respects_applyStateMutation (operation : Option (Operation K)) (result : ExecutionResult K) :
    Respects Ctx.besides (applyStateMutation operation result) := by
  unfold applyStateMutation
  split
  · split
    · exact respects_modify fun _ => rfl
    · exact .pure _
  · exact .pure _

/-! ## The second half -/

theorem respects_createVersion (initialState : K.Structure) :
    Respects Ctx.besides (createVersion env initialState) := by
  refine .bind (.bind (respects_modify fun _ => rfl) fun _ => .get_bind (fun c => ?_)
    fun c c' hc => ?_) fun version => .get_bind (fun c => ?_) fun c c' hc => ?_
  · cases buildVersion env c.session initialState with
    | ok version => exact .bind (respects_modify fun _ => rfl) fun _ => .pure _
    | error exc => exact .throw exc
  · rw [Ctx.session_of_besides hc]
  · exact .bind (respects_publish env _) fun _ => .pure _
  · rw [Ctx.session_of_besides hc, Ctx.transactionId_of_besides hc]

theorem respects_recordOperations (version : Version K) (initialState : K.Structure) :
    Respects Ctx.besides (recordOperations env version initialState) := by
  refine .get_bind (fun c => ?_) fun c c' hc => ?_
  · split
    · split
      · split
        · exact .throw _
        · split
          · exact .pure _
          · exact respects_store _ fun _ => rfl
      · exact .pure _
    · exact .pure _
  · rw [Ctx.session_of_besides hc, Ctx.shared_of_besides hc]

theorem respects_commitStage (initialState : K.Structure) (expectedVersionId : Option String) :
    Respects Ctx.besides (commitStage env initialState expectedVersionId) := by
  refine .bind (respects_createVersion env initialState) fun version => .bind (.bind
    (respects_store _ fun _ => rfl) fun _ => .bind (respects_store _ fun _ => rfl) fun _ =>
      respects_recordOperations env version initialState) fun _ =>
    .bind (respects_finishTransaction _) fun _ => .get_bind (fun c => ?_) fun c c' hc => ?_
  · exact .bind (respects_publish env _) fun _ => .pure _
  · rw [Ctx.session_of_besides hc, Ctx.transactionId_of_besides hc]

/-! ## Operations that execute alike -/

/-- Over the store, in any session. -/
structure SameResult (storage : Storage K) (op op' : Operation K) : Prop where
  operationId : op.operationId = op'.operationId
  mutatesState : OperationKind.mutatesState op.kind = OperationKind.mutatesState op'.kind
  execute : ∀ session, op.execute storage session = op'.execute storage session

variable {op op' : Operation K} {storage : Storage K}

theorem SameResult.executor (h : SameResult storage op op') (session : Session K) :
    OperationExecutor.execute op' storage session =
      ({ (OperationExecutor.execute op storage session).1 with operation := some op' },
        (OperationExecutor.execute op storage session).2) := by
  unfold OperationExecutor.execute
  rw [← h.execute session, h.operationId]
  rcases op.execute storage session with ⟨result | exc, session'⟩ <;> rfl

theorem finishResult_eq (h : SameResult storage op op') (result : ExecutionResult K)
    {c c' : Ctx K} (hc : c.besides = c'.besides) :
    through Ctx.besides (finishResult env op.operationId (some op) result c) =
      through Ctx.besides (finishResult env op'.operationId (some op')
        { result with operation := some op' } c') := by
  have hmutation : applyStateMutation (some op') { result with operation := some op' } =
      applyStateMutation (some op) result := by
    unfold applyStateMutation
    simp only [Option.any_some, h.mutatesState]
  unfold finishResult
  rw [hmutation, ← h.operationId]
  refine Respects.bind_eq (fun _ => .bind (respects_handleResult env _ _) fun _ =>
    respects_applyStateMutation _ _) ?_
  exact congrArg (EStateM.Result.ok PUnit.unit) hc

theorem executeOperation_eq {c c' : Ctx K} (h : SameResult c.shared.storage op op')
    (hc : c.besides = c'.besides) :
    through Ctx.besides (executeOperation env op c) =
      through Ctx.besides (executeOperation env op' c') := by
  have hrun : executeOperation env op' c' =
      finishResult env op'.operationId (some op')
        { (OperationExecutor.execute op c.shared.storage c.session).1 with operation := some op' }
        { c' with session := (OperationExecutor.execute op c.shared.storage c.session).2 } := by
    have hexec := h.executor c.session
    change finishResult env op'.operationId (some op')
      (OperationExecutor.execute op' c'.shared.storage c'.session).1 { c' with
        session := (OperationExecutor.execute op' c'.shared.storage c'.session).2 } = _
    rw [← Ctx.session_of_besides hc, ← Ctx.shared_of_besides hc, hexec]
  rw [hrun]
  refine finishResult_eq env h _ ?_
  exact congrArg (fun d : Ctx K =>
    ({ d with session := (OperationExecutor.execute op c.shared.storage c.session).2 } : Ctx K)) hc

/-- The commits of two such operations. -/
theorem commit_eq {c c' : Ctx K} (h : SameResult c.shared.storage op op')
    (hc : c.besides = c'.besides) (hop : c.transaction.operations = [op])
    (hop' : c'.transaction.operations = [op']) (hreq : c.transaction.requests = []) :
    through Ctx.besides (commit env c) = through Ctx.besides (commit env c') := by
  have hreq' : c'.transaction.requests = [] := by
    rw [← hreq]
    exact (congrArg (·.transaction.requests) hc.symm :)
  -- one operation and no request: the stage is that operation
  have hstage : ∀ {d : Ctx K} {o : Operation K}, d.transaction.operations = [o] →
      d.transaction.requests = [] → executeStage env d =
        (executeOperation env o >>= fun _ => (pure () : PipelineM K Unit)) d := by
    intro d o ho hr
    change (if d.transaction.operations.isEmpty ∧ d.transaction.requests.isEmpty then validate env
      else executeOperations env) d = _
    rw [if_neg (by simp [ho])]
    change (forM d.transaction.operations (executeOperation env) >>= fun _ =>
      forM d.transaction.requests (executeRequest env)) d = _
    rw [ho, hr, List.forM_cons, List.forM_nil, List.forM_nil]
    cases hx : executeOperation env o d with
    | ok a s =>
      have hone : (executeOperation env o >>= fun _ => (pure () : PipelineM K Unit)) d =
        .ok () s := bind_of_ok hx _
      exact (bind_of_ok hone _).trans hone.symm
    | error e s =>
      have hone : (executeOperation env o >>= fun _ => (pure () : PipelineM K Unit)) d =
        .error e s := bind_of_error hx _
      exact (bind_of_error hone _).trans hone.symm
  have hses := Ctx.session_of_besides hc
  change through Ctx.besides ((executeStage env >>= fun _ =>
    commitStage env c.session.knowledgeStructure c.session.latestVersionId) c) =
    through Ctx.besides ((executeStage env >>= fun _ =>
      commitStage env c'.session.knowledgeStructure c'.session.latestVersionId) c')
  rw [← hses]
  refine Respects.bind_eq (fun _ => respects_commitStage env _ _) ?_
  rw [hstage hop hreq, hstage hop' hreq']
  exact Respects.bind_eq (fun _ => .pure ()) (executeOperation_eq env h hc)

end Pipeline

end CksRuntime
