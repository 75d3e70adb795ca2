import CksRuntime.Operations.Proof.Effect
import CksRuntime.Pipeline.Pipeline

/-!
# The first half of a commit

What executing a transaction leaves, when it returns (`Executed`) and when it raises
(`executeStage_error`): an exception that escaped from resolving a request, with the items before
it in effect, or a rollback. The two loops of `_execute_operations` are one loop over the items of
the transaction.
-/

set_option autoImplicit false

namespace CksRuntime

open VersionVector Effect

variable {K : Core}

@[simp] theorem Transaction.transactionId_finish (tx : Transaction K)
    (outcome : TransactionStatus) : (tx.finish outcome).transactionId = tx.transactionId := by
  unfold finish
  split <;> rfl

/-! ## Items -/

/-- A round of `_execute_operations`. -/
inductive Item (K : Core)
  | operation (op : Operation K)
  | request (req : DispatchRequest K)

/-- The operations and then the requests, as `commit` runs them. -/
def Transaction.items (tx : Transaction K) : List (Item K) :=
  tx.operations.map .operation ++ tx.requests.map .request

namespace Item

/-- What `commit` does with one. -/
def execute (env : Env K) : Item K → PipelineM K Unit
  | .operation op => Pipeline.executeOperation env op
  | .request req => Pipeline.executeRequest env req

/-- The operation the item runs; none for a request that does not resolve to one. -/
def operation? (registry : OperationRegistry K) : Item K → Option (Operation K)
  | .operation op => some op
  | .request req => (registry.create req.operationId req.parameters).toOption

/-- What the item's construction raises through the dispatcher. -/
def escapes (registry : OperationRegistry K) : Item K → Option (Err K.Obj)
  | .operation _ => none
  | .request req =>
    match registry.create req.operationId req.parameters with
    | .ok _ | .error (.keyError _) | .error (.typeError _) => none
    | .error exc => some exc

/-- The item is a merge that fast-forwards on a session with vector `v`. -/
def FastForwards (registry : OperationRegistry K) (v : VersionVector) (x : Item K) : Prop :=
  ∃ op ∈ x.operation? registry, op.FastForwards v

/-- The session's metadata after one. -/
def metadataAfter (registry : OperationRegistry K) (m : Metadata) (x : Item K) : Metadata :=
  (x.operation? registry).elim m (·.metadataAfter m)

end Item

/-- The metadata after every item. -/
def itemsMetadata (registry : OperationRegistry K) (items : List (Item K)) (m : Metadata) :
    Metadata :=
  items.foldl (Item.metadataAfter registry) m

/-! ## The metadata after the items -/

theorem Item.metadataAfter_of_not {registry : OperationRegistry K} {m : Metadata} {x : Item K}
    (h : ¬x.FastForwards registry (fromMetadata m)) : x.metadataAfter registry m = m := by
  unfold metadataAfter
  cases ho : x.operation? registry with
  | none => rfl
  | some op => exact Operation.metadataAfter_of_not fun hf => h ⟨op, ho, hf⟩

theorem Item.le_metadataAfter (registry : OperationRegistry K) (m : Metadata) (x : Item K) :
    fromMetadata m ≤ fromMetadata (x.metadataAfter registry m) := by
  unfold metadataAfter
  cases x.operation? registry with
  | none => exact le_rfl
  | some op =>
    dsimp only [Option.elim]
    rw [Operation.vector_metadataAfter]
    exact op.le_vectorAfter _

theorem Item.lt_metadataAfter {registry : OperationRegistry K} {m : Metadata} {x : Item K}
    (h : x.FastForwards registry (fromMetadata m)) :
    fromMetadata m < fromMetadata (x.metadataAfter registry m) := by
  obtain ⟨op, ho, hf⟩ := h
  rw [metadataAfter, ho]
  dsimp only [Option.elim]
  rw [Operation.vector_metadataAfter]
  exact Operation.lt_vectorAfter hf

@[simp] theorem Item.nodeId_metadataAfter (registry : OperationRegistry K) (m : Metadata)
    (x : Item K) : (x.metadataAfter registry m).nodeId = m.nodeId := by
  unfold metadataAfter
  cases x.operation? registry <;> simp

@[simp] theorem nodeId_itemsMetadata (registry : OperationRegistry K) (items : List (Item K))
    (m : Metadata) : (itemsMetadata registry items m).nodeId = m.nodeId := by
  unfold itemsMetadata
  induction items generalizing m with
  | nil => rfl
  | cons x items ih => rw [List.foldl_cons, ih, Item.nodeId_metadataAfter]

theorem itemsMetadata_append (registry : OperationRegistry K) (items items' : List (Item K))
    (m : Metadata) : itemsMetadata registry (items ++ items') m =
      itemsMetadata registry items' (itemsMetadata registry items m) := List.foldl_append

theorem le_itemsMetadata (registry : OperationRegistry K) (items : List (Item K)) (m : Metadata) :
    fromMetadata m ≤ fromMetadata (itemsMetadata registry items m) := by
  unfold itemsMetadata
  induction items generalizing m with
  | nil => exact le_rfl
  | cons x items ih => exact (x.le_metadataAfter registry m).trans (ih _)

theorem itemsMetadata_of_not {registry : OperationRegistry K} {items : List (Item K)}
    {m : Metadata} (h : ∀ x ∈ items, ¬x.FastForwards registry (fromMetadata m)) :
    itemsMetadata registry items m = m := by
  unfold itemsMetadata
  induction items with
  | nil => rfl
  | cons x items ih =>
    rw [List.forall_mem_cons] at h
    rw [List.foldl_cons, Item.metadataAfter_of_not h.1]
    exact ih h.2

/-- The first item that fast-forwards on the vector moves it, and nothing moves it back. -/
theorem lt_itemsMetadata {registry : OperationRegistry K} {items : List (Item K)} {m : Metadata}
    (h : ∃ x ∈ items, x.FastForwards registry (fromMetadata m)) :
    fromMetadata m < fromMetadata (itemsMetadata registry items m) := by
  induction items with
  | nil => simp at h
  | cons x items ih =>
    by_cases hx : x.FastForwards registry (fromMetadata m)
    · exact (Item.lt_metadataAfter hx).trans_le (le_itemsMetadata registry items _)
    · obtain ⟨y, hy, hf⟩ := h
      have hcons : itemsMetadata registry (x :: items) m = itemsMetadata registry items m := by
        rw [itemsMetadata, List.foldl_cons, Item.metadataAfter_of_not hx, itemsMetadata]
      rw [hcons]
      rcases List.mem_cons.1 hy with rfl | hy
      · exact absurd hf hx
      · exact ih ⟨y, hy, hf⟩

theorem vector_itemsMetadata_eq_iff {registry : OperationRegistry K} {items : List (Item K)}
    {m : Metadata} :
    fromMetadata (itemsMetadata registry items m) = fromMetadata m ↔
      ∀ x ∈ items, ¬x.FastForwards registry (fromMetadata m) :=
  ⟨fun h x hx hf => absurd h (lt_itemsMetadata ⟨x, hx, hf⟩).ne',
    fun h => by rw [itemsMetadata_of_not h]⟩

theorem itemsMetadata_eq_iff {registry : OperationRegistry K} {items : List (Item K)}
    {m : Metadata} :
    itemsMetadata registry items m = m ↔ ∀ x ∈ items, ¬x.FastForwards registry (fromMetadata m) :=
  ⟨fun h => vector_itemsMetadata_eq_iff.1 (congrArg fromMetadata h), itemsMetadata_of_not⟩

/-- A clock no merge source exceeds stays below the same bound. -/
theorem get_itemsMetadata_le {registry : OperationRegistry K} {items : List (Item K)}
    {m : Metadata} {k : String} {b : Int} (hm : (fromMetadata m).get k ≤ b)
    (hs : ∀ x ∈ items, ∀ op ∈ x.operation? registry, ∀ source ∈ op.kind.mergeSource,
      source.vector.get k ≤ b) :
    (fromMetadata (itemsMetadata registry items m)).get k ≤ b := by
  unfold itemsMetadata
  induction items generalizing m with
  | nil => exact hm
  | cons x items ih =>
    refine ih ?_ fun y hy => hs y (List.mem_cons_of_mem _ hy)
    unfold Item.metadataAfter
    cases ho : x.operation? registry with
    | none => exact hm
    | some op =>
      dsimp only [Option.elim]
      rw [Operation.vector_metadataAfter]
      exact Operation.get_vectorAfter_le hm (hs x List.mem_cons_self op ho)

/-! ## What items leave -/

/-- `c'` is `c` after the items have run and succeeded. -/
structure Executed (registry : OperationRegistry K) (items : List (Item K)) (c c' : Ctx K) :
    Prop where
  session : ∃ ks diagnostics, c'.session =
    { c.session with
      knowledgeStructure := ks
      metadata := itemsMetadata registry items c.session.metadata
      diagnostics := diagnostics }
  transaction : ∃ results, c'.transaction = { c.transaction with results := results }
  shared : ∃ diagnostics, c'.shared = { c.shared with diagnostics := diagnostics }

/-- `c'` is `c` after a rollback: `_handle_result`'s or the quality gate's. -/
structure RolledBack (c c' : Ctx K) : Prop where
  session : c'.session =
    { c.session with
      knowledgeStructure := c.transaction.initialState
      activeTransaction := none }
  transaction : ∃ results, c'.transaction =
    ({ c.transaction with results := results } : Transaction K).finish .rolledBack
  storage : c'.shared.storage = c.shared.storage ∨
    c'.shared.storage = c.shared.storage.putSession c'.session.sessionId c'.session.toRow
  events : ∃ events, c'.shared.events = c.shared.events ++ events ∧
    ∀ e ∈ events, e = .transactionRolledBack c.transaction.transactionId c.session.sessionId ∨
      ∃ m, e = .validationFailed c.transaction.transactionId c.session.sessionId m

namespace Executed

variable {registry : OperationRegistry K}

theorem refl (c : Ctx K) : Executed registry [] c c where
  session := ⟨_, _, rfl⟩
  transaction := ⟨_, rfl⟩
  shared := ⟨_, rfl⟩

theorem trans {items items' : List (Item K)} {c₁ c₂ c₃ : Ctx K}
    (h : Executed registry items c₁ c₂) (h' : Executed registry items' c₂ c₃) :
    Executed registry (items ++ items') c₁ c₃ := by
  obtain ⟨⟨ks, ds, hs⟩, ⟨rs, ht⟩, ⟨es, hsh⟩⟩ := h
  obtain ⟨⟨ks', ds', hs'⟩, ⟨rs', ht'⟩, ⟨es', hsh'⟩⟩ := h'
  refine ⟨⟨ks', ds', ?_⟩, ⟨rs', ?_⟩, ⟨es', ?_⟩⟩
  · rw [hs', hs, itemsMetadata_append]
  · rw [ht', ht]
  · rw [hsh', hsh]

end Executed

/-! ## Calls out of the pipeline -/

namespace Pipeline

variable {env : Env K}

theorem raiseIf_run (fault : Option (Err K.Obj)) (c : Ctx K) :
    raiseIf fault c = fault.elim (.ok () c) (.error · c) := by
  cases fault <;> rfl

/-- An event is recorded whether or not a subscriber raises on it. -/
theorem publish_run (env : Env K) (event : Event) (c : Ctx K) :
    publish env event c = (env.subscriber event).elim
      (.ok () { c with shared := { c.shared with events := c.shared.events ++ [event] } })
      (.error · { c with shared := { c.shared with events := c.shared.events ++ [event] } }) := by
  rw [publish, bind_modify_run, raiseIf_run]

theorem stateOf_publish (env : Env K) (event : Event) (c : Ctx K) :
    stateOf (publish env event c) =
      { c with shared := { c.shared with events := c.shared.events ++ [event] } } := by
  rw [publish_run]
  cases env.subscriber event <;> rfl

theorem store_ok {fault : Option (Err K.Obj)} {f : Ctx K → Except (Err K.Obj) (Storage K)}
    {c c' : Ctx K} {u : Unit} (h : store fault f c = .ok u c') :
    fault = none ∧ ∃ storage, f c = .ok storage ∧
      c' = { c with shared := { c.shared with storage := storage } } := by
  unfold store at h
  cases fault with
  | some exc => cases h
  | none =>
    rw [raiseIf, bind_pure_run, bind_get_run] at h
    cases hs : f c with
    | error exc => rw [hs] at h; cases h
    | ok storage =>
      rw [hs] at h
      cases h
      exact ⟨rfl, storage, rfl, rfl⟩

theorem store_error {fault : Option (Err K.Obj)} {f : Ctx K → Except (Err K.Obj) (Storage K)}
    {c c' : Ctx K} {e : Err K.Obj} (h : store fault f c = .error e c') :
    c' = c ∧ (fault = some e ∨ f c = .error e) := by
  unfold store at h
  cases fault with
  | some exc =>
    cases h
    exact ⟨rfl, .inl rfl⟩
  | none =>
    rw [raiseIf, bind_pure_run, bind_get_run] at h
    cases hs : f c with
    | error exc =>
      rw [hs] at h
      cases h
      exact ⟨rfl, .inr rfl⟩
    | ok storage => rw [hs] at h; cases h

/-! ## Rollback -/

/-- **Rollback** restores the content, ends the transaction, and then may fail to save or to
publish: the session is restored all the same. -/
theorem rollback_rolledBack (env : Env K) (c : Ctx K) :
    RolledBack c (stateOf (rollback env c)) := by
  rw [rollback, bind_modify_run, finishTransaction, bind_modify_run]
  set c₁ : Ctx K :=
    { session := { c.session with
        knowledgeStructure := c.transaction.initialState, activeTransaction := none }
      transaction := c.transaction.finish .rolledBack
      shared := { c.shared with
        transactions := c.shared.transactions.erase c.transaction.transactionId } } with hc₁
  have htx : c.transaction.finish .rolledBack =
      ({ c.transaction with results := c.transaction.results } : Transaction K).finish
        .rolledBack := rfl
  have hid : c₁.transaction.transactionId = c.transaction.transactionId := by
    rw [hc₁]
    exact Transaction.transactionId_finish _ _
  rw [bind_run]
  cases hs : store env.saveSessionFault
      (fun c => c.shared.storage.saveSession c.session none) c₁ with
  | error e c₂ =>
    obtain ⟨rfl, -⟩ := store_error hs
    exact ⟨rfl, ⟨_, htx⟩, .inl rfl, [], (List.append_nil _).symm, by simp⟩
  | ok u c₂ =>
    obtain ⟨-, storage, hsave, rfl⟩ := store_ok hs
    cases hsave
    dsimp only
    rw [bind_get_run, stateOf_publish]
    refine ⟨rfl, ⟨_, htx⟩, .inr rfl, [_], rfl, fun e he => .inl ?_⟩
    rw [List.mem_singleton.1 he, ← hid]

/-! ## One item -/

theorem stateOf_rollback_throw {α : Type} (env : Env K) (e : Err K.Obj) (c : Ctx K) :
    stateOf ((rollback env >>= fun _ => throw e : PipelineM K α) c) = stateOf (rollback env c) := by
  rw [bind_run]
  cases rollback env c <;> rfl

theorem rollback_throw_ne_ok {α : Type} {e : Err K.Obj} {c c' : Ctx K} {a : α} :
    (rollback env >>= fun _ => throw e : PipelineM K α) c ≠ .ok a c' := by
  rw [bind_run]
  cases rollback env c <;> exact nofun

theorem finishResult_ok {operationId : String} {operation : Option (Operation K)}
    {result : ExecutionResult K} {c c' : Ctx K} {u : Unit}
    (h : finishResult env operationId operation result c = .ok u c') :
    result.status ≠ .failed ∧ ∃ ks ds ds', c' =
      { session := { c.session with knowledgeStructure := ks, diagnostics := ds }
        transaction := { c.transaction with results := c.transaction.results ++ [result] }
        shared := { c.shared with diagnostics := ds' } } := by
  rw [finishResult, addResult, bind_modify_run, handleResult] at h
  by_cases hf : result.status = .failed
  · rw [if_pos hf, bind_eq_ok] at h
    obtain ⟨a, c₁, hr, -⟩ := h
    exact absurd hr rollback_throw_ne_ok
  · rw [if_neg hf, collectDiagnostics] at h
    refine ⟨hf, ?_⟩
    unfold applyStateMutation at h
    split at h
    · split at h <;> (cases h; exact ⟨_, _, _, rfl⟩)
    · cases h
      exact ⟨_, _, _, rfl⟩

theorem finishResult_error {operationId : String} {operation : Option (Operation K)}
    {result : ExecutionResult K} {c c' : Ctx K} {e : Err K.Obj}
    (h : finishResult env operationId operation result c = .error e c') :
    result.status = .failed ∧ RolledBack c c' := by
  rw [finishResult, addResult, bind_modify_run, handleResult] at h
  by_cases hf : result.status = .failed
  · refine ⟨hf, ?_⟩
    rw [if_pos hf, bind_eq_error] at h
    obtain h | ⟨a, c₁, hr, -⟩ := h
    · have hst := congrArg stateOf h
      rw [stateOf_rollback_throw] at hst
      have hrb := rollback_rolledBack env
        { c with transaction := { c.transaction with results := c.transaction.results ++ [result] } }
      rw [hst] at hrb
      exact ⟨hrb.session, hrb.transaction, hrb.storage, hrb.events⟩
    · exact absurd hr rollback_throw_ne_ok
  · rw [if_neg hf, collectDiagnostics] at h
    unfold applyStateMutation at h
    split at h
    · split at h <;> cases h
    · cases h

end Pipeline

namespace Item

variable {env : Env K}

/-- An item that runs: the operation's result, handled on the session the operation left. -/
theorem execute_of_operation {x : Item K} {op : Operation K}
    (h : x.operation? env.registry = some op) (c : Ctx K) :
    ∃ operationId, x.execute env c =
      Pipeline.finishResult env operationId (some op)
        (OperationExecutor.execute op c.shared.storage c.session).1
        { c with session :=
            { c.session with metadata := op.metadataAfter c.session.metadata } } := by
  rw [← OperationExecutor.execute_session op c.shared.storage c.session]
  cases x with
  | operation op' =>
    cases h
    exact ⟨op.operationId, rfl⟩
  | request req =>
    refine ⟨req.operationId, ?_⟩
    have hc : env.registry.create req.operationId req.parameters = .ok op := by
      cases hc : env.registry.create req.operationId req.parameters with
      | error exc => simp [operation?, hc, Except.toOption] at h
      | ok op' => simpa [operation?, hc, Except.toOption] using h
    simp only [execute, Pipeline.executeRequest, bind_get_run, Dispatcher.dispatch, hc,
      bind_modify_run, OperationExecutor.execute_operation]

/-- An item that does not: its construction raises, or the dispatcher reports it as failed. -/
theorem execute_of_none {x : Item K} (h : x.operation? env.registry = none) (c : Ctx K) :
    (∃ e, x.escapes env.registry = some e ∧ x.execute env c = .error e c) ∨
      x.escapes env.registry = none ∧ ∃ operationId result,
        result.status = .failed ∧
          x.execute env c = Pipeline.finishResult env operationId none result c := by
  cases x with
  | operation op => cases h
  | request req =>
    simp only [execute, Pipeline.executeRequest, bind_get_run, Dispatcher.dispatch, escapes]
    cases hc : env.registry.create req.operationId req.parameters with
    | ok op => simp [operation?, hc, Except.toOption] at h
    | error exc =>
      cases exc
      case keyError => exact .inr ⟨rfl, req.operationId, _, rfl, rfl⟩
      case typeError => exact .inr ⟨rfl, req.operationId, _, rfl, rfl⟩
      all_goals exact .inl ⟨_, rfl, rfl⟩

theorem escapes_of_operation {registry : OperationRegistry K} {x : Item K} {op : Operation K}
    (h : x.operation? registry = some op) : x.escapes registry = none := by
  cases x with
  | operation op' => rfl
  | request req =>
    cases hc : registry.create req.operationId req.parameters with
    | error exc => simp [operation?, hc, Except.toOption] at h
    | ok op' => simp [escapes, hc]

theorem metadataAfter_of_operation {registry : OperationRegistry K} {x : Item K}
    {op : Operation K} (h : x.operation? registry = some op) (m : Metadata) :
    x.metadataAfter registry m = op.metadataAfter m := by simp [metadataAfter, h]

theorem execute_ok {x : Item K} {c c' : Ctx K} {u : Unit} (h : x.execute env c = .ok u c') :
    Executed env.registry [x] c c' := by
  cases ho : x.operation? env.registry with
  | none =>
    obtain ⟨e, -, hx⟩ | ⟨-, operationId, result, hf, hx⟩ := execute_of_none ho c
    · rw [hx] at h
      cases h
    · rw [hx] at h
      exact absurd hf (Pipeline.finishResult_ok h).1
  | some op =>
    obtain ⟨operationId, hx⟩ := execute_of_operation ho c
    rw [hx] at h
    obtain ⟨-, ks, ds, ds', rfl⟩ := Pipeline.finishResult_ok h
    rw [← metadataAfter_of_operation ho]
    exact ⟨⟨ks, ds, rfl⟩, ⟨_, rfl⟩, ⟨ds', rfl⟩⟩

/-- An item that fails leaves a rollback, unless its construction raised. It has not
fast-forwarded. -/
theorem execute_error {x : Item K} {c c' : Ctx K} {e : Err K.Obj}
    (h : x.execute env c = .error e c') :
    x.escapes env.registry = some e ∧ c' = c ∨
      x.escapes env.registry = none ∧ RolledBack c c' := by
  cases ho : x.operation? env.registry with
  | none =>
    obtain ⟨e', he, hx⟩ | ⟨he, operationId, result, -, hx⟩ := execute_of_none ho c
    · rw [hx] at h
      cases h
      exact .inl ⟨he, rfl⟩
    · rw [hx] at h
      exact .inr ⟨he, (Pipeline.finishResult_error h).2⟩
  | some op =>
    obtain ⟨operationId, hx⟩ := execute_of_operation ho c
    rw [hx] at h
    obtain ⟨hf, hrb⟩ := Pipeline.finishResult_error h
    rw [Operation.metadataAfter_of_not (OperationExecutor.not_fastForwards_of_failed hf)] at hrb
    exact .inr ⟨escapes_of_operation ho, hrb⟩

end Item

/-! ## All items -/

namespace Pipeline

variable {env : Env K}

theorem executeOperations_run (env : Env K) (c : Ctx K) :
    executeOperations env c = forM c.transaction.items (Item.execute env) c := by
  rw [Transaction.items, List.forM_append, List.forM_map, List.forM_map]
  rfl

theorem forM_items_ok {items : List (Item K)} {c c' : Ctx K} {u : PUnit}
    (h : forM items (Item.execute env) c = .ok u c') : Executed env.registry items c c' := by
  induction items generalizing c with
  | nil =>
    cases h
    exact .refl _
  | cons x items ih =>
    rw [List.forM_cons, bind_eq_ok] at h
    obtain ⟨v, c₁, hx, hitems⟩ := h
    exact (Item.execute_ok hx).trans (ih hitems)

/-- An item that raises ends the loop: the items before it are in effect. -/
theorem forM_items_error {items : List (Item K)} {c c' : Ctx K} {e : Err K.Obj}
    (h : forM items (Item.execute env) c = .error e c') :
    ∃ done x rest c₁, items = done ++ x :: rest ∧ Executed env.registry done c c₁ ∧
      x.execute env c₁ = .error e c' := by
  obtain ⟨done, x, rest, c₁, rfl, hdone, hx⟩ := forM_eq_error h
  exact ⟨done, x, rest, c₁, rfl, forM_items_ok hdone, hx⟩

theorem items_eq_nil {tx : Transaction K} :
    tx.items = [] ↔ (tx.operations.isEmpty ∧ tx.requests.isEmpty : Prop) := by
  simp [Transaction.items]

theorem validate_ok {c c' : Ctx K} {u : Unit} (h : validate env c = .ok u c') :
    Executed env.registry [] c c' := by
  rw [validate, bind_get_run] at h
  cases hv : K.validate c.session.knowledgeStructure none with
  | error exc => rw [hv] at h; cases h
  | ok validation =>
    rw [hv] at h
    dsimp only at h
    rw [collectDiagnostics, bind_modify_run, qualityGate] at h
    split at h
    · cases h
      exact ⟨⟨_, _, rfl⟩, ⟨_, rfl⟩, ⟨_, rfl⟩⟩
    · rw [bind_eq_ok] at h
      obtain ⟨u₁, c₁, -, h⟩ := h
      rw [bind_get_run, bind_eq_ok] at h
      obtain ⟨u₂, c₂, -, h⟩ := h
      cases h

theorem publish_throw_error {α : Type} {event : Event} {e e' : Err K.Obj} {c c' : Ctx K}
    (h : (publish env event >>= fun _ => throw e : PipelineM K α) c = .error e' c') :
    c' = { c with shared := { c.shared with events := c.shared.events ++ [event] } } := by
  rw [bind_run, publish_run] at h
  cases hs : env.subscriber event with
  | none =>
    rw [hs] at h
    cases h
    rfl
  | some exc =>
    rw [hs] at h
    cases h
    rfl

theorem qualityGate_error {valid : Bool} {c c' : Ctx K} {e : Err K.Obj}
    (h : qualityGate env valid c = .error e c') : RolledBack c c' := by
  unfold qualityGate at h
  split at h
  · cases h
  · have hrb := rollback_rolledBack env c
    rw [bind_eq_error] at h
    obtain h | ⟨u, c₁, hr, h⟩ := h
    · rwa [h] at hrb
    · rw [hr] at hrb
      rw [bind_get_run] at h
      have hc' := publish_throw_error h
      subst hc'
      obtain ⟨hs, ⟨rs, ht⟩, hst, ⟨evs, hev, hall⟩⟩ := hrb
      rw [stateOf_ok] at hs ht hst hev
      refine ⟨hs, ⟨rs, ht⟩, hst, ⟨evs ++ [.validationFailed c₁.transaction.transactionId
        c₁.session.sessionId "Validation failed"], ?_, fun ev he => ?_⟩⟩
      · rw [← List.append_assoc, ← hev]
      · rcases List.mem_append.1 he with he | he
        · exact hall ev he
        · rw [List.mem_singleton.1 he, hs, ht, Transaction.transactionId_finish]
          exact .inr ⟨_, rfl⟩

theorem validate_error {c c' : Ctx K} {e : Err K.Obj} (h : validate env c = .error e c') :
    K.validate c.session.knowledgeStructure none = .error e ∧ c' = c ∨
      ∃ c₁, Executed env.registry [] c c₁ ∧ RolledBack c₁ c' := by
  rw [validate, bind_get_run] at h
  cases hv : K.validate c.session.knowledgeStructure none with
  | error exc =>
    rw [hv] at h
    cases h
    exact .inl ⟨rfl, rfl⟩
  | ok validation =>
    rw [hv] at h
    dsimp only at h
    rw [collectDiagnostics, bind_modify_run] at h
    have hrb := qualityGate_error h
    refine .inr ⟨_, ?_, hrb⟩
    exact ⟨⟨_, _, rfl⟩, ⟨_, rfl⟩, ⟨_, rfl⟩⟩

/-- The transaction's own work, when it succeeds. -/
theorem executeStage_ok {c c' : Ctx K} {u : Unit} (h : executeStage env c = .ok u c') :
    Executed env.registry c.transaction.items c c' := by
  rw [executeStage, bind_get_run] at h
  split at h
  · rename_i he
    rw [items_eq_nil.2 he]
    exact validate_ok h
  · rw [executeOperations_run] at h
    exact forM_items_ok h

/-- The transaction's own work, when it fails: Core's `validate` raised, an item's construction
raised, or there was a rollback. -/
theorem executeStage_error {c c' : Ctx K} {e : Err K.Obj}
    (h : executeStage env c = .error e c') :
    (∃ done x rest, c.transaction.items = done ++ x :: rest ∧
        Executed env.registry done c c' ∧ x.escapes env.registry = some e) ∨
      (c.transaction.items = [] ∧ K.validate c.session.knowledgeStructure none = .error e ∧
        c' = c) ∨
      ∃ done rest c₁, c.transaction.items = done ++ rest ∧ Executed env.registry done c c₁ ∧
        RolledBack c₁ c' := by
  rw [executeStage, bind_get_run] at h
  split at h
  · rename_i he
    have hnil := items_eq_nil.2 he
    obtain ⟨hv, rfl⟩ | ⟨c₁, hex, hrb⟩ := validate_error h
    · exact .inr (.inl ⟨hnil, hv, rfl⟩)
    · exact .inr (.inr ⟨[], [], c₁, hnil, hex, hrb⟩)
  · rw [executeOperations_run] at h
    obtain ⟨done, x, rest, c₁, hitems, hex, hx⟩ := forM_items_error h
    obtain ⟨he, rfl⟩ | ⟨-, hrb⟩ := Item.execute_error hx
    · exact .inl ⟨done, x, rest, hitems, hex, he⟩
    · exact .inr (.inr ⟨done, x :: rest, c₁, hitems, hex, hrb⟩)

end Pipeline

end CksRuntime
