import CksRuntime.Execution.Executor
import CksRuntime.Lib.Effect

/-!
# The execution pipeline

`pipeline/execution_pipeline.py`, with the parts of `TransactionManager`, `VersionManager` and
`EventBus` it drives. A call runs on a `Ctx` (the session and the transaction it is about, and what
the Runtime's sessions share) and may raise at any point; what it changed before that stays
changed. Where the code calls out of itself (storage, event subscribers), `Env` says what raises.
-/

set_option autoImplicit false

namespace CksRuntime

variable {K : Core}

/-! ## Events -/

/-- What is published. -/
inductive Event
  | versionCreated (versionId sessionId transactionId : String)
  | transactionCommitted (transactionId sessionId : String)
  | transactionRolledBack (transactionId sessionId : String)
  | transactionAborted (transactionId sessionId : String)
  | validationFailed (transactionId sessionId message : String)
  | sessionCreated (sessionId : String)
  | sessionClosed (sessionId : String)
  | duplicateReplicaIdDetected (sessionId ownReplicaId : String) (localClock remoteClock : Int)
  | gossipConflictDetected (sourceReplicaId sessionId sourceSessionId : String)
      (conflicts : List String)
  deriving DecidableEq, Repr

/-! ## Transactions -/

/-- How far a transaction has come. -/
inductive TransactionStatus
  | created | executing | validating | committed | rolledBack | aborted
  deriving DecidableEq, Repr

/-- `RuntimeTransaction`; its session is the one of the `Ctx` it is used in. -/
structure Transaction (K : Core) where
  transactionId : String
  operations : List (Operation K) := []
  requests : List (DispatchRequest K) := []
  results : List (ExecutionResult K) := []
  status : TransactionStatus := .created
  initialState : K.Structure

namespace Transaction

/-- Whether a transaction is over. -/
def completed (tx : Transaction K) : Bool :=
  tx.status = .committed ∨ tx.status = .rolledBack ∨ tx.status = .aborted

/-- `commit` / `rollback` / `abort`: a completed transaction keeps its outcome. -/
def finish (tx : Transaction K) (outcome : TransactionStatus) : Transaction K :=
  if tx.completed then tx else { tx with status := outcome }

end Transaction

/-- What the sessions of one Runtime share: its storage, the collected diagnostics, the event
history, and the ids of the transactions its manager tracks. -/
structure Shared (K : Core) where
  storage : Storage K := {}
  diagnostics : List Diagnostic := []
  events : List Event := []
  transactions : List String := []

/-- What a call of the pipeline reads and writes. -/
structure Ctx (K : Core) where
  session : Session K
  transaction : Transaction K
  shared : Shared K

/-- What a call depends on beyond the state: the Runtime's identity and registry, the fresh version
id and time it draws, and which of the calls out of the pipeline raise. -/
structure Env (K : Core) where
  replicaId : Option String
  registry : OperationRegistry K := fun _ => none
  versionId : String
  now : Nat := 0
  /-- What the first subscriber to raise on an event raises. -/
  subscriber : Event → Option (Err K.Obj) := fun _ => none
  saveVersionFault : Option (Err K.Obj) := none
  saveSessionFault : Option (Err K.Obj) := none
  recordOperationsFault : Option (Err K.Obj) := none

/-- A call of the pipeline. -/
abbrev PipelineM (K : Core) := EStateM (Err K.Obj) (Ctx K)

/-- `TransactionManager.begin`. -/
def TransactionManager.begin (transactionId : String) (session : Session K) :
    Except (Err K.Obj) (Transaction K × Session K) :=
  if session.hasActiveTransaction then
    .error (.runtimeError "Session already has an active transaction.")
  else
    .ok ({ transactionId, initialState := session.knowledgeStructure },
      { session with activeTransaction := some transactionId })

namespace Pipeline

variable (env : Env K)

/-- A call out of the pipeline that raises when `fault` says so. -/
def raiseIf (fault : Option (Err K.Obj)) : PipelineM K Unit :=
  match fault with
  | some exc => throw exc
  | none => pure ()

/-- `EventBus.publish`: recorded first, then delivered. -/
def publish (event : Event) : PipelineM K Unit := do
  modify fun c => { c with shared := { c.shared with events := c.shared.events ++ [event] } }
  raiseIf (env.subscriber event)

/-- A storage call that raises before it writes, or takes the store to the next one. -/
def store (fault : Option (Err K.Obj)) (f : Ctx K → Except (Err K.Obj) (Storage K)) :
    PipelineM K Unit := do
  raiseIf fault
  match f (← get) with
  | .ok storage => modify fun c => { c with shared := { c.shared with storage := storage } }
  | .error exc => throw exc

/-- `TransactionManager.commit` / `rollback` / `abort`, with `_finish`. -/
def finishTransaction (outcome : TransactionStatus) : PipelineM K Unit :=
  modify fun c =>
    { session := { c.session with activeTransaction := none }
      transaction := c.transaction.finish outcome
      shared := { c.shared with
        transactions := c.shared.transactions.erase c.transaction.transactionId } }

/-! ## Rollback and abort -/

/-- `ExecutionPipeline.rollback`. -/
def rollback : PipelineM K Unit := do
  modify fun c =>
    { c with session := { c.session with knowledgeStructure := c.transaction.initialState } }
  finishTransaction .rolledBack
  store env.saveSessionFault fun c => c.shared.storage.saveSession c.session none
  let c ← get
  publish env (.transactionRolledBack c.transaction.transactionId c.session.sessionId)

/-- `ExecutionPipeline.abort`. -/
def abort : PipelineM K Unit := do
  finishTransaction .aborted
  store env.saveSessionFault fun c => c.shared.storage.saveSession c.session none
  let c ← get
  publish env (.transactionAborted c.transaction.transactionId c.session.sessionId)

/-! ## Validation without operations -/

/-- `_collect_diagnostics`. -/
def collectDiagnostics (diagnostics : List Diagnostic) : PipelineM K Unit :=
  modify fun c =>
    { c with shared := { c.shared with diagnostics := c.shared.diagnostics ++ diagnostics } }

/-- `_quality_gate`. -/
def qualityGate (valid : Bool) : PipelineM K Unit :=
  if valid then pure ()
  else do
    rollback env
    let c ← get
    publish env
      (.validationFailed c.transaction.transactionId c.session.sessionId "Validation failed")
    throw (.runtimeError "Runtime commit aborted because semantic validation failed.")

/-- `_validate`, `_collect_diagnostics` and `_quality_gate`. -/
def validate : PipelineM K Unit := do
  match K.validate (← get).session.knowledgeStructure none with
  | .error exc => throw exc
  | .ok validation =>
    collectDiagnostics validation.diagnostics
    qualityGate env validation.valid

/-! ## Executing operations -/

/-- `add_result`. -/
def addResult (result : ExecutionResult K) : PipelineM K Unit :=
  modify fun c =>
    { c with transaction := { c.transaction with results := c.transaction.results ++ [result] } }

/-- `_handle_result`. -/
def handleResult (operationId : String) (result : ExecutionResult K) : PipelineM K Unit :=
  if result.status = .failed then do
    rollback env
    throw (.runtimeError ("Operation " ++ operationId ++ " failed: " ++
      (result.error.map Err.message).getD "None"))
  else do
    collectDiagnostics result.diagnostics
    modify fun c =>
      { c with session := { c.session with diagnostics := c.session.diagnostics ++ result.diagnostics } }

/-- The classes whose payload is the new Knowledge Structure. -/
def OperationKind.mutatesState : OperationKind K → Bool
  | .evolve _ _ | .revertVersion _ | .merge _ | .replaceState _ => true
  | _ => false

/-- `_apply_state_mutation`. -/
def applyStateMutation (operation : Option (Operation K)) (result : ExecutionResult K) :
    PipelineM K Unit :=
  if result.status = .completed ∧ operation.any (fun op => OperationKind.mutatesState op.kind) then
    match result.payload with
    | some (.state s) => modify fun c => { c with session := { c.session with knowledgeStructure := s } }
    | _ => pure ()
  else pure ()

/-- A result of either loop: recorded, then handled, then written back. -/
def finishResult (operationId : String) (operation : Option (Operation K))
    (result : ExecutionResult K) : PipelineM K Unit := do
  addResult result
  handleResult env operationId result
  applyStateMutation operation result

/-- A round of the loop over `transaction.operations`. -/
def executeOperation (op : Operation K) : PipelineM K Unit := do
  let c ← get
  let (result, session) := OperationExecutor.execute op c.shared.storage c.session
  modify fun c => { c with session := session }
  finishResult env op.operationId (some op) result

/-- A round of the loop over `transaction.requests`. -/
def executeRequest (req : DispatchRequest K) : PipelineM K Unit := do
  let c ← get
  match Dispatcher.dispatch env.registry req c.shared.storage c.session with
  | .error exc => throw exc
  | .ok (result, session) =>
    modify fun c => { c with session := session }
    finishResult env req.operationId result.operation result

/-- `_execute_operations`. -/
def executeOperations : PipelineM K Unit := do
  let tx := (← get).transaction
  forM tx.operations (executeOperation env)
  forM tx.requests (executeRequest env)

/-! ## Creating and persisting the version -/

/-- The vector after a commit by `nodeId` and `replicaId`, whichever are given. -/
def bumpVector (nodeId replicaId : Option String) (v : VersionVector) : VersionVector :=
  let v := nodeId.elim v v.bump
  replicaId.elim v v.bump

/-- The metadata `VersionManager.create` leaves: untouched when there is no id to bump. -/
def bumpMetadata (replicaId : Option String) (m : Metadata) : Metadata :=
  if m.nodeId.isSome ∨ replicaId.isSome then
    (bumpVector m.nodeId replicaId (VersionVector.fromMetadata m)).toMetadata m
  else m

/-- The state a version records: a snapshot for the first one and at every multiple of the interval,
else the patch from `previousState`. -/
def recordState (session : Session K) (previousState : K.Structure) (version : Version K) :
    Except (Err K.Obj) (Version K) :=
  let index := session.versionHistory.length
  if index = 0 ∨ index % session.snapshotInterval = 0 then
    .ok { version with knowledgeStructure := some session.knowledgeStructure }
  else
    (K.diff previousState session.knowledgeStructure).map fun patch =>
      { version with patch := some patch }

/-- A new version of the session, its state still to be recorded. -/
def newVersion (session : Session K) (stateHash : Option K.Hash) : Version K where
  versionId := env.versionId
  sessionId := session.sessionId
  transactionId := session.activeTransaction.getD ""
  knowledgeStructure := none
  metadata := session.metadata
  stateHash := stateHash
  patch := none
  createdAt := env.now

/-- The version `VersionManager.create` makes of the session. A Core that cannot hash is no
error. -/
def buildVersion (session : Session K) (previousState : K.Structure) :
    Except (Err K.Obj) (Version K) :=
  match K.hash session.knowledgeStructure with
  | .ok h => recordState session previousState (newVersion env session (some h))
  | .error exc =>
    if exc.isRuntimeError then recordState session previousState (newVersion env session none)
    else .error exc

/-- `VersionManager.create`, as `_create_version` calls it. -/
def create (previousState : K.Structure) : PipelineM K (Version K) := do
  modify fun c =>
    { c with session := { c.session with metadata := bumpMetadata env.replicaId c.session.metadata } }
  match buildVersion env (← get).session previousState with
  | .error exc => throw exc
  | .ok version =>
    modify fun c =>
      { c with session := { c.session with versionHistory := c.session.versionHistory ++ [version] } }
    pure version

/-- `_create_version`. -/
def createVersion (initialState : K.Structure) : PipelineM K (Version K) := do
  let version ← create env initialState
  let c ← get
  publish env
    (.versionCreated version.versionId c.session.sessionId c.transaction.transactionId)
  pure version

/-- `_record_operations`. -/
def recordOperations (version : Version K) (initialState : K.Structure) : PipelineM K Unit := do
  let c ← get
  match K.fieldDiff with
  | some fieldDiff =>
    if c.shared.storage.supportsOperationLog then
      match fieldDiff initialState c.session.knowledgeStructure with
      | .error exc => throw exc
      | .ok operations =>
        if operations.isEmpty then pure ()
        else
          store env.recordOperationsFault fun c =>
            .ok (c.shared.storage.recordOperations c.session.sessionId version.versionId operations)
    else pure ()
  | none => pure ()

/-- `_persist`. -/
def persist (version : Version K) (expectedVersionId : Option String)
    (initialState : K.Structure) : PipelineM K Unit := do
  store env.saveVersionFault fun c => c.shared.storage.saveVersion version
  store env.saveSessionFault fun c => c.shared.storage.saveSession c.session expectedVersionId
  recordOperations env version initialState

/-! ## Commit -/

/-- The first half of `commit`: the operations, or the validation of an empty transaction. -/
def executeStage : PipelineM K Unit := do
  let tx := (← get).transaction
  if tx.operations.isEmpty ∧ tx.requests.isEmpty then validate env else executeOperations env

/-- The second half of `commit`: the version, its persistence, the end of the transaction. -/
def commitStage (initialState : K.Structure) (expectedVersionId : Option String) :
    PipelineM K (Version K) := do
  let version ← createVersion env initialState
  persist env version expectedVersionId initialState
  finishTransaction .committed
  let c ← get
  publish env (.transactionCommitted c.transaction.transactionId c.session.sessionId)
  pure version

/-- `ExecutionPipeline.commit`. -/
def commit : PipelineM K (Version K) := do
  let c ← get
  executeStage env
  commitStage env c.session.knowledgeStructure c.session.latestVersionId

end Pipeline

end CksRuntime
