import CksRuntime.Lib.Transition
import CksRuntime.Runtime.Runtime

/-!
# A Runtime that is restarted

The façade of `runtime.py` over one SQLite store, its calls one after the other and addressed by
session and transaction id, and the process ending at any time between two of them: what it had in
memory is gone, and the next one registers what `_restore_from_storage` loads. A call takes effect
whether or not it raises. A session that is closed and a transaction that is finished stay with
those who hold them, as long as the process lives.
-/

set_option autoImplicit false

namespace CksRuntime

open Transition Effect

variable {K : Core}

/-! ## Restoring -/

/-- `list_sessions`: every row loaded, in the order `SELECT session_id FROM sessions` has them. -/
def Storage.listSessions (st : Storage K) (ids : List String) : List (Session K) :=
  ids.filterMap st.loadSession

/-- `_restore_from_storage`. -/
def Runtime.restoreFromStorage (ids : List String) : RuntimeM K Unit := do
  forM ((← get).shared.storage.listSessions ids) SessionManager.restore

/-! ## The process -/

/-- An operation as its caller has it: a merge is from a session of this Runtime. -/
inductive Edit (K : Core)
  | operation (op : Operation K)
  | merge (operationId sourceId : String) (baseVersionId : Option String)
      (baseStructure : Option K.Structure) (resolutions : Option (Dict (Resolution K.Obj)))

/-- The operation that is executed, with the source as it is then. -/
def Edit.toOperation (sessions : String → Option (Session K)) : Edit K → Operation K
  | .operation op => op
  | .merge operationId sourceId baseVersionId baseStructure resolutions =>
    { operationId
      kind := .merge
        { sourceSession := sessions sourceId
          baseVersionId
          baseStructure
          resolutions } }

/-- The session a merge is from. -/
def Edit.sourceId : Edit K → Option String
  | .operation _ => none
  | .merge _ sourceId _ _ _ => some sourceId

/-- A transaction, as the one who has begun it holds it; its operations are the edits. -/
structure Held (K : Core) where
  sessionId : String
  transaction : Transaction K
  edits : List (Edit K) := []

/-- What a process has in memory, and the store. -/
structure Process (K : Core) where
  node : Node K
  /-- The sessions it has closed. -/
  closed : String → Option (Session K) := fun _ => none
  /-- The transactions it has begun. -/
  transactions : String → Option (Held K) := fun _ => none

/-- What a call returns. -/
inductive Answer (K : Core)
  | session (s : Session K)
  | version (v : Version K)
  | done
  /-- Nobody has such a session, or such a transaction. -/
  | absent
  | raised (exc : Err K.Obj)

/-- A call on the Runtime; sessions and transactions are named by their ids. -/
inductive ProcessCall (K : Core)
  | create (env : CallEnv K) (knowledgeStructure : K.Structure)
  | branch (env : CallEnv K) (parentId : String) (versionId : Option String)
  | foreign (env : CallEnv K) (parentId : String) (knowledgeStructure : K.Structure)
      (parentVersionId : Option String) (metadata : MetadataItems)
  | get (sessionId : String)
  | close (env : CallEnv K) (sessionId : String)
  | begin (transactionId sessionId : String)
  | add (transactionId : String) (edits : List (Edit K)) (requests : List (DispatchRequest K))
  | commit (env : Env K) (transactionId : String)
  | rollback (env : Env K) (transactionId : String)
  | abort (env : Env K) (transactionId : String)

namespace Process

/-! ### Session objects -/

/-- The session, registered or closed. -/
def object (p : Process K) (sessionId : String) : Option (Session K) :=
  (p.node.sessions sessionId).or (p.closed sessionId)

/-- The session has become `s`, where it was. -/
def setObject (p : Process K) (sessionId : String) (s : Session K) : Process K :=
  if (p.node.sessions sessionId).isSome then
    { p with node :=
      { p.node with sessions := Function.update p.node.sessions sessionId (some s) } }
  else { p with closed := Function.update p.closed sessionId (some s) }

/-! ### Calls -/

/-- A call on the sessions has ended. -/
def answer {α : Type} (p : Process K) (f : α → Answer K) :
    EStateM.Result (Err K.Obj) (Node K) α → Answer K × Process K
  | .ok a n => (f a, { p with node := n })
  | .error exc n => (.raised exc, { p with node := n })

/-- A call on a session that somebody holds. -/
def withObject (p : Process K) (sessionId : String)
    (k : Session K → Answer K × Process K) : Answer K × Process K :=
  match p.object sessionId with
  | none => (.absent, p)
  | some s => k s

/-- `close_session`: the session is closed and no longer registered, whether or not it is saved. -/
def closing (p : Process K) (sessionId : String) : Process K :=
  match p.node.sessions sessionId with
  | none => p
  | some s =>
    { p with closed := Function.update p.closed sessionId (some { s with closed := true }) }

/-- `begin_transaction`. -/
def begun (p : Process K) (transactionId sessionId : String) (tx : Transaction K)
    (s : Session K) : Process K :=
  let p' := p.setObject sessionId s
  { p' with
    node := { p'.node with shared := { p'.node.shared with
      transactions := p'.node.shared.transactions ++ [transactionId] } }
    transactions := Function.update p'.transactions transactionId
      (some { sessionId := sessionId, transaction := tx }) }

/-- A pipeline call on the transaction has left `c`. -/
def leave (p : Process K) (transactionId : String) (held : Held K) (c : Ctx K) : Process K :=
  let p' := p.setObject held.sessionId c.session
  { p' with
    node := { p'.node with shared := c.shared }
    transactions := Function.update p'.transactions transactionId
      (some { held with transaction := c.transaction }) }

/-- What a pipeline call on the transaction reads. -/
def ctx (p : Process K) (s : Session K) (held : Held K) : Ctx K where
  session := s
  transaction :=
    { held.transaction with operations := held.edits.map (·.toOperation p.object) }
  shared := p.node.shared

/-- A pipeline call on the transaction. -/
def onTransaction {α : Type} (p : Process K) (transactionId : String) (call : PipelineM K α)
    (f : α → Answer K) : Answer K × Process K :=
  match p.transactions transactionId with
  | none => (.absent, p)
  | some held =>
    p.withObject held.sessionId fun s =>
      match call (p.ctx s held) with
      | .ok r c => (f r, p.leave transactionId held c)
      | .error exc c => (.raised exc, p.leave transactionId held c)

/-- Whether somebody has the sessions the edits merge from. -/
def hasSources (p : Process K) (edits : List (Edit K)) : Bool :=
  edits.all fun e => e.sourceId.all fun id => (p.object id).isSome

/-- `runtime.py`. -/
def call (p : Process K) : ProcessCall K → Answer K × Process K
  | .create env ks => p.answer .session (Runtime.createSession env ks p.node)
  | .branch env parentId versionId => p.withObject parentId fun parent =>
    p.answer .session (Runtime.createBranch env parent versionId p.node)
  | .foreign env parentId ks parentVersionId metadata => p.withObject parentId fun parent =>
    p.answer .session
      (Runtime.registerForeignBranch env parent ks parentVersionId metadata p.node)
  | .get sessionId =>
    match p.node.sessions sessionId with
    | none => (.absent, p)
    | some s => (.session s, p)
  | .close env sessionId =>
    (p.closing sessionId).answer (fun _ => .done) (Runtime.closeSession env sessionId p.node)
  | .begin transactionId sessionId => p.withObject sessionId fun s =>
    match TransactionManager.begin transactionId s with
    | .error exc => (.raised exc, p)
    | .ok (tx, s') => (.done, p.begun transactionId sessionId tx s')
  | .add transactionId edits requests =>
    match p.transactions transactionId with
    | none => (.absent, p)
    | some held =>
      if p.hasSources edits then
        (.done, { p with transactions := Function.update p.transactions transactionId (some
          { held with
            transaction := { held.transaction with
              requests := held.transaction.requests ++ requests }
            edits := held.edits ++ edits }) })
      else (.absent, p)
  | .commit env transactionId =>
    p.onTransaction transactionId (Pipeline.commit { env with replicaId := p.node.replicaId })
      .version
  | .rollback env transactionId =>
    p.onTransaction transactionId (Pipeline.rollback env) fun _ => .done
  | .abort env transactionId => p.onTransaction transactionId (Pipeline.abort env) fun _ => .done

/-- The process ends, and another one is created on the store, as the same replica. -/
def restart (p : Process K) (ids : List String) : Process K where
  node := stateOf (Runtime.restoreFromStorage ids
    { replicaId := p.node.replicaId, shared := { storage := p.node.shared.storage } })

end Process

/-! ## Runs -/

/-- A call, or the end of the process and the start of another. -/
inductive LifeEvent (K : Core)
  | call (call : ProcessCall K)
  | restart (ids : List String)

namespace Process

/-- The ids of the rows of `sessions`. -/
def Lists (p : Process K) (ids : List String) : Prop :=
  ∀ id, id ∈ ids ↔ (p.node.shared.storage.sessions id).isSome

/-- What it answers and leaves. -/
def event (p : Process K) : LifeEvent K → Option (Answer K) × Process K
  | .call call => (some (p.call call).1, (p.call call).2)
  | .restart ids => (none, p.restart ids)

/-- The answers to a run of calls and restarts, and where it ends. -/
def run (p : Process K) : List (LifeEvent K) → List (Option (Answer K)) × Process K
  | [] => ([], p)
  | e :: es =>
    let (a, p') := p.event e
    let (as, p'') := p'.run es
    (a :: as, p'')

/-- A restart lists every row of the store. -/
inductive Step : Process K → LifeEvent K → Process K → Prop
  | call {p : Process K} (call : ProcessCall K) : Step p (.call call) (p.call call).2
  | restart {p : Process K} (ids : List String) : p.Lists ids →
      Step p (.restart ids) (p.restart ids)

/-- Every run starts on an empty store. -/
def system (K : Core) : System (Process K) (LifeEvent K) where
  init p := ∃ replicaId supportsOperationLog, p = { node :=
    { replicaId := replicaId
      shared := { storage := { supportsOperationLog := supportsOperationLog } } } }
  step := Step

/-- `uuid4`: nothing stored has the id. -/
def FreshSession (p : Process K) (sessionId : String) : Prop :=
  p.node.shared.storage.sessions sessionId = none ∧
    ∀ v ∈ p.node.shared.storage.versions, v.sessionId ≠ sessionId

/-- No call to the store raises, nor does a subscriber between a version and its save; ids are drawn
fresh, metadata from elsewhere comes back from JSON as it is, and the clock is not behind a version
of the session. -/
def Sound (p : Process K) : LifeEvent K → Prop
  | .call (.create env _) | .call (.branch env _ _) =>
    env.saveSessionFault = none ∧ p.FreshSession env.sessionId
  | .call (.foreign env _ _ _ metadata) =>
    env.saveSessionFault = none ∧ p.FreshSession env.sessionId ∧ metadata.Stable
  | .call (.close env _) => env.saveSessionFault = none
  | .call (.begin transactionId _) => p.transactions transactionId = none
  | .call (.commit env transactionId) =>
    env.saveVersionFault = none ∧ env.saveSessionFault = none ∧
      (∀ versionId sessionId transactionId,
        env.subscriber (.versionCreated versionId sessionId transactionId) = none) ∧
      (∀ v ∈ p.node.shared.storage.versions, v.versionId ≠ env.versionId) ∧
      ∀ held ∈ p.transactions transactionId, ∀ s ∈ p.object held.sessionId,
        ∀ v ∈ s.versionHistory, v.createdAt ≤ env.now
  | .call (.rollback env _) | .call (.abort env _) => env.saveSessionFault = none
  | _ => True

/-! ## What a restart may go unnoticed by -/

/-- No registered session is attached to a transaction. -/
def Quiet (p : Process K) : Prop :=
  ∀ id, ∀ s ∈ p.node.sessions id, s.activeTransaction = none

/-- A pipeline call is on a transaction its session is attached to. -/
def OnAttached (p : Process K) : LifeEvent K → Prop
  | .call (.commit _ transactionId) | .call (.rollback _ transactionId)
  | .call (.abort _ transactionId) =>
    ∀ held ∈ p.transactions transactionId, ∀ s ∈ p.object held.sessionId,
      s.activeTransaction = some transactionId
  | _ => True

end Process

/-- The sessions a caller hands to a call. -/
def ProcessCall.sessionIds : ProcessCall K → List String
  | .branch _ parentId _ | .foreign _ parentId _ _ _ => [parentId]
  | .begin _ sessionId => [sessionId]
  | .add _ edits _ => edits.filterMap Edit.sourceId
  | _ => []

/-- The transaction a call is about. -/
def ProcessCall.transactionId : ProcessCall K → Option String
  | .begin transactionId _ | .add transactionId _ _ | .commit _ transactionId
  | .rollback _ transactionId | .abort _ transactionId => some transactionId
  | _ => none

end CksRuntime
