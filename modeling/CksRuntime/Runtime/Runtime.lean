import CksRuntime.Pipeline.Pipeline

/-!
# The Runtime

`runtime.py`, with `session_manager.py`: the façade over the sessions of one process. A session is
registered before it is saved and saved before its event is published, so a call that raises may
leave any of the three done.
-/

set_option autoImplicit false

namespace CksRuntime

variable {K : Core}

/-- One Runtime: the sessions it has registered, and what they share. -/
structure Node (K : Core) where
  replicaId : Option String := none
  sessions : String → Option (Session K) := fun _ => none
  shared : Shared K := {}

/-- A call of the Runtime. -/
abbrev RuntimeM (K : Core) := EStateM (Err K.Obj) (Node K)

/-- What a façade call draws and meets: the fresh ids, and which of its calls out raise. -/
structure CallEnv (K : Core) where
  sessionId : String
  nodeId : String
  saveSessionFault : Option (Err K.Obj) := none
  subscriber : Event → Option (Err K.Obj) := fun _ => none

/-! ## The session manager -/

namespace SessionManager

/-- The session `create_session` makes. -/
def newSession (sessionId nodeId : String) (knowledgeStructure : K.Structure) : Session K where
  knowledgeStructure := knowledgeStructure
  sessionId := sessionId
  metadata := { nodeId := some nodeId }

/-- The session `create_branch` makes: no history and no clocks of its parent's. -/
def newBranch (sessionId nodeId : String) (parent : Session K) (knowledgeStructure : K.Structure)
    (parentVersionId : Option String) : Session K where
  knowledgeStructure := knowledgeStructure
  sessionId := sessionId
  metadata := { nodeId := some nodeId }
  parentSessionId := some parent.sessionId
  parentVersionId := parentVersionId

/-- The session is registered, under its id. -/
def register (s : Session K) : RuntimeM K Unit :=
  modify fun n => { n with sessions := Function.update n.sessions s.sessionId (some s) }

/-- `restore`: a closed session is not registered. -/
def restore (s : Session K) : RuntimeM K Unit :=
  if s.closed then pure () else register s

end SessionManager

namespace Runtime

/-- What a call may raise there. -/
def raiseIf (fault : Option (Err K.Obj)) : RuntimeM K Unit :=
  match fault with
  | some exc => throw exc
  | none => pure ()

/-- An event is recorded and its subscribers called, which may raise. -/
def publish (subscriber : Event → Option (Err K.Obj)) (event : Event) : RuntimeM K Unit := do
  modify fun n => { n with shared := { n.shared with events := n.shared.events ++ [event] } }
  raiseIf (subscriber event)

/-- `storage.save_session(session)`, unconditional. -/
def saveSession (fault : Option (Err K.Obj)) (s : Session K) : RuntimeM K Unit := do
  raiseIf fault
  modify fun n => { n with shared := { n.shared with
    storage := n.shared.storage.putSession s.sessionId s.toRow } }

/-! ## Sessions -/

variable (env : CallEnv K)

/-- The tail every creating call shares. -/
def adopt (s : Session K) : RuntimeM K (Session K) := do
  SessionManager.register s
  saveSession env.saveSessionFault s
  publish env.subscriber (.sessionCreated s.sessionId)
  pure s

/-- `create_session`. -/
def createSession (knowledgeStructure : K.Structure) : RuntimeM K (Session K) :=
  adopt env (SessionManager.newSession env.sessionId env.nodeId knowledgeStructure)

/-- Where `create_branch` forks: the structure, and the version recorded as the fork point. -/
def forkPoint (s : Session K) (versionId : Option String) :
    Except (Err K.Obj) (K.Structure × Option String) :=
  match versionId with
  | some v => (s.getVersionState v).map (·, some v)
  | none =>
    .ok (s.knowledgeStructure, if s.hasActiveTransaction then none else s.latestVersionId)

/-- `create_branch`. -/
def createBranch (s : Session K) (versionId : Option String) : RuntimeM K (Session K) :=
  match forkPoint s versionId with
  | .error exc => throw exc
  | .ok (knowledgeStructure, forkVersionId) =>
    adopt env (SessionManager.newBranch env.sessionId env.nodeId s knowledgeStructure forkVersionId)

/-- `register_foreign_branch`: what the caller adds may take the place of the branch's own node id
and vector. -/
def registerForeignBranch (parent : Session K) (knowledgeStructure : K.Structure)
    (parentVersionId : Option String) (metadata : MetadataItems) : RuntimeM K (Session K) :=
  let branch := SessionManager.newBranch env.sessionId env.nodeId parent knowledgeStructure
    parentVersionId
  adopt env { branch with metadata := branch.metadata.update metadata }

/-- `close_session`: the session is unregistered before it is saved. -/
def closeSession (sessionId : String) : RuntimeM K Unit := do
  match (← get).sessions sessionId with
  | none => pure ()
  | some s =>
    let s := { s with closed := true }
    modify fun n => { n with sessions := Function.update n.sessions sessionId none }
    saveSession env.saveSessionFault s
    publish env.subscriber (.sessionClosed sessionId)

/-! ## Transactions -/

/-- `begin_transaction`. -/
def beginTransaction (transactionId sessionId : String) (s : Session K) :
    RuntimeM K (Transaction K) :=
  match TransactionManager.begin transactionId s with
  | .error exc => throw exc
  | .ok (tx, s') => do
    modify fun n =>
      { n with
        sessions := Function.update n.sessions sessionId (some s')
        shared := { n.shared with transactions := n.shared.transactions ++ [transactionId] } }
    pure tx

/-- A pipeline call on a registered session: whatever it did to the session and the shared state
stays, raising or not. -/
def onSession {α : Type} (sessionId : String) (s : Session K) (tx : Transaction K)
    (call : PipelineM K α) : RuntimeM K α := fun n =>
  match call ⟨s, tx, n.shared⟩ with
  | .ok a c => .ok a
      { n with sessions := Function.update n.sessions sessionId (some c.session), shared := c.shared }
  | .error exc c => .error exc
      { n with sessions := Function.update n.sessions sessionId (some c.session), shared := c.shared }

end Runtime

end CksRuntime
