import CksRuntime.Pipeline.Proof.Rollback
import CksRuntime.Runtime.Runtime

/-!
# What the façade's calls leave

Each call of `runtime.py` as the node it ends in, returning or raising (`saveSession_run`,
`publish_run`, `adopt_run`, `closeSession_run`), and the two ways into the pipeline
(`beginTransaction_run`, `stateOf_onSession`). Proofs about systems of Runtimes start from these.
-/

set_option autoImplicit false

namespace CksRuntime

open Effect

variable {K : Core}

namespace Node

/-- After a session is registered. -/
def registered (n : Node K) (s : Session K) : Node K :=
  { n with sessions := Function.update n.sessions s.sessionId (some s) }

/-- After a session is saved. -/
def saved (n : Node K) (s : Session K) : Node K :=
  { n with shared := { n.shared with
    storage := n.shared.storage.putSession s.sessionId s.toRow } }

/-- After an event is published. -/
def published (n : Node K) (event : Event) : Node K :=
  { n with shared := { n.shared with events := n.shared.events ++ [event] } }

end Node

namespace Runtime

theorem register_run (s : Session K) (n : Node K) :
    SessionManager.register s n = .ok () (n.registered s) := rfl

theorem saveSession_run (fault : Option (Err K.Obj)) (s : Session K) (n : Node K) :
    saveSession fault s n = fault.elim (.ok () (n.saved s)) (.error · n) := by
  cases fault <;> rfl

theorem publish_run (subscriber : Event → Option (Err K.Obj)) (event : Event) (n : Node K) :
    publish subscriber event n =
      (subscriber event).elim (.ok () (n.published event)) (.error · (n.published event)) := by
  rw [publish, bind_modify_run]
  cases subscriber event <;> rfl

theorem stateOf_publish (subscriber : Event → Option (Err K.Obj)) (event : Event) (n : Node K) :
    stateOf (publish subscriber event n) = n.published event := by
  rw [publish_run]
  cases subscriber event <;> rfl

/-- An adopted session is registered whatever raises. -/
theorem adopt_run (env : CallEnv K) (s : Session K) (n : Node K) :
    adopt env s n = env.saveSessionFault.elim
      ((env.subscriber (.sessionCreated s.sessionId)).elim
        (.ok s (((n.registered s).saved s).published (.sessionCreated s.sessionId)))
        (.error · (((n.registered s).saved s).published (.sessionCreated s.sessionId))))
      (.error · (n.registered s)) := by
  rw [adopt, SessionManager.register, bind_modify_run, bind_run, saveSession_run]
  cases env.saveSessionFault with
  | some exc => rfl
  | none =>
    dsimp only [Option.elim]
    rw [bind_run, publish_run]
    cases env.subscriber (.sessionCreated s.sessionId) <;> rfl

theorem stateOf_adopt (env : CallEnv K) (s : Session K) (n : Node K) :
    (stateOf (adopt env s n)).sessions = Function.update n.sessions s.sessionId (some s) ∧
      (stateOf (adopt env s n)).replicaId = n.replicaId ∧
      ((stateOf (adopt env s n)).shared.events = n.shared.events ∨
        (stateOf (adopt env s n)).shared.events =
          n.shared.events ++ [.sessionCreated s.sessionId]) := by
  rw [adopt_run]
  cases env.saveSessionFault with
  | some exc => exact ⟨rfl, rfl, .inl rfl⟩
  | none =>
    cases env.subscriber (.sessionCreated s.sessionId) <;> exact ⟨rfl, rfl, .inr rfl⟩

theorem closeSession_run (env : CallEnv K) {sessionId : String} {s : Session K} {n : Node K}
    (hs : n.sessions sessionId = some s) :
    closeSession env sessionId n =
      let n' : Node K := { n with sessions := Function.update n.sessions sessionId none }
      env.saveSessionFault.elim
        ((env.subscriber (.sessionClosed sessionId)).elim
          (.ok () ((n'.saved { s with closed := true }).published (.sessionClosed sessionId)))
          (.error · ((n'.saved { s with closed := true }).published (.sessionClosed sessionId))))
        (.error · n') := by
  rw [closeSession, bind_get_run, hs]
  dsimp only
  rw [bind_modify_run, bind_run, saveSession_run]
  cases env.saveSessionFault with
  | some exc => rfl
  | none =>
    dsimp only [Option.elim]
    rw [publish_run]
    cases env.subscriber (.sessionClosed sessionId) <;> rfl

/-! ## Transactions -/

/-- After a transaction is begun on a registered session. -/
def begun (transactionId sessionId : String) (s : Session K) (n : Node K) : Node K :=
  { n with
    sessions := Function.update n.sessions sessionId
      (some { s with activeTransaction := some transactionId })
    shared := { n.shared with transactions := n.shared.transactions ++ [transactionId] } }

/-- A second transaction is refused. -/
theorem beginTransaction_run (transactionId sessionId : String) (s : Session K) (n : Node K) :
    beginTransaction transactionId sessionId s n =
      if s.hasActiveTransaction then
        .error (.runtimeError "Session already has an active transaction.") n
      else
        .ok { transactionId, initialState := s.knowledgeStructure }
          (begun transactionId sessionId s n) := by
  unfold beginTransaction TransactionManager.begin
  split <;> rfl

/-- A pipeline call leaves its context in the node. -/
theorem stateOf_onSession {α : Type} (sessionId : String) (s : Session K) (tx : Transaction K)
    (call : PipelineM K α) (n : Node K) :
    stateOf (onSession sessionId s tx call n) =
      { n with
        sessions := Function.update n.sessions sessionId
          (some (stateOf (call ⟨s, tx, n.shared⟩)).session)
        shared := (stateOf (call ⟨s, tx, n.shared⟩)).shared } := by
  unfold onSession
  cases call ⟨s, tx, n.shared⟩ <;> rfl

end Runtime

end CksRuntime
