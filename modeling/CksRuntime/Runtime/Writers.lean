import CksRuntime.Lib.Effect
import CksRuntime.Lib.Transition
import CksRuntime.Runtime.Runtime

/-!
# Writers of one stored session

Any number of in-memory copies of one session, each in a Runtime of its own, over one store. Each
copy is created, loaded, committed to, rolled back, aborted and closed in any order, on any of its
transactions; a call takes effect whether or not it raises. Only a commit saves against the head it
was built on: every other save is unconditional.
-/

set_option autoImplicit false

namespace CksRuntime

open Transition Effect

variable {K : Core} {ι : Type} [DecidableEq ι]

/-- A commit that has returned, or whose version has become the stored head though it raised. -/
structure Accepted (K : Core) where
  /-- The version the commit was built on. -/
  base : Option String
  versionId : String
  content : K.Structure

/-- The store, the copies of the session, the version ids drawn so far and the accepted commits. -/
structure Writers (K : Core) (ι : Type) where
  storage : Storage K := {}
  copies : ι → Option (Session K) := fun _ => none
  used : List String := []
  accepted : List (Accepted K) := []

/-- `shared` is what the Runtime of the copy shares among its sessions, its storage apart. -/
inductive Write (K : Core) (ι : Type)
  | create (i : ι) (env : CallEnv K) (knowledgeStructure : K.Structure) (shared : Shared K)
  | load (i : ι)
  | begin (i : ι) (transactionId : String)
  | commit (i : ι) (env : Env K) (tx : Transaction K) (shared : Shared K)
  | rollback (i : ι) (env : Env K) (tx : Transaction K) (shared : Shared K)
  | abort (i : ι) (env : Env K) (tx : Transaction K) (shared : Shared K)
  | close (i : ι) (env : CallEnv K) (shared : Shared K)
  | elsewhere (storage : Storage K)

namespace Writers

/-- `latest_version_id` of the stored session. -/
def head (w : Writers K ι) (sessionId : String) : Option String :=
  (w.storage.sessions sessionId).bind (·.latestVersionId)

/-- What a call of one writer reads: the store is everyone's. -/
def ctx (w : Writers K ι) (s : Session K) (tx : Transaction K) (shared : Shared K) : Ctx K :=
  ⟨s, tx, { shared with storage := w.storage }⟩

/-- The Runtime of a copy, with the copy registered. -/
def node (w : Writers K ι) (sessionId : String) (copy : Option (Session K)) (shared : Shared K) :
    Node K where
  sessions := Function.update (fun _ => none) sessionId copy
  shared := { shared with storage := w.storage }

/-- A call has left the copy and the store like this. -/
def leave (w : Writers K ι) (i : ι) (copy : Option (Session K)) (storage : Storage K) :
    Writers K ι :=
  { w with storage := storage, copies := Function.update w.copies i copy }

/-- After a commit: the id it drew is used, and it is accepted if it returned or its version is the
stored head. -/
def record (w : Writers K ι) (sessionId versionId : String) (base : Option String)
    (content : K.Structure) (succeeded : Bool) : Writers K ι :=
  { w with
    used := versionId :: w.used
    accepted := if succeeded ∨ w.head sessionId = some versionId then
      w.accepted ++ [⟨base, versionId, content⟩] else w.accepted }

/-- What a write leaves. -/
inductive Step (sessionId : String) : Writers K ι → Write K ι → Writers K ι → Prop
  | create {w : Writers K ι} {i : ι} (env : CallEnv K) (ks : K.Structure) (shared : Shared K)
      {n : Node K} :
      w.copies i = none → env.sessionId = sessionId →
      stateOf (Runtime.createSession env ks (w.node sessionId none shared)) = n →
      Step sessionId w (.create i env ks shared)
        (w.leave i (n.sessions sessionId) n.shared.storage)
  /-- A closed session is not restored. -/
  | load {w : Writers K ι} (i : ι) {s : Session K} :
      w.storage.loadSession sessionId = some s → s.closed = false →
      Step sessionId w (.load i) (w.leave i (some s) w.storage)
  | begin {w : Writers K ι} {i : ι} (transactionId : String) {s s' : Session K}
      {tx : Transaction K} :
      w.copies i = some s → TransactionManager.begin transactionId s = .ok (tx, s') →
      Step sessionId w (.begin i transactionId) (w.leave i (some s') w.storage)
  | commit {w : Writers K ι} {i : ι} (env : Env K) (tx : Transaction K) (shared : Shared K)
      {s : Session K} {r : EStateM.Result (Err K.Obj) (Ctx K) (Version K)} :
      w.copies i = some s →
      -- a version id is drawn fresh
      env.versionId ∉ w.used →
      Pipeline.commit env (w.ctx s tx shared) = r →
      Step sessionId w (.commit i env tx shared)
        ((w.leave i (some (stateOf r).session) (stateOf r).shared.storage).record sessionId
          env.versionId s.latestVersionId (stateOf r).session.knowledgeStructure (returned r))
  | rollback {w : Writers K ι} {i : ι} (env : Env K) (tx : Transaction K) (shared : Shared K)
      {s : Session K} {c : Ctx K} :
      w.copies i = some s → stateOf (Pipeline.rollback env (w.ctx s tx shared)) = c →
      Step sessionId w (.rollback i env tx shared) (w.leave i (some c.session) c.shared.storage)
  | abort {w : Writers K ι} {i : ι} (env : Env K) (tx : Transaction K) (shared : Shared K)
      {s : Session K} {c : Ctx K} :
      w.copies i = some s → stateOf (Pipeline.abort env (w.ctx s tx shared)) = c →
      Step sessionId w (.abort i env tx shared) (w.leave i (some c.session) c.shared.storage)
  /-- Whoever holds the closed session can still use it. -/
  | close {w : Writers K ι} {i : ι} (env : CallEnv K) (shared : Shared K) {s : Session K}
      {n : Node K} :
      w.copies i = some s →
      stateOf (Runtime.closeSession env sessionId (w.node sessionId (some s) shared)) = n →
      Step sessionId w (.close i env shared)
        (w.leave i (some { s with closed := true }) n.shared.storage)
  /-- Other sessions are written, by anyone. -/
  | elsewhere {w : Writers K ι} (storage : Storage K) :
      storage.sessions sessionId = w.storage.sessions sessionId →
      (∀ v ∈ storage.versions, v.sessionId = sessionId → v ∈ w.storage.versions) →
      Step sessionId w (.elsewhere storage) { w with storage := storage }

/-- Every run starts from a store without the session. -/
def system (K : Core) (ι : Type) [DecidableEq ι] (sessionId : String) :
    System (Writers K ι) (Write K ι) where
  init w := ∃ storage : Storage K, storage.sessions sessionId = none ∧
    (∀ v ∈ storage.versions, v.sessionId ≠ sessionId) ∧ w = { storage := storage }
  step := Step sessionId

/-! ## What the store promises -/

/-- The accepted commits are one line of versions, each built on the one before, and the stored head
is the last: no two are built on one version, and no save has moved the head back. -/
structure Serial (w : Writers K ι) (sessionId : String) : Prop where
  chain : w.accepted.IsChain fun e e' => e'.base = some e.versionId
  versionIds : (w.accepted.map (·.versionId)).Nodup
  bases : (w.accepted.map (·.base)).Nodup
  head : ∀ e ∈ w.accepted.getLast?, w.head sessionId = some e.versionId

/-- The stored content is the last accepted commit's. -/
def ContentCurrent (w : Writers K ι) (sessionId : String) : Prop :=
  ∀ e ∈ w.accepted.getLast?, ∃ row, w.storage.sessions sessionId = some row ∧
    row.knowledgeStructure = e.content

/-! ## Unconditional saves -/

/-- What the call saves without an expected version: a created session; the content a transaction
began with, when it is rolled back, by a call or by a commit one of whose operations fails; the
copy as it is, when it is aborted or closed. -/
def unconditional (w : Writers K ι) : Write K ι → Option (Session K)
  | .create _ env ks _ => some (SessionManager.newSession env.sessionId env.nodeId ks)
  | .rollback i _ tx _ => (w.copies i).map ({ · with knowledgeStructure := tx.initialState })
  | .abort i _ _ _ | .close i _ _ => w.copies i
  | .commit i env tx shared => (w.copies i).bind fun s =>
    if returned (Pipeline.executeStage env (w.ctx s tx shared)) then none
    else some { s with knowledgeStructure := tx.initialState }
  | _ => none

/-- Whoever saves unconditionally has observed the stored head, and whoever commits without having
observed a version finds none stored. -/
def ObservesHead (sessionId : String) (w : Writers K ι) (l : Write K ι) : Prop :=
  (∀ s ∈ w.unconditional l, ∀ row ∈ w.storage.sessions sessionId,
    s.latestVersionId = row.latestVersionId) ∧
  ∀ i env tx shared, l = .commit i env tx shared → ∀ s ∈ w.copies i, s.versionHistory = [] →
    ∀ row ∈ w.storage.sessions sessionId, row.latestVersionId = none

/-- Whoever saves unconditionally saves the stored content. -/
def SavesStored (sessionId : String) (w : Writers K ι) (l : Write K ι) : Prop :=
  ∀ s ∈ w.unconditional l, ∀ row ∈ w.storage.sessions sessionId,
    s.knowledgeStructure = row.knowledgeStructure

end Writers

end CksRuntime
