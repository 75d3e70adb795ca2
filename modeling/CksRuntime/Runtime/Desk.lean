import CksRuntime.Lib.Transition
import CksRuntime.Pipeline.Proof.Rollback
import CksRuntime.Pipeline.Proof.Validity
import CksRuntime.Runtime.Runtime

/-!
# One session and its transactions

The transition system of a session under `begin_transaction`, `add_operation`, `commit_transaction`,
`rollback_transaction` and `abort_transaction`, in any order and on any of the transactions begun
on it, while other sessions and other Runtimes change what they share (`elsewhere`). A transaction
is rolled back or aborted by a call at most once, and only if no commit of it has succeeded.
-/

set_option autoImplicit false

namespace CksRuntime

open Transition

variable {K : Core}

/-- How a commit ends here. -/
inductive Outcome
  | succeeded
  /-- An operation failed, and the pipeline has rolled back. -/
  | failed
  /-- The stored head is not the expected one. -/
  | rejected
  deriving DecidableEq

/-- A commit of `c` ends in `c'`. -/
def CommitEnds (env : Env K) (c : Ctx K) : Outcome → Ctx K → Prop
  | .succeeded, c' => ∃ v, Pipeline.commit env c = .ok v c'
  | .failed, c' => ∃ done x e, FailsAt env c done x e c' ∧ x.escapes env.registry = none
  | .rejected, c' => ∃ c₁ v e, Pipeline.executeStage env c = .ok () c₁ ∧
      Pipeline.buildVersion env (c₁.session.bumped env.replicaId) c.session.knowledgeStructure =
        .ok v ∧
      ¬c₁.shared.storage.Accepts c₁.session.sessionId c.session.latestVersionId ∧
      Pipeline.commitStage env c.session.knowledgeStructure c.session.latestVersionId c₁ =
        .error e c'

/-- A transaction, how long the history was when it was begun, and whether it has committed and
been given up. -/
structure TxRecord (K : Core) where
  tx : Transaction K
  began : Nat
  succeeded : Bool := false
  closed : Bool := false

/-- A session, its transactions, and every version a commit has returned with the content the
session had right after it. -/
structure Desk (K : Core) where
  session : Session K
  shared : Shared K
  txs : String → Option (TxRecord K) := fun _ => none
  committed : List (String × K.Structure) := []

/-- A call on the session. -/
inductive Call (K : Core)
  | begin (transactionId : String)
  | add (transactionId : String) (operations : List (Operation K))
      (requests : List (DispatchRequest K))
  | commit (transactionId : String) (env : Env K) (outcome : Outcome)
  | rollback (transactionId : String) (env : Env K)
  | abort (transactionId : String) (env : Env K)
  | elsewhere (shared : Shared K)

namespace Desk

/-- What a call on a transaction reads. -/
def ctx (w : Desk K) (r : TxRecord K) : Ctx K := ⟨w.session, r.tx, w.shared⟩

/-- The desk after a call on transaction `transactionId` that has left `c` and `r`. -/
def leave (w : Desk K) (transactionId : String) (r : TxRecord K) (c : Ctx K) : Desk K :=
  { w with
    session := c.session
    shared := c.shared
    txs := Function.update w.txs transactionId (some { r with tx := c.transaction }) }

/-- What a call leaves, whether it returns or raises. -/
inductive Step : Desk K → Call K → Desk K → Prop
  | begin {w : Desk K} {transactionId : String} {tx : Transaction K} {s : Session K} :
      w.txs transactionId = none →
      TransactionManager.begin transactionId w.session = .ok (tx, s) →
      Step w (.begin transactionId)
        { w with
          session := s
          txs := Function.update w.txs transactionId
            (some { tx := tx, began := w.session.versionHistory.length }) }
  | add {w : Desk K} {transactionId : String} {r : TxRecord K} (operations : List (Operation K))
      (requests : List (DispatchRequest K)) :
      w.txs transactionId = some r →
      Step w (.add transactionId operations requests)
        { w with txs := Function.update w.txs transactionId (some { r with tx := { r.tx with
          operations := r.tx.operations ++ operations
          requests := r.tx.requests ++ requests } }) }
  | commit {w : Desk K} {transactionId : String} {r : TxRecord K} {env : Env K} {o : Outcome}
      {c : Ctx K} :
      w.txs transactionId = some r →
      -- a version id is drawn fresh
      (∀ v ∈ w.session.versionHistory, v.versionId ≠ env.versionId) →
      CommitEnds env (w.ctx r) o c →
      Step w (.commit transactionId env o)
        { w.leave transactionId { r with succeeded := r.succeeded || decide (o = .succeeded) } c with
          committed := if o = .succeeded then
            w.committed ++ [(env.versionId, c.session.knowledgeStructure)] else w.committed }
  | rollback {w : Desk K} {transactionId : String} {r : TxRecord K} (env : Env K) :
      w.txs transactionId = some r → r.succeeded = false → r.closed = false →
      Step w (.rollback transactionId env)
        (w.leave transactionId { r with closed := true }
          (Effect.stateOf (Pipeline.rollback env (w.ctx r))))
  | abort {w : Desk K} {transactionId : String} {r : TxRecord K} (env : Env K) :
      w.txs transactionId = some r → r.succeeded = false → r.closed = false →
      Step w (.abort transactionId env)
        (w.leave transactionId { r with closed := true }
          (Effect.stateOf (Pipeline.abort env (w.ctx r))))
  | elsewhere {w : Desk K} (shared : Shared K) : Step w (.elsewhere shared) { w with shared := shared }

/-- Every run starts from a session just created. -/
def system (K : Core) : System (Desk K) (Call K) where
  init w := ∃ s shared, s.versionHistory = [] ∧ s.activeTransaction = none ∧
    w = { session := s, shared := shared }
  step := Step

/-- Each transaction is finished once: calls are on the active one, and a commit of it either
succeeds or fails in an operation, which finishes it. -/
def FinishesOnce (w : Desk K) : Call K → Prop
  | .commit transactionId _ o => w.session.activeTransaction = some transactionId ∧ o ≠ .rejected
  | .rollback transactionId _ | .abort transactionId _ =>
    w.session.activeTransaction = some transactionId
  | _ => True

/-- A rollback, by call or by a failing operation, is of a transaction since whose begin no version
has been appended. -/
def RollsBackCurrent (w : Desk K) : Call K → Prop
  | .commit transactionId _ .failed | .rollback transactionId _ =>
    ∀ r ∈ w.txs transactionId, r.began = w.session.versionHistory.length
  | _ => True

/-- Where a commit records a patch, from the content before it to what its transaction writes last,
the replay filter leaves that patch unchanged on the content before it. -/
def PatchReplays (w : Desk K) : Call K → Prop
  | .commit _ _ .failed => True
  | .commit transactionId env _ => Pipeline.RecordsPatch w.session →
      ∀ r ∈ w.txs transactionId, K.Replays w.session.knowledgeStructure ((w.ctx r).written env)
  | _ => True

end Desk

/-- The session's content is what its last version reconstructs to, so `create_branch` without a
version id records a fork point whose state is what the branch starts from. -/
def ForkPointExact (s : Session K) : Prop :=
  s.activeTransaction = none →
    (∀ v ∈ s.versionHistory.getLast?, s.getVersionState v.versionId = .ok s.knowledgeStructure) ∧
    ∀ ks forkVersionId, Runtime.forkPoint s none = .ok (ks, some forkVersionId) →
      s.getVersionState forkVersionId = .ok ks

end CksRuntime
