import CksRuntime.Lib.Transition
import CksRuntime.Pipeline.Pipeline

/-!
# The sessions of a Runtime and their transactions

The transition system of `begin_transaction`, `commit_transaction`, `rollback_transaction` and
`abort_transaction` over any sessions and any transactions begun on them, in any order, completed
transactions included; the calls may raise at any point. `late` records where each call on a
completed transaction was made and where it left.
-/

set_option autoImplicit false

namespace CksRuntime

open Transition Effect

variable {K : Core} {ι : Type} [DecidableEq ι]

/-- The calls that end a transaction. -/
inductive Finish
  | commit
  | rollback
  | abort
  deriving DecidableEq, Repr

/-- Where the call leaves `c`, whether it returns or raises. -/
def Finish.run (env : Env K) (c : Ctx K) : Finish → Ctx K
  | .commit => stateOf (Pipeline.commit env c)
  | .rollback => stateOf (Pipeline.rollback env c)
  | .abort => stateOf (Pipeline.abort env c)

/-- A transaction and the session it was begun on. -/
structure Filed (K : Core) (ι : Type) where
  session : ι
  tx : Transaction K

/-- The sessions, with all that was ever begun on them. -/
structure Ledger (K : Core) (ι : Type) where
  sessions : ι → Session K
  shared : Shared K
  txs : String → Option (Filed K ι) := fun _ => none
  late : List (Ctx K × Ctx K) := []

/-- A call on one of them. -/
inductive LedgerCall (K : Core) (ι : Type)
  | begin (session : ι) (transactionId : String)
  | add (transactionId : String) (operations : List (Operation K))
      (requests : List (DispatchRequest K))
  | finish (transactionId : String) (f : Finish) (env : Env K)
  /-- Another process writes to the store. -/
  | elsewhere (storage : Storage K)

namespace Ledger

/-- What a call on a transaction reads. -/
def ctx (w : Ledger K ι) (r : Filed K ι) : Ctx K := ⟨w.sessions r.session, r.tx, w.shared⟩

/-- The ledger after a call on the transaction filed as `r` that has left `c`. -/
def leave (w : Ledger K ι) (transactionId : String) (r : Filed K ι) (c : Ctx K) : Ledger K ι where
  sessions := Function.update w.sessions r.session c.session
  shared := c.shared
  txs := Function.update w.txs transactionId (some { r with tx := c.transaction })
  late := if r.tx.completed then w.late ++ [(w.ctx r, c)] else w.late

/-- What a call leaves. -/
inductive Step : Ledger K ι → LedgerCall K ι → Ledger K ι → Prop
  | begin {w : Ledger K ι} {i : ι} {transactionId : String} {tx : Transaction K} {s : Session K} :
      w.txs transactionId = none →
      TransactionManager.begin transactionId (w.sessions i) = .ok (tx, s) →
      Step w (.begin i transactionId)
        { w with
          sessions := Function.update w.sessions i s
          shared := { w.shared with transactions := w.shared.transactions ++ [transactionId] }
          txs := Function.update w.txs transactionId (some ⟨i, tx⟩) }
  | beginRefused {w : Ledger K ι} {i : ι} {transactionId : String} {e : Err K.Obj} :
      TransactionManager.begin transactionId (w.sessions i) = .error e →
      Step w (.begin i transactionId) w
  | add {w : Ledger K ι} {transactionId : String} {r : Filed K ι}
      (operations : List (Operation K)) (requests : List (DispatchRequest K)) :
      w.txs transactionId = some r →
      Step w (.add transactionId operations requests)
        { w with txs := Function.update w.txs transactionId (some { r with tx := { r.tx with
          operations := r.tx.operations ++ operations
          requests := r.tx.requests ++ requests } }) }
  | finish {w : Ledger K ι} {transactionId : String} {r : Filed K ι} (f : Finish) (env : Env K) :
      w.txs transactionId = some r →
      Step w (.finish transactionId f env) (w.leave transactionId r (f.run env (w.ctx r)))
  | elsewhere {w : Ledger K ι} (storage : Storage K) :
      Step w (.elsewhere storage) { w with shared := { w.shared with storage := storage } }

/-- Every run starts from sessions without a transaction. -/
def system (K : Core) (ι : Type) [DecidableEq ι] : System (Ledger K ι) (LedgerCall K ι) where
  init w := (∀ i, (w.sessions i).activeTransaction = none) ∧ w.txs = (fun _ => none) ∧ w.late = []
  step := Step

/-- `transactionId` is a transaction of session `i` that has no outcome yet. -/
def Active (w : Ledger K ι) (i : ι) (transactionId : String) : Prop :=
  ∃ r, w.txs transactionId = some r ∧ r.session = i ∧ r.tx.completed = false

end Ledger

/-- The call that took `c` to `c'` has left the session and what is stored of it alone, and the
transaction it has attached. -/
structure Inert (c c' : Ctx K) : Prop where
  knowledgeStructure : c'.session.knowledgeStructure = c.session.knowledgeStructure
  metadata : c'.session.metadata = c.session.metadata
  versionHistory : c'.session.versionHistory = c.session.versionHistory
  activeTransaction : c'.session.activeTransaction = c.session.activeTransaction
  row : c'.shared.storage.sessions c.session.sessionId =
    c.shared.storage.sessions c.session.sessionId
  versions : c'.shared.storage.versions = c.shared.storage.versions

/-- A session has at most one transaction without an outcome, and a transaction with one is
inert. -/
structure Ledger.SingleOutcome (w : Ledger K ι) : Prop where
  active : ∀ i t t', w.Active i t → w.Active i t' → t = t'
  late : ∀ p ∈ w.late, Inert p.1 p.2

end CksRuntime
