import CksRuntime.Crdt.Register
import CksRuntime.Lib.ReadCommitted
import CksRuntime.Lib.Transition

/-!
# The register in PostgreSQL

Concurrent `PostgresCRDTStore.update_pointer` transactions on one key, statement by statement: the
SELECT that locks nothing and on which the deletes are decided, the DELETE of each stale id, the
INSERT that overwrites on conflict, and the commit. A DELETE sees the row as committed when it
begins, waits for an uncommitted writer of it, and then deletes the row it saw, updated or not; a
row that was inserted anew in the meantime it does not see. A transaction that is aborted is retried
from the SELECT.
-/

set_option autoImplicit false

namespace CksRuntime.Crdt

open ReadCommitted Transition

/-- A row of the key. An update keeps its `rowId`, an insert draws a new one. -/
structure PgRow where
  pointer : Pointer
  rowId : Nat

/-- Where a transaction is. -/
inductive TxPhase
  | start
  /-- The ids still to delete. -/
  | deleting (pending : List Text)
  /-- In the DELETE of an id, which sees this row. -/
  | waiting (objectId : Text) (seen : Option Nat) (pending : List Text)
  | inserted
  | refused
  | committed

/-- Whether the transaction has gone on from its SELECT and is not over. -/
def TxPhase.Decided : TxPhase → Prop
  | .deleting _ | .waiting _ _ _ | .inserted => True
  | .start | .refused | .committed => False

/-- Whether it will still delete the row: its DELETE is to begin, or waits with the row in sight. -/
def TxPhase.WillDelete (x : Text) (row : PgRow) : TxPhase → Prop
  | .deleting pending => x ∈ pending
  | .waiting objectId seen pending => x ∈ pending ∨ x = objectId ∧ seen = some row.rowId
  | .start | .inserted | .refused | .committed => False

/-- The key's rows, and the transactions on it. -/
structure PgRegister where
  db : DB Nat Text PgRow
  phase : Nat → TxPhase := fun _ => .start
  nextRowId : Nat := 0

/-- A statement of the transaction of one `update_pointer`. -/
inductive PgStatement
  | select (t : Nat) (existing : List Pointer)
  | beginDelete (t : Nat)
  | endDelete (t : Nat)
  | insert (t : Nat)
  | commit (t : Nat)
  | abort (t : Nat)

namespace PgRegister

/-- The pointers committed, in the order the query finds them. -/
def Lists (s : PgRegister) (existing : List Pointer) : Prop :=
  ∀ p, p ∈ existing ↔ ∃ row, s.db.rows p.objectId = some row ∧ row.pointer = p

/-- A transaction has come to `phase`. -/
def setPhase (s : PgRegister) (t : Nat) (phase : TxPhase) : PgRegister :=
  { s with phase := Function.update s.phase t phase }

/-- The row an INSERT of `new` leaves: on conflict, the one there is with the new clock and origin,
and else a new one. -/
def insertedRow (s : PgRegister) (t : Nat) (new : Pointer) : PgRow :=
  match s.db.view t new.objectId with
  | some old => ⟨Backend.overwrite .sqlite old.pointer new, old.rowId⟩
  | none => ⟨new, s.nextRowId⟩

variable (new : Nat → Pointer)

/-- The statements of the transactions, the `t`-th of which writes the pointer `new t`. -/
inductive Step : PgRegister → PgStatement → PgRegister → Prop
  | select {s : PgRegister} {t : Nat} {existing : List Pointer} {ids : List Text} :
      s.phase t = .start → s.Lists existing → toDelete (new t) existing = some ids →
      Step s (.select t existing) (s.setPhase t (.deleting ids))
  | refuse {s : PgRegister} {t : Nat} {existing : List Pointer} :
      s.phase t = .start → s.Lists existing → toDelete (new t) existing = none →
      Step s (.select t existing) (s.setPhase t .refused)
  | beginDelete {s : PgRegister} {t : Nat} {objectId : Text} {pending : List Text} :
      s.phase t = .deleting (objectId :: pending) →
      Step s (.beginDelete t)
        (s.setPhase t (.waiting objectId ((s.db.rows objectId).map (·.rowId)) pending))
  | delete {s : PgRegister} {t : Nat} {objectId : Text} {seen : Option Nat}
      {pending : List Text} {row : PgRow} :
      s.phase t = .waiting objectId seen pending → s.db.Free t objectId →
      s.db.rows objectId = some row → seen = some row.rowId →
      Step s (.endDelete t)
        ({ s with db := s.db.write t objectId none }.setPhase t (.deleting pending))
  | deleteNone {s : PgRegister} {t : Nat} {objectId : Text} {seen : Option Nat}
      {pending : List Text} :
      s.phase t = .waiting objectId seen pending → s.db.Free t objectId →
      (∀ row, s.db.rows objectId = some row → seen ≠ some row.rowId) →
      Step s (.endDelete t) (s.setPhase t (.deleting pending))
  | insert {s : PgRegister} {t : Nat} :
      s.phase t = .deleting [] → s.db.Free t (new t).objectId →
      Step s (.insert t)
        ({ s with
            db := s.db.write t (new t).objectId (some (s.insertedRow t (new t)))
            nextRowId := s.nextRowId + 1 }.setPhase t .inserted)
  | commit {s : PgRegister} {t : Nat} :
      s.phase t = .inserted →
      Step s (.commit t) ({ s with db := s.db.commit t }.setPhase t .committed)
  | abort {s : PgRegister} {t : Nat} :
      s.phase t ≠ .refused → s.phase t ≠ .committed →
      Step s (.abort t) ({ s with db := s.db.abort t }.setPhase t .start)

/-- No stored pointer is dominated by another. -/
def Undominated (rows : Text → Option PgRow) : Prop :=
  ∀ x y p q, rows x = some p → rows y = some q → x ≠ y →
    causalityCheck p.pointer.vectorClock q.pointer.vectorClock ≠ .dominated

/-- Any number of transactions on the rows of a key that calls one after the other may leave. -/
def system : System PgRegister PgStatement where
  init s := Undominated s.db.rows ∧ (∀ t, s.phase t = .start) ∧
    (∀ x row, s.db.rows x = some row → row.pointer.objectId = x ∧ row.rowId < s.nextRowId) ∧
    ∀ t x, s.db.changes t x = none
  step := Step new

/-- Neither clock dominates the other. -/
def Incomparable (p q : Pointer) : Prop :=
  causalityCheck p.vectorClock q.vectorClock ≠ .dominated ∧
    causalityCheck q.vectorClock p.vectorClock ≠ .dominated

instance (p q : Pointer) : Decidable (Incomparable p q) := inferInstanceAs (Decidable (_ ∧ _))

/-- A commit meets no transaction that has decided on another id without it: such a one has a clock
that is not comparable with the committed one, or is still to delete the row. -/
def CommitsApart (s : PgRegister) : PgStatement → Prop
  | .commit t => ∀ t' ≠ t, (s.phase t').Decided → (new t').objectId ≠ (new t).objectId →
      Incomparable (new t) (new t') ∨ ∀ row, s.db.view t (new t).objectId = some row →
        (s.phase t').WillDelete (new t).objectId row
  | _ => True

end PgRegister

end CksRuntime.Crdt
