import CksRuntime.Gossip.ObjectMerge
import CksRuntime.Lib.Transition

/-!
# Forks, their reports and their resolution

A round of the pointer loop of `_merge_crdt_objects` makes three calls of the store:
`update_pointer`, `get_pointers` when that was applied, and `escalate_fork` when there is more than
one. Between them others make theirs: the merges of other sessions, and whoever polls
`list_pending_forks`, settles a fork with `resolve_pointer` and takes the report off the list with
`mark_fork_resolved`. A merge can be cut off between two of its calls.
-/

set_option autoImplicit false

namespace CksRuntime.Crdt

open Transition

/-! ## Conflict events -/

/-- Whether a fork has been arbitrated. -/
inductive ForkStatus
  | pending | resolved
  deriving DecidableEq, Repr

/-- A row of `cks_conflict_events`, without its time. -/
structure ForkRow where
  eventId : String
  event : ConflictEvent
  status : ForkStatus := .pending

namespace ForkRow

/-- `escalate_fork`: one more row. -/
def escalateFork (rows : List ForkRow) (eventId : String) (event : ConflictEvent) : List ForkRow :=
  rows ++ [⟨eventId, event, .pending⟩]

/-- `list_pending_forks`. -/
def listPendingForks (rows : List ForkRow) : List ForkRow :=
  rows.filter (·.status = .pending)

/-- `mark_fork_resolved`. -/
def markForkResolved (rows : List ForkRow) (eventId : String) : List ForkRow :=
  rows.map fun row => if row.eventId = eventId then { row with status := .resolved } else row

end ForkRow

/-- What a fork of the key is reported as. -/
def forkEvent (pointerKey : Text) (pointers : List Pointer) : ConflictEvent :=
  ⟨pointerKey, pointers.map (·.objectId), pointers.map (·.vectorClock)⟩

/-! ## The calls of merges and of whoever resolves -/

/-- How far a merge is with a key: its write has been applied, or it has read a fork. -/
inductive ForkCheck
  | applied
  | found (pointers : List Pointer)
  deriving DecidableEq

/-- The store, the key that each merge is at, and the events whose key has been resolved since they
were recorded. -/
structure Forks (ι : Type) where
  register : MVRegister := .empty
  rows : List ForkRow := []
  merges : ι → Option (Text × ForkCheck) := fun _ => none
  arbitrated : List String := []

/-- A statement of some merge, or an arbiter's call. -/
inductive ForkCall (ι : Type)
  | update (i : ι) (pointerKey : Text) (new : Pointer)
  | read (i : ι)
  | escalate (i : ι) (eventId : String)
  | stop (i : ι)
  | resolve (pointerKey winner : Text)
  | mark (eventId : String)

namespace Forks

variable {ι : Type} [DecidableEq ι]

/-- A merge has come to `check`. -/
def setMerge (w : Forks ι) (i : ι) (check : Option (Text × ForkCheck)) : Forks ι :=
  { w with merges := Function.update w.merges i check }

/-- The events recorded for the key. -/
def eventsOf (w : Forks ι) (pointerKey : Text) : List String :=
  (w.rows.filter (·.event.pointerKey = pointerKey)).map (·.eventId)

variable (backend : Backend)

/-- What `update_pointer` leaves. -/
def updated (w : Forks ι) (i : ι) (pointerKey : Text) (new : Pointer) : Forks ι :=
  let (added, register) := updatePointer backend w.register pointerKey new
  { w with register := register }.setMerge i (if added then some (pointerKey, .applied) else none)

/-- What `get_pointers` leaves: a single pointer is no fork. -/
def checked (w : Forks ι) (i : ι) (pointerKey : Text) : Forks ι :=
  let pointers := getPointers backend w.register pointerKey
  w.setMerge i (if pointers.length ≤ 1 then none else some (pointerKey, .found pointers))

/-- An arbiter has resolved the fork of a key. -/
def resolvedPointer (w : Forks ι) (pointerKey winner : Text) : Forks ι :=
  let (done, register) := resolvePointer w.register pointerKey winner
  { w with
    register := register
    arbitrated := if done then w.arbitrated ++ w.eventsOf pointerKey else w.arbitrated }

/-- The statements of the merges and the arbiter's calls, interleaved in any order. -/
inductive Step : Forks ι → ForkCall ι → Forks ι → Prop
  | update {w : Forks ι} {i : ι} (pointerKey : Text) (new : Pointer) :
      w.merges i = none → Step w (.update i pointerKey new) (w.updated backend i pointerKey new)
  | read {w : Forks ι} {i : ι} {pointerKey : Text} :
      w.merges i = some (pointerKey, .applied) → Step w (.read i) (w.checked backend i pointerKey)
  | escalate {w : Forks ι} {i : ι} {pointerKey : Text} {pointers : List Pointer}
      {eventId : String} :
      w.merges i = some (pointerKey, .found pointers) →
      -- an event id is drawn fresh
      eventId ∉ w.rows.map (·.eventId) →
      Step w (.escalate i eventId) ({ w with
        rows := ForkRow.escalateFork w.rows eventId (forkEvent pointerKey pointers)
        }.setMerge i none)
  /-- The merge raises or its process ends. -/
  | stop (w : Forks ι) (i : ι) : Step w (.stop i) (w.setMerge i none)
  | resolve (w : Forks ι) (pointerKey winner : Text) :
      Step w (.resolve pointerKey winner) (w.resolvedPointer pointerKey winner)
  | mark (w : Forks ι) (eventId : String) :
      Step w (.mark eventId) { w with rows := ForkRow.markForkResolved w.rows eventId }

/-- Nothing is stored before the first call. -/
def system (ι : Type) [DecidableEq ι] : System (Forks ι) (ForkCall ι) where
  init w := w = {}
  step := Step backend

/-- A report is taken off the list only once its fork has been resolved, and no merge is cut off
while it is at the key. -/
def Careful (pointerKey : Text) (w : Forks ι) : ForkCall ι → Prop
  | .mark eventId => eventId ∈ w.arbitrated
  | .stop i => ∀ check, w.merges i ≠ some (pointerKey, check)
  | _ => True

/-- The key has more than one pointer. -/
def Forked (w : Forks ι) (pointerKey : Text) : Prop :=
  1 < (getPointers backend w.register pointerKey).length

instance (w : Forks ι) (pointerKey : Text) : Decidable (w.Forked backend pointerKey) :=
  inferInstanceAs (Decidable (1 < _))

/-- Exactly the key's present pointers are on the list of pending forks. -/
def Listed (w : Forks ι) (pointerKey : Text) : Prop :=
  ∃ row ∈ ForkRow.listPendingForks w.rows,
    row.event = forkEvent pointerKey (getPointers backend w.register pointerKey)

end Forks

end CksRuntime.Crdt
