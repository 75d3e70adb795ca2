import CksRuntime.Crdt.MerkleTree
import CksRuntime.Lib.Lease
import CksRuntime.Lib.Transition
import Mathlib.Data.String.Basic

/-!
# The outbox

The table `cks_outbox_tasks` of `storage/sqlite_storage.py`. A row is known by its `task_id`, which
is never given twice (`AUTOINCREMENT`). Time is in whole seconds, and `datetime` is how SQLite
writes one: what it wrote itself is compared as times, a `next_retry_at` as the text the caller
gave.

`OutboxWorld` is one table with its callers. Besides the table it carries what happened to each task
and what came of the calls of workers whose task had gone to another.
-/

set_option autoImplicit false

namespace CksRuntime

open Lease Transition

/-- `status`. -/
inductive TaskStatus
  | pending
  | inProgress
  | dead
deriving DecidableEq

/-- A row of the outbox. -/
structure OutboxRow where
  taskType : String
  sessionId : String
  payload : String
  status : TaskStatus := .pending
  retryCount : Int := 0
  nextRetryAt : Text
  lastError : Option String := none
  claimedAt : Option Nat := none
  createdAt : Nat
deriving DecidableEq

/-- A task as it is handed out. -/
structure OutboxTask where
  taskId : Nat
  taskType : String
  sessionId : String
  payload : String
  retryCount : Int

/-- In seconds. -/
def OUTBOX_LEASE_TIMEOUT : Nat := 300

namespace OutboxRow

/-- The task of a row. -/
def toTask (r : OutboxRow) (taskId : Nat) : OutboxTask :=
  ⟨taskId, r.taskType, r.sessionId, r.payload, r.retryCount⟩

/-- Whether a row may be handed out. -/
def eligible (datetime : Nat → Text) (now : Nat) (taskType : Option String) (r : OutboxRow) :
    Bool :=
  taskType.all (r.taskType = ·) ∧
    (r.status = .pending ∧ r.nextRetryAt ≤ datetime now ∨
      r.status = .inProgress ∧ r.claimedAt.any (· + OUTBOX_LEASE_TIMEOUT ≤ now))

/-- The row is handed out. -/
def claimed (r : OutboxRow) (now : Nat) : OutboxRow :=
  { r with status := .inProgress, claimedAt := some now }

/-- Its lease is renewed. -/
def touched (r : OutboxRow) (now : Nat) : OutboxRow := { r with claimedAt := some now }

/-- It waits for its next try. -/
def failed (r : OutboxRow) (retryCount : Int) (error : String) (nextRetryAt : Text) : OutboxRow :=
  { r with
    status := .pending
    retryCount := retryCount
    nextRetryAt := nextRetryAt
    lastError := some error
    claimedAt := none }

/-- It is tried no more. -/
def deadLettered (r : OutboxRow) (error : String) : OutboxRow :=
  { r with status := .dead, lastError := some error, claimedAt := none }

/-- It is tried again from the start. -/
def retried (r : OutboxRow) (nextRetryAt : Text) : OutboxRow :=
  { r with
    status := .pending
    retryCount := 0
    nextRetryAt := nextRetryAt
    lastError := none
    claimedAt := none }

end OutboxRow

/-- The table; ids are never given twice. -/
structure Outbox where
  rows : Nat → Option OutboxRow := fun _ => none
  /-- The last `task_id` given. -/
  lastId : Nat := 0

namespace Outbox

/-- The `task_id` was given to some task. -/
def Given (o : Outbox) (taskId : Nat) : Prop := 0 < taskId ∧ taskId ≤ o.lastId

/-- An `UPDATE` of one task, and whether it found a row. -/
def update (o : Outbox) (taskId : Nat) (which : OutboxRow → Bool) (f : OutboxRow → OutboxRow) :
    Bool × Outbox :=
  match o.rows taskId with
  | some r =>
    if which r then (true, { o with rows := Function.update o.rows taskId (some (f r)) })
    else (false, o)
  | none => (false, o)

/-- `enqueue_task`. -/
def enqueueTask (o : Outbox) (datetime : Nat → Text) (now : Nat)
    (taskType sessionId payload : String) : Outbox where
  rows := Function.update o.rows (o.lastId + 1) (some {
    taskType := taskType
    sessionId := sessionId
    payload := payload
    nextRetryAt := datetime now
    createdAt := now })
  lastId := o.lastId + 1

/-- A task the claiming `UPDATE` may take: which one of those created in one second is open. -/
def IsNext (o : Outbox) (datetime : Nat → Text) (now : Nat) (taskType : Option String)
    (taskId : Nat) : Prop :=
  ∃ r ∈ o.rows taskId, r.eligible datetime now taskType ∧
    ∀ taskId', ∀ r' ∈ o.rows taskId', r'.eligible datetime now taskType →
      r.createdAt ≤ r'.createdAt

/-- `dequeue_next_outbox_task`, of the task it is to take. -/
def dequeueNextOutboxTask (o : Outbox) (now : Nat) (taskId : Option Nat) :
    Option OutboxTask × Outbox :=
  match taskId with
  | none => (none, o)
  | some taskId =>
    ((o.rows taskId).map (·.toTask taskId), (o.update taskId (fun _ => true) (·.claimed now)).2)

/-- `complete_outbox_task`. -/
def completeOutboxTask (o : Outbox) (taskId : Nat) : Outbox :=
  { o with rows := Function.update o.rows taskId none }

/-- `fail_outbox_task`, whatever the row's status. -/
def failOutboxTask (o : Outbox) (taskId : Nat) (retryCount : Int) (error : String)
    (nextRetryAt : Text) : Outbox :=
  (o.update taskId (fun _ => true) (·.failed retryCount error nextRetryAt)).2

/-- `dead_letter_outbox_task`, whatever the row's status. -/
def deadLetterOutboxTask (o : Outbox) (taskId : Nat) (error : String) : Outbox :=
  (o.update taskId (fun _ => true) (·.deadLettered error)).2

/-- `retry_dead_letter_task`, of a dead row. -/
def retryDeadLetterTask (o : Outbox) (datetime : Nat → Text) (now : Nat) (taskId : Nat) :
    Bool × Outbox :=
  o.update taskId (·.status = .dead) (·.retried (datetime now))

/-- `touch_outbox_task`, of a row in progress. -/
def touchOutboxTask (o : Outbox) (now : Nat) (taskId : Nat) : Bool × Outbox :=
  o.update taskId (·.status = .inProgress) (·.touched now)

/-- The `WHERE` of `list_tasks_by_type`. -/
def listed (taskType : String) (sessionId : Option String) (r : OutboxRow) : Bool :=
  r.taskType = taskType ∧ r.status = .pending ∧ sessionId.all (r.sessionId = ·)

/-- `list_tasks_by_type`: the tasks in the order they were created. -/
def listTasksByType (o : Outbox) (taskType : String) (sessionId : Option String)
    (drain : Bool := true) : List OutboxTask × Outbox :=
  let rows := (List.range (o.lastId + 1)).filterMap fun taskId =>
    ((o.rows taskId).filter (listed taskType sessionId)).map fun r => (taskId, r)
  let sorted := rows.mergeSort fun x y => decide (x.2.createdAt ≤ y.2.createdAt)
  (sorted.map fun x => x.2.toTask x.1,
    if drain then
      { o with rows := fun taskId => (o.rows taskId).filter fun r => ¬listed taskType sessionId r }
    else o)

end Outbox

/-! ## Workers -/

/-- What a worker does about a task it was handed. -/
inductive HolderCall
  | touch
  | complete
  | fail (retryCount : Int) (error : String) (nextRetryAt : Text)
  | deadLetter (error : String)

namespace HolderCall

/-- The reply, where the call has one, and the table after it. -/
def run (now taskId : Nat) (o : Outbox) : HolderCall → Option Bool × Outbox
  | .touch => ((o.touchOutboxTask now taskId).1, (o.touchOutboxTask now taskId).2)
  | .complete => (none, o.completeOutboxTask taskId)
  | .fail retryCount error nextRetryAt =>
    (none, o.failOutboxTask taskId retryCount error nextRetryAt)
  | .deadLetter error => (none, o.deadLetterOutboxTask taskId error)

/-- What the call does to a task that is there. -/
def event (r : OutboxRow) : HolderCall → Option Event
  | .touch => if r.status = .inProgress then some .touch else none
  | .complete => some .finish
  | .fail _ _ _ => some .fail
  | .deadLetter _ => some .kill

end HolderCall

/-- A call by a worker whose task had gone to another. -/
structure StaleCall where
  call : HolderCall
  before : Option OutboxRow
  after : Option OutboxRow
  reply : Option Bool

namespace StaleCall

end StaleCall

/-- The outbox over time, with what has happened to each task. -/
structure OutboxWorld (ω : Type) where
  outbox : Outbox := {}
  now : Nat := 0
  history : Nat → History := fun _ => []
  /-- The last worker a task was handed to. -/
  holder : Nat → Option ω := fun _ => none
  /-- The workers whose lease on a task ran out and whose task went to another since. -/
  overtaken : List (ω × Nat) := []
  staleCalls : List StaleCall := []

/-- A call of a worker, or of others. -/
inductive OutboxLabel (ω : Type)
  | enqueue (taskType sessionId payload : String)
  | dequeue (worker : ω) (taskType : Option String) (taskId : Option Nat)
  | call (worker : ω) (taskId : Nat) (call : HolderCall)
  | retryDeadLetter (taskId : Nat)
  | drain (taskType : String) (sessionId : Option String)
  | advance (seconds : Nat)

namespace OutboxWorld

variable {ω : Type} [DecidableEq ω]

/-- An event of a task is recorded. -/
def record (w : OutboxWorld ω) (taskId : Nat) (e : Option Event) : Nat → History :=
  Function.update w.history taskId (w.history taskId ++ e.toList.map (·, w.now))

/-- Who had the task is overtaken. -/
def overtake (w : OutboxWorld ω) (worker : ω) (taskId : Nat) : List (ω × Nat) :=
  let others := w.overtaken.filter (· ≠ (worker, taskId))
  match w.outbox.rows taskId, w.holder taskId with
  | some r, some other =>
    if r.status = .inProgress ∧ other ≠ worker then others ++ [(other, taskId)] else others
  | _, _ => others

/-- `dequeue_next_outbox_task` has handed out the task. -/
def dequeue (w : OutboxWorld ω) (worker : ω) (taskId : Nat) : OutboxWorld ω :=
  { w with
    outbox := (w.outbox.dequeueNextOutboxTask w.now taskId).2
    history := w.record taskId (some .handOut)
    holder := Function.update w.holder taskId (some worker)
    overtaken := w.overtake worker taskId }

/-- A worker's call on a task. -/
def call (w : OutboxWorld ω) (worker : ω) (taskId : Nat) (c : HolderCall) : OutboxWorld ω :=
  let result := c.run w.now taskId w.outbox
  { w with
    outbox := result.2
    history := w.record taskId ((w.outbox.rows taskId).bind c.event)
    staleCalls :=
      if (worker, taskId) ∈ w.overtaken then
        w.staleCalls ++ [⟨c, w.outbox.rows taskId, result.2.rows taskId, result.1⟩]
      else w.staleCalls }

/-- `retry_dead_letter_task`. -/
def retryDeadLetter (w : OutboxWorld ω) (datetime : Nat → Text) (taskId : Nat) : OutboxWorld ω :=
  let result := w.outbox.retryDeadLetterTask datetime w.now taskId
  { w with
    outbox := result.2
    history := w.record taskId (if result.1 then some .revive else none) }

/-- `list_tasks_by_type`, which deletes what it returns. -/
def drain (w : OutboxWorld ω) (taskType : String) (sessionId : Option String) : OutboxWorld ω :=
  { w with
    outbox := (w.outbox.listTasksByType taskType sessionId).2
    history := fun taskId =>
      if (w.outbox.rows taskId).any (Outbox.listed taskType sessionId) then
        w.history taskId ++ [(.drain, w.now)]
      else w.history taskId }

/-- `enqueue_task`. -/
def enqueue (w : OutboxWorld ω) (datetime : Nat → Text) (taskType sessionId payload : String) :
    OutboxWorld ω :=
  { w with
    outbox := w.outbox.enqueueTask datetime w.now taskType sessionId payload
    history := w.record (w.outbox.lastId + 1) (some .create) }

/-- What each call needs, and what it leaves. -/
inductive Step (datetime : Nat → Text) : OutboxWorld ω → OutboxLabel ω → OutboxWorld ω → Prop
  | enqueue (w : OutboxWorld ω) (taskType sessionId payload : String) :
      Step datetime w (.enqueue taskType sessionId payload)
        (w.enqueue datetime taskType sessionId payload)
  | dequeue (w : OutboxWorld ω) (worker : ω) (taskType : Option String) (taskId : Nat) :
      w.outbox.IsNext datetime w.now taskType taskId →
      Step datetime w (.dequeue worker taskType (some taskId)) (w.dequeue worker taskId)
  | dequeueNone (w : OutboxWorld ω) (worker : ω) (taskType : Option String) :
      (∀ taskId, ∀ r ∈ w.outbox.rows taskId, ¬r.eligible datetime w.now taskType) →
      Step datetime w (.dequeue worker taskType none) w
  | call (w : OutboxWorld ω) (worker : ω) (taskId : Nat) (c : HolderCall) :
      Step datetime w (.call worker taskId c) (w.call worker taskId c)
  | retryDeadLetter (w : OutboxWorld ω) (taskId : Nat) :
      Step datetime w (.retryDeadLetter taskId) (w.retryDeadLetter datetime taskId)
  | drain (w : OutboxWorld ω) (taskType : String) (sessionId : Option String) :
      Step datetime w (.drain taskType sessionId) (w.drain taskType sessionId)
  | advance (w : OutboxWorld ω) (seconds : Nat) :
      Step datetime w (.advance seconds) { w with now := w.now + seconds }

/-- From an empty table, at any time. -/
def system (ω : Type) [DecidableEq ω] (datetime : Nat → Text) :
    System (OutboxWorld ω) (OutboxLabel ω) where
  init w := w = { now := w.now }
  step := Step datetime

/-- The step fails no task that is dead-lettered. -/
def SparesDead (w : OutboxWorld ω) (l : OutboxLabel ω) : Prop :=
  ∀ worker taskId retryCount error nextRetryAt,
    l = .call worker taskId (.fail retryCount error nextRetryAt) →
      ∀ r ∈ w.outbox.rows taskId, r.status ≠ .dead

end OutboxWorld

end CksRuntime
