import CksRuntime.Storage.Dump

/-!
# Merging a dump

`import_storage` of `storage/sqlite_storage.py` with `mode="merge"`, of the whole of a dump: besides
sessions, versions and graphs it has the embeddings and the outbox tasks that wait to be worked off.
-/

set_option autoImplicit false

namespace CksRuntime

variable {K : Core}

/-- A task as a dump has it; those in progress or dead are not in one. -/
structure DumpedTask where
  taskType : String
  sessionId : String
  payload : String
  retryCount : Int
  nextRetryAt : Text
  createdAt : Nat

/-- What SQLite exports. -/
structure FullDump (K : Core) extends Dump K where
  embeddings : List ((String × String) × EmbeddingCells) := []
  outboxTasks : List DumpedTask := []

/-- The tasks that `export_storage` selects. -/
def Outbox.dumped (o : Outbox) : List DumpedTask :=
  (List.range (o.lastId + 1)).filterMap fun taskId =>
    ((o.rows taskId).filter (·.status = .pending)).map fun r =>
      ⟨r.taskType, r.sessionId, r.payload, r.retryCount, r.nextRetryAt, r.createdAt⟩

/-- The row that is inserted for a task, as a new one. -/
def DumpedTask.row (task : DumpedTask) (now : Nat) : OutboxRow where
  taskType := task.taskType
  sessionId := task.sessionId
  payload := task.payload
  nextRetryAt := task.nextRetryAt
  createdAt := now

/-- Its entries, as they are read one after the other. -/
def FullDump.reads (d : FullDump K) (now : Nat) : DumpReads K :=
  { d.toDump.reads now with
    embeddings := d.embeddings.map .ok
    outboxTasks := d.outboxTasks.map fun task => .ok (task.row now) }

namespace Tables

/-- `export_storage`, of every table. -/
def fullExport (t : Tables K) : FullDump K :=
  { t.exportStorage with
    embeddings := t.embeddings.rows
    outboxTasks := t.outbox.dumped }

/-- The tables as the connection reads them after the import, whether it raised or not. -/
def merged (t : Tables K) (d : DumpReads K) : Tables K :=
  ((Connection.idle t).importStorage false d).2.working

/-- Every session that was stored loads as it did. -/
def LeavesSessions (t : Tables K) (d : DumpReads K) : Prop :=
  ∀ id ∈ t.sessions, (t.merged d).loadSession id = t.loadSession id

end Tables

end CksRuntime
