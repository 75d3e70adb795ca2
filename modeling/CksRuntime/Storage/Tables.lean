import CksRuntime.Lib.Effect
import CksRuntime.Storage.Memory
import CksRuntime.Storage.Outbox

/-!
# A connection to SQLite, and the import

The tables `import_storage` of `storage/sqlite_storage.py` writes, and the connection it writes them
through: a first write opens a transaction, which stays open until the connection commits or rolls
back. An entry of the dump is given by what reading it gives: the row to insert, or an exception.
-/

set_option autoImplicit false

namespace CksRuntime

open Effect (putAll)

variable {K : Core}

/-- The JSON object of a session. -/
structure SessionData (K : Core) where
  sessionId : String
  knowledgeStructure : K.Structure
  metadata : Metadata
  snapshotInterval : Nat
  interval_pos : 0 < snapshotInterval
  versionHistoryIds : List String
  parentSessionId : Option String
  parentVersionId : Option String
  closed : Bool

/-- A JSON object, or one that has it in a `data` field beside the columns of its row, as the
Postgres dump has. -/
inductive DataCell (κ α : Type)
  | flat (data : α)
  | wrapped (columns : κ) (data : α)

/-- The columns beside a session's data. -/
structure SessionColumns where
  sessionId : String
  latestVersionId : Option String
  modifiedAt : Nat

/-- The columns beside a version's data. -/
structure VersionColumns where
  versionId : String
  sessionId : String

/-- A row of `sessions`, by its key. -/
structure SessionCells (K : Core) where
  data : DataCell SessionColumns (SessionData K)
  latestVersionId : Option String
  modifiedAt : Nat

/-- A row of `versions`, by its key. -/
structure VersionCells (K : Core) where
  sessionId : String
  data : DataCell VersionColumns (Version K)

/-- A row of `cks_object_embeddings`, by its key. -/
structure EmbeddingCells where
  embedding : List UInt8
  updatedAt : String

/-- The tables of SQLite, by their keys. -/
structure Tables (K : Core) where
  sessions : Table String (SessionCells K) := ∅
  versions : Table String (VersionCells K) := ∅
  graphs : SQLiteStorage.Registry := ∅
  embeddings : Table (String × String) EmbeddingCells := ∅
  outbox : Outbox := {}

/-- `INSERT INTO cks_outbox_tasks`: under the next `task_id`. -/
def Outbox.insertTask (o : Outbox) (row : OutboxRow) : Outbox where
  rows := Function.update o.rows (o.lastId + 1) (some row)
  lastId := o.lastId + 1

/-! ## The import -/

/-- What reading the entries of a dump gives. -/
structure DumpReads (K : Core) where
  sessions : List (Except (Err K.Obj) (String × SessionCells K)) := []
  versions : List (Except (Err K.Obj) (String × VersionCells K)) := []
  graphs : List (Except (Err K.Obj) (String × GraphRow)) := []
  embeddings : List (Except (Err K.Obj) ((String × String) × EmbeddingCells)) := []
  outboxTasks : List (Except (Err K.Obj) OutboxRow) := []

namespace Tables

/-- The five `DELETE`s; the ids given to tasks are not given again. -/
def clear (t : Tables K) : Tables K where
  outbox := { t.outbox with rows := fun _ => none }

/-- `INSERT OR IGNORE`, and for a task `INSERT`. -/
def insertSession (t : Tables K) (row : String × SessionCells K) : Tables K :=
  { t with sessions := t.sessions.insertNew row.1 row.2 }

/-- `INSERT OR IGNORE`. -/
def insertVersion (t : Tables K) (row : String × VersionCells K) : Tables K :=
  { t with versions := t.versions.insertNew row.1 row.2 }

/-- `INSERT OR IGNORE`. -/
def insertGraph (t : Tables K) (row : String × GraphRow) : Tables K :=
  { t with graphs := t.graphs.insertNew row.1 row.2 }

/-- `INSERT OR IGNORE`. -/
def insertEmbedding (t : Tables K) (row : (String × String) × EmbeddingCells) : Tables K :=
  { t with embeddings := t.embeddings.insertNew row.1 row.2 }

/-- `INSERT`, with the next id. -/
def insertTask (t : Tables K) (row : OutboxRow) : Tables K :=
  { t with outbox := t.outbox.insertTask row }

end Tables

/-- `import_storage`, up to its commit; every mode but `clear` merges. -/
def importStorage (clear : Bool) (d : DumpReads K) :
    EStateM (Err K.Obj) (Tables K) Unit := do
  modify fun t => if clear then t.clear else t
  putAll Tables.insertSession d.sessions
  putAll Tables.insertVersion d.versions
  putAll Tables.insertGraph d.graphs
  putAll Tables.insertEmbedding d.embeddings
  putAll Tables.insertTask d.outboxTasks

/-! ## The connection -/

/-- What is committed, and what the connection sees. -/
structure Connection (K : Core) where
  durable : Tables K
  working : Tables K

namespace Connection

/-- No transaction is open. -/
def idle (t : Tables K) : Connection K := ⟨t, t⟩

/-- What was written is durable. -/
def commit (c : Connection K) : Connection K := ⟨c.working, c.working⟩

/-- What was written since the last commit is gone. -/
def rollback (c : Connection K) : Connection K := ⟨c.durable, c.durable⟩

/-- The import: when it raises, the transaction stays open. -/
def importStorage (c : Connection K) (clear : Bool) (d : DumpReads K) :
    Except (Err K.Obj) Unit × Connection K :=
  match CksRuntime.importStorage clear d c.working with
  | .ok _ t => (.ok ⟨⟩, commit { c with working := t })
  | .error e t => (.error e, { c with working := t })

end Connection

/-! ## Other writes -/

/-- The object `save_session` writes, as JSON reads it. -/
def Session.toData (s : Session K) : SessionData K where
  sessionId := s.sessionId
  knowledgeStructure := s.knowledgeStructure
  metadata := s.metadata.reload
  snapshotInterval := s.snapshotInterval
  interval_pos := s.interval_pos
  versionHistoryIds := s.versionHistory.map (·.versionId)
  parentSessionId := s.parentSessionId
  parentVersionId := s.parentVersionId
  closed := s.closed

/-- The object `save_version` writes, as JSON reads it: of a snapshot, without its patch. -/
def Version.toData (v : Version K) : Version K :=
  { v with
    metadata := v.metadata.reload
    patch := if v.knowledgeStructure.isSome then none else v.patch }

namespace Tables

/-- The row of a session. -/
def putSession (t : Tables K) (now : Nat) (s : Session K) : Tables K :=
  { t with sessions := t.sessions.set s.sessionId ⟨.flat s.toData, s.latestVersionId, now⟩ }

/-- The row of a version. -/
def putVersion (t : Tables K) (v : Version K) : Tables K :=
  { t with versions := t.versions.insert v.versionId ⟨v.sessionId, .flat v.toData⟩ }

end Tables

/-- A call that writes, by itself. -/
inductive TableWrite (K : Core)
  | saveSession (now : Nat) (s : Session K) (expectedVersionId : Option String)
  | saveVersion (v : Version K)
  | registerGraph (now : Nat) (a : GraphArgs)
  | unregisterGraph (name : String)
  | enqueueTask (datetime : Nat → Text) (now : Nat) (taskType sessionId payload : String)

namespace Connection

/-- `save_session`, once `json.dumps` has returned. -/
def writeSession (c : Connection K) (now : Nat) (s : Session K)
    (expectedVersionId : Option String) : Except (Err K.Obj) Unit × Connection K :=
  let put (c : Connection K) : Connection K := { c with working := c.working.putSession now s }
  match expectedVersionId with
  | none => (.ok ⟨⟩, (put c).commit)
  | some expected =>
    match c.working.sessions.lookup s.sessionId with
    | some cells =>
      if cells.latestVersionId = some expected then (.ok ⟨⟩, (put c).commit)
      else (.error (.concurrentModification s.sessionId), c.rollback)
    | none =>
      -- the row is inserted after the rollback, which may have brought one back
      if s.sessionId ∈ c.durable.sessions then
        (.error (.other "UNIQUE constraint failed: sessions.session_id"), c.rollback)
      else (.ok ⟨⟩, (put c.rollback).commit)

/-- `save_session`. -/
def saveSession (c : Connection K) (now : Nat) (s : Session K)
    (expectedVersionId : Option String) : Except (Err K.Obj) Unit × Connection K :=
  if s.metadata.Dumped then c.writeSession now s expectedVersionId else (.error undumped, c)

/-- `save_version`. -/
def saveVersion (c : Connection K) (v : Version K) : Except (Err K.Obj) Unit × Connection K :=
  if ¬v.metadata.Dumped then (.error undumped, c)
  else if v.versionId ∈ c.working.versions then
    (.error (.other "UNIQUE constraint failed: versions.version_id"), c)
  else (.ok ⟨⟩, commit { c with working := c.working.putVersion v })

/-- A write whose statement cannot fail. -/
def update (c : Connection K) (f : Tables K → Tables K) :
    Except (Err K.Obj) Unit × Connection K :=
  (.ok ⟨⟩, commit { c with working := f c.working })

/-- What a call answers and leaves. -/
def write (c : Connection K) : TableWrite K → Except (Err K.Obj) Unit × Connection K
  | .saveSession now s expected => c.saveSession now s expected
  | .saveVersion v => c.saveVersion v
  | .registerGraph now a =>
    c.update fun t => { t with graphs := SQLiteStorage.registerGraph t.graphs now a }
  | .unregisterGraph name =>
    c.update fun t => { t with graphs := (SQLiteStorage.unregisterGraph t.graphs name).1 }
  | .enqueueTask datetime now taskType sessionId payload => c.update fun t =>
    { t with outbox := t.outbox.enqueueTask datetime now taskType sessionId payload }

end Connection

end CksRuntime
