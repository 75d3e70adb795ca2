import CksRuntime.Session.Session

/-!
# The SQLite store

`storage/sqlite_storage.py`: the `sessions` and `versions` tables and the operation log. A session
row carries the head the compare-and-swap tests; `load_session` takes the version history from the
`versions` table, not from the row. `cks.serialize` and the patch codec are read back unchanged, and
metadata as JSON gives them back (`Session.toRow`).
-/

set_option autoImplicit false

namespace CksRuntime

variable {K : Core}

/-- A row of `sessions`: the serialized session and its `latest_version_id` column. -/
structure SessionRow (K : Core) where
  knowledgeStructure : K.Structure
  metadata : Metadata
  snapshotInterval : Nat
  interval_pos : 0 < snapshotInterval
  versionHistoryIds : List String
  parentSessionId : Option String
  parentVersionId : Option String
  closed : Bool
  latestVersionId : Option String

/-- A row of `cks_operation_log`. -/
structure LoggedOperation (K : Core) where
  sessionId : String
  operation : FieldOperation K.Value

/-- The tables the pipeline writes. -/
structure Storage (K : Core) where
  sessions : String → Option (SessionRow K) := fun _ => none
  /-- In insertion order. -/
  versions : List (Version K) := []
  /-- In `op_id` order. -/
  operationLog : List (LoggedOperation K) := []
  supportsOperationLog : Bool := true

/-- The row `save_session` writes. -/
def Session.toRow (s : Session K) : SessionRow K where
  knowledgeStructure := s.knowledgeStructure
  metadata := s.metadata.reload
  snapshotInterval := s.snapshotInterval
  interval_pos := s.interval_pos
  versionHistoryIds := s.versionHistory.map (·.versionId)
  parentSessionId := s.parentSessionId
  parentVersionId := s.parentVersionId
  closed := s.closed
  latestVersionId := s.latestVersionId

/-- What is raised by a value that `json.dumps` does not take. -/
def undumped : Err K.Obj := .typeError "not JSON serializable"

namespace Storage

/-- The row of a session. -/
def putSession (st : Storage K) (sessionId : String) (row : SessionRow K) : Storage K :=
  { st with sessions := Function.update st.sessions sessionId (some row) }

/-- `save_session`, once `json.dumps` has returned. Without an expected version the write is
unconditional; with one, it is rejected when the stored head is another. A row that does not exist
is inserted either way. -/
def saveSession (st : Storage K) (s : Session K) (expectedVersionId : Option String) :
    Except (Err K.Obj) (Storage K) :=
  match expectedVersionId with
  | none => .ok (st.putSession s.sessionId s.toRow)
  | some expected =>
    match st.sessions s.sessionId with
    | none => .ok (st.putSession s.sessionId s.toRow)
    | some row =>
      if row.latestVersionId = some expected then .ok (st.putSession s.sessionId s.toRow)
      else .error (.concurrentModification s.sessionId)

/-- `save_session`: nothing is written where `json.dumps` raises on the metadata. -/
def dumpSession (st : Storage K) (s : Session K) (expectedVersionId : Option String) :
    Except (Err K.Obj) (Storage K) :=
  if s.metadata.Dumped then st.saveSession s expectedVersionId else .error undumped

/-- `save_version`: a strict `INSERT`. -/
def saveVersion (st : Storage K) (v : Version K) : Except (Err K.Obj) (Storage K) :=
  if st.versions.any (·.versionId == v.versionId) then
    .error (.other "UNIQUE constraint failed: versions.version_id")
  else .ok { st with versions := st.versions ++ [v] }

/-- `record_operations`: each operation is stored under its version. -/
def recordOperations (st : Storage K) (sessionId versionId : String)
    (operations : List (FieldOperation K.Value)) : Storage K :=
  { st with operationLog := st.operationLog ++
      operations.map fun op => ⟨sessionId, { op with versionId := some versionId }⟩ }

/-- `list_operations(session_id, object_id=…)`, oldest first. -/
def listOperations (st : Storage K) (sessionId objectId : String) : List (FieldOperation K.Value) :=
  (st.operationLog.filter fun l => l.sessionId == sessionId && l.operation.objectId == objectId).map
    (·.operation)

/-- `load_session`: the row's fields, and every stored version of the session, oldest first. -/
def loadSession (st : Storage K) (sessionId : String) : Option (Session K) :=
  (st.sessions sessionId).map fun row =>
    { knowledgeStructure := row.knowledgeStructure
      sessionId := sessionId
      metadata := row.metadata
      snapshotInterval := row.snapshotInterval
      interval_pos := row.interval_pos
      versionHistory := (st.versions.filter (·.sessionId == sessionId)).mergeSort
        fun a b => decide (a.createdAt ≤ b.createdAt)
      closed := row.closed
      parentSessionId := row.parentSessionId
      parentVersionId := row.parentVersionId }

end Storage

end CksRuntime
