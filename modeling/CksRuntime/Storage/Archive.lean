import CksRuntime.Storage.Dump

/-!
# The archive

`archive_session` of `storage/sqlite_storage.py` and `storage/postgres_storage.py`: the row of a
session is copied to `archive_sessions` and deleted, and so are its embeddings. Where the archive
has a row of that id already, SQLite replaces it, and Postgres only sets when it was archived. The
`connect` of the Postgres storage takes back the table it makes for the archive
(`PostgresCatalog.createTables`), so there the archival raises unless the table was there before.
-/

set_option autoImplicit false

namespace CksRuntime

variable {K : Core}

/-- A row of `archive_sessions`, by its key. -/
structure ArchivedCells (α : Type) where
  data : α
  latestVersionId : Option String
  modifiedAt : Nat
  archivedAt : Nat

/-! ## SQLite -/

/-- The tables, with `archive_sessions`. -/
structure ArchivingTables (K : Core) extends Tables K where
  archive : Table String (ArchivedCells (DataCell SessionColumns (SessionData K))) := ∅

/-- The two `DELETE`s; the versions stay. -/
def Tables.deleteSession (t : Tables K) (sessionId : String) : Tables K :=
  { t with
    embeddings := t.embeddings.filter fun k => k.2 != sessionId
    sessions := t.sessions.erase sessionId }

namespace ArchivingTables

/-- `archive_session`: the row is copied, then deleted. -/
def archiveSession (t : ArchivingTables K) (now : Nat) (sessionId : String) : ArchivingTables K :=
  { t.toTables.deleteSession sessionId with
    archive :=
      match t.sessions.lookup sessionId with
      | none => t.archive
      | some cells =>
        t.archive.insert sessionId ⟨cells.data, cells.latestVersionId, cells.modifiedAt, now⟩ }

end ArchivingTables

/-! ## Postgres -/

/-- How a statement fails. -/
inductive PostgresError
  | undefinedColumn
  | duplicateColumn
  | undefinedTable
deriving DecidableEq

/-- What a database has of the tables `archive_session` needs. -/
structure PostgresCatalog where
  /-- Whether `sessions` has the column `modified_at`, where there is such a table. -/
  sessionsModifiedAt : Option Bool := none
  archiveSessions : Bool := false

namespace PostgresCatalog

/-- `CREATE INDEX IF NOT EXISTS idx_sessions_modified_at`. -/
def indexModifiedAt (c : PostgresCatalog) : Except PostgresError PostgresCatalog :=
  if c.sessionsModifiedAt = some true then .ok c else .error .undefinedColumn

/-- `ALTER TABLE sessions ADD COLUMN modified_at`. -/
def addModifiedAt (c : PostgresCatalog) : Except PostgresError PostgresCatalog :=
  if c.sessionsModifiedAt = some true then .error .duplicateColumn
  else .ok { c with sessionsModifiedAt := c.sessionsModifiedAt.map fun _ => true }

/-- `_create_tables`, of the tables `archive_session` needs. -/
def createTables (c : PostgresCatalog) : Except PostgresError PostgresCatalog := do
  let committed := { c with sessionsModifiedAt := c.sessionsModifiedAt.or (some true) }
  let created ← indexModifiedAt { committed with archiveSessions := true }
  match addModifiedAt created with
  | .ok altered => pure altered
  -- `conn.rollback()` also takes back `CREATE TABLE archive_sessions`.
  | .error _ => pure committed

end PostgresCatalog

/-- The tables `archive_session` writes. -/
structure PostgresArchive (K : Core) where
  sessions : Table String (PostgresRow SessionColumns (SessionData K)) := ∅
  embeddings : Table (String × String) String := ∅
  /-- `archive_sessions`, where the database has that table. -/
  archive : Option (Table String (ArchivedCells (SessionData K)))

namespace PostgresArchive

/-- The tables of a database that nothing was written to yet. -/
def empty (c : PostgresCatalog) : PostgresArchive K where
  archive := if c.archiveSessions then some ∅ else none

/-- `archive_session`, which needs its table. -/
def archiveSession (p : PostgresArchive K) (now : Nat) (sessionId : String) :
    Except PostgresError (PostgresArchive K) :=
  match p.archive with
  | none => .error .undefinedTable
  | some archive => .ok {
      sessions := p.sessions.erase sessionId
      embeddings := p.embeddings.filter fun k => k.2 != sessionId
      archive := some <|
        match p.sessions.lookup sessionId with
        | none => archive
        | some row =>
          match archive.lookup sessionId with
          | none => archive.insert sessionId
              ⟨row.data, row.columns.latestVersionId, row.columns.modifiedAt, now⟩
          | some archived => archive.replace sessionId { archived with archivedAt := now } }

/-- `save_session`. -/
def saveSession (p : PostgresArchive K) (now : Nat) (s : Session K)
    (expectedVersionId : Option String) : PostgresArchive K :=
  match ({ sessions := p.sessions } : PostgresStorage K).saveSession now s expectedVersionId with
  | .ok q => { p with sessions := q.sessions }
  | .error _ => p

end PostgresArchive

/-! ## Either backend -/

/-- A store of either kind. -/
inductive ArchiveStore (K : Core)
  | sqlite (t : ArchivingTables K)
  | postgres (p : PostgresArchive K)

/-- A call on it. -/
inductive ArchiveCall (K : Core)
  | saveSession (now : Nat) (s : Session K) (expectedVersionId : Option String)
  | archiveSession (now : Nat) (sessionId : String)

/-- The structure, metadata and version ids of a row of `sessions` or of `archive_sessions`. -/
structure SessionImage (K : Core) where
  knowledgeStructure : K.Structure
  metadata : Metadata
  versionHistoryIds : List String
  latestVersionId : Option String

/-- What is compared of a session. -/
def SessionData.image (d : SessionData K) (latestVersionId : Option String) : SessionImage K :=
  ⟨d.knowledgeStructure, d.metadata, d.versionHistoryIds, latestVersionId⟩

namespace ArchiveStore

/-- What a call leaves, also where it raises. -/
def call : ArchiveStore K → ArchiveCall K → ArchiveStore K
  | .sqlite t, .saveSession now s expected =>
    .sqlite { t.toTables.call (.saveSession now s expected) with archive := t.archive }
  | .sqlite t, .archiveSession now id => .sqlite (t.archiveSession now id)
  | .postgres p, .saveSession now s expected => .postgres (p.saveSession now s expected)
  | .postgres p, .archiveSession now id =>
    .postgres (match p.archiveSession now id with | .ok q => q | .error _ => p)

/-- The session in `sessions`. -/
def live (id : String) : ArchiveStore K → Option (SessionImage K)
  | .sqlite t => (t.sessions.lookup id).map fun c => c.data.data.image c.latestVersionId
  | .postgres p => (p.sessions.lookup id).map fun r => r.data.image r.columns.latestVersionId

/-- The session in `archive_sessions`. -/
def archived (id : String) : ArchiveStore K → Option (SessionImage K)
  | .sqlite t => (t.archive.lookup id).map fun c => c.data.data.image c.latestVersionId
  | .postgres p =>
    (p.archive.bind (·.lookup id)).map fun c => c.data.image c.latestVersionId

/-- After the call the archived row carries what the live row had. -/
def LosesNothing (s : ArchiveStore K) : ArchiveCall K → Prop
  | .saveSession _ _ _ => True
  | .archiveSession now id => ∀ image, s.live id = some image →
      (s.call (.archiveSession now id)).archived id = some image

/-- In Postgres there is no live row of the id, or there is an archive that has no row of the id,
or one that says what the live row says. -/
def Archivable (s : ArchiveStore K) : ArchiveCall K → Prop
  | .saveSession _ _ _ => True
  | .archiveSession _ id =>
    match s with
    | .sqlite _ => True
    | .postgres p => ∀ image, s.live id = some image →
        p.archive.isSome ∧ ∀ old, s.archived id = some old → old = image

end ArchiveStore

end CksRuntime
