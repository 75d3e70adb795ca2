import CksRuntime.Storage.Tables

/-!
# Dumps

`export_storage` and `import_storage` of the three backends, of sessions, versions and graphs. The
in-memory store and SQLite write a session or a version as text, the JSON object itself; Postgres
writes an object that has it in a `data` field beside the other columns of the row. The importers
of the first two take text or object for the object itself; Postgres reads columns and `data`.
-/

set_option autoImplicit false

namespace CksRuntime

open Effect (putAll)

variable {K : Core}

/-- What is left of a stored object when its envelope is dropped. -/
def DataCell.data {κ α : Type} : DataCell κ α → α
  | .flat data | .wrapped _ data => data

/-- An entry of a dump: SQLite has the text of its JSON, the others the value. -/
inductive DumpEntry (κ α : Type)
  | text (json : DataCell κ α)
  | object (json : DataCell κ α)

/-- `json.loads(raw) if isinstance(raw, str) else raw`. -/
def DumpEntry.json {κ α : Type} : DumpEntry κ α → DataCell κ α
  | .text json | .object json => json

/-- What is exported of the tables that every backend has. -/
structure Dump (K : Core) where
  sessions : List (DumpEntry SessionColumns (SessionData K))
  versions : List (DumpEntry VersionColumns (Version K))
  graphs : List (Graph Nat)

/-- The session a stored object describes, with the history given. -/
def SessionData.toSession (d : SessionData K) (versionHistory : List (Version K)) : Session K where
  knowledgeStructure := d.knowledgeStructure
  sessionId := d.sessionId
  metadata := d.metadata
  snapshotInterval := d.snapshotInterval
  interval_pos := d.interval_pos
  versionHistory := versionHistory
  closed := d.closed
  parentSessionId := d.parentSessionId
  parentVersionId := d.parentVersionId

/-- `ORDER BY created_at`. -/
def oldestFirst (versions : List (Version K)) : List (Version K) :=
  versions.mergeSort fun a b => decide (a.createdAt ≤ b.createdAt)

/-- The graph row both SQL backends insert. -/
def Graph.importedRow (g : Graph Nat) (createdAt : Nat) : GraphRow :=
  let resolvedVisibility := orDefault (some g.visibility) (if g.isPublic then "public" else "private")
  { name := g.name
    sessionId := g.sessionId
    description := g.description
    tags := g.tags
    createdAt := createdAt
    updatedAt := g.updatedAt
    isPublic := g.isPublic
    sourceGraphName := g.sourceGraphName
    visibility := resolvedVisibility
    team := g.team
    lifecycleState := some (orDefault (some g.lifecycleState) (defaultLifecycle resolvedVisibility)) }

/-! ## In memory -/

namespace InMemoryStorage

/-- `json.dumps` takes the metadata of every stored session and version. -/
def Dumped (m : InMemoryStorage K) : Prop :=
  (∀ r ∈ m.sessions.rows, r.2.metadata.Dumped) ∧ ∀ r ∈ m.versions.rows, r.2.metadata.Dumped

instance (m : InMemoryStorage K) : Decidable m.Dumped := inferInstanceAs (Decidable (_ ∧ _))

/-- The text is given as what `json.loads` makes of it. -/
def exportStorage (m : InMemoryStorage K) : Except (Err K.Obj) (Dump K) :=
  if m.Dumped then .ok {
    sessions := m.sessions.rows.map fun r => .text (.flat r.2.toData)
    versions := m.versions.rows.map fun r => .text (.flat r.2.toData)
    graphs := m.graphs.rows.map (·.2) }
  else .error undumped

/-- A session is read without its version history. -/
def readSession (entry : DumpEntry SessionColumns (SessionData K)) :
    Except (Err K.Obj) (String × Session K) :=
  match entry.json with
  | .flat d => .ok (d.sessionId, d.toSession [])
  | .wrapped _ _ => .error (.keyError "knowledge_structure")

/-- A version as it is imported. -/
def readVersion (entry : DumpEntry VersionColumns (Version K)) :
    Except (Err K.Obj) (String × Version K) :=
  match entry.json with
  | .flat v => .ok (v.versionId, v)
  | .wrapped _ _ => .error (.keyError "created_at")

/-- The session replaces the one with its id. -/
def putSession (m : InMemoryStorage K) (r : String × Session K) : InMemoryStorage K :=
  { m with sessions := m.sessions.set r.1 r.2 }

/-- The version replaces the one with its id. -/
def putVersion (m : InMemoryStorage K) (r : String × Version K) : InMemoryStorage K :=
  { m with versions := m.versions.set r.1 r.2 }

/-- The graph replaces the one with its name. -/
def putGraph (m : InMemoryStorage K) (g : Graph Nat) : InMemoryStorage K :=
  { m with graphs := m.graphs.set g.name g }

/-- `import_storage` in mode `clear`. -/
def importStorage (d : Dump K) : EStateM (Err K.Obj) (InMemoryStorage K) Unit := do
  modify fun _ => {}
  putAll putSession (d.sessions.map readSession)
  putAll putVersion (d.versions.map readVersion)
  putAll putGraph (d.graphs.map .ok)

end InMemoryStorage

/-! ## SQLite -/

namespace Tables

/-- `export_storage`. -/
def exportStorage (t : Tables K) : Dump K where
  sessions := t.sessions.rows.map fun r => .text r.2.data
  versions := t.versions.rows.map fun r => .text r.2.data
  graphs := t.graphs.rows.map fun r => r.2.toGraph id

/-- The text is stored as it is; of an object that wraps another only the columns are found. -/
def readSession (now : Nat) (entry : DumpEntry SessionColumns (SessionData K)) :
    Except (Err K.Obj) (String × SessionCells K) :=
  match entry.json with
  | .flat d => .ok (d.sessionId, ⟨.flat d, d.versionHistoryIds.getLast?, now⟩)
  | .wrapped columns d => .ok (columns.sessionId, ⟨.wrapped columns d, none, now⟩)

/-- A version as it is imported. -/
def readVersion (entry : DumpEntry VersionColumns (Version K)) :
    Except (Err K.Obj) (String × VersionCells K) :=
  match entry.json with
  | .flat v => .ok (v.versionId, ⟨v.sessionId, .flat v⟩)
  | .wrapped columns v => .ok (columns.versionId, ⟨columns.sessionId, .wrapped columns v⟩)

/-- A graph as it is imported. -/
def readGraph (g : Graph Nat) : Except (Err K.Obj) (String × GraphRow) :=
  .ok (g.name, g.importedRow g.createdAt)

/-- `import_storage` in mode `clear`. -/
def importDump (now : Nat) (d : Dump K) : EStateM (Err K.Obj) (Tables K) Unit :=
  importStorage true {
    sessions := d.sessions.map (readSession now)
    versions := d.versions.map readVersion
    graphs := d.graphs.map readGraph }

/-- What `load_session` and `load_version` find in an object that wraps another. -/
def parse {κ α : Type} : DataCell κ α → Except (Err K.Obj) α
  | .flat data => .ok data
  | .wrapped _ _ => .error (.keyError "knowledge_structure")

/-- `load_session`. -/
def loadSession (t : Tables K) (sessionId : String) : Except (Err K.Obj) (Option (Session K)) :=
  match t.sessions.lookup sessionId with
  | none => .ok none
  | some cells => do
    let data ← parse cells.data
    let rows := t.versions.rows.filter fun r => r.2.sessionId == sessionId
    let versions ← rows.mapM fun r => parse r.2.data
    pure (some (data.toSession (oldestFirst versions)))

/-- `load_version`. -/
def loadVersion (t : Tables K) (versionId : String) : Except (Err K.Obj) (Option (Version K)) :=
  match t.versions.lookup versionId with
  | none => .ok none
  | some cells => (parse cells.data).map some

/-- `load_session` can read the row and those of its versions: they were not imported from
Postgres. -/
structure Legible (t : Tables K) (r : String × SessionCells K) : Prop where
  session : r.2.data = .flat r.2.data.data
  versions : ∀ v ∈ t.versions.rows, v.2.sessionId = r.1 → v.2.data = .flat v.2.data.data

end Tables

/-- What `import_storage` of SQLite reads of a dump. -/
def Dump.reads (d : Dump K) (now : Nat) : DumpReads K where
  sessions := d.sessions.map (Tables.readSession now)
  versions := d.versions.map Tables.readVersion
  graphs := d.graphs.map Tables.readGraph

/-! ## Postgres -/

/-- A row with its columns and its JSONB. -/
structure PostgresRow (κ α : Type) where
  columns : κ
  data : α

/-- The tables of Postgres. -/
structure PostgresStorage (K : Core) where
  sessions : Table String (PostgresRow SessionColumns (SessionData K)) := ∅
  versions : Table String (PostgresRow VersionColumns (Version K)) := ∅
  graphs : SQLiteStorage.Registry := ∅
  /-- The column `embedding`, as the driver reads it: there is none before the first embedding. -/
  embeddings : Option (List String) := none

namespace PostgresStorage

/-- The row of a session. -/
def putSession (p : PostgresStorage K) (now : Nat) (s : Session K) : PostgresStorage K :=
  let row := ⟨⟨s.sessionId, s.latestVersionId, now⟩, s.toData⟩
  { p with sessions := p.sessions.set s.sessionId row }

/-- The row of a version. -/
def putVersion (p : PostgresStorage K) (v : Version K) : PostgresStorage K :=
  let row := ⟨⟨v.versionId, v.sessionId⟩, v.toData⟩
  { p with versions := p.versions.insert v.versionId row }

/-- `save_session`, once `Jsonb` has been written out. -/
def writeSession (p : PostgresStorage K) (now : Nat) (s : Session K)
    (expectedVersionId : Option String) : Except (Err K.Obj) (PostgresStorage K) :=
  match expectedVersionId with
  | none => .ok (p.putSession now s)
  | some expected =>
    match p.sessions.lookup s.sessionId with
    | none => .ok (p.putSession now s)
    | some row =>
      if row.columns.latestVersionId = some expected then .ok (p.putSession now s)
      else .error (.concurrentModification s.sessionId)

/-- `save_session`. -/
def saveSession (p : PostgresStorage K) (now : Nat) (s : Session K)
    (expectedVersionId : Option String) : Except (Err K.Obj) (PostgresStorage K) :=
  if s.metadata.Dumped then p.writeSession now s expectedVersionId else .error undumped

/-- `save_version`. -/
def saveVersion (p : PostgresStorage K) (v : Version K) :
    Except (Err K.Obj) (PostgresStorage K) :=
  if ¬v.metadata.Dumped then .error undumped
  else if v.versionId ∈ p.versions then
    .error (.other "duplicate key value violates unique constraint \"versions_pkey\"")
  else .ok (p.putVersion v)

/-- The export reads the column `embedding`; what it reads of it is text, which `b64encode` does not
take. -/
def exportStorage (p : PostgresStorage K) : Except (Err K.Obj) (Dump K) :=
  match p.embeddings with
  | none => .error (.other "column \"embedding\" does not exist")
  | some (_ :: _) => .error (.typeError "a bytes-like object is required, not 'str'")
  | some [] => .ok {
      sessions := p.sessions.rows.map fun r => .object (.wrapped r.2.columns r.2.data)
      versions := p.versions.rows.map fun r => .object (.wrapped r.2.columns r.2.data)
      graphs := p.graphs.rows.map fun r => r.2.toGraph id }

/-- `s["session_id"]` of a text raises, and `s["data"]` of an object that has none. -/
def readEntry {κ α : Type} (key : κ → String) :
    DumpEntry κ α → Except (Err K.Obj) (String × PostgresRow κ α)
  | .text _ => .error (.typeError "string indices must be integers, not 'str'")
  | .object (.flat _) => .error (.keyError "data")
  | .object (.wrapped columns data) => .ok (key columns, ⟨columns, data⟩)

/-- The upserts of the import. -/
def upsertSession (p : PostgresStorage K)
    (r : String × PostgresRow SessionColumns (SessionData K)) : PostgresStorage K :=
  { p with sessions := p.sessions.set r.1 r.2 }

/-- Of a version that exists only the JSONB is replaced. -/
def upsertVersion (p : PostgresStorage K)
    (r : String × PostgresRow VersionColumns (Version K)) : PostgresStorage K :=
  let columns := ((p.versions.lookup r.1).map (·.columns)).getD r.2.columns
  { p with versions := p.versions.set r.1 ⟨columns, r.2.data⟩ }

/-- A new row is created now, one that exists stays created when it was. -/
def upsertGraph (now : Nat) (p : PostgresStorage K) (g : Graph Nat) : PostgresStorage K :=
  let createdAt := ((p.graphs.lookup g.name).map (·.createdAt)).getD now
  { p with graphs := p.graphs.set g.name (g.importedRow createdAt) }

/-- `import_storage` in mode `clear`. -/
def importStorage (now : Nat) (d : Dump K) :
    EStateM (Err K.Obj) (PostgresStorage K) Unit := do
  modify fun p => { embeddings := p.embeddings.map fun _ => [] }
  putAll upsertSession (d.sessions.map (readEntry (·.sessionId)))
  putAll upsertVersion (d.versions.map (readEntry (·.versionId)))
  putAll (upsertGraph now) (d.graphs.map .ok)

/-- `load_session`. -/
def loadSession (p : PostgresStorage K) (sessionId : String) : Option (Session K) :=
  (p.sessions.lookup sessionId).map fun row =>
    let rows := p.versions.rows.filter fun r => r.2.columns.sessionId == sessionId
    row.data.toSession (oldestFirst (rows.map fun r => r.2.data))

/-- `load_version`. -/
def loadVersion (p : PostgresStorage K) (versionId : String) : Option (Version K) :=
  (p.versions.lookup versionId).map (·.data)

end PostgresStorage

/-! ## Any backend -/

/-- The backends there are. -/
inductive Backend
  | memory | sqlite | postgres
deriving DecidableEq

/-- A store of any of them. -/
inductive Store (K : Core)
  | memory (m : InMemoryStorage K)
  | sqlite (t : Tables K)
  | postgres (p : PostgresStorage K)

/-- A call that writes. -/
inductive StoreCall (K : Core)
  | saveSession (now : Nat) (s : Session K) (expectedVersionId : Option String)
  | saveVersion (v : Version K)
  | registerGraph (now : Nat) (a : GraphArgs)
  | unregisterGraph (name : String)

namespace InMemoryStorage

/-- The store after the call; one that raises leaves it as it is. -/
def call (m : InMemoryStorage K) : StoreCall K → InMemoryStorage K
  | .saveSession _ s expected => (m.saveSession s expected).toOption.getD m
  | .saveVersion v => (m.saveVersion v).toOption.getD m
  | .registerGraph now a => { m with graphs := registerGraph m.graphs now a }
  | .unregisterGraph name => { m with graphs := (unregisterGraph m.graphs name).1 }

end InMemoryStorage

namespace Tables

/-- What a call leaves, also where it raises. -/
def call (t : Tables K) : StoreCall K → Tables K
  | .saveSession now s expected => ((Connection.idle t).saveSession now s expected).2.durable
  | .saveVersion v => ((Connection.idle t).saveVersion v).2.durable
  | .registerGraph now a => { t with graphs := SQLiteStorage.registerGraph t.graphs now a }
  | .unregisterGraph name => { t with graphs := (SQLiteStorage.unregisterGraph t.graphs name).1 }

end Tables

namespace PostgresStorage

/-- What a call leaves, also where it raises. -/
def call (p : PostgresStorage K) : StoreCall K → PostgresStorage K
  | .saveSession now s expected => (p.saveSession now s expected).toOption.getD p
  | .saveVersion v => (p.saveVersion v).toOption.getD p
  | .registerGraph now a => { p with graphs := SQLiteStorage.registerGraph p.graphs now a }
  | .unregisterGraph name => { p with graphs := (SQLiteStorage.unregisterGraph p.graphs name).1 }

end PostgresStorage

namespace Store

/-- A store nothing is saved in; of Postgres, with the embeddings there are. -/
def fresh (embeddings : Option (List String)) : Backend → Store K
  | .memory => .memory {}
  | .sqlite => .sqlite {}
  | .postgres => .postgres { embeddings := embeddings }

/-- What a call leaves, also where it raises. -/
def call : Store K → StoreCall K → Store K
  | .memory m, c => .memory (m.call c)
  | .sqlite t, c => .sqlite (t.call c)
  | .postgres p, c => .postgres (p.call c)

/-- `export_storage`. -/
def exportStorage : Store K → Except (Err K.Obj) (Dump K)
  | .memory m => m.exportStorage
  | .sqlite t => .ok t.exportStorage
  | .postgres p => p.exportStorage

/-- `load_session`. -/
def loadSession (id : String) : Store K → Except (Err K.Obj) (Option (Session K))
  | .memory m => .ok (m.loadSession id)
  | .sqlite t => t.loadSession id
  | .postgres p => .ok (p.loadSession id)

/-- `load_version`. -/
def loadVersion (id : String) : Store K → Except (Err K.Obj) (Option (Version K))
  | .memory m => .ok (m.versions.lookup id)
  | .sqlite t => t.loadVersion id
  | .postgres p => .ok (p.loadVersion id)

/-- `get_graph`. -/
def getGraph (name : String) : Store K → Option (Graph Nat)
  | .memory m => InMemoryStorage.getGraph m.graphs name
  | .sqlite t => SQLiteStorage.getGraph id t.graphs name
  | .postgres p => SQLiteStorage.getGraph id p.graphs name

end Store

end CksRuntime
