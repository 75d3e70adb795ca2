import CksRuntime.Core.Laws
import CksRuntime.Storage.Tables

/-!
# A failed import and what comes after it

`import_atomic_iff`: an import that raises leaves the database as it was, also after the next
successful write is committed, exactly when the entries before the one that raises changed nothing.
-/

set_option autoImplicit false

namespace CksRuntime

open Effect (putAll_run outcome readable firstError bind_of_outcome)

variable {K : Core}

/-- The rows an import inserts before it raises. -/
structure Loaded (K : Core) where
  sessions : List (String × SessionCells K) := []
  versions : List (String × VersionCells K) := []
  graphs : List (String × GraphRow) := []
  embeddings : List ((String × String) × EmbeddingCells) := []
  outboxTasks : List OutboxRow := []

namespace DumpReads

/-- The first exception that the import meets. -/
def raises (d : DumpReads K) : Option (Err K.Obj) :=
  (firstError d.sessions).or ((firstError d.versions).or ((firstError d.graphs).or
    ((firstError d.embeddings).or (firstError d.outboxTasks))))

/-- The rows that are read before an entry raises. -/
def before (d : DumpReads K) : Loaded K :=
  if (firstError d.sessions).isSome then
    { sessions := readable d.sessions }
  else if (firstError d.versions).isSome then
    { sessions := readable d.sessions, versions := readable d.versions }
  else if (firstError d.graphs).isSome then
    { sessions := readable d.sessions, versions := readable d.versions,
      graphs := readable d.graphs }
  else if (firstError d.embeddings).isSome then
    { sessions := readable d.sessions, versions := readable d.versions,
      graphs := readable d.graphs, embeddings := readable d.embeddings }
  else
    { sessions := readable d.sessions, versions := readable d.versions,
      graphs := readable d.graphs, embeddings := readable d.embeddings,
      outboxTasks := readable d.outboxTasks }

end DumpReads

namespace Tables

/-- The tables with the rows. -/
def load (t : Tables K) (rows : Loaded K) : Tables K where
  sessions := t.sessions.insertAll rows.sessions
  versions := t.versions.insertAll rows.versions
  graphs := t.graphs.insertAll rows.graphs
  embeddings := t.embeddings.insertAll rows.embeddings
  outbox := rows.outboxTasks.foldl Outbox.insertTask t.outbox

theorem foldl_insertSession (rows : List (String × SessionCells K)) (t : Tables K) :
    rows.foldl insertSession t = { t with sessions := t.sessions.insertAll rows } :=
  List.foldl_hom (fun sessions => { t with sessions := sessions }) fun _ _ => rfl

theorem foldl_insertVersion (rows : List (String × VersionCells K)) (t : Tables K) :
    rows.foldl insertVersion t = { t with versions := t.versions.insertAll rows } :=
  List.foldl_hom (fun versions => { t with versions := versions }) fun _ _ => rfl

theorem foldl_insertGraph (rows : List (String × GraphRow)) (t : Tables K) :
    rows.foldl insertGraph t = { t with graphs := t.graphs.insertAll rows } :=
  List.foldl_hom (fun graphs => { t with graphs := graphs }) fun _ _ => rfl

theorem foldl_insertEmbedding (rows : List ((String × String) × EmbeddingCells)) (t : Tables K) :
    rows.foldl insertEmbedding t = { t with embeddings := t.embeddings.insertAll rows } :=
  List.foldl_hom (fun embeddings => { t with embeddings := embeddings }) fun _ _ => rfl

theorem foldl_insertTask (rows : List OutboxRow) (t : Tables K) :
    rows.foldl insertTask t = { t with outbox := rows.foldl Outbox.insertTask t.outbox } :=
  List.foldl_hom (fun outbox => { t with outbox := outbox }) fun _ _ => rfl

end Tables

/-- What an import does: it loads what is before the first exception, and raises that. -/
theorem importStorage_run (clear : Bool) (d : DumpReads K) (t : Tables K) :
    importStorage clear d t =
      outcome d.raises ((if clear then t.clear else t).load d.before) := by
  rw [importStorage, Effect.bind_modify_run, bind_of_outcome (putAll_run ..),
    Tables.foldl_insertSession, DumpReads.raises, DumpReads.before]
  cases firstError d.sessions with
  | some e => rfl
  | none =>
    dsimp only [Option.elim]
    rw [bind_of_outcome (putAll_run ..), Tables.foldl_insertVersion]
    cases firstError d.versions with
    | some e => rfl
    | none =>
      dsimp only [Option.elim]
      rw [bind_of_outcome (putAll_run ..), Tables.foldl_insertGraph]
      cases firstError d.graphs with
      | some e => rfl
      | none =>
        dsimp only [Option.elim]
        rw [bind_of_outcome (putAll_run ..), Tables.foldl_insertEmbedding]
        cases firstError d.embeddings with
        | some e => rfl
        | none =>
          dsimp only [Option.elim]
          rw [putAll_run, Tables.foldl_insertTask]
          rfl

/-! ## The same contents -/

/-- The tables have the same rows, in whatever order. -/
structure Tables.Same (t t' : Tables K) : Prop where
  sessions : ∀ id, t.sessions.lookup id = t'.sessions.lookup id
  versions : ∀ id, t.versions.lookup id = t'.versions.lookup id
  graphs : ∀ name, t.graphs.lookup name = t'.graphs.lookup name
  embeddings : ∀ k, t.embeddings.lookup k = t'.embeddings.lookup k
  outbox : t.outbox = t'.outbox

namespace Tables.Same

variable {t t' : Tables K}

theorem refl (t : Tables K) : t.Same t := ⟨fun _ => rfl, fun _ => rfl, fun _ => rfl, fun _ => rfl, rfl⟩

theorem putSession (h : t.Same t') (now : Nat) (s : Session K) :
    (t.putSession now s).Same (t'.putSession now s) := by
  refine ⟨fun id => ?_, h.versions, h.graphs, h.embeddings, h.outbox⟩
  rw [Tables.putSession, Tables.putSession, Table.lookup_set, Table.lookup_set, h.sessions]

theorem putVersion (h : t.Same t') (v : Version K) : (t.putVersion v).Same (t'.putVersion v) := by
  refine ⟨h.sessions, fun id => ?_, h.graphs, h.embeddings, h.outbox⟩
  rw [Tables.putVersion, Tables.putVersion]
  by_cases hid : id = v.versionId
  · rw [hid, AList.lookup_insert, AList.lookup_insert]
  · rw [AList.lookup_insert_ne hid, AList.lookup_insert_ne hid, h.versions]

theorem registerGraph (h : t.Same t') (now : Nat) (a : GraphArgs) :
    Tables.Same { t with graphs := SQLiteStorage.registerGraph t.graphs now a }
      { t' with graphs := SQLiteStorage.registerGraph t'.graphs now a } := by
  refine ⟨h.sessions, h.versions, fun name => ?_, h.embeddings, h.outbox⟩
  rw [SQLiteStorage.registerGraph, SQLiteStorage.registerGraph, Table.lookup_set,
    Table.lookup_set, h.graphs, h.graphs]

theorem unregisterGraph (h : t.Same t') (name : String) :
    Tables.Same { t with graphs := (SQLiteStorage.unregisterGraph t.graphs name).1 }
      { t' with graphs := (SQLiteStorage.unregisterGraph t'.graphs name).1 } := by
  refine ⟨h.sessions, h.versions, fun name' => ?_, h.embeddings, h.outbox⟩
  rw [SQLiteStorage.unregisterGraph, SQLiteStorage.unregisterGraph, Table.lookup_erase_eq,
    Table.lookup_erase_eq, h.graphs]

/-- Of two connections to the same database that see the same, each write does the same. -/
theorem write (h : t.Same t') (durable : Tables K) (w : TableWrite K) :
    ((⟨durable, t⟩ : Connection K).write w).2.durable.Same
      ((⟨durable, t'⟩ : Connection K).write w).2.durable := by
  cases w with
  | saveSession now s expected =>
    rw [Connection.write, Connection.write, Connection.saveSession, Connection.saveSession]
    split
    · simp only [Connection.writeSession]
      cases expected with
      | none => exact h.putSession now s
      | some e =>
        dsimp only
        rw [h.sessions]
        split
        · split
          · exact h.putSession now s
          · exact refl _
        · split
          · exact refl _
          · exact refl _
    · exact refl _
  | saveVersion v =>
    have hmem : v.versionId ∈ t.versions ↔ v.versionId ∈ t'.versions := by
      rw [← AList.lookup_isSome, ← AList.lookup_isSome, h.versions]
    simp only [Connection.write, Connection.saveVersion, hmem]
    split
    · exact refl _
    · split
      · exact refl _
      · exact h.putVersion v
  | registerGraph now a => exact h.registerGraph now a
  | unregisterGraph name => exact h.unregisterGraph name
  | enqueueTask datetime now taskType sessionId payload =>
    refine ⟨h.sessions, h.versions, h.graphs, h.embeddings, ?_⟩
    show t.outbox.enqueueTask .. = t'.outbox.enqueueTask ..
    rw [h.outbox]

/-- What the registration of a graph does not tell apart, a second one of another name does. -/
theorem of_registerGraph {a b : GraphArgs} (hname : a.name ≠ b.name)
    (ha : Tables.Same { t with graphs := SQLiteStorage.registerGraph t.graphs 0 a }
      { t' with graphs := SQLiteStorage.registerGraph t'.graphs 0 a })
    (hb : Tables.Same { t with graphs := SQLiteStorage.registerGraph t.graphs 0 b }
      { t' with graphs := SQLiteStorage.registerGraph t'.graphs 0 b }) : t.Same t' := by
  refine ⟨ha.sessions, ha.versions, fun name => ?_, ha.embeddings, ha.outbox⟩
  have hother : ∀ {c : GraphArgs}, name ≠ c.name →
      Tables.Same { t with graphs := SQLiteStorage.registerGraph t.graphs 0 c }
        { t' with graphs := SQLiteStorage.registerGraph t'.graphs 0 c } →
      t.graphs.lookup name = t'.graphs.lookup name := by
    intro c hc hsame
    have hlookup := hsame.graphs name
    rw [SQLiteStorage.registerGraph, SQLiteStorage.registerGraph, Table.lookup_set,
      Table.lookup_set, if_neg hc, if_neg hc] at hlookup
    exact hlookup
  by_cases hn : name = a.name
  · exact hother (fun hb' => hname (hn.symm.trans hb')) hb
  · exact hother hn ha

end Tables.Same

/-! ## Atomicity -/

/-- If the import raises, the database is as it was, and every later write that succeeds makes of it
what it would have made without the import. -/
def Tables.ImportAtomic (t : Tables K) (clear : Bool) (d : DumpReads K) : Prop :=
  ∀ e c, (Connection.idle t).importStorage clear d = (.error e, c) →
    c.durable.Same t ∧ ∀ w, (c.write w).1 = .ok ⟨⟩ →
      (c.write w).2.durable.Same ((Connection.idle t).write w).2.durable

/-- The rows change nothing. When merging, every one has a key that is in its table, and none is a
task; when clearing, each table holds just the first row there is with each key. -/
def Tables.Idempotent (t : Tables K) (rows : Loaded K) : Bool → Prop
  | false => (∀ r ∈ rows.sessions, r.1 ∈ t.sessions) ∧ (∀ r ∈ rows.versions, r.1 ∈ t.versions) ∧
      (∀ r ∈ rows.graphs, r.1 ∈ t.graphs) ∧ (∀ r ∈ rows.embeddings, r.1 ∈ t.embeddings) ∧
      rows.outboxTasks = []
  | true => (∀ id, t.sessions.lookup id = Table.first rows.sessions id) ∧
      (∀ id, t.versions.lookup id = Table.first rows.versions id) ∧
      (∀ name, t.graphs.lookup name = Table.first rows.graphs name) ∧
      (∀ k, t.embeddings.lookup k = Table.first rows.embeddings k) ∧
      (∀ taskId, t.outbox.rows taskId = none) ∧ rows.outboxTasks = []

theorem lastId_foldl_insertTask (rows : List OutboxRow) (o : Outbox) :
    (rows.foldl Outbox.insertTask o).lastId = o.lastId + rows.length := by
  induction rows generalizing o with
  | nil => rfl
  | cons r rows ih =>
    rw [List.foldl_cons, ih, List.length_cons]
    show o.lastId + 1 + rows.length = _
    omega

/-- A task inserted is a task there was not. -/
theorem foldl_insertTask_eq_iff {rows : List OutboxRow} {o o' : Outbox}
    (hlast : o.lastId = o'.lastId) : rows.foldl Outbox.insertTask o = o' ↔ o = o' ∧ rows = [] := by
  constructor
  · intro h
    have hlen := lastId_foldl_insertTask rows o
    rw [h, hlast] at hlen
    have hnil : rows = [] := List.length_eq_zero_iff.1 (by omega)
    subst hnil
    exact ⟨h, rfl⟩
  · intro h
    obtain ⟨rfl, rfl⟩ := h
    rfl

theorem Tables.load_same_iff (t : Tables K) (clear : Bool) (rows : Loaded K) :
    ((if clear then t.clear else t).load rows).Same t ↔ t.Idempotent rows clear := by
  have hsame : ∀ s : Tables K, (s.load rows).Same t ↔
      (∀ id, (s.sessions.insertAll rows.sessions).lookup id = t.sessions.lookup id) ∧
      (∀ id, (s.versions.insertAll rows.versions).lookup id = t.versions.lookup id) ∧
      (∀ name, (s.graphs.insertAll rows.graphs).lookup name = t.graphs.lookup name) ∧
      (∀ k, (s.embeddings.insertAll rows.embeddings).lookup k = t.embeddings.lookup k) ∧
      rows.outboxTasks.foldl Outbox.insertTask s.outbox = t.outbox := fun s =>
    ⟨fun h => ⟨h.sessions, h.versions, h.graphs, h.embeddings, h.outbox⟩,
      fun h => ⟨h.1, h.2.1, h.2.2.1, h.2.2.2.1, h.2.2.2.2⟩⟩
  rw [hsame]
  cases clear with
  | false =>
    rw [if_neg Bool.false_ne_true, Idempotent]
    simp only [Table.insertAll_same_iff, foldl_insertTask_eq_iff rfl, true_and]
  | true =>
    rw [if_pos rfl, Idempotent]
    simp only [Table.lookup_insertAll, Tables.clear, AList.lookup_empty, Option.none_or]
    have htasks : rows.outboxTasks.foldl Outbox.insertTask
        { t.outbox with rows := fun _ => none } = t.outbox ↔
          { t.outbox with rows := fun _ => none } = t.outbox ∧ rows.outboxTasks = [] :=
      foldl_insertTask_eq_iff rfl
    have houtbox : { t.outbox with rows := fun _ => none } = t.outbox ↔
        ∀ taskId, t.outbox.rows taskId = none := by
      constructor
      · intro h taskId
        rw [← h]
      · intro h
        rw [← funext h]
    rw [htasks, houtbox]
    simp only [eq_comm]

/-- **The import is atomic** exactly when no entry raises or those before it change nothing. -/
theorem import_atomic_iff (t : Tables K) (clear : Bool) (d : DumpReads K) :
    t.ImportAtomic clear d ↔ (d.raises ≠ none → t.Idempotent d.before clear) := by
  rw [← Tables.load_same_iff, Tables.ImportAtomic]
  have himport : (Connection.idle t).importStorage clear d =
      match outcome d.raises ((if clear then t.clear else t).load d.before) with
      | .ok _ t' => (.ok ⟨⟩, Connection.commit { Connection.idle t with working := t' })
      | .error e t' => (.error e, { Connection.idle t with working := t' }) := by
    rw [← importStorage_run]
    rfl
  rw [himport]
  cases d.raises with
  | none =>
    refine iff_of_true (fun e c h => ?_) fun h => absurd rfl h
    cases h
  | some e =>
    generalize (if clear = true then t.clear else t).load d.before = t'
    constructor
    · intro h _
      obtain ⟨-, hwrite⟩ := h e ⟨t, t'⟩ rfl
      have hregister : ∀ a : GraphArgs, Tables.Same
          { t' with graphs := SQLiteStorage.registerGraph t'.graphs 0 a }
          { t with graphs := SQLiteStorage.registerGraph t.graphs 0 a } :=
        fun a => hwrite (.registerGraph 0 a) rfl
      exact Tables.Same.of_registerGraph (a := { name := "a", sessionId := "" })
        (b := { name := "b", sessionId := "" }) (by decide) (hregister _) (hregister _)
    · intro h e' c hc
      cases hc
      refine ⟨Tables.Same.refl t, fun w _ => ?_⟩
      exact (h (Option.some_ne_none e)).write t w

/-- A database with one graph, and a dump whose first entry cannot be read: after the import in mode
`clear` and the next write, the graph is gone. -/
theorem failed_import_clears : ¬∀ (t : Tables Core.register) (clear : Bool)
    (d : DumpReads Core.register), t.ImportAtomic clear d := by
  intro h
  let graphs := SQLiteStorage.registerGraph ∅ 0 { name := "g", sessionId := "s" }
  have hatomic := h { graphs := graphs } true { sessions := [.error (.keyError "session_id")] }
  have hgone := ((import_atomic_iff _ _ _).1 hatomic (Option.some_ne_none _)).2.2.1 "g"
  cases hgone

end CksRuntime
