import CksRuntime.Storage.Dump
import CksRuntime.Storage.Proof.Graphs

/-!
# What a dump says of a store

`Holdings` are the objects of a store, whatever backend it is in: what its dump says, and, of stores
that were only saved to (`Flat`, `Keyed`), all that a load reads but the in-memory histories
(`Flat.reads`).
-/

set_option autoImplicit false

namespace CksRuntime

open Effect (ok_of_mapM_eq_ok)

variable {K : Core}

/-- The objects of a store: sessions without their histories, versions, graphs. -/
structure Holdings (K : Core) where
  sessions : Table String (SessionData K)
  versions : Table String (Version K)
  graphs : Table String (Graph Nat)

namespace Holdings

/-- Each object is kept under its own id, and no graph has an empty visibility. -/
structure Keyed (R : Holdings K) : Prop where
  sessions : ∀ id d, R.sessions.lookup id = some d → d.sessionId = id
  versions : ∀ id v, R.versions.lookup id = some v → v.versionId = id
  graphs : ∀ name g, R.graphs.lookup name = some g → g.name = name ∧ g.visibility ≠ ""

/-- The saved versions of a session, oldest first. -/
def history (R : Holdings K) (sessionId : String) : List (Version K) :=
  oldestFirst ((R.versions.rows.map (·.2)).filter (·.sessionId == sessionId))

end Holdings

/-- What the storage holds. -/
def InMemoryStorage.records (m : InMemoryStorage K) : Holdings K where
  sessions := m.sessions.map (·.toData)
  versions := m.versions.map (·.toData)
  graphs := m.graphs

/-- What the tables hold. -/
def Tables.records (t : Tables K) : Holdings K where
  sessions := t.sessions.map (·.data.data)
  versions := t.versions.map (·.data.data)
  graphs := t.graphs.map (·.toGraph id)

/-- What the tables hold. -/
def PostgresStorage.records (p : PostgresStorage K) : Holdings K where
  sessions := p.sessions.map (·.data)
  versions := p.versions.map (·.data)
  graphs := p.graphs.map (·.toGraph id)

/-! ## Stores that were saved to -/

/-- Every row of the registry is under its name, and has a visibility. -/
def SQLiteStorage.Named (q : SQLiteStorage.Registry) : Prop :=
  ∀ name row, q.lookup name = some row → row.name = name ∧ row.visibility ≠ ""

/-- What is stored was not imported from Postgres, and is under its own id. -/
structure Tables.Flat (t : Tables K) : Prop where
  sessions : ∀ id cells, t.sessions.lookup id = some cells →
    cells.data = .flat cells.data.data ∧ cells.data.data.sessionId = id
  versions : ∀ id cells, t.versions.lookup id = some cells →
    cells.data = .flat cells.data.data ∧ cells.data.data.versionId = id ∧
      cells.data.data.sessionId = cells.sessionId
  graphs : SQLiteStorage.Named t.graphs

/-- Each row is under its own id. -/
structure PostgresStorage.Flat (p : PostgresStorage K) : Prop where
  sessions : ∀ id row, p.sessions.lookup id = some row →
    row.columns.sessionId = id ∧ row.data.sessionId = id
  versions : ∀ id row, p.versions.lookup id = some row →
    row.columns.versionId = id ∧ row.data.versionId = id ∧
      row.data.sessionId = row.columns.sessionId
  graphs : SQLiteStorage.Named p.graphs

theorem Version.toData_ids (v : Version K) :
    v.toData.versionId = v.versionId ∧ v.toData.sessionId = v.sessionId := ⟨rfl, rfl⟩

namespace SQLiteStorage.Named

variable {q : SQLiteStorage.Registry}

theorem register (h : Named q) (now : Nat) (a : GraphArgs) :
    Named (SQLiteStorage.registerGraph q now a) := by
  intro name row hrow
  rw [SQLiteStorage.registerGraph, Table.lookup_set] at hrow
  split at hrow
  · cases hrow
    rename_i hname
    exact ⟨hname.symm, a.resolvedVisibility_ne⟩
  · exact h name row hrow

theorem unregister (h : Named q) (name : String) :
    Named (SQLiteStorage.unregisterGraph q name).1 := by
  intro name' row hrow
  rw [SQLiteStorage.unregisterGraph, Table.lookup_erase_eq] at hrow
  split at hrow
  · cases hrow
  · exact h name' row hrow

theorem keyed (h : Named q) (name : String) (g : Graph Nat)
    (hg : (q.map (·.toGraph id)).lookup name = some g) : g.name = name ∧ g.visibility ≠ "" := by
  rw [Table.lookup_map, Option.map_eq_some_iff] at hg
  obtain ⟨row, hrow, rfl⟩ := hg
  obtain ⟨hname, hvis⟩ := h name row hrow
  refine ⟨hname, ?_⟩
  show orDefault (some row.visibility) _ ≠ ""
  rw [orDefault_of_ne hvis]
  exact hvis

end SQLiteStorage.Named

namespace Connection

theorem saveSession_durable (t : Tables K) (now : Nat) (s : Session K) (expected : Option String) :
    ((idle t).saveSession now s expected).2.durable = t ∨
      ((idle t).saveSession now s expected).2.durable = t.putSession now s := by
  rw [saveSession]
  split
  · cases expected with
    | none => exact .inr rfl
    | some e =>
      simp only [writeSession]
      split
      · split
        · exact .inr rfl
        · exact .inl rfl
      · split
        · exact .inl rfl
        · exact .inr rfl
  · exact .inl rfl

theorem saveVersion_durable (t : Tables K) (v : Version K) :
    ((idle t).saveVersion v).2.durable = t ∨
      ((idle t).saveVersion v).2.durable = t.putVersion v := by
  unfold saveVersion
  split
  · exact .inl rfl
  · split
    · exact .inl rfl
    · exact .inr rfl

end Connection

namespace Tables.Flat

variable {t : Tables K}

theorem putSession (h : t.Flat) (now : Nat) (s : Session K) : (t.putSession now s).Flat := by
  refine ⟨fun id cells hcells => ?_, h.versions, h.graphs⟩
  rw [Tables.putSession, Table.lookup_set] at hcells
  split at hcells
  · cases hcells
    rename_i hid
    exact ⟨rfl, hid.symm⟩
  · exact h.sessions id cells hcells

theorem putVersion (h : t.Flat) (v : Version K) : (t.putVersion v).Flat := by
  refine ⟨h.sessions, fun id cells hcells => ?_, h.graphs⟩
  rw [Tables.putVersion] at hcells
  by_cases hid : id = v.versionId
  · rw [hid, AList.lookup_insert] at hcells
    cases hcells
    exact ⟨rfl, v.toData_ids.1.trans hid.symm, v.toData_ids.2⟩
  · rw [AList.lookup_insert_ne hid] at hcells
    exact h.versions id cells hcells

theorem call (h : t.Flat) (c : StoreCall K) : (t.call c).Flat := by
  cases c with
  | saveSession now s expected =>
    obtain hc | hc := Connection.saveSession_durable t now s expected
    · rw [Tables.call, hc]
      exact h
    · rw [Tables.call, hc]
      exact h.putSession now s
  | saveVersion v =>
    obtain hc | hc := Connection.saveVersion_durable t v
    · rw [Tables.call, hc]
      exact h
    · rw [Tables.call, hc]
      exact h.putVersion v
  | registerGraph now a => exact ⟨h.sessions, h.versions, h.graphs.register now a⟩
  | unregisterGraph name => exact ⟨h.sessions, h.versions, h.graphs.unregister name⟩

theorem keyed (h : t.Flat) : t.records.Keyed := by
  refine ⟨fun id d hd => ?_, fun id v hv => ?_, h.graphs.keyed⟩
  · rw [records, Table.lookup_map, Option.map_eq_some_iff] at hd
    obtain ⟨cells, hcells, rfl⟩ := hd
    exact (h.sessions id cells hcells).2
  · rw [records, Table.lookup_map, Option.map_eq_some_iff] at hv
    obtain ⟨cells, hcells, rfl⟩ := hv
    exact (h.versions id cells hcells).2.1

end Tables.Flat

namespace PostgresStorage

theorem saveSession_store (p : PostgresStorage K) (now : Nat) (s : Session K)
    (expected : Option String) :
    (p.saveSession now s expected).toOption.getD p = p ∨
      (p.saveSession now s expected).toOption.getD p = p.putSession now s := by
  rw [saveSession]
  split
  · cases expected with
    | none => exact .inr rfl
    | some e =>
      rw [writeSession]
      cases p.sessions.lookup s.sessionId with
      | none => exact .inr rfl
      | some row =>
        dsimp only
        split
        · exact .inr rfl
        · exact .inl rfl
  · exact .inl rfl

theorem saveVersion_store (p : PostgresStorage K) (v : Version K) :
    (p.saveVersion v).toOption.getD p = p ∨
      (p.saveVersion v).toOption.getD p = p.putVersion v := by
  rw [saveVersion]
  split
  · exact .inl rfl
  · split
    · exact .inl rfl
    · exact .inr rfl

end PostgresStorage

namespace PostgresStorage.Flat

variable {p : PostgresStorage K}

theorem putSession (h : p.Flat) (now : Nat) (s : Session K) : (p.putSession now s).Flat := by
  refine ⟨fun id row hrow => ?_, h.versions, h.graphs⟩
  rw [PostgresStorage.putSession, Table.lookup_set] at hrow
  split at hrow
  · cases hrow
    rename_i hid
    exact ⟨hid.symm, hid.symm⟩
  · exact h.sessions id row hrow

theorem putVersion (h : p.Flat) (v : Version K) : (p.putVersion v).Flat := by
  refine ⟨h.sessions, fun id row hrow => ?_, h.graphs⟩
  rw [PostgresStorage.putVersion] at hrow
  by_cases hid : id = v.versionId
  · rw [hid, AList.lookup_insert] at hrow
    cases hrow
    exact ⟨hid.symm, v.toData_ids.1.trans hid.symm, v.toData_ids.2⟩
  · rw [AList.lookup_insert_ne hid] at hrow
    exact h.versions id row hrow

theorem call (h : p.Flat) (c : StoreCall K) : (p.call c).Flat := by
  cases c with
  | saveSession now s expected =>
    obtain hc | hc := p.saveSession_store now s expected
    · rw [PostgresStorage.call, hc]
      exact h
    · rw [PostgresStorage.call, hc]
      exact h.putSession now s
  | saveVersion v =>
    obtain hc | hc := p.saveVersion_store v
    · rw [PostgresStorage.call, hc]
      exact h
    · rw [PostgresStorage.call, hc]
      exact h.putVersion v
  | registerGraph now a => exact ⟨h.sessions, h.versions, h.graphs.register now a⟩
  | unregisterGraph name => exact ⟨h.sessions, h.versions, h.graphs.unregister name⟩

theorem keyed (h : p.Flat) : p.records.Keyed := by
  refine ⟨fun id d hd => ?_, fun id v hv => ?_, h.graphs.keyed⟩
  · rw [records, Table.lookup_map, Option.map_eq_some_iff] at hd
    obtain ⟨row, hrow, rfl⟩ := hd
    exact (h.sessions id row hrow).2
  · rw [records, Table.lookup_map, Option.map_eq_some_iff] at hv
    obtain ⟨row, hrow, rfl⟩ := hv
    exact (h.versions id row hrow).2.1

end PostgresStorage.Flat

namespace InMemoryStorage

/-- The keys of the dicts are those of what they hold. -/
structure Keyed (m : InMemoryStorage K) : Prop where
  sessions : ∀ id s, m.sessions.lookup id = some s → s.sessionId = id
  versions : ∀ id v, m.versions.lookup id = some v → v.versionId = id
  graphs : ∀ name g, m.graphs.lookup name = some g → g.name = name ∧ g.visibility ≠ ""

theorem saveSession_store (m : InMemoryStorage K) (s : Session K) (expected : Option String) :
    (m.saveSession s expected).toOption.getD m = m ∨
      (m.saveSession s expected).toOption.getD m =
        { m with sessions := m.sessions.set s.sessionId s } := by
  have hput : (m.putCopy s).toOption.getD m = m ∨
      (m.putCopy s).toOption.getD m = { m with sessions := m.sessions.set s.sessionId s } := by
    rw [putCopy]
    split
    · exact .inr rfl
    · exact .inl rfl
  cases expected with
  | none => exact hput
  | some e =>
    rw [saveSession]
    split
    · exact hput
    · exact .inl rfl

theorem saveVersion_store (m : InMemoryStorage K) (v : Version K) :
    (m.saveVersion v).toOption.getD m = m ∨
      (m.saveVersion v).toOption.getD m =
        { m with versions := m.versions.set v.versionId v } := by
  rw [saveVersion]
  split
  · exact .inr rfl
  · exact .inl rfl

theorem Keyed.call {m : InMemoryStorage K} (h : m.Keyed) (c : StoreCall K) :
    (m.call c).Keyed := by
  cases c with
  | saveSession now s expected =>
    obtain hc | hc := m.saveSession_store s expected
    · rw [InMemoryStorage.call, hc]
      exact h
    · rw [InMemoryStorage.call, hc]
      refine ⟨fun id s' hs => ?_, h.versions, h.graphs⟩
      rw [Table.lookup_set] at hs
      split at hs
      · cases hs
        rename_i hid
        exact hid.symm
      · exact h.sessions id s' hs
  | saveVersion v =>
    obtain hc | hc := m.saveVersion_store v
    · rw [InMemoryStorage.call, hc]
      exact h
    · rw [InMemoryStorage.call, hc]
      refine ⟨h.sessions, fun id v' hv => ?_, h.graphs⟩
      rw [Table.lookup_set] at hv
      split at hv
      · cases hv
        rename_i hid
        exact hid.symm
      · exact h.versions id v' hv
  | registerGraph now a =>
    refine ⟨h.sessions, h.versions, fun name g hg => ?_⟩
    rw [InMemoryStorage.call, registerGraph, Table.lookup_set] at hg
    split at hg
    · cases hg
      rename_i hname
      exact ⟨hname.symm, a.resolvedVisibility_ne⟩
    · exact h.graphs name g hg
  | unregisterGraph name =>
    refine ⟨h.sessions, h.versions, fun name' g hg => ?_⟩
    rw [InMemoryStorage.call, unregisterGraph, Table.lookup_erase_eq] at hg
    split at hg
    · cases hg
    · exact h.graphs name' g hg

theorem Keyed.records {m : InMemoryStorage K} (h : m.Keyed) : m.records.Keyed := by
  refine ⟨fun id d hd => ?_, fun id v hv => ?_, h.graphs⟩
  · rw [InMemoryStorage.records, Table.lookup_map, Option.map_eq_some_iff] at hd
    obtain ⟨s, hs, rfl⟩ := hd
    exact h.sessions id s hs
  · rw [InMemoryStorage.records, Table.lookup_map, Option.map_eq_some_iff] at hv
    obtain ⟨v', hv', rfl⟩ := hv
    exact v'.toData_ids.1.trans (h.versions id v' hv')

end InMemoryStorage

/-! ## Loads -/

/-- What the loads of a store return. -/
structure Reading (K : Core) where
  session : String → Option (Session K)
  version : String → Option (Version K)
  graph : String → Option (Graph Nat)

/-- What the store answers. -/
structure Store.Reads (s : Store K) (r : Reading K) : Prop where
  session : ∀ id, s.loadSession id = .ok (r.session id)
  version : ∀ id, s.loadVersion id = .ok (r.version id)
  graph : ∀ name, s.getGraph name = r.graph name

/-- What a store with these records answers. -/
def Holdings.reading (R : Holdings K) (history : String → List (Version K)) : Reading K where
  session id := (R.sessions.lookup id).map fun d => d.toSession (history id)
  version := R.versions.lookup
  graph := R.graphs.lookup

/-- What the storage answers. -/
def InMemoryStorage.reading (m : InMemoryStorage K) : Reading K :=
  ⟨m.sessions.lookup, m.versions.lookup, m.graphs.lookup⟩

theorem mapM_eq_ok {α β ε : Type} {f : α → Except ε β} {g : α → β} :
    ∀ {l : List α}, (∀ x ∈ l, f x = .ok (g x)) → l.mapM f = .ok (l.map g)
  | [], _ => rfl
  | x :: l, h => by
    rw [List.mapM_cons, h x List.mem_cons_self,
      mapM_eq_ok fun y hy => h y (List.mem_cons_of_mem x hy)]
    rfl

theorem InMemoryStorage.reads (m : InMemoryStorage K) : (Store.memory m).Reads m.reading :=
  ⟨fun _ => rfl, fun _ => rfl, fun _ => rfl⟩

/-- The rows of a session's versions, whose column says whose they are. -/
theorem filter_rows_map {α : Type} {t : Table String α} {f : α → Version K} {column : α → String}
    (h : ∀ id a, t.lookup id = some a → (f a).sessionId = column a) (id : String) :
    (t.rows.filter fun r => column r.2 == id).map (fun r => f r.2) =
      ((t.map f).rows.map (·.2)).filter (·.sessionId == id) := by
  rw [Table.rows_map, List.map_map, List.filter_map]
  refine congrArg (List.map _) (List.filter_congr fun r hr => ?_)
  show _ = ((f r.2).sessionId == id)
  rw [h r.1 r.2 (Table.mem_rows.1 hr)]

theorem InMemoryStorage.records_session (m : InMemoryStorage K) (id : String) :
    m.records.sessions.lookup id = (m.sessions.lookup id).map (·.toData) := Table.lookup_map ..

theorem InMemoryStorage.records_version (m : InMemoryStorage K) (id : String) :
    m.records.versions.lookup id = (m.versions.lookup id).map (·.toData) := Table.lookup_map ..

namespace Tables

variable {t : Tables K}

theorem records_session (t : Tables K) (id : String) :
    t.records.sessions.lookup id = (t.sessions.lookup id).map (·.data.data) := Table.lookup_map ..

theorem records_version (t : Tables K) (id : String) :
    t.records.versions.lookup id = (t.versions.lookup id).map (·.data.data) := Table.lookup_map ..

theorem Legible.loadSession {cells : SessionCells K} {id : String} (hl : t.Legible (id, cells))
    (h : t.sessions.lookup id = some cells) : t.loadSession id =
      .ok (some (cells.data.data.toSession (oldestFirst
        ((t.versions.rows.filter fun r => r.2.sessionId == id).map fun r => r.2.data.data)))) := by
  have hparse : (t.versions.rows.filter fun r => r.2.sessionId == id).mapM
      (fun r => (parse r.2.data : Except (Err K.Obj) _)) =
        .ok ((t.versions.rows.filter fun r => r.2.sessionId == id).map
          fun r => r.2.data.data) := by
    refine mapM_eq_ok fun r hr => ?_
    rw [List.mem_filter, beq_iff_eq] at hr
    rw [hl.versions r hr.1 hr.2]
    rfl
  rw [Tables.loadSession, h]
  dsimp only
  rw [hparse, hl.session]
  rfl

theorem legible_of_loadSession {cells : SessionCells K} {id : String}
    (h : t.sessions.lookup id = some cells) {s : Option (Session K)}
    (hload : t.loadSession id = .ok s) : t.Legible (id, cells) := by
  rw [Tables.loadSession, h] at hload
  dsimp only at hload
  cases hdata : cells.data with
  | wrapped columns d =>
    rw [hdata] at hload
    cases hload
  | flat d =>
    refine ⟨by simp only [hdata, DataCell.data], fun v hv hid => ?_⟩
    rw [hdata] at hload
    cases hversions : (t.versions.rows.filter fun r => r.2.sessionId == id).mapM
        (fun r => (parse r.2.data : Except (Err K.Obj) _)) with
    | error e =>
      rw [hversions] at hload
      cases hload
    | ok vs =>
      have hmem : v ∈ t.versions.rows.filter fun r => r.2.sessionId == id :=
        List.mem_filter.2 ⟨hv, beq_iff_eq.2 hid⟩
      obtain ⟨data, hparse⟩ := ok_of_mapM_eq_ok hversions v hmem
      cases hcell : v.2.data with
      | flat data => rfl
      | wrapped columns data =>
        rw [hcell] at hparse
        cases hparse

/-- A store that was only saved to can be read throughout. -/
theorem Flat.legible (h : t.Flat) {cells : SessionCells K} {id : String}
    (hcells : t.sessions.lookup id = some cells) : t.Legible (id, cells) :=
  ⟨(h.sessions id cells hcells).1, fun v hv _ => (h.versions v.1 v.2 (Table.mem_rows.1 hv)).1⟩

theorem Flat.loadSession (h : t.Flat) (id : String) : t.loadSession id =
    .ok ((t.records.sessions.lookup id).map fun d => d.toSession (t.records.history id)) := by
  rw [records_session]
  cases hcells : t.sessions.lookup id with
  | none => rw [Tables.loadSession, hcells]; rfl
  | some cells =>
    have hversions := filter_rows_map (f := fun cells : VersionCells K => cells.data.data)
      (fun id cells hc => (h.versions id cells hc).2.2) id
    rw [(h.legible hcells).loadSession hcells, hversions]
    rfl

theorem Flat.loadVersion (h : t.Flat) (id : String) :
    t.loadVersion id = .ok (t.records.versions.lookup id) := by
  rw [Tables.loadVersion, records_version]
  cases hcells : t.versions.lookup id with
  | none => rfl
  | some cells =>
    dsimp only
    rw [(h.versions id cells hcells).1]
    rfl

theorem Flat.reads (h : t.Flat) : (Store.sqlite t).Reads (t.records.reading t.records.history) :=
  ⟨h.loadSession, h.loadVersion, fun name => (Table.lookup_map _ t.graphs name).symm⟩

end Tables

namespace PostgresStorage

variable {p : PostgresStorage K}

theorem Flat.loadSession (h : p.Flat) (id : String) : p.loadSession id =
    (p.records.sessions.lookup id).map fun d => d.toSession (p.records.history id) := by
  have hsession : p.records.sessions.lookup id = (p.sessions.lookup id).map (·.data) :=
    Table.lookup_map ..
  have hversions := filter_rows_map
    (f := fun row : PostgresRow VersionColumns (Version K) => row.data)
    (fun id row hr => (h.versions id row hr).2.2) id
  rw [PostgresStorage.loadSession, hsession, Option.map_map]
  dsimp only
  rw [hversions]
  rfl

theorem Flat.reads (h : p.Flat) :
    (Store.postgres p).Reads (p.records.reading p.records.history) :=
  ⟨fun id => congrArg Except.ok (h.loadSession id),
    fun id => congrArg Except.ok (Table.lookup_map _ p.versions id).symm,
    fun name => (Table.lookup_map _ p.graphs name).symm⟩

end PostgresStorage

end CksRuntime
