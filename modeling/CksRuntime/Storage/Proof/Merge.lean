import CksRuntime.Core.Laws
import CksRuntime.Storage.Merge
import CksRuntime.Storage.Proof.Dump
import CksRuntime.Storage.Proof.Import

/-!
# What a merge leaves alone

`leavesSessions_iff`: the stored sessions load as before exactly when no version is inserted for one
of them. `mergesOnce_iff`: a second import of a dump changes nothing exactly when it has no outbox
tasks.
-/

set_option autoImplicit false

namespace CksRuntime

open Effect (error_of_mapM_eq_error firstError firstError_ne_none_iff ok_of_mem_readable readable
  readable_map_ok)

variable {K : Core}

namespace Tables

/-! ## Sessions that were there -/

/-- A version is inserted: the first row with its id, if none is stored. -/
def InsertsVersion (t : Tables K) (d : DumpReads K) (versionId : String) (cells : VersionCells K) :
    Prop :=
  t.versions.lookup versionId = none ∧ Table.first d.before.versions versionId = some cells

/-- No version is inserted under the id of a stored session that can be loaded. -/
def NoForeignVersions (t : Tables K) (d : DumpReads K) : Prop :=
  ∀ versionId cells, t.InsertsVersion d versionId cells →
    ∀ row, t.sessions.lookup cells.sessionId = some row → ¬t.Legible (cells.sessionId, row)

variable {t : Tables K} {d : DumpReads K}

theorem merged_eq (t : Tables K) (d : DumpReads K) : t.merged d = t.load d.before := by
  rw [merged, Connection.importStorage, importStorage_run]
  cases d.raises with
  | none => rfl
  | some e => rfl

theorem merged_session {id : String} {row : SessionCells K} (h : t.sessions.lookup id = some row) :
    (t.merged d).sessions.lookup id = some row := by
  rw [merged_eq, load, Table.lookup_insertAll, h]
  rfl

/-- The versions after the merge: those there were, and the inserted ones. -/
theorem merged_versions (t : Tables K) (d : DumpReads K) :
    ∃ new, (t.merged d).versions.rows = t.versions.rows ++ new ∧
      ∀ versionId cells, (versionId, cells) ∈ new ↔ t.InsertsVersion d versionId cells := by
  obtain ⟨new, hnew⟩ := Table.rows_insertAll t.versions d.before.versions
  refine ⟨new, by rw [merged_eq]; exact hnew, fun versionId cells => ?_⟩
  have hnodup := Table.nodup_rows (t.versions.insertAll d.before.versions)
  have hmem : (versionId, cells) ∈ t.versions.rows ++ new ↔
      (t.versions.lookup versionId).or (Table.first d.before.versions versionId) = some cells := by
    rw [← hnew, Table.mem_rows, Table.lookup_insertAll]
  rw [hnew, List.map_append, List.nodup_append] at hnodup
  rw [List.mem_append, Table.mem_rows] at hmem
  rw [InsertsVersion]
  constructor
  · intro h
    have hnone : t.versions.lookup versionId = none := by
      cases hold : t.versions.lookup versionId with
      | none => rfl
      | some old =>
        have hkey := List.mem_map_of_mem (f := (·.1)) (Table.mem_rows.2 hold)
        exact absurd rfl (hnodup.2.2 _ hkey _ (List.mem_map_of_mem (f := (·.1)) h))
    have hfirst := hmem.1 (.inr h)
    rw [hnone] at hfirst
    exact ⟨hnone, hfirst⟩
  · intro h
    have hin := hmem.2 (by rw [h.1]; exact h.2)
    rcases hin with hold | hin
    · cases h.1.symm.trans hold
    · exact hin

/-- Without a new version the session loads as it did, be it with an exception. -/
theorem loadSession_merged {id : String} {row : SessionCells K}
    (h : t.sessions.lookup id = some row)
    (hnone : ∀ versionId cells, t.InsertsVersion d versionId cells → cells.sessionId ≠ id) :
    (t.merged d).loadSession id = t.loadSession id := by
  obtain ⟨new, hrows, hnew⟩ := merged_versions t d
  have hfilter : new.filter (fun r => r.2.sessionId == id) = [] := by
    refine List.filter_eq_nil_iff.2 fun r hr hid => ?_
    exact hnone r.1 r.2 ((hnew r.1 r.2).1 hr) (beq_iff_eq.1 hid)
  rw [loadSession, loadSession, merged_session h, h]
  dsimp only
  rw [hrows, List.filter_append, hfilter, List.append_nil]

theorem length_oldestFirst (versions : List (Version K)) :
    (oldestFirst versions).length = versions.length := List.length_mergeSort _

/-- All that a load raises is that a JSON object has no structure of its own. -/
theorem loadSession_error {id : String} {e : Err K.Obj} (h : t.loadSession id = .error e) :
    e = .keyError "knowledge_structure" := by
  have hparse : ∀ {κ α : Type} {data : DataCell κ α} {e : Err K.Obj},
      parse data = .error e → e = .keyError "knowledge_structure" := by
    intro κ α data e h
    cases data with
    | flat data => cases h
    | wrapped columns data => exact (Except.error.inj h).symm
  rw [loadSession] at h
  cases hrow : t.sessions.lookup id with
  | none =>
    rw [hrow] at h
    cases h
  | some row =>
    rw [hrow] at h
    dsimp only at h
    cases hdata : (parse row.data : Except (Err K.Obj) _) with
    | error e' =>
      rw [hdata] at h
      cases h
      exact hparse hdata
    | ok data =>
      rw [hdata] at h
      cases hversions : (t.versions.rows.filter fun r => r.2.sessionId == id).mapM
          (fun r => (parse r.2.data : Except (Err K.Obj) _)) with
      | error e' =>
        rw [hversions] at h
        cases h
        obtain ⟨r, -, hr⟩ := error_of_mapM_eq_error hversions
        exact hparse hr
      | ok versions =>
        rw [hversions] at h
        cases h

/-- With one the history has a version more, or the session raises. -/
theorem loadSession_merged_ne {id versionId : String} {row : SessionCells K} {cells : VersionCells K}
    (h : t.sessions.lookup id = some row) (hlegible : t.Legible (id, row))
    (hnew : t.InsertsVersion d versionId cells) (hid : cells.sessionId = id) :
    (t.merged d).loadSession id ≠ t.loadSession id := by
  intro hsame
  have hold := hlegible.loadSession h
  have hload := (legible_of_loadSession (merged_session h) (hsame.trans hold)).loadSession
    (merged_session h)
  have hhistory := Except.ok.inj (hload.symm.trans (hsame.trans hold))
  have hlength := congrArg List.length (congrArg Session.versionHistory (Option.some.inj hhistory))
  obtain ⟨new, hrows, hmem⟩ := merged_versions t d
  simp only [SessionData.toSession, length_oldestFirst, List.length_map, hrows, List.filter_append,
    List.length_append] at hlength
  have hin : (versionId, cells) ∈ new.filter fun r => r.2.sessionId == id :=
    List.mem_filter.2 ⟨(hmem versionId cells).2 hnew, beq_iff_eq.2 hid⟩
  have hpos := List.length_pos_of_mem hin
  omega

/-- **A merge leaves the stored sessions alone** exactly when it inserts no version for one of those
that can be loaded. -/
theorem leavesSessions_iff (t : Tables K) (d : DumpReads K) :
    t.LeavesSessions d ↔ t.NoForeignVersions d := by
  constructor
  · intro h versionId cells hnew row hrow hlegible
    exact loadSession_merged_ne hrow hlegible hnew rfl
      (h cells.sessionId (AList.lookup_isSome.1 (by rw [hrow]; rfl)))
  · intro h id hid
    obtain ⟨row, hrow⟩ := Option.isSome_iff_exists.1 (AList.lookup_isSome.2 hid)
    by_cases hlegible : t.Legible (id, row)
    · refine loadSession_merged hrow fun versionId cells hnew heq => ?_
      subst heq
      exact h versionId cells hnew row hrow hlegible
    · have hraises : ∀ t' : Tables K, t'.sessions.lookup id = some row → ¬t'.Legible (id, row) →
          t'.loadSession id = .error (.keyError "knowledge_structure") := by
        intro t' hrow' hnot
        cases hload : t'.loadSession id with
        | ok s => exact absurd (legible_of_loadSession hrow' hload) hnot
        | error e => exact congrArg Except.error (loadSession_error hload)
      have hstill : ¬(t.merged d).Legible (id, row) := by
        obtain ⟨new, hrows, -⟩ := merged_versions t d
        refine fun hmerged => hlegible ⟨hmerged.session, fun v hv hvid => ?_⟩
        exact hmerged.versions v (by rw [hrows]; exact List.mem_append_left _ hv) hvid
      rw [hraises t hrow hlegible, hraises (t.merged d) (merged_session hrow) hstill]

end Tables

/-! ## A second import -/

/-- Two imports leave in the database what one does. -/
def Tables.MergesOnce (t : Tables K) (d : FullDump K) : Prop :=
  ∀ now now',
    let once := ((Connection.idle t).importStorage false (d.reads now)).2
    (once.importStorage false (d.reads now')).2.durable.Same once.durable

theorem firstError_map_of_ok {α β ε : Type} {read : α → Except ε β}
    (h : ∀ x, ∃ r, read x = .ok r) (l : List α) : firstError (l.map read) = none := by
  by_contra hne
  obtain ⟨e, he⟩ := firstError_ne_none_iff.1 hne
  obtain ⟨x, -, hx⟩ := List.mem_map.1 he
  obtain ⟨r, hr⟩ := h x
  cases hr.symm.trans hx

/-- What can be read throughout is read throughout. -/
theorem mem_readable_map {α β ε : Type} {read : α → Except ε β} (h : ∀ x, ∃ r, read x = .ok r)
    {l : List α} {r : β} : r ∈ readable (l.map read) ↔ ∃ x ∈ l, read x = .ok r := by
  constructor
  · intro hr
    exact List.mem_map.1 (ok_of_mem_readable hr)
  · intro hr
    obtain ⟨x, hx, hread⟩ := hr
    induction l with
    | nil => cases hx
    | cons y l ih =>
      obtain ⟨r', hr'⟩ := h y
      rw [List.map_cons, hr', readable, List.mem_cons]
      rcases List.mem_cons.1 hx with rfl | hx
      · cases hr'.symm.trans hread
        exact .inl rfl
      · exact .inr (ih hx)

namespace FullDump

variable (d : FullDump K) (now : Nat)

theorem readSession_ok (entry : DumpEntry SessionColumns (SessionData K)) :
    ∃ r, Tables.readSession now entry = .ok r := by
  rw [Tables.readSession]
  cases entry.json with
  | flat data => exact ⟨_, rfl⟩
  | wrapped columns data => exact ⟨_, rfl⟩

theorem readVersion_ok (entry : DumpEntry VersionColumns (Version K)) :
    ∃ r, Tables.readVersion entry = .ok r := by
  rw [Tables.readVersion]
  cases entry.json with
  | flat data => exact ⟨_, rfl⟩
  | wrapped columns data => exact ⟨_, rfl⟩

theorem firstErrors : firstError (d.reads now).sessions = none ∧
    firstError (d.reads now).versions = none ∧ firstError (d.reads now).graphs = none ∧
      firstError (d.reads now).embeddings = none ∧ firstError (d.reads now).outboxTasks = none :=
  ⟨firstError_map_of_ok (readSession_ok now) _, firstError_map_of_ok readVersion_ok _,
    firstError_map_of_ok (fun _ => ⟨_, rfl⟩) _, firstError_map_of_ok (fun _ => ⟨_, rfl⟩) _,
    firstError_map_of_ok (fun _ => ⟨_, rfl⟩) _⟩

/-- A dump is read without an exception. -/
theorem raises_reads : (d.reads now).raises = none := by
  obtain ⟨hs, hv, hg, he, ht⟩ := d.firstErrors now
  rw [DumpReads.raises, hs, hv, hg, he, ht]
  rfl

theorem before_reads : (d.reads now).before =
    { sessions := readable (d.reads now).sessions, versions := readable (d.reads now).versions,
      graphs := readable (d.reads now).graphs, embeddings := readable (d.reads now).embeddings,
      outboxTasks := d.outboxTasks.map fun task => task.row now } := by
  obtain ⟨hs, hv, hg, he, ht⟩ := d.firstErrors now
  have htasks : readable (d.reads now).outboxTasks = d.outboxTasks.map fun task => task.row now := by
    have hmap : (d.reads now).outboxTasks =
        (d.outboxTasks.map fun task => task.row now).map .ok := (List.map_map ..).symm
    rw [hmap, readable_map_ok]
  rw [DumpReads.before, hs, hv, hg, he, htasks]
  rfl

end FullDump

namespace Tables

theorem importStorage_reads (c : Connection K) (d : FullDump K) (now : Nat) :
    (c.importStorage false (d.reads now)).2 =
      Connection.idle (c.working.load (d.reads now).before) := by
  rw [Connection.importStorage, importStorage_run, d.raises_reads]
  rfl

theorem mem_insertAll {κ α : Type} [DecidableEq κ] {t : Table κ α} {rows : List (κ × α)} {r : κ × α}
    (h : r ∈ rows) : r.1 ∈ t.insertAll rows := by
  have hfirst : (Table.first rows r.1).isSome = true := by
    rw [Table.first, Option.isSome_map, List.find?_isSome]
    exact ⟨r, h, decide_eq_true rfl⟩
  rw [← AList.lookup_isSome, Table.lookup_insertAll, Option.isSome_or, hfirst, Bool.or_true]

/-- A second import inserts tasks, and nothing else. -/
theorem idempotent_reads (t : Tables K) (d : FullDump K) (now now' : Nat) :
    (t.load (d.reads now).before).Idempotent (d.reads now').before false ↔ d.outboxTasks = [] := by
  rw [d.before_reads now, d.before_reads now', Idempotent]
  have hsessions : ∀ r ∈ readable (d.reads now').sessions,
      r.1 ∈ t.sessions.insertAll (readable (d.reads now).sessions) := by
    intro r hr
    obtain ⟨entry, hentry, hread⟩ := (mem_readable_map (FullDump.readSession_ok now')).1 hr
    obtain ⟨r', hr'⟩ := FullDump.readSession_ok (K := K) now entry
    have hkey : r.1 = r'.1 := by
      rw [readSession] at hread hr'
      cases hjson : entry.json with
      | flat data =>
        rw [hjson] at hread hr'
        cases hread
        cases hr'
        rfl
      | wrapped columns data =>
        rw [hjson] at hread hr'
        cases hread
        cases hr'
        rfl
    rw [hkey]
    exact mem_insertAll ((mem_readable_map (FullDump.readSession_ok now)).2 ⟨entry, hentry, hr'⟩)
  constructor
  · intro h
    exact List.map_eq_nil_iff.1 h.2.2.2.2
  · intro h
    exact ⟨hsessions, fun r hr => mem_insertAll hr, fun r hr => mem_insertAll hr,
      fun r hr => mem_insertAll hr, List.map_eq_nil_iff.2 h⟩

theorem mergesOnce_dump_iff (t : Tables K) (d : FullDump K) :
    t.MergesOnce d ↔ d.outboxTasks = [] := by
  have htwice : ∀ now now',
      (((Connection.idle t).importStorage false (d.reads now)).2.importStorage false
        (d.reads now')).2.durable.Same
          ((Connection.idle t).importStorage false (d.reads now)).2.durable ↔ d.outboxTasks = [] := by
    intro now now'
    rw [importStorage_reads, importStorage_reads, ← idempotent_reads t d now now']
    exact load_same_iff (t.load (d.reads now).before) false (d.reads now').before
  exact ⟨fun h => (htwice 0 0).1 (h 0 0), fun h now now' => (htwice now now').2 h⟩

theorem outboxTasks_fullExport (s : Tables K) : s.fullExport.outboxTasks = [] ↔
    ∀ taskId ≤ s.outbox.lastId, ∀ r ∈ s.outbox.rows taskId, r.status ≠ .pending := by
  show s.outbox.dumped = [] ↔ _
  rw [Outbox.dumped, List.filterMap_eq_nil_iff]
  simp only [List.mem_range, Nat.lt_succ_iff, Option.map_eq_none_iff, Option.filter_eq_none_iff,
    decide_eq_true_eq, Option.mem_def, ne_eq]

end Tables

/-- **A merge is idempotent** exactly when the dump has no outbox tasks, which of an exported store
says that none was waiting. -/
theorem mergesOnce_iff (t : Tables K) : (∀ d : FullDump K, t.MergesOnce d ↔ d.outboxTasks = []) ∧
    ∀ s : Tables K, t.MergesOnce s.fullExport ↔
      ∀ taskId ≤ s.outbox.lastId, ∀ r ∈ s.outbox.rows taskId, r.status ≠ .pending :=
  ⟨t.mergesOnce_dump_iff, fun s => (t.mergesOnce_dump_iff _).trans s.outboxTasks_fullExport⟩

/-- A task that waits. -/
def waitingTask : OutboxRow where
  taskType := "projection"
  sessionId := "s"
  payload := "{}"
  nextRetryAt := []
  createdAt := 0

/-- A store with one waiting task, imported twice into a fresh one. -/
theorem task_merged_twice : ¬∀ t s : Tables Core.register, t.MergesOnce s.fullExport := by
  intro h
  let s : Tables Core.register := { outbox := Outbox.insertTask {} waitingTask }
  have htasks := (Tables.mergesOnce_dump_iff {} s.fullExport).1 (h {} s)
  cases htasks

/-! ## Two histories of one session -/

/-- A version of one. -/
def versionOne (versionId : String) : Version Core.register where
  versionId := versionId
  sessionId := "s"
  transactionId := "t"
  knowledgeStructure := some (1 : Nat)
  metadata := {}
  stateHash := none
  patch := none
  createdAt := 0

/-- A session with it. -/
def sessionAt (versionId : String) : Session Core.register where
  knowledgeStructure := (1 : Nat)
  sessionId := "s"
  versionHistory := [versionOne versionId]

/-- A session with one version is stored, and the dump has another version of it. -/
theorem foreign_version_loaded : ¬∀ (t : Tables Core.register) (d : FullDump Core.register),
    t.LeavesSessions (d.reads 0) := by
  intro h
  let t : Tables Core.register :=
    (({} : Tables Core.register).putVersion (versionOne "v1")).putSession 0 (sessionAt "v1")
  let d : FullDump Core.register := {
    sessions := [.text (.flat (sessionAt "v2").toData)]
    versions := [.text (.flat (versionOne "v2"))]
    graphs := [] }
  have hempty : Tables.Flat (K := Core.register) {} :=
    ⟨fun _ _ h => (by cases h), fun _ _ h => (by cases h), fun _ _ h => (by cases h)⟩
  have hflat : t.Flat := (hempty.putVersion (versionOne "v1")).putSession 0 (sessionAt "v1")
  have hnew : t.InsertsVersion (d.reads 0) "v2" ⟨"s", .flat (versionOne "v2")⟩ := ⟨rfl, rfl⟩
  exact Tables.loadSession_merged_ne rfl (hflat.legible rfl) hnew rfl
    (h t d "s" (AList.lookup_isSome.1 rfl))

end CksRuntime
