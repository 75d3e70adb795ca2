import CksRuntime.Core.Laws
import CksRuntime.Lib.Lockstep
import CksRuntime.Storage.Archive

/-!
# What the archive keeps

`losesNothing_iff`: in every run of saves and archivals, each archival leaves in the archive what
the live row said exactly when, in Postgres, the archive is there and does not hold anything else of
that id. `createTables_archiveSessions`: connecting never makes the archive. A row of the Postgres
archive says what it said when the id was archived first (`archived_run`).
-/

set_option autoImplicit false

namespace CksRuntime

open Lockstep (Along Throughout throughout_iff)

variable {K : Core}

namespace Tables

theorem deleteSession_sessions (t : Tables K) (sessionId id : String) :
    (t.deleteSession sessionId).sessions.lookup id =
      if id = sessionId then none else t.sessions.lookup id := Table.lookup_erase_eq ..

end Tables

namespace ArchivingTables

variable (t : ArchivingTables K) (now : Nat) (sessionId id : String)

theorem archiveSession_sessions : (t.archiveSession now sessionId).sessions.lookup id =
    if id = sessionId then none else t.sessions.lookup id := Tables.deleteSession_sessions ..

theorem archiveSession_archive : (t.archiveSession now sessionId).archive.lookup id =
    if id = sessionId then
      ((t.sessions.lookup id).map fun c =>
        ⟨c.data, c.latestVersionId, c.modifiedAt, now⟩).or (t.archive.lookup id)
    else t.archive.lookup id := by
  rw [archiveSession]
  dsimp only
  by_cases hid : id = sessionId
  · subst hid
    rw [if_pos rfl]
    cases t.sessions.lookup id with
    | none => rfl
    | some cells => exact AList.lookup_insert _
  · rw [if_neg hid]
    cases t.sessions.lookup sessionId with
    | none => rfl
    | some cells => exact AList.lookup_insert_ne hid

end ArchivingTables

/-- **Connecting makes no archive**: the table is there afterwards if it was there before. -/
theorem PostgresCatalog.createTables_archiveSessions {c c' : PostgresCatalog}
    (h : c.createTables = .ok c') : c'.archiveSessions = c.archiveSessions := by
  obtain ⟨modifiedAt, archive⟩ := c
  -- `sessions` is made with the column, or has it, or the index cannot be made.
  rcases modifiedAt with _ | _ | _ <;> cases h
  · rfl
  · rfl

namespace PostgresArchive

variable (p : PostgresArchive K) (now : Nat) (sessionId id : String)

theorem archiveSession_missing (h : p.archive = none) :
    p.archiveSession now sessionId = .error .undefinedTable := by
  rw [archiveSession, h]

theorem archiveSession_present {archive : Table String (ArchivedCells (SessionData K))}
    (h : p.archive = some archive) :
    ∃ q archive', p.archiveSession now sessionId = .ok q ∧ q.archive = some archive' ∧
      ∀ id, (archive'.lookup id).map (fun c => c.data.image c.latestVersionId) =
        if id = sessionId then
          ((archive.lookup id).map fun c => c.data.image c.latestVersionId).or
            ((p.sessions.lookup id).map fun r => r.data.image r.columns.latestVersionId)
        else (archive.lookup id).map fun c => c.data.image c.latestVersionId := by
  rw [archiveSession, h]
  refine ⟨_, _, rfl, rfl, fun id => ?_⟩
  by_cases hid : id = sessionId
  · subst hid
    rw [if_pos rfl]
    cases hrow : p.sessions.lookup id with
    | none => simp
    | some row =>
      cases hold : archive.lookup id with
      | none => simp [AList.lookup_insert]
      | some archived =>
        have hin : id ∈ archive := AList.lookup_isSome.1 (by rw [hold]; rfl)
        dsimp only
        rw [Table.lookup_replace _ _ _ _ hin, if_pos rfl]
        rfl
  · rw [if_neg hid]
    cases p.sessions.lookup sessionId with
    | none => rfl
    | some row =>
      cases hold : archive.lookup sessionId with
      | none => simp [AList.lookup_insert_ne hid]
      | some archived =>
        have hin : sessionId ∈ archive := AList.lookup_isSome.1 (by rw [hold]; rfl)
        dsimp only
        rw [Table.lookup_replace _ _ _ _ hin, if_neg hid]

theorem saveSession_archive (s : Session K) (expected : Option String) :
    (p.saveSession now s expected).archive = p.archive := by
  rw [saveSession]
  split
  · rfl
  · rfl

end PostgresArchive

namespace ArchiveStore

theorem archived_sqlite (t : ArchivingTables K) (now : Nat) (id : String) :
    ((sqlite t).call (.archiveSession now id)).archived id =
      (live id (.sqlite t)).or (archived id (.sqlite t)) := by
  show ((t.archiveSession now id).archive.lookup id).map _ = _
  rw [ArchivingTables.archiveSession_archive, if_pos rfl, live, archived]
  cases t.sessions.lookup id with
  | none => rfl
  | some cells => rfl

/-- The archive of Postgres is written at most at the id, and what it has there it keeps. -/
theorem archived_postgres (p : PostgresArchive K) (now : Nat) (sessionId id : String) :
    ((postgres p).call (.archiveSession now sessionId)).archived id =
      if p.archive.isSome ∧ id = sessionId then
        (archived id (.postgres p)).or (live id (.postgres p))
      else archived id (.postgres p) := by
  cases harchive : p.archive with
  | none =>
    have hcall : (postgres p).call (.archiveSession now sessionId) = .postgres p := by
      simp [call, p.archiveSession_missing now sessionId harchive]
    simp [hcall]
  | some archive =>
    obtain ⟨q, archive', hok, hq, himage⟩ := p.archiveSession_present now sessionId harchive
    have hcall : (postgres p).call (.archiveSession now sessionId) = .postgres q := by
      simp [call, hok]
    simp [hcall, archived, live, hq, harchive, himage]

theorem call_losesNothing_iff (s : ArchiveStore K) (c : ArchiveCall K) :
    s.LosesNothing c ↔ s.Archivable c := by
  cases c with
  | saveSession now session expected => exact Iff.rfl
  | archiveSession now id =>
    rw [LosesNothing]
    cases s with
    | sqlite t =>
      refine iff_of_true (fun image hlive => ?_) trivial
      rw [archived_sqlite, hlive]
      rfl
    | postgres p =>
      rw [Archivable.eq_def]
      refine forall_congr' fun image => imp_congr_right fun hlive => ?_
      rw [archived_postgres, hlive]
      cases harchive : p.archive with
      | none =>
        -- Nothing can have been archived.
        have hnone : archived id (.postgres p) = none := by simp [archived, harchive]
        simp [hnone]
      | some archive =>
        cases archived id (.postgres p) with
        | none => simp
        | some old => simp

/-- **An archival loses nothing**, in every run, exactly when the archive of Postgres is there
and holds nothing else of the session. -/
theorem losesNothing_iff (s : ArchiveStore K) (calls : List (ArchiveCall K)) :
    Throughout call LosesNothing calls s ↔ Throughout call Archivable calls s :=
  throughout_iff (I := fun _ => True) (fun s c _ => call_losesNothing_iff s c)
    (fun _ _ _ _ => trivial) calls s trivial

/-! ## The first archival -/

theorem archived_call {p : PostgresArchive K} {id : String} {image : SessionImage K}
    (h : archived id (.postgres p) = some image) (c : ArchiveCall K) :
    archived id ((postgres p).call c) = some image := by
  cases c with
  | saveSession now s expected =>
    show ((p.saveSession now s expected).archive.bind (·.lookup id)).map _ = _
    rw [p.saveSession_archive]
    exact h
  | archiveSession now sessionId =>
    rw [archived_postgres, h]
    simp

/-- What Postgres has archived of a session it keeps, whatever is saved and archived later. -/
theorem archived_run {id : String} {image : SessionImage K} (calls : List (ArchiveCall K)) :
    ∀ {p : PostgresArchive K}, archived id (.postgres p) = some image →
      archived id (calls.foldl call (.postgres p)) = some image := by
  induction calls with
  | nil => exact fun h => h
  | cons c calls ih =>
    intro p h
    have hstep := archived_call h c
    cases c with
    | saveSession now s expected => exact ih hstep
    | archiveSession now sessionId => exact ih hstep

/-- The first archival in a database that `connect` has made the tables of. -/
theorem first_archival_lost : ¬∀ (c c' : PostgresCatalog), c.createTables = .ok c' →
    ∀ calls : List (ArchiveCall Core.register),
      Throughout call LosesNothing calls (.postgres (.empty c')) := by
  intro h
  let live : Session Core.register := { knowledgeStructure := (1 : Nat), sessionId := "s" }
  have hlost := h {} ⟨some true, false⟩ rfl [.saveSession 0 live none, .archiveSession 1 "s"]
  have hkept := hlost.2.1 _ rfl
  cases hkept

end ArchiveStore

end CksRuntime
