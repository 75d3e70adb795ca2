import CksRuntime.Runtime.Writers

/-!
# Archival of the written session

`SQLiteStorage.archive_session`, at any time between the calls of the writers. It copies the row of
the session to `archive_sessions`, which nothing reads, and deletes it; the rows of `versions` stay.
The session is created again by a writer that saves it.
-/

set_option autoImplicit false

namespace CksRuntime

open Transition Effect

variable {K : Core} {ι : Type}

/-- `archive_session`, of what is read here: the row goes, its versions stay. -/
def Storage.archiveSession (st : Storage K) (sessionId : String) : Storage K :=
  { st with sessions := Function.update st.sessions sessionId none }

namespace Writers

/-- The versions stored for the session, in the order they were saved. -/
def stored (w : Writers K ι) (sessionId : String) : List (Version K) :=
  w.storage.versions.filter (·.sessionId == sessionId)

/-- The last version stored of the session. -/
def lastStored (w : Writers K ι) (sessionId : String) : Option String :=
  (w.stored sessionId).getLast?.map (·.versionId)

/-- A stored session is loaded with the versions its row lists, in their order. -/
def HistoryLoads (w : Writers K ι) (sessionId : String) : Prop :=
  ∀ s, w.storage.loadSession sessionId = some s → ∀ row, w.storage.sessions sessionId = some row →
    s.versionHistory.map (·.versionId) = row.versionHistoryIds

/-- A write, or an archival. -/
inductive Upkeep (K : Core) (ι : Type)
  | write (l : Write K ι)
  | archive

variable [DecidableEq ι]

/-- What either leaves. -/
inductive UpkeepStep (sessionId : String) : Writers K ι → Upkeep K ι → Writers K ι → Prop
  /-- Writes of other sessions leave the versions of this one. -/
  | write {w w' : Writers K ι} {l : Write K ι} :
      Step sessionId w l w' →
      (∀ storage, l = .elsewhere storage → w'.stored sessionId = w.stored sessionId) →
      UpkeepStep sessionId w (.write l) w'
  | archive (w : Writers K ι) :
      UpkeepStep sessionId w .archive { w with storage := w.storage.archiveSession sessionId }

/-- Runs of both. -/
def upkeep (K : Core) (ι : Type) [DecidableEq ι] (sessionId : String) :
    System (Writers K ι) (Upkeep K ι) where
  init := (system K ι sessionId).init
  step := UpkeepStep sessionId

/-! ## What a save is made on -/

/-- A commit that makes its version and saves it, and goes on to save the session. -/
def SavesVersion (env : Env K) (c : Ctx K) : Prop :=
  returned ((Pipeline.executeStage env >>= fun _ =>
    Pipeline.createVersion env c.session.knowledgeStructure) c) = true ∧
  env.saveVersionFault = none

/-- Whoever saves the session holds the last version stored for it, or none if none is stored. A
commit that saves its version saves the session too, and its clock is not behind a stored
version's. -/
def SavesLast (sessionId : String) (w : Writers K ι) : Upkeep K ι → Prop
  | .write l =>
    (∀ s ∈ w.unconditional l, s.latestVersionId = w.lastStored sessionId) ∧
    ∀ i env tx shared, l = .commit i env tx shared → ∀ s ∈ w.copies i,
      SavesVersion env (w.ctx s tx shared) →
        s.latestVersionId = w.lastStored sessionId ∧ env.saveSessionFault = none ∧
          ∀ v ∈ w.stored sessionId, v.createdAt ≤ env.now
  | .archive => True

end Writers

end CksRuntime
