import CksRuntime.Storage.Graphs
import CksRuntime.Storage.SQLite

/-!
# The in-memory store

`storage/memory_storage.py`: a dict of sessions, one of versions and one of graphs. What is stored
and what is returned are copies, and a stored session carries its own version history.
-/

set_option autoImplicit false

namespace CksRuntime

/-- The dicts of the storage. -/
structure InMemoryStorage (K : Core) where
  sessions : Table String (Session K) := ∅
  versions : Table String (Version K) := ∅
  graphs : InMemoryStorage.Registry := ∅

namespace InMemoryStorage

variable {K : Core}

/-- The latest version of the copy that is stored. -/
def currentLatest (m : InMemoryStorage K) (sessionId : String) : Option String :=
  (m.sessions.lookup sessionId).bind (·.latestVersionId)

/-- What is raised by a value that `deepcopy` does not take. -/
def uncopied : Err K.Obj := .typeError "cannot pickle"

/-- The copy is stored; a file handle in the metadata, say, cannot be copied. -/
def putCopy (m : InMemoryStorage K) (s : Session K) : Except (Err K.Obj) (InMemoryStorage K) :=
  if s.metadata.Copied then .ok { m with sessions := m.sessions.set s.sessionId s }
  else .error uncopied

/-- `save_session`: an expected version has to be the latest one of the stored copy. -/
def saveSession (m : InMemoryStorage K) (s : Session K) (expectedVersionId : Option String) :
    Except (Err K.Obj) (InMemoryStorage K) :=
  match expectedVersionId with
  | none => m.putCopy s
  | some expected =>
    if m.currentLatest s.sessionId = some expected then m.putCopy s
    else .error (.concurrentModification s.sessionId)

/-- `load_session`. -/
def loadSession (m : InMemoryStorage K) (sessionId : String) : Option (Session K) :=
  m.sessions.lookup sessionId

/-- `save_version`: an assignment, also of an id that exists. -/
def saveVersion (m : InMemoryStorage K) (v : Version K) :
    Except (Err K.Obj) (InMemoryStorage K) :=
  if v.metadata.Copied then .ok { m with versions := m.versions.set v.versionId v }
  else .error uncopied

end InMemoryStorage

end CksRuntime
