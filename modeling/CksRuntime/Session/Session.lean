import CksRuntime.Versioning.VersionVector

/-!
# Sessions and versions

`versioning/version.py` and `session/session.py`: a session with its version history, and the
reconstruction of a version's state. A version is a snapshot (its structure stored) or a delta (a
patch to replay on the version before it), decided once when it is created.
-/

set_option autoImplicit false

namespace CksRuntime

/-- `RuntimeVersion`. -/
structure Version (K : Core) where
  versionId : String
  sessionId : String
  transactionId : String
  knowledgeStructure : Option K.Structure
  metadata : Metadata
  stateHash : Option K.Hash
  patch : Option (List K.Operator)
  createdAt : Nat

theorem defaultInterval_pos : 0 < 10 := by decide

/-- `RuntimeSession`. The active transaction is its id. -/
structure Session (K : Core) where
  knowledgeStructure : K.Structure
  sessionId : String
  metadata : Metadata := {}
  snapshotInterval : Nat := 10
  /-- `__post_init__` refuses an interval below one. -/
  interval_pos : 0 < snapshotInterval := by exact defaultInterval_pos
  diagnostics : List Diagnostic := []
  versionHistory : List (Version K) := []
  activeTransaction : Option String := none
  closed : Bool := false
  parentSessionId : Option String := none
  parentVersionId : Option String := none

variable {K : Core}

namespace Session

/-- `VersionVector.from_metadata(session.metadata)`. -/
def vector (s : Session K) : VersionVector := VersionVector.fromMetadata s.metadata

/-- `has_active_transaction`. -/
def hasActiveTransaction (s : Session K) : Bool := s.activeTransaction.isSome

/-- The id of `version_history[-1]`. -/
def latestVersionId (s : Session K) : Option String := s.versionHistory.getLast?.map (·.versionId)

end Session

/-! ## The replay filter -/

/-- The loop of `_dedupe_replayed_add_objects`; `existing` are the ids of the objects replayed so
far. An `AddObject` for an id that exists is dropped, whether it is identical or not. -/
def dedupeLoop : List String → List K.Operator → List K.Operator
  | _, [] => []
  | existing, op :: patch =>
    match K.asRemoveObject op with
    | some objectId => op :: dedupeLoop (existing.filter (· ≠ objectId)) patch
    | none =>
      match K.asAddObject op with
      | some obj =>
        if K.identityId obj ∈ existing then dedupeLoop existing patch
        else op :: dedupeLoop (K.identityId obj :: existing) patch
      | none => op :: dedupeLoop existing patch

/-- `_dedupe_replayed_add_objects`. -/
def dedupeReplayedAddObjects (state : K.Structure) (patch : List K.Operator) : List K.Operator :=
  if patch.any fun op => (K.asAddObject op).isSome then
    dedupeLoop ((K.objects state).map K.identityId) patch
  else patch

/-! ## Reconstruction -/

/-- `verify_checkpoint`: a recorded hash is compared when the Core can compute one. -/
def verifyCheckpoint (version : Version K) (structure' : K.Structure) : Except (Err K.Obj) Unit :=
  match version.stateHash with
  | none => .ok ()
  | some expected =>
    match K.hash structure' with
    | .ok actual =>
      if actual = expected then .ok ()
      else .error (.valueError ("Reconstructed state for version '" ++ version.versionId ++
        "' does not match its recorded hash (expected " ++ K.reprHash expected ++ ", got " ++
        K.reprHash actual ++ ")."))
    | .error e => if e.isRuntimeError then .ok () else .error e

/-- The version at index `i` with its stored structure, when it is a snapshot. -/
def snapshotAt (history : List (Version K)) (i : Nat) : Option (Version K × K.Structure) :=
  history[i]?.bind fun v => v.knowledgeStructure.map (v, ·)

/-- The nearest snapshot at or before index `i`. -/
def nearestSnapshot (history : List (Version K)) : Nat → Option (Nat × Version K × K.Structure)
  | 0 => (snapshotAt history 0).map (0, ·)
  | i + 1 =>
    match snapshotAt history (i + 1) with
    | some found => some (i + 1, found)
    | none => nearestSnapshot history i

/-- A round of the replay loop: the version's patch on the state before it, checked against its
hash. -/
def replayVersion (state : K.Structure) (version : Version K) :
    Except (Err K.Obj) K.Structure := do
  match version.patch with
  | none => throw (.valueError ("Version '" ++ version.versionId ++
      "' has neither a stored snapshot nor a recorded patch; cannot reconstruct the chain " ++
      "past it."))
  | some patch =>
    let state' ← K.evolve state (dedupeReplayedAddObjects state patch)
    verifyCheckpoint version state'
    pure state'

/-- `_version_index`. -/
def versionIndex (history : List (Version K)) (versionId : String) : Option Nat :=
  history.findIdx? (·.versionId == versionId)

/-- `get_version_state` past the lookup of the version's index: the snapshot itself, or the chain
of deltas from the nearest one. -/
def stateAt (history : List (Version K)) (versionId : String) (index : Nat) :
    Except (Err K.Obj) K.Structure := do
  match nearestSnapshot history index with
  | none => throw (.valueError ("No snapshot found at or before version '" ++ versionId ++
      "'; session history is inconsistent (the first version of a session must always be a " ++
      "snapshot)."))
  | some (i, version, state) =>
    verifyCheckpoint version state
    ((history.take (index + 1)).drop (i + 1)).foldlM replayVersion state

/-- `get_version_state`, given the Runtime's own bridge (as every caller gives it). -/
def Session.getVersionState (s : Session K) (versionId : String) :
    Except (Err K.Obj) K.Structure :=
  match versionIndex s.versionHistory versionId with
  | none => .error (.valueError ("Version '" ++ versionId ++ "' not found in session history."))
  | some index => stateAt s.versionHistory versionId index

end CksRuntime
