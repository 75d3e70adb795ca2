import CksRuntime.Crdt.Register
import CksRuntime.Crdt.Store
import CksRuntime.Versioning.VersionVector

/-!
# The merge of a snapshot's objects

`GossipAdapter._merge_crdt_objects` and the quarantine it goes through (`crdt/quarantine.py`): the
objects that pass validation are added to the set, then each object's pointer is advanced to the
snapshot's clock and a fork it makes is escalated.
-/

set_option autoImplicit false

namespace CksRuntime.Crdt

/-- `from_dict`: what is malformed is dropped. -/
def VersionVector.fromDict : Option RawVector → VersionVector
  | some (.dict ints _) => ⟨ints⟩
  | _ => ⟨∅⟩

/-- What `cks.validate` makes of an object: there may be none to call, it may raise, and it may
return a bool or a report with an `is_valid` or a `valid`. -/
inductive Validation
  | noValidator
  | raised
  | returned (result : Bool)
  | report (isValid valid : Option Bool)
  deriving DecidableEq, Repr

/-- `_is_structurally_valid`. -/
def Validation.isStructurallyValid : Validation → Bool
  | .noValidator => true
  | .raised => false
  | .returned result => result
  | .report (some isValid) _ => isValid
  | .report none (some valid) => valid
  | .report none none => true

/-- An object of a snapshot, what validation makes of it, and the time its pointer is written. -/
structure SnapshotObject (Obj : Type) where
  payload : Payload Obj
  validation : Validation
  now : Nat := 0

/-- The objects of a remote session, and its metadata's `crdt_version_vector`. -/
structure ObjectSnapshot (Obj : Type) where
  objects : List (SnapshotObject Obj)
  versionVector : Option RawVector

/-- A row of `cks_conflict_events`, without its id and time. -/
structure ConflictEvent where
  pointerKey : Text
  conflictingObjectIds : List Text
  vectorClocks : List VersionVector

/-- A CRDT store, as the adapter uses it: the ids held, the register, and the forks reported. -/
structure CRDTStore where
  objects : List Text := []
  register : MVRegister := .empty
  conflictEvents : List ConflictEvent := []

variable {Obj : Type} (leafHash : Obj → Text)

namespace CRDTQuarantine

/-- `validate_and_add`: whether something new was admitted. The identity is consistent when the
object has an id at all. -/
def validateAndAdd (store : CRDTStore) (object : SnapshotObject Obj) : Bool × CRDTStore :=
  if ¬object.validation.isStructurallyValid then (false, store)
  else
    match objectIdFor leafHash object.payload with
    | .error _ => (false, store)
    | .ok objectId =>
      if objectId ∈ store.objects then (false, store)
      else (true, { store with objects := store.objects ++ [objectId] })

/-- The count admitted. -/
def processBatch : CRDTStore → List (SnapshotObject Obj) → Nat × CRDTStore
  | store, [] => (0, store)
  | store, object :: objects =>
    let (isNew, store') := validateAndAdd leafHash store object
    let (admitted, store'') := processBatch store' objects
    (if isNew then admitted + 1 else admitted, store'')

end CRDTQuarantine

namespace GossipAdapter

/-- The key and the id the pointer loop goes on with. Only an object of Core has an `identity`; an
empty `identity.id` is skipped. -/
def pointerTarget (identityId : Obj → Text) : Payload Obj → Option (Text × Text)
  | .knowledgeObject obj =>
    if identityId obj = [] then none else some (identityId obj, leafHash obj)
  | .record _ _ | .other _ => none

/-- `_detect_and_handle_fork`. -/
def detectAndHandleFork (backend : Backend) (store : CRDTStore) (pointerKey : Text) : CRDTStore :=
  let pointers := getPointers backend store.register pointerKey
  if pointers.length ≤ 1 then store
  else { store with conflictEvents := store.conflictEvents ++
    [⟨pointerKey, pointers.map (·.objectId), pointers.map (·.vectorClock)⟩] }

variable (identityId : Obj → Text) (backend : Backend) (replicaId : String)

/-- The pointer the loop writes. -/
def newPointer (remoteVector : VersionVector) (object : SnapshotObject Obj) (objectId : Text) :
    Pointer := ⟨objectId, remoteVector, replicaId, object.now⟩

/-- An iteration of the pointer loop. -/
def advancePointer (remoteVector : VersionVector) (store : CRDTStore)
    (object : SnapshotObject Obj) : CRDTStore :=
  match pointerTarget leafHash identityId object.payload with
  | none => store
  | some (pointerKey, objectId) =>
    let (added, register) := updatePointer backend store.register pointerKey
      (newPointer replicaId remoteVector object objectId)
    let store := { store with register := register }
    if added then detectAndHandleFork backend store pointerKey else store

/-- `_merge_crdt_objects`: how many objects were new. -/
def mergeCrdtObjects (store : CRDTStore) (remote : ObjectSnapshot Obj) : Nat × CRDTStore :=
  let (result, store) := CRDTQuarantine.processBatch leafHash store remote.objects
  let remoteVector := VersionVector.fromDict remote.versionVector
  (result, remote.objects.foldl
    (advancePointer leafHash identityId backend replicaId remoteVector) store)

/-! ## Runs -/

/-- The ids held once the quarantine is through with a snapshot. -/
def Admitted (store : CRDTStore) (remote : ObjectSnapshot Obj) (objectId : Text) : Prop :=
  objectId ∈ store.objects ∨ ∃ object ∈ remote.objects,
    object.validation.isStructurallyValid ∧ objectIdFor leafHash object.payload = .ok objectId

/-- Whether the loop applies pointers to held ids only, from a register on: an object without a key
is passed by, and of another either its id is held or its update is refused. -/
def PointsToHeld (held : Text → Prop) (remoteVector : VersionVector) :
    MVRegister → List (SnapshotObject Obj) → Prop
  | _, [] => True
  | register, object :: objects =>
    match pointerTarget leafHash identityId object.payload with
    | none => PointsToHeld held remoteVector register objects
    | some (pointerKey, objectId) =>
      let new := newPointer replicaId remoteVector object objectId
      (held objectId ∨ (updatePointer backend register pointerKey new).1 = false) ∧
        PointsToHeld held remoteVector (updatePointer backend register pointerKey new).2 objects

end GossipAdapter

end CksRuntime.Crdt
