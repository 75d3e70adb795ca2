import CksRuntime.Crdt.Causality
import CksRuntime.Crdt.MerkleTree

/-!
# The multi-value register

`update_pointer`, `resolve_pointer` and `get_pointers` of the CRDT stores. The loop over the
pointers a key has is the same in all of them; they differ in what overwriting a pointer keeps.
-/

set_option autoImplicit false

namespace CksRuntime.Crdt

/-- A pointer of a key. `createdAt` is the time of the call that records it. -/
structure Pointer where
  objectId : Text
  vectorClock : VersionVector
  originNode : String
  createdAt : Nat
  deriving DecidableEq

/-- What a write is to the register: the id and its clock. -/
def Pointer.write (p : Pointer) : Text × VersionVector := (p.objectId, p.vectorClock)

/-- The pointers of one key, in the order they were added: one for an object id. -/
structure Bucket where
  pointers : List Pointer
  nodup : (pointers.map (·.objectId)).Nodup

namespace Bucket

/-- No pointers. -/
def empty : Bucket := ⟨[], List.nodup_nil⟩

/-- The clock held for an id. -/
def clockOf (bucket : Bucket) (objectId : Text) : Option VersionVector :=
  (bucket.pointers.find? (·.objectId = objectId)).map (·.vectorClock)

end Bucket

/-- The store that keeps the register. -/
inductive Backend
  | inMemory | sqlite
  deriving DecidableEq

/-- What stands for an id that is written again: the dict takes the new value, the row keeps its
`created_at`. -/
def Backend.overwrite : Backend → Pointer → Pointer → Pointer
  | .inMemory, _, new => new
  | .sqlite, old, new => { new with createdAt := old.createdAt }

/-- The ids to delete before `new` is written, or `none` where the loop returns early: an existing
pointer dominates the write. -/
def toDelete (new : Pointer) : List Pointer → Option (List Text)
  | [] => some []
  | existing :: rest =>
    let relation := causalityCheck new.vectorClock existing.vectorClock
    if relation = .dominated ∧ existing.objectId ≠ new.objectId then none
    else if relation ≠ .concurrent ∧ existing.objectId ≠ new.objectId then
      (existing.objectId :: ·) <$> toDelete new rest
    else toDelete new rest

namespace Bucket

/-- The pointers less those of `ids`. -/
def delete (bucket : Bucket) (ids : List Text) : Bucket where
  pointers := bucket.pointers.filter (·.objectId ∉ ids)
  nodup := bucket.nodup.sublist (List.filter_sublist.map _)

theorem overwrite_objectId (backend : Backend) (old new : Pointer) :
    (backend.overwrite old new).objectId = new.objectId := by
  cases backend <;> rfl

theorem map_overwrite_objectId (backend : Backend) (new : Pointer) (pointers : List Pointer) :
    (pointers.map fun old => if old.objectId = new.objectId then backend.overwrite old new
      else old).map (·.objectId) = pointers.map (·.objectId) := by
  rw [List.map_map]
  refine List.map_congr_left fun old _ => ?_
  rw [Function.comp_apply]
  split
  · rename_i h
    rw [overwrite_objectId, h]
  · rfl

/-- The id's pointer in place, or a pointer more. -/
def put (backend : Backend) (bucket : Bucket) (new : Pointer) : Bucket :=
  if h : new.objectId ∈ bucket.pointers.map (·.objectId) then
    { pointers := bucket.pointers.map fun old =>
        if old.objectId = new.objectId then backend.overwrite old new else old
      nodup := by
        rw [map_overwrite_objectId]
        exact bucket.nodup }
  else
    { pointers := bucket.pointers ++ [new]
      nodup := by
        rw [List.map_append, List.map_singleton, List.nodup_append]
        refine ⟨bucket.nodup, List.nodup_singleton _, ?_⟩
        rintro x hx y hy rfl
        exact h (List.mem_singleton.1 hy ▸ hx) }

/-- `update_pointer` in one bucket, and whether it is accepted. -/
def update (backend : Backend) (bucket : Bucket) (new : Pointer) : Bool × Bucket :=
  match toDelete new bucket.pointers with
  | none => (false, bucket)
  | some ids => (true, (bucket.delete ids).put backend new)

/-- `resolve_pointer` in one bucket: the winner alone is left. -/
def resolve (bucket : Bucket) (winner : Text) : Bool × Bucket :=
  if winner ∈ bucket.pointers.map (·.objectId) then
    (true, ⟨bucket.pointers.filter (·.objectId = winner),
      bucket.nodup.sublist (List.filter_sublist.map _)⟩)
  else (false, bucket)

end Bucket

/-- `cks_mv_register`, by `pointer_key`. -/
abbrev MVRegister := Text → Bucket

/-- No pointers under any key. -/
def MVRegister.empty : MVRegister := fun _ => .empty

/-- What the call returns, and the register after it. -/
def updatePointer (backend : Backend) (register : MVRegister) (pointerKey : Text) (new : Pointer) :
    Bool × MVRegister :=
  let (added, bucket) := (register pointerKey).update backend new
  (added, Function.update register pointerKey bucket)

/-- `resolve_pointer`. -/
def resolvePointer (register : MVRegister) (pointerKey winner : Text) : Bool × MVRegister :=
  let (resolved, bucket) := (register pointerKey).resolve winner
  (resolved, Function.update register pointerKey bucket)

/-- `get_pointers`: SQLite orders its rows by time, the dict is in insertion order. -/
def getPointers (backend : Backend) (register : MVRegister) (pointerKey : Text) : List Pointer :=
  match backend with
  | .inMemory => (register pointerKey).pointers
  | .sqlite => (register pointerKey).pointers.mergeSort fun p q => p.createdAt ≤ q.createdAt

/-- Every write that no other id's write dominates is the only one of its id, and no other id has a
write with an equal clock. -/
def Convergent (writes : Finset (Text × VersionVector)) : Prop :=
  ∀ w ∈ writes, (∀ v ∈ writes, v.1 ≠ w.1 → causalityCheck w.2 v.2 ≠ .dominated) →
    ∀ v ∈ writes, if v.1 = w.1 then v.2 = w.2 else causalityCheck w.2 v.2 ≠ .equal

instance (writes : Finset (Text × VersionVector)) : Decidable (Convergent writes) := by
  unfold Convergent
  exact inferInstance

/-! ## Runs -/

/-- A call on the register. -/
inductive PointerCall
  | update (pointerKey : Text) (new : Pointer)
  | resolve (pointerKey winner : Text)

/-- What it returns and leaves. -/
def PointerCall.run (backend : Backend) (register : MVRegister) : PointerCall → Bool × MVRegister
  | .update pointerKey new => updatePointer backend register pointerKey new
  | .resolve pointerKey winner => resolvePointer register pointerKey winner

/-- The register after some calls. -/
def runCalls (backend : Backend) (register : MVRegister) (calls : List PointerCall) : MVRegister :=
  calls.foldl (fun register call => (call.run backend register).2) register

/-- The register after deliveries of some writes to a key. -/
def deliver (backend : Backend) (register : MVRegister) (pointerKey : Text)
    (writes : List Pointer) : MVRegister :=
  runCalls backend register (writes.map (.update pointerKey))

/-- The writes to a key that calls report as applied. -/
def applied (backend : Backend) (pointerKey : Text) :
    MVRegister → List PointerCall → List (Text × VersionVector)
  | _, [] => []
  | register, call :: calls =>
    let (done, register') := call.run backend register
    let later := applied backend pointerKey register' calls
    match call with
    | .update key new =>
      if key = pointerKey ∧ done then new.write :: later else later
    | .resolve _ _ => later

end CksRuntime.Crdt
