import CksRuntime.Crdt.Proof.Register
import CksRuntime.Gossip.ObjectMerge
import CksRuntime.Lib.Transition

/-!
# Pointers and the quarantine

The quarantine decides which objects are held; the pointer loop does not ask it. A store whose
pointers and reported forks name held ids (`Sound`) stays so as long as the loop applies pointers to
held ids only.
-/

set_option autoImplicit false

namespace CksRuntime.Crdt

open Transition

variable {Obj : Type} {leafHash : Obj → Text} {identityId : Obj → Text} {backend : Backend}
  {replicaId : String} {store : CRDTStore}

/-- Every id a pointer refers to, and every side of a reported conflict, is held. -/
structure CRDTStore.Sound (store : CRDTStore) : Prop where
  pointers : ∀ key, ∀ p ∈ (store.register key).pointers, p.objectId ∈ store.objects
  conflicts : ∀ event ∈ store.conflictEvents, ∀ x ∈ event.conflictingObjectIds, x ∈ store.objects

/-! ## The quarantine -/

/-- What the quarantine leaves of a store: more ids. -/
structure Grows (store store' : CRDTStore) : Prop where
  register : store'.register = store.register
  conflictEvents : store'.conflictEvents = store.conflictEvents
  objects : ∀ x ∈ store.objects, x ∈ store'.objects

theorem Grows.sound {store' : CRDTStore} (h : Grows store store') (hs : store.Sound) :
    store'.Sound where
  pointers key p hp := by
    rw [h.register] at hp
    exact h.objects _ (hs.pointers key p hp)
  conflicts event he x hx := by
    rw [h.conflictEvents] at he
    exact h.objects _ (hs.conflicts event he x hx)

namespace CRDTQuarantine

variable (leafHash) in
theorem validateAndAdd_grows (store : CRDTStore) (object : SnapshotObject Obj) :
    Grows store (validateAndAdd leafHash store object).2 := by
  unfold validateAndAdd
  split
  · exact ⟨rfl, rfl, fun _ => id⟩
  · split
    · exact ⟨rfl, rfl, fun _ => id⟩
    · split
      · exact ⟨rfl, rfl, fun _ => id⟩
      · exact ⟨rfl, rfl, fun _ hx => List.mem_append_left _ hx⟩

/-- A valid object with an id is held afterwards. -/
theorem mem_validateAndAdd {object : SnapshotObject Obj} {objectId : Text}
    (hvalid : object.validation.isStructurallyValid)
    (hid : objectIdFor leafHash object.payload = .ok objectId) :
    objectId ∈ (validateAndAdd leafHash store object).2.objects := by
  unfold validateAndAdd
  rw [if_neg (not_not.2 hvalid), hid]
  dsimp only
  split
  · rename_i hin
    exact hin
  · exact List.mem_append_right _ List.mem_cons_self

variable (leafHash) in
theorem processBatch_grows : ∀ (objects : List (SnapshotObject Obj)) (store : CRDTStore),
    Grows store (processBatch leafHash store objects).2
  | [], _ => ⟨rfl, rfl, fun _ => id⟩
  | object :: objects, store => by
    have hadd := validateAndAdd_grows leafHash store object
    have hrest := processBatch_grows objects (validateAndAdd leafHash store object).2
    exact ⟨hrest.register.trans hadd.register, hrest.conflictEvents.trans hadd.conflictEvents,
      fun x hx => hrest.objects x (hadd.objects x hx)⟩

theorem mem_processBatch {objectId : Text} : ∀ (objects : List (SnapshotObject Obj))
    (store : CRDTStore), (∃ object ∈ objects, object.validation.isStructurallyValid ∧
      objectIdFor leafHash object.payload = .ok objectId) →
      objectId ∈ (processBatch leafHash store objects).2.objects
  | [], _, h => by simp at h
  | first :: objects, store, ⟨object, hin, hvalid, hid⟩ => by
    rcases List.mem_cons.1 hin with rfl | hmem
    · exact (processBatch_grows leafHash objects _).objects _ (mem_validateAndAdd hvalid hid)
    · exact mem_processBatch objects _ ⟨object, hmem, hvalid, hid⟩

end CRDTQuarantine

open CRDTQuarantine

namespace GossipAdapter

/-! ## The pointer loop -/

theorem mem_getPointers {register : MVRegister} {key : Text} {p : Pointer} :
    p ∈ getPointers backend register key ↔ p ∈ (register key).pointers := by
  cases backend
  · exact Iff.rfl
  · exact List.mem_mergeSort

/-- The ids of an updated register: those it had, and that of the write if it was applied. -/
theorem updatePointer_ids {register : MVRegister} {pointerKey key : Text} {new p : Pointer}
    (hp : p ∈ ((updatePointer backend register pointerKey new).2 key).pointers) :
    (∃ q ∈ (register key).pointers, q.objectId = p.objectId) ∨
      (updatePointer backend register pointerKey new).1 = true ∧ p.objectId = new.objectId := by
  rcases run_holds backend register (.update pointerKey new) (Bucket.clockOf_of_mem hp) with
    hold | ⟨new', hcall, hdone, hw⟩
  · obtain ⟨q, hq, hid, -⟩ := Bucket.clockOf_eq_some.1 hold
    exact .inl ⟨q, hq, hid⟩
  · cases hcall
    exact .inr ⟨hdone, (congrArg Prod.fst hw).symm⟩

theorem detectAndHandleFork_sound (hs : store.Sound) (pointerKey : Text) :
    (detectAndHandleFork backend store pointerKey).Sound := by
  unfold detectAndHandleFork
  dsimp only
  split
  · exact hs
  · refine ⟨hs.pointers, fun event he x hx => ?_⟩
    rcases List.mem_append.1 he with he | he
    · exact hs.conflicts event he x hx
    · rw [List.mem_singleton.1 he, List.mem_map] at hx
      obtain ⟨p, hp, rfl⟩ := hx
      exact hs.pointers pointerKey p (mem_getPointers.1 hp)

variable (backend) in
theorem detectAndHandleFork_same (store : CRDTStore) (pointerKey : Text) :
    (detectAndHandleFork backend store pointerKey).register = store.register ∧
      (detectAndHandleFork backend store pointerKey).objects = store.objects := by
  unfold detectAndHandleFork
  dsimp only
  split <;> exact ⟨rfl, rfl⟩

/-- The loop keeps a store sound, and the ids it holds. -/
theorem advancePointers_sound (remoteVector : VersionVector) :
    ∀ (objects : List (SnapshotObject Obj)) {store : CRDTStore}, store.Sound →
      PointsToHeld leafHash identityId backend replicaId (· ∈ store.objects) remoteVector
        store.register objects →
      (objects.foldl (advancePointer leafHash identityId backend replicaId remoteVector)
        store).Sound
  | [], _, hs, _ => hs
  | object :: objects, store, hs, hheld => by
    rw [List.foldl_cons]
    rw [PointsToHeld] at hheld
    unfold advancePointer
    cases htarget : pointerTarget leafHash identityId object.payload with
    | none =>
      rw [htarget] at hheld
      exact advancePointers_sound remoteVector objects hs hheld
    | some target =>
      obtain ⟨pointerKey, objectId⟩ := target
      rw [htarget] at hheld
      obtain ⟨hthis, hrest⟩ := hheld
      set new := newPointer replicaId remoteVector object objectId
      have hupdated : ({ store with
          register := (updatePointer backend store.register pointerKey new).2 } : CRDTStore).Sound := by
        refine ⟨fun key p hp => ?_, hs.conflicts⟩
        rcases updatePointer_ids hp with ⟨q, hq, hid⟩ | ⟨hdone, hid⟩
        · exact hid ▸ hs.pointers key q hq
        · rcases hthis with hheld | hrefused
          · exact hid.symm ▸ hheld
          · exact absurd (hdone.symm.trans hrefused) (by decide)
      dsimp only
      split
      · obtain ⟨hreg, hobj⟩ := detectAndHandleFork_same backend
          { store with register := (updatePointer backend store.register pointerKey new).2 }
          pointerKey
        refine advancePointers_sound remoteVector objects
          (detectAndHandleFork_sound hupdated pointerKey) ?_
        rw [hreg, hobj]
        exact hrest
      · exact advancePointers_sound remoteVector objects hupdated hrest

/-! ## Runs -/

variable (leafHash identityId backend replicaId)

/-- A replica's CRDT store under the merges of remote snapshots. -/
def merges : System CRDTStore (ObjectSnapshot Obj) where
  init store := store = {}
  step store remote store' :=
    (mergeCrdtObjects leafHash identityId backend replicaId store remote).2 = store'

/-- The merges in which every pointer that is applied refers to an id held by then. -/
def HeldFirst (store : CRDTStore) (remote : ObjectSnapshot Obj) : Prop :=
  PointsToHeld leafHash identityId backend replicaId (Admitted leafHash store remote)
    (.fromDict remote.versionVector) store.register remote.objects

variable {leafHash identityId backend replicaId}

theorem PointsToHeld.mono {held held' : Text → Prop} {remoteVector : VersionVector}
    (himp : ∀ x, held x → held' x) :
    ∀ {objects : List (SnapshotObject Obj)} {register : MVRegister},
      PointsToHeld leafHash identityId backend replicaId held remoteVector register objects →
      PointsToHeld leafHash identityId backend replicaId held' remoteVector register objects
  | [], _, _ => trivial
  | object :: objects, register, h => by
    rw [PointsToHeld] at h ⊢
    split
    · rename_i htarget
      rw [htarget] at h
      exact PointsToHeld.mono himp h
    · rename_i pointerKey objectId htarget
      rw [htarget] at h
      exact ⟨h.1.imp_left (himp _), PointsToHeld.mono himp h.2⟩

theorem mergeCrdtObjects_sound {remote : ObjectSnapshot Obj} (hs : store.Sound)
    (h : HeldFirst leafHash identityId backend replicaId store remote) :
    (mergeCrdtObjects leafHash identityId backend replicaId store remote).2.Sound := by
  have hgrows := processBatch_grows leafHash remote.objects store
  refine advancePointers_sound _ remote.objects (hgrows.sound hs) ?_
  rw [hgrows.register]
  refine PointsToHeld.mono (fun x hx => ?_) h
  exact hx.elim (hgrows.objects x) (mem_processBatch remote.objects store)

/-- In every run of merges that point to held ids only, every pointer and every side of a reported
conflict is an object of the set. -/
theorem merged_pointers_held (h : ((merges leafHash identityId backend replicaId).restrict
      (HeldFirst leafHash identityId backend replicaId)).Reachable store) :
    (∀ key, ∀ p ∈ (store.register key).pointers, p.objectId ∈ store.objects) ∧
      ∀ event ∈ store.conflictEvents, ∀ x ∈ event.conflictingObjectIds, x ∈ store.objects := by
  have hsound : store.Sound := by
    refine h.invariant (P := CRDTStore.Sound) ?_ ?_
    · rintro _ rfl
      exact ⟨fun _ _ hp => absurd hp List.not_mem_nil, fun _ he => absurd he List.not_mem_nil⟩
    · rintro s remote _ - hs ⟨rfl, hheld⟩
      exact mergeCrdtObjects_sound hs hheld
  exact ⟨hsound.pointers, hsound.conflicts⟩

/-- The id of the one object, whose identity is `x`, and a snapshot of it. -/
def soleId : Text := List.replicate Merkle.ID_HEX_LENGTH 'a'

/-- A snapshot of one object. -/
def soleObject (validation : Validation) : ObjectSnapshot Unit :=
  ⟨[⟨.knowledgeObject (), validation, 0⟩], some (.dict (Finmap.singleton "n1" 1) ∅)⟩

theorem merged_pointers_held_valid :
    let store := (mergeCrdtObjects (fun _ => soleId) (fun _ => ['x']) .inMemory "r" {}
      (soleObject (.returned true))).2
    (store.register ['x']).pointers.map (·.objectId) = [soleId] ∧
      ∀ p ∈ (store.register ['x']).pointers, p.objectId ∈ store.objects := by
  intro store
  have hheld : HeldFirst (fun _ => soleId) (fun _ => ['x']) .inMemory "r" {}
      (soleObject (.returned true)) :=
    ⟨.inl (.inr ⟨_, List.mem_cons_self, rfl, rfl⟩), trivial⟩
  exact ⟨by decide, (merged_pointers_held (.step (.init rfl) ⟨rfl, hheld⟩)).1 ['x']⟩

/-- An object that validation rejects becomes the value of its register. -/
theorem rejected_object_pointed_at :
    let store := (mergeCrdtObjects (fun _ => soleId) (fun _ => ['x']) .inMemory "r" {}
      (soleObject (.returned false))).2
    store.objects = [] ∧ (store.register ['x']).pointers.map (·.objectId) = [soleId] := by
  decide

end GossipAdapter

end CksRuntime.Crdt
