import CksRuntime.Gossip.ObjectMerge

/-!
# A snapshot again

Gossip repeats its snapshots. What a repeated merge of objects should leave alone, and the snapshots
for which it does.
-/

set_option autoImplicit false

namespace CksRuntime.Crdt

variable {Obj : Type}

/-- The same snapshot, delivered at another time. -/
structure SameSnapshot (remote remote' : ObjectSnapshot Obj) : Prop where
  objects : remote'.objects.map (fun object => (object.payload, object.validation)) =
    remote.objects.map fun object => (object.payload, object.validation)
  versionVector : remote'.versionVector = remote.versionVector

/-- The ids held, the pointers by id and clock, and the forks reported are the same. A
`CRDTForkDetected` is published for every fork that is reported and for nothing else. -/
structure Unchanged (store store' : CRDTStore) : Prop where
  objects : store'.objects = store.objects
  pointers : ∀ key, (store'.register key).clockOf = (store.register key).clockOf
  conflictEvents : store'.conflictEvents = store.conflictEvents

namespace GossipAdapter

variable (leafHash : Obj → Text) (identityId : Obj → Text)

/-- The ids that the pointer loop writes under a key. -/
def targets (key : Text) (objects : List (SnapshotObject Obj)) : List Text :=
  objects.filterMap fun object =>
    (pointerTarget leafHash identityId object.payload).bind fun target =>
      if target.1 = key then some target.2 else none

/-- Every object of a snapshot is dominated by another pointer of its key, or concurrent with no
other one. -/
def Forkless (store : CRDTStore) (remote : ObjectSnapshot Obj) : Prop :=
  ∀ key, ∀ objectId ∈ targets leafHash identityId key remote.objects,
    (∃ p ∈ (store.register key).pointers, p.objectId ≠ objectId ∧
      causalityCheck (.fromDict remote.versionVector) p.vectorClock = .dominated) ∨
    ∀ p ∈ (store.register key).pointers, p.objectId ≠ objectId →
      causalityCheck (.fromDict remote.versionVector) p.vectorClock ≠ .concurrent

variable (backend : Backend) (replicaId : String)

/-- Deliveries of some snapshots. -/
def mergeAll (store : CRDTStore) (remotes : List (ObjectSnapshot Obj)) : CRDTStore :=
  remotes.foldl (fun store remote =>
    (mergeCrdtObjects leafHash identityId backend replicaId store remote).2) store

end GossipAdapter

end CksRuntime.Crdt
