import CksRuntime.Gossip.Proof.ObjectMerge
import CksRuntime.Gossip.Redelivery

/-!
# What a repeated snapshot does

By key, the pointer loop makes the writes of a snapshot under one clock (`loop_clockOf`). Made again
they leave a register that is alone, or that refuses them all, as it was (`Calm.loop`); and one that
is neither has a fork, which is reported again (`loop_reports`).
-/

set_option autoImplicit false

namespace CksRuntime.Crdt

open MultiValue CRDTQuarantine

variable {Obj : Type} {leafHash : Obj → Text} {identityId : Obj → Text} {backend : Backend}
  {replicaId : String} {store store' : CRDTStore} {remote remote' : ObjectSnapshot Obj}
  {key objectId : Text} {v : VersionVector} {object : SnapshotObject Obj}
  {objects : List (SnapshotObject Obj)}

/-! ## Unchanged -/

theorem Unchanged.refl (store : CRDTStore) : Unchanged store store := ⟨rfl, fun _ => rfl, rfl⟩

theorem Unchanged.trans {store'' : CRDTStore} (h : Unchanged store store')
    (h' : Unchanged store' store'') : Unchanged store store'' where
  objects := h'.objects.trans h.objects
  pointers key := (h'.pointers key).trans (h.pointers key)
  conflictEvents := h'.conflictEvents.trans h.conflictEvents

/-! ## A bucket -/

theorem Bucket.length_le_one_of_solo {bucket : Bucket} (h : bucket.clockOf = solo objectId v) :
    bucket.pointers.length ≤ 1 := by
  have hids := congrArg List.length (Bucket.ids_of_solo h)
  rw [List.length_map, List.length_singleton] at hids
  exact hids.le

theorem Bucket.one_lt_length {bucket : Bucket} {x y : Text} {c d : VersionVector} (hne : x ≠ y)
    (hx : bucket.clockOf x = some c) (hy : bucket.clockOf y = some d) :
    1 < bucket.pointers.length := by
  have hx := Bucket.mem_ids.2 ⟨c, hx⟩
  have hy := Bucket.mem_ids.2 ⟨d, hy⟩
  rw [← List.length_map (·.objectId)]
  by_contra! hle
  rcases h : bucket.pointers.map (·.objectId) with _ | ⟨z, _ | ⟨_, _⟩⟩
  · rw [h] at hx
    cases hx
  · rw [h, List.mem_singleton] at hx hy
    exact hne (hx.trans hy.symm)
  · rw [h] at hle
    simp at hle

namespace GossipAdapter

/-! ## The quarantine -/

/-- What is held is not admitted again. -/
theorem processBatch_held : ∀ (objects : List (SnapshotObject Obj)) {store : CRDTStore},
    (∀ object ∈ objects, object.validation.isStructurallyValid → ∀ objectId,
      objectIdFor leafHash object.payload = .ok objectId → objectId ∈ store.objects) →
    (processBatch leafHash store objects).2 = store
  | [], _, _ => rfl
  | object :: objects, store, h => by
    have hsame : (validateAndAdd leafHash store object).2 = store := by
      unfold validateAndAdd
      split
      · rfl
      · rename_i hvalid
        split
        · rfl
        · rename_i objectId hid
          rw [if_pos (h object List.mem_cons_self (not_not.1 hvalid) objectId hid)]
    rw [processBatch]
    dsimp only
    rw [hsame]
    exact processBatch_held objects fun object' hmem => h object' (List.mem_cons_of_mem _ hmem)

/-! ## The pointer loop -/

theorem length_getPointers (register : MVRegister) (key : Text) :
    (getPointers backend register key).length = (register key).pointers.length := by
  cases backend
  · rfl
  · exact List.length_mergeSort _

variable (backend replicaId v) in
/-- An object whose write is refused, and one whose write goes through; a fork that it then finds is
reported. -/
theorem advancePointer_spec (htarget : pointerTarget leafHash identityId object.payload =
      some (key, objectId)) {store' : CRDTStore}
    (h : advancePointer leafHash identityId backend replicaId v store object = store') :
    Blocked (store.register key).clockOf objectId v ∧ store' = store ∨
      ¬Blocked (store.register key).clockOf objectId v ∧ store'.objects = store.objects ∧
        (store'.register key).clockOf = write (store.register key).clockOf objectId v ∧
        (∀ key', key' ≠ key → store'.register key' = store.register key') ∧
        ((store'.register key).pointers.length ≤ 1 ∧ store'.conflictEvents = store.conflictEvents ∨
          1 < (store'.register key).pointers.length ∧
            ∃ event, store'.conflictEvents = store.conflictEvents ++ [event]) := by
  rw [advancePointer, htarget] at h
  dsimp only at h
  set new := newPointer replicaId v object objectId
  rcases Bucket.update_spec backend (store.register key) new with ⟨hb, hu⟩ | ⟨hb, hdone, hclock⟩
  · rw [updatePointer, hu] at h
    dsimp only at h
    rw [Function.update_eq_self] at h
    exact .inl ⟨hb, by rw [← h]; rfl⟩
  · right
    have happlied : (updatePointer backend store.register key new).1 = true := hdone
    rw [if_pos happlied] at h
    -- looking for a fork changes neither pointers nor objects
    obtain ⟨hreg, hobj⟩ := detectAndHandleFork_same backend
      { store with register := (updatePointer backend store.register key new).2 } key
    rw [h] at hreg hobj
    refine ⟨hb, hobj, ?_, fun key' hne => ?_, ?_⟩
    · rw [hreg]
      dsimp only
      rw [updatePointer_apply, if_pos rfl]
      exact hclock
    · rw [hreg]
      dsimp only
      rw [updatePointer_apply, if_neg hne]
    · rw [detectAndHandleFork] at h
      dsimp only at h
      rw [length_getPointers] at h
      rw [hreg]
      split at h
      · rename_i hle
        exact .inl ⟨hle, by rw [← h]⟩
      · rename_i hlt
        exact .inr ⟨not_le.1 hlt, _, by rw [← h]⟩

theorem targets_cons (h : pointerTarget leafHash identityId object.payload = some (key, objectId))
    (key' : Text) : targets leafHash identityId key' (object :: objects) =
      if key' = key then objectId :: targets leafHash identityId key' objects
      else targets leafHash identityId key' objects := by
  by_cases hkey : key' = key
  · simp [targets, h, hkey]
  · simp [targets, h, hkey, Ne.symm hkey]

theorem targets_cons_none (h : pointerTarget leafHash identityId object.payload = none)
    (key : Text) : targets leafHash identityId key (object :: objects) =
      targets leafHash identityId key objects := by
  simp [targets, h]

theorem advancePointer_none (h : pointerTarget leafHash identityId object.payload = none) :
    advancePointer leafHash identityId backend replicaId v store object = store := by
  rw [advancePointer, h]

variable (leafHash identityId backend replicaId v) in
/-- By key, the loop is so many writes under one clock. -/
theorem loop_clockOf (objects : List (SnapshotObject Obj)) : ∀ (store : CRDTStore) (key : Text),
    ((objects.foldl (advancePointer leafHash identityId backend replicaId v) store).register
      key).clockOf =
      writeAll (store.register key).clockOf (targets leafHash identityId key objects) v := by
  induction objects with
  | nil => exact fun store key => rfl
  | cons object objects ih =>
    intro store key'
    rw [List.foldl_cons, ih]
    cases htarget : pointerTarget leafHash identityId object.payload with
    | none => rw [advancePointer_none htarget, targets_cons_none htarget]
    | some target =>
      obtain ⟨key, objectId⟩ := target
      rw [targets_cons htarget]
      rcases advancePointer_spec backend replicaId v htarget rfl with
        ⟨hb, hsame⟩ | ⟨-, -, hclock, hothers, -⟩
      · rw [hsame]
        split
        · rename_i hkey
          subst hkey
          rw [writeAll, writeAll, List.foldl_cons, write_of_blocked hb]
        · rfl
      · split
        · rename_i hkey
          subst hkey
          rw [hclock]
          rfl
        · rename_i hkey
          rw [hothers key' hkey]

variable (leafHash identityId backend replicaId v) in
/-- An object changes no objects, and adds at most a report to the events. -/
theorem advancePointer_keeps (store : CRDTStore) (object : SnapshotObject Obj) :
    (advancePointer leafHash identityId backend replicaId v store object).objects =
        store.objects ∧
      store.conflictEvents <+:
        (advancePointer leafHash identityId backend replicaId v store object).conflictEvents := by
  cases htarget : pointerTarget leafHash identityId object.payload with
  | none =>
    rw [advancePointer_none htarget]
    exact ⟨rfl, List.prefix_rfl⟩
  | some target =>
    rcases advancePointer_spec backend replicaId v htarget rfl
      with ⟨-, hsame⟩ | ⟨-, hobj, -, -, ⟨-, heq⟩ | ⟨-, event, heq⟩⟩
    · rw [hsame]
      exact ⟨rfl, List.prefix_rfl⟩
    · exact ⟨hobj, by rw [heq]⟩
    · exact ⟨hobj, by rw [heq]; exact List.prefix_append _ _⟩

variable (leafHash identityId backend replicaId v) in
theorem loop_keeps (objects : List (SnapshotObject Obj)) : ∀ store : CRDTStore,
    (objects.foldl (advancePointer leafHash identityId backend replicaId v) store).objects =
        store.objects ∧
      store.conflictEvents <+: (objects.foldl (advancePointer leafHash identityId backend
        replicaId v) store).conflictEvents := by
  induction objects with
  | nil => exact fun store => ⟨rfl, List.prefix_rfl⟩
  | cons object objects ih =>
    intro store
    obtain ⟨hobj, hevents⟩ :=
      advancePointer_keeps leafHash identityId backend replicaId v store object
    obtain ⟨hobjs, hmore⟩ :=
      ih (advancePointer leafHash identityId backend replicaId v store object)
    rw [List.foldl_cons]
    exact ⟨hobjs.trans hobj, hevents.trans hmore⟩

/-! ## Reports -/

/-- A key whose register refuses every write of the snapshot, or holds one pointer of its clock. -/
def CalmAt (clockOf : Text → Option VersionVector) (ids : List Text) (v : VersionVector) : Prop :=
  (∀ objectId ∈ ids, Blocked clockOf objectId v) ∨ ∃ objectId, clockOf = solo objectId v

/-- Where every key is calm the loop reports nothing. -/
theorem loop_calm {T : Text → List Text} (objects : List (SnapshotObject Obj)) :
    ∀ store : CRDTStore, (∀ key, CalmAt (store.register key).clockOf (T key) v) →
      (∀ key, ∀ objectId ∈ targets leafHash identityId key objects, objectId ∈ T key) →
      (objects.foldl (advancePointer leafHash identityId backend replicaId v)
        store).conflictEvents = store.conflictEvents := by
  induction objects with
  | nil => exact fun store _ _ => rfl
  | cons object objects ih =>
    intro store hcalm htargets
    rw [List.foldl_cons]
    cases htarget : pointerTarget leafHash identityId object.payload with
    | none =>
      simp only [targets_cons_none htarget] at htargets
      rw [advancePointer_none htarget]
      exact ih store hcalm htargets
    | some target =>
      obtain ⟨key, objectId⟩ := target
      simp only [targets_cons htarget] at htargets
      have hthis : objectId ∈ T key := htargets key objectId (by simp)
      have hrest : ∀ key', ∀ x ∈ targets leafHash identityId key' objects, x ∈ T key' := by
        intro key' x hx
        refine htargets key' x ?_
        split
        · exact List.mem_cons_of_mem _ hx
        · exact hx
      rcases advancePointer_spec backend replicaId v htarget rfl
        with ⟨hb, hsame⟩ | ⟨hfree, -, hclock, hothers, hreport⟩
      · rw [hsame]
        exact ih store hcalm hrest
      -- a write that is let in leaves one pointer, so there is no fork to report
      · have hsolo : ((advancePointer leafHash identityId backend replicaId v store
            object).register key).clockOf = solo objectId v := by
          rw [hclock]
          rcases hcalm key with hall | ⟨x, hx⟩
          · exact absurd (hall objectId hthis) hfree
          · rw [hx, write_solo]
        have hevents : (advancePointer leafHash identityId backend replicaId v store
            object).conflictEvents = store.conflictEvents := by
          rcases hreport with ⟨-, heq⟩ | ⟨hlt, -⟩
          · exact heq
          · exact absurd (Bucket.length_le_one_of_solo hsolo) (not_le.2 hlt)
        rw [ih _ (fun key' => ?_) hrest, hevents]
        by_cases hkey : key' = key
        · subst hkey
          exact .inr ⟨objectId, hsolo⟩
        · rw [hothers key' hkey]
          exact hcalm key'

variable (backend replicaId) in
/-- A key that some write goes through at and that is left with a fork has been reported. -/
theorem loop_reports (store : CRDTStore) (key : Text) (objects : List (SnapshotObject Obj))
    (hfree : ∃ x ∈ targets leafHash identityId key objects,
      ¬Blocked (store.register key).clockOf x v)
    (hfork : 1 < ((objects.foldl (advancePointer leafHash identityId backend replicaId v)
      store).register key).pointers.length) :
    store.conflictEvents.length < (objects.foldl (advancePointer leafHash identityId backend
      replicaId v) store).conflictEvents.length := by
  induction objects using List.reverseRecOn with
  | nil => simp [targets] at hfree
  | append_singleton objects object ih =>
    rw [List.foldl_append, List.foldl_cons, List.foldl_nil] at hfork ⊢
    set t := objects.foldl (advancePointer leafHash identityId backend replicaId v) store with ht
    have hle : store.conflictEvents.length ≤ t.conflictEvents.length :=
      (loop_keeps leafHash identityId backend replicaId v objects store).2.length_le
    have hsplit : targets leafHash identityId key (objects ++ [object]) =
        targets leafHash identityId key objects ++ targets leafHash identityId key [object] :=
      List.filterMap_append
    cases htarget : pointerTarget leafHash identityId object.payload with
    | none =>
      rw [hsplit, targets_cons_none htarget, targets, targets, List.filterMap_nil,
        List.append_nil] at hfree
      rw [advancePointer_none htarget] at hfork ⊢
      exact ih hfree hfork
    | some target =>
      obtain ⟨key', objectId⟩ := target
      rw [hsplit, targets_cons htarget] at hfree
      by_cases hkey : key = key'
      · subst hkey
        rw [if_pos rfl] at hfree
        rcases advancePointer_spec backend replicaId v htarget
          rfl with ⟨hb, hsame⟩ | ⟨-, -, -, -, ⟨hone, -⟩ | ⟨-, event, heq⟩⟩
        · rw [hsame] at hfork ⊢
          refine ih ?_ hfork
          by_contra! hall
          -- nothing has gone through before, so this write is refused as it was at first
          rw [loop_clockOf, writeAll_of_blocked hall] at hb
          obtain ⟨x, hx, hfree⟩ := hfree
          rcases List.mem_append.1 hx with hx | hx
          · exact hfree (hall x hx)
          · rw [targets, List.filterMap_nil, List.mem_singleton] at hx
            exact hfree (hx ▸ hb)
        · exact absurd hfork (not_lt.2 hone)
        · rw [heq, List.length_append, List.length_singleton]
          omega
      · rw [if_neg hkey, targets, targets, List.filterMap_nil, List.append_nil] at hfree
        have hsame : (advancePointer leafHash identityId backend replicaId v t object).register
            key = t.register key := by
          rcases advancePointer_spec backend replicaId v htarget
            rfl with ⟨-, hsame⟩ | ⟨-, -, -, hothers, -⟩
          · rw [hsame]
          · exact hothers key hkey
        rw [hsame] at hfork
        have hlast := (advancePointer_keeps leafHash identityId backend replicaId v t object).2
        exact (ih hfree hfork).trans_le hlast.length_le

/-! ## Deliveries -/

/-- What the quarantine and the loop leave of a store. -/
theorem mergeCrdtObjects_register (store : CRDTStore) (remote : ObjectSnapshot Obj) (key : Text) :
    ((mergeCrdtObjects leafHash identityId backend replicaId store remote).2.register key).clockOf =
      writeAll (store.register key).clockOf (targets leafHash identityId key remote.objects)
        (.fromDict remote.versionVector) := by
  rw [mergeCrdtObjects]
  dsimp only
  rw [loop_clockOf, (processBatch_grows leafHash remote.objects store).register]

variable (leafHash identityId backend replicaId) in
theorem mergeCrdtObjects_held (store : CRDTStore) (remote : ObjectSnapshot Obj) :
    ∀ object ∈ remote.objects, object.validation.isStructurallyValid → ∀ objectId,
      objectIdFor leafHash object.payload = .ok objectId →
        objectId ∈ (mergeCrdtObjects leafHash identityId backend replicaId store
          remote).2.objects := by
  intro object hmem hvalid objectId hid
  rw [mergeCrdtObjects]
  dsimp only
  rw [(loop_keeps _ _ _ _ _ _ _).1]
  exact mem_processBatch remote.objects store ⟨object, hmem, hvalid, hid⟩

theorem targets_same (h : SameSnapshot remote remote') (key : Text) :
    targets leafHash identityId key remote'.objects =
      targets leafHash identityId key remote.objects := by
  have hpayload := congrArg (List.map Prod.fst) h.objects
  rw [List.map_map, List.map_map] at hpayload
  have htargets : ∀ objects : List (SnapshotObject Obj),
      targets leafHash identityId key objects =
        (objects.map (·.payload)).filterMap fun payload =>
          (pointerTarget leafHash identityId payload).bind fun target =>
            if target.1 = key then some target.2 else none := fun objects => by
    rw [List.filterMap_map]
    rfl
  rw [htargets, htargets]
  exact congrArg _ hpayload

theorem held_same (h : SameSnapshot remote remote')
    (hheld : ∀ object ∈ remote.objects, object.validation.isStructurallyValid → ∀ objectId,
      objectIdFor leafHash object.payload = .ok objectId → objectId ∈ store.objects) :
    ∀ object ∈ remote'.objects, object.validation.isStructurallyValid → ∀ objectId,
      objectIdFor leafHash object.payload = .ok objectId → objectId ∈ store.objects := by
  intro object' hmem' hvalid objectId hid
  have hmem : (object'.payload, object'.validation) ∈
      remote.objects.map fun object => (object.payload, object.validation) := by
    rw [← h.objects]
    exact List.mem_map_of_mem hmem'
  obtain ⟨object, hobject, heq⟩ := List.mem_map.1 hmem
  obtain ⟨hpayload, hvalidation⟩ := Prod.mk.inj heq
  refine hheld object hobject ?_ objectId ?_
  · rw [hvalidation]
    exact hvalid
  · rw [hpayload]
    exact hid

/-- A register that refuses the writes of the snapshot under a key, or holds the last of them
only. -/
def SettledAt (clockOf : Text → Option VersionVector) (ids : List Text) (v : VersionVector) : Prop :=
  (∀ objectId ∈ ids, Blocked clockOf objectId v) ∨
    ∃ objectId ∈ ids.getLast?, clockOf = solo objectId v

/-- A snapshot that is settled leaves a store unchanged. -/
theorem unchanged_of_settled (hheld : ∀ object ∈ remote.objects,
      object.validation.isStructurallyValid → ∀ objectId,
        objectIdFor leafHash object.payload = .ok objectId → objectId ∈ store.objects)
    (hsettled : ∀ key, SettledAt (store.register key).clockOf
      (targets leafHash identityId key remote.objects) (.fromDict remote.versionVector)) :
    Unchanged store (mergeCrdtObjects leafHash identityId backend replicaId store remote).2 where
  objects := by
    rw [mergeCrdtObjects]
    dsimp only
    rw [(loop_keeps _ _ _ _ _ _ _).1, processBatch_held remote.objects hheld]
  pointers key := by
    rw [mergeCrdtObjects_register]
    rcases hsettled key with hall | ⟨objectId, hlast, hsolo⟩
    · exact writeAll_of_blocked hall
    · rw [hsolo, writeAll_solo, Option.mem_def.1 hlast]
      rfl
  conflictEvents := by
    rw [mergeCrdtObjects]
    dsimp only
    rw [processBatch_held remote.objects hheld]
    refine loop_calm remote.objects store (fun key => ?_) fun key objectId h => h
    exact (hsettled key).imp_right fun ⟨objectId, _, hsolo⟩ => ⟨objectId, hsolo⟩

theorem forkless_iff : Forkless leafHash identityId store remote ↔
    ∀ key, ∀ objectId ∈ targets leafHash identityId key remote.objects,
      Blocked (store.register key).clockOf objectId (.fromDict remote.versionVector) ∨
        ∀ y d, y ≠ objectId → (store.register key).clockOf y = some d →
          d ≤ .fromDict remote.versionVector ∨ .fromDict remote.versionVector ≤ d := by
  refine forall_congr' fun key => forall₂_congr fun objectId _ => or_congr ?_ ?_
  · have hblocked := @Bucket.blocked_iff (store.register key)
      ⟨objectId, .fromDict remote.versionVector, "", 0⟩
    rw [hblocked]
    simp only [causalityCheck_dominated]
  · constructor
    · rintro h y d hne hy
      obtain ⟨p, hp, rfl, rfl⟩ := Bucket.clockOf_eq_some.1 hy
      have hcomparable := h p hp hne
      rw [ne_eq, causalityCheck_concurrent] at hcomparable
      tauto
    · rintro h p hp hne
      rw [ne_eq, causalityCheck_concurrent]
      have hcomparable := h p.objectId p.vectorClock hne (Bucket.clockOf_of_mem hp)
      tauto

/-- What a first delivery leaves is settled for a second, unless it has left a fork. -/
theorem settledAt_of_forkless
    (h : Forkless leafHash identityId
      (mergeCrdtObjects leafHash identityId backend replicaId store remote).2 remote) (key : Text) :
    SettledAt ((mergeCrdtObjects leafHash identityId backend replicaId store remote).2.register
      key).clockOf (targets leafHash identityId key remote.objects)
      (.fromDict remote.versionVector) := by
  have hforkless := forkless_iff.1 h key
  rw [mergeCrdtObjects_register] at hforkless ⊢
  by_cases hall : ∀ x ∈ targets leafHash identityId key remote.objects,
      Blocked (store.register key).clockOf x (.fromDict remote.versionVector)
  · rw [writeAll_of_blocked hall]
    exact .inl hall
  · push Not at hall
    obtain ⟨r₀, x, hlast, hfree, hrun⟩ := writeAll_of_not_blocked hall
    rw [hrun] at hforkless ⊢
    refine .inr ⟨x, Option.mem_def.2 hlast, write_eq_solo hfree ?_⟩
    exact (hforkless x (List.mem_of_getLast? hlast)).resolve_left (not_blocked_write hfree x)

theorem forkless_of_unchanged
    (h : Unchanged store (mergeCrdtObjects leafHash identityId backend replicaId store remote).2) :
    Forkless leafHash identityId store remote := by
  refine forkless_iff.2 fun key x hx => or_iff_not_imp_left.2 fun hfree y d hne hy => ?_
  have hsome : ∃ x ∈ targets leafHash identityId key remote.objects,
      ¬Blocked (store.register key).clockOf x (.fromDict remote.versionVector) := ⟨x, hx, hfree⟩
  obtain ⟨r₀, x', -, hfree', hrun⟩ := writeAll_of_not_blocked hsome
  have hsame := h.pointers key
  rw [mergeCrdtObjects_register, hrun] at hsame
  have hx' : (store.register key).clockOf x' = some (.fromDict remote.versionVector) := by
    rw [← hsame]
    exact write_self hfree'
  by_cases hyx : y = x'
  · subst hyx
    rw [Option.some.inj (hy.symm.trans hx')]
    exact .inl le_rfl
  · -- a second pointer beside the last one written: a fork, which has been reported again
    have hgrows := processBatch_grows leafHash remote.objects store
    have hlt := loop_reports backend replicaId
      (processBatch leafHash store remote.objects).2 key remote.objects
      (by rw [hgrows.register]; exact hsome)
    rw [hgrows.conflictEvents] at hlt
    have hevents := congrArg List.length h.conflictEvents
    refine absurd (hlt ?_) (not_lt.2 hevents.le)
    have hpointers := h.pointers key
    exact Bucket.one_lt_length hyx (by rw [← hy]; exact congrFun hpointers y)
      (by rw [← hx']; exact congrFun hpointers x')

/-- A snapshot that has been delivered can be delivered any number of times again without effect
exactly if every object of it is dominated, or beside no pointer that is concurrent. -/
theorem redelivery_unchanged_iff (store : CRDTStore) (remote : ObjectSnapshot Obj) :
    (∀ remotes, (∀ remote' ∈ remotes, SameSnapshot remote remote') →
      Unchanged (mergeCrdtObjects leafHash identityId backend replicaId store remote).2
        (mergeAll leafHash identityId backend replicaId
          (mergeCrdtObjects leafHash identityId backend replicaId store remote).2 remotes)) ↔
      Forkless leafHash identityId
        (mergeCrdtObjects leafHash identityId backend replicaId store remote).2 remote := by
  constructor
  · intro h
    exact forkless_of_unchanged (h [remote] fun remote' hmem => by
      rw [List.mem_singleton.1 hmem]
      exact ⟨rfl, rfl⟩)
  · intro hforkless remotes hsame
    have hsettled := settledAt_of_forkless hforkless
    have hheld := mergeCrdtObjects_held leafHash identityId backend replicaId store remote
    generalize (mergeCrdtObjects leafHash identityId backend replicaId store remote).2 = t
      at hsettled hheld
    clear hforkless
    induction remotes generalizing t with
    | nil => exact .refl t
    | cons remote' remotes ih =>
      have hcopy := hsame remote' List.mem_cons_self
      have hunchanged : Unchanged t
          (mergeCrdtObjects leafHash identityId backend replicaId t remote').2 := by
        refine unchanged_of_settled (held_same hcopy hheld) fun key => ?_
        rw [targets_same hcopy, hcopy.versionVector]
        exact hsettled key
      refine hunchanged.trans (ih (fun r hr => hsame r (List.mem_cons_of_mem _ hr)) _ ?_ ?_)
      · intro key
        rw [hunchanged.pointers key]
        exact hsettled key
      · rw [hunchanged.objects]
        exact hheld

/-! ## Two objects of one identity -/

/-- The two objects have one identity, `x`. -/
def twoId (obj : Bool) : Text := List.replicate Merkle.ID_HEX_LENGTH (if obj then 'a' else 'b')

/-- One of them, seen by one node. -/
def seenObject (obj : Bool) (nodeId : String) : ObjectSnapshot Bool :=
  ⟨[⟨.knowledgeObject obj, .returned true, 0⟩], some (.dict (Finmap.singleton nodeId 1) ∅)⟩

/-- A store that has merged the first object only. -/
def mergedFirst : CRDTStore :=
  (mergeCrdtObjects twoId (fun _ => ['x']) .inMemory "r" {} (seenObject true "n1")).2

/-- And the second, which a node has written that had not seen the first. -/
def mergedBoth : CRDTStore :=
  (mergeCrdtObjects twoId (fun _ => ['x']) .inMemory "r" mergedFirst (seenObject false "n2")).2

theorem redelivery_unchanged_first : Unchanged mergedFirst
    (mergeAll twoId (fun _ => ['x']) .inMemory "r" mergedFirst
      [seenObject true "n1", seenObject true "n1"]) := by
  have hforkless : Forkless twoId (fun _ => ['x']) mergedFirst (seenObject true "n1") := by
    intro key objectId hmem
    have htarget : pointerTarget twoId (fun _ => ['x']) (.knowledgeObject true) =
        some (['x'], twoId true) := rfl
    rw [seenObject, targets_cons htarget] at hmem
    split at hmem
    · rename_i hkey
      subst hkey
      rw [targets, List.filterMap_nil, List.mem_singleton] at hmem
      subst hmem
      exact .inr (by decide)
    · cases hmem
  refine (redelivery_unchanged_iff {} (seenObject true "n1")).2 hforkless _ fun remote' hmem => ?_
  obtain rfl : remote' = seenObject true "n1" := by simpa using hmem
  exact ⟨rfl, rfl⟩

/-- The fork between the two is reported again with every delivery. -/
theorem fork_reported_again :
    (merges twoId (fun _ => ['x']) .inMemory "r").Reachable mergedBoth ∧
      mergedBoth.conflictEvents.map (·.conflictingObjectIds) = [[twoId true, twoId false]] ∧
      (mergeCrdtObjects twoId (fun _ => ['x']) .inMemory "r" mergedBoth
        (seenObject false "n2")).2.conflictEvents.map (·.conflictingObjectIds) =
        [[twoId true, twoId false], [twoId true, twoId false]] := by
  refine ⟨.step (.step (.init rfl) rfl) rfl, ?_, ?_⟩
  · decide
  · decide

end GossipAdapter

end CksRuntime.Crdt
