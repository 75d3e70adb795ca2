import CksRuntime.Crdt.Proof.MerkleSync
import CksRuntime.Crdt.Store

/-!
# What an interrupted insertion leaves

The tree is always that of a subset of the stored ids (`Tracks`). An insertion keeps the two equal
unless it stops between its commits; the id is then stored without a path, and as an id that is
stored is never inserted again, no later call closes the gap.
-/

set_option autoImplicit false

namespace CksRuntime.Crdt

open Merkle HashTrie Effect

variable {Obj : Type} {leafHash : Obj → Text} {sha256 : Text → Text}

theorem isId_of_objectIdFor (hleaf : ∀ obj, IsId (leafHash obj)) {payload : Payload Obj}
    {objectId : Text} (h : objectIdFor leafHash payload = .ok objectId) : IsId objectId := by
  unfold objectIdFor at h
  split at h
  · cases h
    exact hleaf _
  · split at h
    · cases h
    · split at h
      · cases h
      · rename_i heq
        cases h
        rw [← not_not.1 heq]
        exact hleaf _
  all_goals cases h

/-- A payload without an id is skipped by a merge. -/
theorem skipped_of_objectIdFor {payload : Payload Obj} {e : StoreError}
    (h : objectIdFor leafHash payload = .error e) : e.skipped = true := by
  unfold objectIdFor at h
  split at h
  · cases h
  · split at h
    · cases h; rfl
    · split at h <;> cases h
      rfl
  all_goals cases h; rfl

namespace SQLiteCRDTStore

/-- The tree is that of `P`, ids that are all stored. -/
structure Tracks (sha256 : Text → Text) (store : SQLiteCRDTStore) (P : Set Text) : Prop where
  isId : ∀ x ∈ store.objects, IsId x
  leveled : store.merkle.Leveled
  represents : Represents (hashing sha256) ID_HEX_LENGTH P store.merkle.hashes
  subset : P ⊆ {x | x ∈ store.objects}

theorem tracks_empty : Tracks sha256 {} ∅ where
  isId _ hx := absurd hx List.not_mem_nil
  leveled := SQLiteMerkleTree.leveled_empty
  represents := represents_empty
  subset := Set.empty_subset _

variable {store : SQLiteCRDTStore} {P : Set Text}

/-! ## One insertion -/

section
variable {offer : Offer Obj} {objectId : Text}

theorem addObject_of_error {e : StoreError} (h : objectIdFor leafHash offer.payload = .error e) :
    addObject leafHash sha256 offer store = .error e store := by
  rw [addObject, h]
  rfl

theorem addObject_stopsBeforeRow (h : objectIdFor leafHash offer.payload = .ok objectId)
    (hf : offer.fate = .stopsBeforeRow) :
    addObject leafHash sha256 offer store = .error .stopped store := by
  rw [addObject, h, hf]
  rfl

theorem addObject_known (h : objectIdFor leafHash offer.payload = .ok objectId)
    (hin : objectId ∈ store.objects) :
    addObject leafHash sha256 offer store =
      if offer.fate = .completes then .ok false store else .error .stopped store := by
  rw [addObject, h]
  cases offer.fate <;> simp [hin, bind_run]

theorem addObject_stopsBeforePath (h : objectIdFor leafHash offer.payload = .ok objectId)
    (hnot : objectId ∉ store.objects) (hf : offer.fate = .stopsBeforePath) :
    addObject leafHash sha256 offer store =
      .error .stopped { store with objects := store.objects ++ [objectId] } := by
  rw [addObject, h, hf]
  simp [hnot, bind_run]

theorem addObject_new (h : objectIdFor leafHash offer.payload = .ok objectId)
    (hnot : objectId ∉ store.objects) (hf : offer.fate = .completes) {merkle : SQLiteMerkleTree}
    (hmerkle : store.merkle.updateMerklePath sha256 objectId = .ok merkle) :
    addObject leafHash sha256 offer store = .ok true ⟨store.objects ++ [objectId], merkle⟩ := by
  rw [addObject, h, hf]
  simp [hnot, bind_run, hmerkle]
  rfl

theorem Tracks.insert (h : Tracks sha256 store P) (hid : IsId objectId)
    {merkle : SQLiteMerkleTree} (hlev : merkle.Leveled)
    (hhash : merkle.hashes = insertPath (hashing sha256) objectId store.merkle.hashes) :
    Tracks sha256 ⟨store.objects ++ [objectId], merkle⟩ (insert objectId P) where
  isId x hx := by
    rcases List.mem_append.1 hx with hx | hx
    · exact h.isId x hx
    · rw [List.mem_singleton.1 hx]
      exact hid
  leveled := hlev
  represents := by
    rw [hhash]
    exact represents_insertPath h.represents hid.1
  subset := by
    rintro x (rfl | hx)
    · exact List.mem_append_right _ List.mem_cons_self
    · exact List.mem_append_left _ (h.subset hx)

theorem Tracks.interrupted (h : Tracks sha256 store P) (hid : IsId objectId) :
    Tracks sha256 { store with objects := store.objects ++ [objectId] } P where
  isId x hx := by
    rcases List.mem_append.1 hx with hx | hx
    · exact h.isId x hx
    · rw [List.mem_singleton.1 hx]
      exact hid
  leveled := h.leveled
  represents := h.represents
  subset x hx := List.mem_append_left _ (h.subset hx)

/-- A path for a new id closes no gap and opens none. -/
theorem insert_eq_iff (h : Tracks sha256 store P) (hnot : objectId ∉ store.objects) :
    insert objectId P = {x | x ∈ store.objects ++ [objectId]} ↔ P = {x | x ∈ store.objects} := by
  constructor
  · intro he
    refine Set.Subset.antisymm h.subset fun x hx => ?_
    have hin : x ∈ insert objectId P := he ▸ List.mem_append_left _ hx
    refine hin.resolve_left ?_
    rintro rfl
    exact hnot hx
  · rintro rfl
    ext x
    simp [or_comm]

end

/-- What an insertion leaves the tree of, and whether that is still every stored id. -/
theorem addObject_tracks (hleaf : ∀ obj, IsId (leafHash obj)) (offer : Offer Obj)
    (h : Tracks sha256 store P) :
    ∃ P', Tracks sha256 (stateOf (addObject leafHash sha256 offer store)) P' ∧
      (P' = {x | x ∈ (stateOf (addObject leafHash sha256 offer store)).objects} ↔
        P = {x | x ∈ store.objects} ∧ ¬offer.Interrupted leafHash store) := by
  cases hobj : objectIdFor leafHash offer.payload with
  | error e =>
    rw [addObject_of_error hobj]
    refine ⟨P, h, (and_iff_left ?_).symm⟩
    rintro ⟨-, objectId, hok, -⟩
    cases hobj.symm.trans hok
  | ok objectId =>
    have hid := isId_of_objectIdFor hleaf hobj
    have hsame : ∀ id, objectIdFor leafHash offer.payload = .ok id → id = objectId := fun id hok =>
      Except.ok.inj (hok.symm.trans hobj)
    by_cases hin : objectId ∈ store.objects
    · have hstate : stateOf (addObject leafHash sha256 offer store) = store := by
        cases hf : offer.fate with
        | stopsBeforeRow => rw [addObject_stopsBeforeRow hobj hf, stateOf_error]
        | completes => rw [addObject_known hobj hin, if_pos hf, stateOf_ok]
        | stopsBeforePath =>
          rw [addObject_known hobj hin, if_neg (by rw [hf]; decide), stateOf_error]
      rw [hstate]
      refine ⟨P, h, (and_iff_left ?_).symm⟩
      rintro ⟨-, id, hok, hnew⟩
      exact hnew (hsame id hok ▸ hin)
    · cases hf : offer.fate with
      | stopsBeforeRow =>
        rw [addObject_stopsBeforeRow hobj hf]
        refine ⟨P, h, (and_iff_left ?_).symm⟩
        rintro ⟨hpath, -⟩
        cases hf.symm.trans hpath
      | stopsBeforePath =>
        rw [addObject_stopsBeforePath hobj hin hf]
        -- the row is there without its path
        refine ⟨P, h.interrupted hid, iff_of_false ?_ fun hno => hno.2 ⟨hf, objectId, hobj, hin⟩⟩
        intro he
        have hmem : objectId ∈ P := he ▸ List.mem_append_right _ List.mem_cons_self
        exact hin (h.subset hmem)
      | completes =>
        obtain ⟨merkle, hrun, hlev, hhash⟩ :=
          SQLiteMerkleTree.updateMerklePath_spec sha256 hid h.leveled
        rw [addObject_new hobj hin hf hrun]
        refine ⟨_, h.insert hid hlev hhash, (insert_eq_iff h hin).trans (and_iff_left ?_).symm⟩
        rintro ⟨hpath, -⟩
        cases hf.symm.trans hpath

/-! ## Merges and runs -/

theorem stateOf_mergeObjects_cons (offer : Offer Obj) (offers : List (Offer Obj)) :
    stateOf (mergeObjects leafHash sha256 (offer :: offers) store) =
      match addObject leafHash sha256 offer store with
      | .ok _ s => stateOf (mergeObjects leafHash sha256 offers s)
      | .error e s => if e.skipped then stateOf (mergeObjects leafHash sha256 offers s) else s := by
  rw [mergeObjects, bind_run, tryCatch_run]
  cases hadd : addObject leafHash sha256 offer store with
  | ok isNew s => exact stateOf_bind_pure_comp _ _ _
  | error e s =>
    dsimp only
    by_cases hskip : e.skipped
    · rw [if_pos hskip, if_pos hskip]
      exact stateOf_bind_pure_comp _ _ _
    · rw [if_neg hskip, if_neg hskip]
      rfl

/-- A merge goes on after an offer unless the process stopped in it. -/
theorem mergeObjects_cons (hleaf : ∀ obj, IsId (leafHash obj)) (offer : Offer Obj)
    (offers : List (Offer Obj)) (h : Tracks sha256 store P) :
    stateOf (mergeObjects leafHash sha256 (offer :: offers) store) =
      if (objectIdFor leafHash offer.payload).isOk → offer.fate = .completes then
        stateOf (mergeObjects leafHash sha256 offers
          (stateOf (addObject leafHash sha256 offer store)))
      else stateOf (addObject leafHash sha256 offer store) := by
  rw [stateOf_mergeObjects_cons]
  cases hobj : objectIdFor leafHash offer.payload with
  | error e =>
    rw [addObject_of_error hobj, if_pos (by rintro ⟨⟩)]
    exact if_pos (skipped_of_objectIdFor hobj)
  | ok objectId =>
    by_cases hf : offer.fate = .completes
    · rw [if_pos fun _ => hf]
      by_cases hin : objectId ∈ store.objects
      · rw [addObject_known hobj hin, if_pos hf, stateOf_ok]
      · obtain ⟨merkle, hrun, -⟩ :=
          SQLiteMerkleTree.updateMerklePath_spec sha256 (isId_of_objectIdFor hleaf hobj) h.leveled
        rw [addObject_new hobj hin hf hrun, stateOf_ok]
    · rw [if_neg fun hc => hf (hc rfl)]
      by_cases hin : objectId ∈ store.objects
      · rw [addObject_known hobj hin, if_neg hf]
        rfl
      · cases hf' : offer.fate with
        | completes => exact absurd hf' hf
        | stopsBeforeRow => rw [addObject_stopsBeforeRow hobj hf']; rfl
        | stopsBeforePath => rw [addObject_stopsBeforePath hobj hin hf']; rfl

theorem mergeObjects_tracks (hleaf : ∀ obj, IsId (leafHash obj)) :
    ∀ (offers : List (Offer Obj)) {store : SQLiteCRDTStore} {P : Set Text},
      Tracks sha256 store P →
      ∃ P', Tracks sha256 (stateOf (mergeObjects leafHash sha256 offers store)) P' ∧
        (P' = {x | x ∈ (stateOf (mergeObjects leafHash sha256 offers store)).objects} ↔
          P = {x | x ∈ store.objects} ∧ ¬Interrupted leafHash sha256 store offers)
  | [], store, P, h => ⟨P, h, (and_iff_left not_false).symm⟩
  | offer :: offers, store, P, h => by
    obtain ⟨P₁, h₁, hiff₁⟩ := addObject_tracks hleaf offer h
    rw [mergeObjects_cons hleaf offer offers h, Interrupted]
    split
    · rename_i hgoes
      obtain ⟨P₂, h₂, hiff₂⟩ := mergeObjects_tracks hleaf offers h₁
      refine ⟨P₂, h₂, ?_⟩
      rw [hiff₂, hiff₁]
      tauto
    · rename_i hstops
      exact ⟨P₁, h₁, hiff₁.trans (by tauto)⟩

end SQLiteCRDTStore

open SQLiteCRDTStore

variable {store : SQLiteCRDTStore} {P : Set Text}

theorem StoreCall.run_tracks (hleaf : ∀ obj, IsId (leafHash obj)) (call : StoreCall Obj)
    (h : Tracks sha256 store P) :
    ∃ P', Tracks sha256 (call.run leafHash sha256 store) P' ∧
      (P' = {x | x ∈ (call.run leafHash sha256 store).objects} ↔
        P = {x | x ∈ store.objects} ∧ ¬Interrupted leafHash sha256 store call.offers) := by
  cases call with
  | add offer =>
    obtain ⟨P', h', hiff⟩ := addObject_tracks hleaf offer h
    refine ⟨P', h', hiff.trans ?_⟩
    simp [StoreCall.offers, Interrupted]
  | merge offers => exact mergeObjects_tracks hleaf offers h

theorem runStore_tracks (hleaf : ∀ obj, IsId (leafHash obj)) :
    ∀ (calls : List (StoreCall Obj)) {store : SQLiteCRDTStore} {P : Set Text},
      Tracks sha256 store P →
      ∃ P', Tracks sha256 (runStore leafHash sha256 store calls) P' ∧
        (P' = {x | x ∈ (runStore leafHash sha256 store calls).objects} ↔
          P = {x | x ∈ store.objects} ∧ ¬RunInterrupted leafHash sha256 store calls)
  | [], store, P, h => ⟨P, h, (and_iff_left not_false).symm⟩
  | call :: calls, store, P, h => by
    obtain ⟨P₁, h₁, hiff₁⟩ := call.run_tracks hleaf h
    obtain ⟨P₂, h₂, hiff₂⟩ := runStore_tracks hleaf calls h₁
    refine ⟨P₂, h₂, hiff₂.trans ?_⟩
    rw [hiff₁, RunInterrupted]
    tauto

/-! ## Redelivery -/

/-- Insertions that all complete are not interrupted. -/
theorem not_interrupted : ∀ (offers : List (Offer Obj)) (store : SQLiteCRDTStore),
    (∀ offer ∈ offers, offer.fate = .completes) → ¬Interrupted leafHash sha256 store offers
  | [], _, _ => id
  | offer :: offers, store, h => by
    rintro (⟨hpath, -⟩ | ⟨-, hrest⟩)
    · cases (h offer List.mem_cons_self).symm.trans hpath
    · exact not_interrupted offers _ (fun o ho => h o (List.mem_cons_of_mem _ ho)) hrest

theorem runInterrupted_append : ∀ (calls again : List (StoreCall Obj)) (store : SQLiteCRDTStore),
    (∀ call ∈ again, ∀ offer ∈ call.offers, offer.fate = .completes) →
      (RunInterrupted leafHash sha256 store (calls ++ again) ↔
        RunInterrupted leafHash sha256 store calls)
  | [], [], _, _ => Iff.rfl
  | [], call :: again, store, h => by
    have hrest := runInterrupted_append [] again (call.run leafHash sha256 store) fun c hc =>
      h c (List.mem_cons_of_mem _ hc)
    refine iff_of_false ?_ id
    rintro (hnow | hlater)
    · exact not_interrupted _ _ (h call List.mem_cons_self) hnow
    · exact hrest.1 hlater
  | call :: calls, again, store, h => by
    rw [List.cons_append, RunInterrupted, RunInterrupted,
      runInterrupted_append calls again _ h]

theorem SQLiteCRDTStore.Tracks.root_eq (h : Tracks sha256 store {x | x ∈ store.objects}) :
    store.merkle.getRootHash sha256 = InMemoryMerkleTree.getRootHash sha256 store.objects :=
  (SQLiteMerkleTree.answers_eq h.isId h.leveled h.represents).1

/-- With the root of the stored ids the tree is theirs, if SHA-256 tells sets of them apart. -/
theorem SQLiteCRDTStore.Tracks.eq_of_root_eq (h : Tracks sha256 store P)
    (hsha : ∀ ids, (∀ x ∈ ids, x ∈ store.objects) → Collisionless sha256 ids store.objects)
    (hroot : store.merkle.getRootHash sha256 =
      InMemoryMerkleTree.getRootHash sha256 store.objects) : P = {x | x ∈ store.objects} := by
  classical
  obtain ⟨ids, hids, rfl⟩ : ∃ ids : List Text, (∀ x ∈ ids, x ∈ store.objects) ∧
      P = {x | x ∈ ids} := by
    refine ⟨store.objects.filter (· ∈ P), fun x hx => (List.mem_filter.1 hx).1, ?_⟩
    ext x
    simp only [Set.mem_ofPred_eq, List.mem_filter, decide_eq_true_eq]
    exact ⟨fun hx => ⟨h.subset hx, hx⟩, And.right⟩
  have hisId : ∀ x ∈ ids, IsId x := fun x hx => h.isId x (hids x hx)
  have htree := (SQLiteMerkleTree.answers_eq hisId h.leveled h.represents).1
  rw [htree, rebuilt_root_eq hisId, rebuilt_root_eq h.isId,
    root_digest_inj (hsha ids hids) hisId h.isId] at hroot
  exact hroot

/-- After a run and any redelivery that completes, the root is that of the stored ids if no
insertion of the run stopped between the commit of its row and that of its path; and only then, if
SHA-256 tells the sets of stored ids apart. -/
theorem redelivered_root (hleaf : ∀ obj, IsId (leafHash obj)) (calls again : List (StoreCall Obj))
    (hagain : ∀ call ∈ again, ∀ offer ∈ call.offers, offer.fate = .completes) :
    let store := runStore leafHash sha256 {} (calls ++ again)
    let intact := store.merkle.getRootHash sha256 =
      InMemoryMerkleTree.getRootHash sha256 store.objects
    (¬RunInterrupted leafHash sha256 {} calls → intact) ∧
      ((∀ ids, (∀ x ∈ ids, x ∈ store.objects) → Collisionless sha256 ids store.objects) →
        intact → ¬RunInterrupted leafHash sha256 {} calls) := by
  intro store intact
  obtain ⟨P, h, hiff⟩ := runStore_tracks hleaf (calls ++ again) (@tracks_empty sha256)
  rw [runInterrupted_append calls again {} hagain] at hiff
  have hempty : (∅ : Set Text) = {x | x ∈ ({} : SQLiteCRDTStore).objects} := by
    ext x
    simp
  constructor
  · intro hno
    have hP := hiff.2 ⟨hempty, hno⟩
    rw [hP] at h
    exact h.root_eq
  · exact fun hsha hroot => (hiff.1 (h.eq_of_root_eq hsha hroot)).2

/-- An object of id `zeros`. -/
def zerosOffer (fate : Fate) : Offer Unit := ⟨.knowledgeObject (), fate⟩

theorem redelivered_root_before_row :
    let store := runStore (fun _ : Unit => SQLiteMerkleTree.zeros) id {}
      [.merge [zerosOffer .stopsBeforeRow], .add (zerosOffer .completes)]
    store.merkle.getRootHash id = InMemoryMerkleTree.getRootHash id store.objects :=
  (redelivered_root (fun _ => isId_replicate (by decide)) [.merge [zerosOffer .stopsBeforeRow]]
    [.add (zerosOffer .completes)] (by simp [StoreCall.offers, zerosOffer])).1
    (by simp [RunInterrupted, Interrupted, Offer.Interrupted, StoreCall.offers, zerosOffer])

/-- An insertion that stops between its commits, offered again and again. -/
theorem interrupted_path_never_written :
    let store := runStore (fun _ : Unit => SQLiteMerkleTree.zeros) SQLiteMerkleTree.markedDigest {}
      [.add (zerosOffer .stopsBeforePath), .add (zerosOffer .completes),
        .merge [zerosOffer .completes]]
    store.objects = [SQLiteMerkleTree.zeros] ∧
      store.merkle.getRootHash SQLiteMerkleTree.markedDigest ≠
        InMemoryMerkleTree.getRootHash SQLiteMerkleTree.markedDigest store.objects := by
  have hstore : runStore (fun _ : Unit => SQLiteMerkleTree.zeros) SQLiteMerkleTree.markedDigest {}
      [.add (zerosOffer .stopsBeforePath), .add (zerosOffer .completes),
        .merge [zerosOffer .completes]] = { objects := [SQLiteMerkleTree.zeros] } := by
    rfl
  intro store
  have heq : store = { objects := [SQLiteMerkleTree.zeros] } := hstore
  rw [heq]
  exact ⟨rfl, fun h => SQLiteMerkleTree.rebuilt_zeros_root_ne h.symm⟩

end CksRuntime.Crdt
