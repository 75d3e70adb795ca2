import CksRuntime.Crdt.MerkleTree
import CksRuntime.Lib.HashTrie

/-!
# The tree is a function of the set

Both trees are tables of the hash trie of the ids held: the incremental one because a path rehashed
is the trie's `insertPath`, the rebuilt one because each level is hashed from the level below. So
they agree, and depend on the set alone.
-/

set_option autoImplicit false

namespace CksRuntime

open Merkle HashTrie

namespace Merkle

/-- The hashing of the tree: a leaf is its id. -/
def hashing (sha256 : Text → Text) : Hashing Char Text where
  letters := NIBBLES
  empty := EMPTY_SUBTREE_HASH sha256
  leaf k := k
  node := nodeHash sha256

variable {sha256 : Text → Text} {objectId : Text}

theorem lower_of_nibbles (h : ∀ c ∈ objectId, c ∈ NIBBLES) : lower objectId = objectId := by
  have hmap : NIBBLES.map Char.toLower = NIBBLES.map id := by decide
  rw [lower, List.map_congr_left fun c hm => List.map_inj_left.1 hmap c (h c hm), List.map_id]

theorem isId_replicate {c : Char} (h : c ∈ NIBBLES) : IsId (List.replicate ID_HEX_LENGTH c) :=
  ⟨List.length_replicate, fun _ hc => List.eq_of_mem_replicate hc ▸ h⟩

theorem validateId_of_isId (h : IsId objectId) : validateId objectId = .ok () := by
  unfold validateId
  rw [if_neg]
  rintro (hlen | hany)
  · exact hlen h.1
  · rw [lower_of_nibbles h.2, List.any_eq_true] at hany
    obtain ⟨c, hc, hn⟩ := hany
    exact of_decide_eq_true hn (h.2 c hc)

end Merkle

/-! ## SQLite -/

namespace SQLiteMerkleTree

variable {sha256 : Text → Text} {tree : SQLiteMerkleTree}

/-- The hashes of a tree, by their paths. -/
def hashes (tree : SQLiteMerkleTree) (p : Text) : Option Text := (tree.rows p).map (·.hash)

/-- Every row is at the level of its prefix. -/
def Leveled (tree : SQLiteMerkleTree) : Prop := ∀ p, ∀ row ∈ tree.rows p, row.level = p.length

theorem getHash_eq (p : Text) :
    tree.getHash sha256 p = childHash (hashing sha256) tree.hashes p := by
  rw [getHash, childHash, hashes]
  cases tree.rows p <;> rfl

theorem likeChildren_append (p : Text) (c : Char) : likeChildren p (p ++ [c]) = true := by
  simp [likeChildren]

theorem getChildrenHashes_eq (h : tree.Leveled) (p : Text) :
    tree.getChildrenHashes sha256 p = children (hashing sha256) tree.hashes p := by
  unfold getChildrenHashes children
  refine List.map_congr_left fun c _ => ?_
  rw [childHash, hashes, found]
  cases hr : tree.rows (p ++ [c]) with
  | none => rfl
  | some row =>
    have hlevel := h _ row hr
    rw [List.length_append, List.length_singleton] at hlevel
    simp [Option.filter, hlevel, likeChildren_append]

theorem upsert_leveled (h : tree.Leveled) (p hash : Text) :
    (tree.upsert p p.length hash).Leveled := by
  intro q row hrow
  rw [upsert] at hrow
  dsimp only at hrow
  by_cases hq : q = p
  · subst hq
    rw [Function.update_self, Option.mem_some_iff] at hrow
    subst hrow
    cases hr : tree.rows q with
    | none => rfl
    | some old => exact h q old hr
  · rw [Function.update_of_ne hq] at hrow
    exact h q row hrow

theorem hashes_upsert (p hash : Text) (level : Nat) :
    (tree.upsert p level hash).hashes = Function.update tree.hashes p (some hash) := by
  funext q
  rw [hashes, upsert]
  dsimp only
  by_cases hq : q = p
  · subst hq
    rw [Function.update_self, Function.update_self]
    cases tree.rows q <;> rfl
  · rw [Function.update_of_ne hq, Function.update_of_ne hq, hashes]

variable (sha256) in
/-- The loop over the levels is the rehashing of the path. -/
theorem updateLevels_spec (objectId : Text) :
    ∀ (level : Nat) (tree : SQLiteMerkleTree), level ≤ objectId.length → tree.Leveled →
      (updateLevels sha256 objectId level tree).Leveled ∧
        (updateLevels sha256 objectId level tree).hashes =
          rehashUp (hashing sha256) objectId level tree.hashes
  | 0, _, _, h => ⟨h, rfl⟩
  | level + 1, tree, hle, h => by
    have hlen : (objectId.take level).length = level := by
      rw [List.length_take]
      omega
    have hup := upsert_leveled h (objectId.take level) (nodeHash sha256 (objectId.take level)
      (tree.getChildrenHashes sha256 (objectId.take level)))
    rw [hlen] at hup
    obtain ⟨hlev, hhash⟩ := updateLevels_spec objectId level _ (by omega) hup
    refine ⟨hlev, hhash.trans ?_⟩
    rw [hashes_upsert, getChildrenHashes_eq h]
    rfl

variable (sha256) in
/-- `update_merkle_path` with an id inserts its path. -/
theorem updateMerklePath_spec {objectId : Text} (hid : IsId objectId) (h : tree.Leveled) :
    ∃ tree', tree.updateMerklePath sha256 objectId = .ok tree' ∧ tree'.Leveled ∧
      tree'.hashes = insertPath (hashing sha256) objectId tree.hashes := by
  have hup := upsert_leveled h objectId objectId
  obtain ⟨hlev, hhash⟩ := updateLevels_spec sha256 objectId objectId.length
    (tree.upsert objectId objectId.length objectId) le_rfl hup
  refine ⟨_, ?_, hlev, hhash.trans (by rw [hashes_upsert]; rfl)⟩
  rw [updateMerklePath, validateId_of_isId hid, lower_of_nibbles hid.2, ← hid.1]
  rfl

theorem leveled_empty : (({} : SQLiteMerkleTree)).Leveled := by
  intro p row hrow
  cases hrow

variable (sha256) in
/-- Any insertions with ids, from a table of `S`. -/
theorem insertAll_spec : ∀ (ids : List Text) {tree : SQLiteMerkleTree} {S : Set Text},
    (∀ objectId ∈ ids, IsId objectId) → tree.Leveled →
      Represents (hashing sha256) ID_HEX_LENGTH S tree.hashes →
      ∃ tree', ids.foldlM (updateMerklePath sha256) tree = .ok tree' ∧ tree'.Leveled ∧
        Represents (hashing sha256) ID_HEX_LENGTH ({x | x ∈ ids} ∪ S) tree'.hashes
  | [], tree, S, _, hlev, hrep => ⟨tree, rfl, hlev, by simpa using hrep⟩
  | objectId :: ids, tree, S, hids, hlev, hrep => by
    have hid := hids objectId List.mem_cons_self
    obtain ⟨mid, hmid, hmlev, hmhash⟩ := updateMerklePath_spec sha256 hid hlev
    have hmrep : Represents (hashing sha256) ID_HEX_LENGTH (insert objectId S) mid.hashes := by
      rw [hmhash]
      exact represents_insertPath hrep hid.1
    obtain ⟨tree', hrun, hlev', hrep'⟩ :=
      insertAll_spec ids (fun x hx => hids x (List.mem_cons_of_mem _ hx)) hmlev hmrep
    refine ⟨tree', ?_, hlev', ?_⟩
    · rw [List.foldlM_cons, hmid]
      exact hrun
    · have hset : {x | x ∈ objectId :: ids} ∪ S = {x | x ∈ ids} ∪ insert objectId S := by
        ext x
        simp only [Set.mem_union, Set.mem_ofPred_eq, List.mem_cons, Set.mem_insert_iff]
        tauto
      rw [hset]
      exact hrep'

variable (sha256) in
theorem insertAll_empty {ids : List Text} (hids : ∀ objectId ∈ ids, IsId objectId) :
    ∃ tree, ids.foldlM (updateMerklePath sha256) {} = .ok tree ∧ tree.Leveled ∧
      Represents (hashing sha256) ID_HEX_LENGTH {x | x ∈ ids} tree.hashes := by
  obtain ⟨tree, hrun, hlev, hrep⟩ :=
    insertAll_spec sha256 ids hids leveled_empty represents_empty
  exact ⟨tree, hrun, hlev, by rwa [Set.union_empty] at hrep⟩

end SQLiteMerkleTree

/-! ## In memory -/

namespace InMemoryMerkleTree

variable {sha256 : Text → Text} {objects : List Text}

variable (sha256) in
/-- The nodes of one level read the level below, which they leave alone. -/
theorem foldl_level (level : Nat) : ∀ (prefixes : List Text) (nodes : Text → Option Text),
    (∀ p ∈ prefixes, p.length = level) → ∀ q,
      prefixes.foldl (fun nodes p => Function.update nodes p
          (some (nodeHash sha256 p (children (hashing sha256) nodes p)))) nodes q =
        if q ∈ prefixes then some (nodeHash sha256 q (children (hashing sha256) nodes q))
        else nodes q
  | [], _, _, _ => by simp
  | p :: prefixes, nodes, h, q => by
    have hlen := h p List.mem_cons_self
    rw [List.foldl_cons, foldl_level level prefixes _ fun r hr => h r (List.mem_cons_of_mem _ hr)]
    have hchildren : ∀ r : Text, r.length = level → ∀ v,
        children (hashing sha256) (Function.update nodes p v) r =
          children (hashing sha256) nodes r := by
      intro r hr v
      refine List.map_congr_left fun a _ => ?_
      rw [childHash, childHash, Function.update_of_ne]
      rintro rfl
      rw [List.length_append, List.length_singleton] at hlen
      omega
    by_cases hq : q ∈ prefixes
    · rw [if_pos hq, if_pos (List.mem_cons_of_mem _ hq),
        hchildren q (h q (List.mem_cons_of_mem _ hq))]
    · rw [if_neg hq]
      by_cases hqp : q = p
      · subst hqp
        rw [Function.update_self, if_pos List.mem_cons_self]
      · rw [Function.update_of_ne hqp, if_neg]
        simp [hqp, hq]

theorem rebuildLevel_apply (level : Nat) (nodes : Text → Option Text)
    (hobj : ∀ x ∈ objects, level ≤ x.length) (q : Text) :
    rebuildLevel sha256 objects level nodes q =
      if q ∈ objects.map (·.take level) then
        some (nodeHash sha256 q (children (hashing sha256) nodes q))
      else nodes q := by
  have hlen : ∀ p ∈ (objects.map (·.take level)).dedup, p.length = level := by
    intro p hp
    rw [List.mem_dedup, List.mem_map] at hp
    obtain ⟨x, hx, rfl⟩ := hp
    rw [List.length_take]
    exact min_eq_left (hobj x hx)
  have := foldl_level sha256 level _ nodes hlen q
  simp only [List.mem_dedup] at this
  exact this

theorem mem_take_iff {level : Nat} {q : Text} (hq : q.length = level) :
    q ∈ objects.map (·.take level) ↔ Occurs {x | x ∈ objects} q := by
  rw [List.mem_map]
  constructor
  · rintro ⟨x, hx, rfl⟩
    exact ⟨x, hx, List.take_prefix _ _⟩
  · rintro ⟨x, hx, hqx⟩
    refine ⟨x, hx, ?_⟩
    rw [← hq]
    exact (List.prefix_iff_eq_take.1 hqx).symm

/-- From the level above down, the nodes are those of the set. -/
def DoneFrom (sha256 : Text → Text) (objects : List Text) (level : Nat)
    (nodes : Text → Option Text) : Prop :=
  ∀ p, nodes p = if level ≤ p.length then
    stored (hashing sha256) ID_HEX_LENGTH {x | x ∈ objects} p else none

theorem leaves_apply : ∀ (objects : List Text) (nodes : Text → Option Text) (q : Text),
    objects.foldl (fun nodes x => Function.update nodes x (some x)) nodes q =
      if q ∈ objects then some q else nodes q
  | [], _, _ => by simp
  | x :: objects, nodes, q => by
    rw [List.foldl_cons, leaves_apply objects]
    by_cases hq : q ∈ objects
    · rw [if_pos hq, if_pos (List.mem_cons_of_mem _ hq)]
    · rw [if_neg hq]
      by_cases hqx : q = x
      · subst hqx
        rw [Function.update_self, if_pos List.mem_cons_self]
      · rw [Function.update_of_ne hqx, if_neg]
        simp [hqx, hq]

theorem leaves_doneFrom (hobj : ∀ x ∈ objects, IsId x) :
    DoneFrom sha256 objects ID_HEX_LENGTH
      (objects.foldl (fun nodes x => Function.update nodes x (some x)) fun _ => none) := by
  have hlen : ∀ x ∈ ({x | x ∈ objects} : Set Text), x.length = ID_HEX_LENGTH :=
    fun x hx => (hobj x hx).1
  intro p
  rw [leaves_apply]
  by_cases hp : p ∈ objects
  · have hocc : Occurs {x | x ∈ objects} p := ⟨p, hp, List.prefix_rfl⟩
    have hpl := (hobj p hp).1
    rw [if_pos hp, if_pos hpl.ge, stored_of_occurs hocc, hpl, Nat.sub_self, digest_zero hocc]
    rfl
  · rw [if_neg hp]
    split
    · rename_i hle
      rw [stored_of_not]
      intro hocc
      exact hp ((occurs_iff_mem hlen (le_antisymm (hocc.length_le hlen) hle)).1 hocc)
    · rfl

theorem rebuildLevel_doneFrom (hobj : ∀ x ∈ objects, IsId x) {level : Nat}
    (hlt : level < ID_HEX_LENGTH) {nodes : Text → Option Text}
    (h : DoneFrom sha256 objects (level + 1) nodes) :
    DoneFrom sha256 objects level (rebuildLevel sha256 objects level nodes) := by
  intro p
  rw [rebuildLevel_apply level nodes fun x hx => by rw [(hobj x hx).1]; exact hlt.le]
  by_cases hp : p.length = level
  · rw [if_pos hp.ge]
    by_cases hocc : Occurs {x | x ∈ objects} p
    · have hchild : ∀ a ∈ (hashing sha256).letters, nodes (p ++ [a]) =
          stored (hashing sha256) ID_HEX_LENGTH {x | x ∈ objects} (p ++ [a]) := by
        intro a _
        rw [h, if_pos]
        rw [List.length_append, List.length_singleton, hp]
      rw [if_pos ((mem_take_iff hp).2 hocc), stored_of_children hocc (by omega) hchild]
      rfl
    · rw [if_neg fun hm => hocc ((mem_take_iff hp).1 hm), h p, if_neg (by omega),
        stored_of_not hocc]
  · have hnot : p ∉ objects.map (·.take level) := by
      rw [List.mem_map]
      rintro ⟨x, hx, rfl⟩
      rw [List.length_take, (hobj x hx).1] at hp
      omega
    rw [if_neg hnot, h p]
    by_cases hle : level ≤ p.length
    · rw [if_pos (by omega), if_pos hle]
    · rw [if_neg (by omega), if_neg hle]

variable (sha256) in
theorem rebuildLevels_represents (hobj : ∀ x ∈ objects, IsId x) :
    ∀ (level : Nat) (nodes : Text → Option Text), level ≤ ID_HEX_LENGTH →
      DoneFrom sha256 objects level nodes →
      Represents (hashing sha256) ID_HEX_LENGTH {x | x ∈ objects}
        (rebuildLevels sha256 objects level nodes)
  | 0, nodes, _, h => fun p => by rw [rebuildLevels, h p, if_pos (Nat.zero_le _)]
  | level + 1, nodes, hle, h =>
    rebuildLevels_represents hobj level _ (by omega) (rebuildLevel_doneFrom hobj (by omega) h)

/-- The root of no objects is stored as the empty hash, where the table of the set has no row. -/
theorem rebuildTree_getD (hobj : ∀ x ∈ objects, IsId x) (p : Text) :
    (rebuildTree sha256 objects p).getD (EMPTY_SUBTREE_HASH sha256) =
      (stored (hashing sha256) ID_HEX_LENGTH {x | x ∈ objects} p).getD
        (EMPTY_SUBTREE_HASH sha256) := by
  have hrep := rebuildLevels_represents sha256 hobj ID_HEX_LENGTH _ le_rfl (leaves_doneFrom hobj)
  unfold rebuildTree
  cases objects with
  | cons x objects => rw [← hrep p]; rfl
  | nil =>
    have hnot : ¬Occurs {x | x ∈ ([] : List Text)} p := by
      rintro ⟨k, hk, -⟩
      cases hk
    rw [stored_of_not hnot]
    by_cases hp : p = []
    · subst hp
      rfl
    · rw [if_pos List.isEmpty_nil, Function.update_of_ne hp, hrep p, stored_of_not hnot]

end InMemoryMerkleTree

/-! ## The two agree -/

namespace SQLiteMerkleTree

variable {sha256 : Text → Text} {tree : SQLiteMerkleTree}

theorem getHash_of_represents {S : Set Text}
    (hrep : Represents (hashing sha256) ID_HEX_LENGTH S tree.hashes) (p : Text) :
    tree.getHash sha256 p =
      (stored (hashing sha256) ID_HEX_LENGTH S p).getD (EMPTY_SUBTREE_HASH sha256) := by
  rw [getHash_eq, childHash, hrep p]
  rfl

/-- A table of the ids held by the store in memory answers as it does. -/
theorem answers_eq {objects : List Text} (hobj : ∀ x ∈ objects, IsId x) (hlev : tree.Leveled)
    (hrep : Represents (hashing sha256) ID_HEX_LENGTH {x | x ∈ objects} tree.hashes) :
    tree.getRootHash sha256 = InMemoryMerkleTree.getRootHash sha256 objects ∧
      ∀ p, tree.getChildrenHashes sha256 p =
        InMemoryMerkleTree.getChildrenHashes sha256 objects p := by
  constructor
  · rw [getRootHash, getHash_of_represents hrep, InMemoryMerkleTree.getRootHash,
      InMemoryMerkleTree.rebuildTree_getD hobj]
  · intro p
    rw [getChildrenHashes_eq hlev]
    refine List.map_congr_left fun a _ => ?_
    rw [childHash, hrep, InMemoryMerkleTree.rebuildTree_getD hobj]
    rfl

/-- Paths updated one id at a time answer as the tree rebuilt from the resulting set; so the order
and the repetition of the ids do not matter. -/
theorem incremental_eq_rebuilt (sha256 : Text → Text) (ids : List Text)
    (hids : ∀ objectId ∈ ids, IsId objectId) :
    ∃ tree, ids.foldlM (updateMerklePath sha256) {} = .ok tree ∧
      (∀ objects : List Text, (∀ x, x ∈ objects ↔ x ∈ ids) →
        tree.getRootHash sha256 = InMemoryMerkleTree.getRootHash sha256 objects ∧
        ∀ p, tree.getChildrenHashes sha256 p =
          InMemoryMerkleTree.getChildrenHashes sha256 objects p) ∧
      ∀ ids' : List Text, (∀ x, x ∈ ids' ↔ x ∈ ids) →
        ∃ tree', ids'.foldlM (updateMerklePath sha256) {} = .ok tree' ∧
          tree'.getRootHash sha256 = tree.getRootHash sha256 ∧
          ∀ p, tree'.getChildrenHashes sha256 p = tree.getChildrenHashes sha256 p := by
  obtain ⟨tree, hrun, hlev, hrep⟩ := insertAll_empty sha256 hids
  have hrebuilt : ∀ objects : List Text, (∀ x, x ∈ objects ↔ x ∈ ids) →
      tree.getRootHash sha256 = InMemoryMerkleTree.getRootHash sha256 objects ∧
      ∀ p, tree.getChildrenHashes sha256 p =
        InMemoryMerkleTree.getChildrenHashes sha256 objects p := by
    intro objects hset
    refine answers_eq (fun x hx => hids x ((hset x).1 hx)) hlev ?_
    rwa [show {x | x ∈ objects} = {x | x ∈ ids} from Set.ext hset]
  refine ⟨tree, hrun, hrebuilt, fun ids' hset => ?_⟩
  have hids' : ∀ objectId ∈ ids', IsId objectId := fun x hx => hids x ((hset x).1 hx)
  obtain ⟨tree', hrun', hlev', hrep'⟩ := insertAll_empty sha256 hids'
  obtain ⟨hroot, hchildren⟩ := hrebuilt ids' hset
  obtain ⟨hroot', hchildren'⟩ := answers_eq hids' hlev' hrep'
  exact ⟨tree', hrun', hroot'.trans hroot.symm, fun p => (hchildren' p).trans (hchildren p).symm⟩

theorem incremental_eq_rebuilt_repeated :
    let zeros := List.replicate ID_HEX_LENGTH '0'
    let tens := List.replicate ID_HEX_LENGTH 'a'
    ∃ tree, [zeros, tens, zeros].foldlM (updateMerklePath id) {} = .ok tree ∧
      tree.getRootHash id = InMemoryMerkleTree.getRootHash id [tens, zeros] := by
  intro zeros tens
  obtain ⟨tree, hrun, hrebuilt, -⟩ := incremental_eq_rebuilt id [zeros, tens, zeros] (by
    simp only [List.mem_cons, List.not_mem_nil, or_false, forall_eq_or_imp, forall_eq]
    exact ⟨isId_replicate (by decide), isId_replicate (by decide), isId_replicate (by decide)⟩)
  refine ⟨tree, hrun, (hrebuilt [tens, zeros] fun x => ?_).1⟩
  simp only [List.mem_cons, List.not_mem_nil, or_false]
  tauto

end SQLiteMerkleTree

end CksRuntime
