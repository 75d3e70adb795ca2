import CksRuntime.Crdt.Proof.MerkleTree

/-!
# Equal roots, equal sets

A node's payload is its prefix and sixteen hashes of one width, so equal payloads have equal child
hashes. With SHA-256 injective on the payloads of the two trees, equal roots are then equal at every
prefix down to the leaves, where a hash is the id itself.
-/

set_option autoImplicit false

namespace CksRuntime

open Merkle HashTrie

namespace Merkle

variable (sha256 : Text → Text)

/-- The payloads hashed for the tree of some ids. -/
def payloads (objects : List Text) : Set Text :=
  {x | ∃ objectId ∈ objects, ∃ level < ID_HEX_LENGTH, x = objectId.take level ++
    (InMemoryMerkleTree.getChildrenHashes sha256 objects (objectId.take level)).flatten}

variable {sha256} {objects : List Text}

theorem rebuilt_children_eq (hobj : ∀ x ∈ objects, IsId x) {p : Text} {n : Nat}
    (hn : p.length + (n + 1) = ID_HEX_LENGTH) :
    InMemoryMerkleTree.getChildrenHashes sha256 objects p =
      NIBBLES.map fun a => digest (hashing sha256) {x | x ∈ objects} n (p ++ [a]) := by
  refine List.map_congr_left fun a _ => ?_
  have hlen : ID_HEX_LENGTH - (p ++ [a]).length = n := by
    rw [List.length_append, List.length_singleton]
    omega
  rw [InMemoryMerkleTree.rebuildTree_getD hobj, ← hlen]
  exact stored_getD

theorem rebuilt_root_eq (hobj : ∀ x ∈ objects, IsId x) :
    InMemoryMerkleTree.getRootHash sha256 objects =
      digest (hashing sha256) {x | x ∈ objects} ID_HEX_LENGTH [] := by
  rw [InMemoryMerkleTree.getRootHash, InMemoryMerkleTree.rebuildTree_getD hobj]
  exact stored_getD

variable (sha256) in
/-- An inner node is the hash of a payload. -/
theorem digest_payload (hobj : ∀ x ∈ objects, IsId x) {p : Text} {n : Nat}
    (hocc : Occurs {x | x ∈ objects} p) (hn : p.length + (n + 1) = ID_HEX_LENGTH) :
    ∃ x ∈ payloads sha256 objects,
      digest (hashing sha256) {x | x ∈ objects} (n + 1) p = sha256 x ∧
        x = p ++ (NIBBLES.map fun a =>
          digest (hashing sha256) {x | x ∈ objects} n (p ++ [a])).flatten := by
  obtain ⟨objectId, hid, hp⟩ := hocc
  have htake : objectId.take p.length = p := (List.prefix_iff_eq_take.1 hp).symm
  refine ⟨_, ⟨objectId, hid, p.length, by omega, rfl⟩, ?_, ?_⟩
  · rw [digest_succ ⟨objectId, hid, hp⟩, htake, rebuilt_children_eq hobj hn]
    rfl
  · rw [htake, rebuilt_children_eq hobj hn]

/-- Every hash stored for a prefix, and the empty one, has 64 characters. -/
theorem digest_length (hobj : ∀ x ∈ objects, IsId x) (hsha : ∀ x, (sha256 x).length = ID_HEX_LENGTH)
    {p : Text} {n : Nat} (hn : p.length + n = ID_HEX_LENGTH) :
    (digest (hashing sha256) {x | x ∈ objects} n p).length = ID_HEX_LENGTH := by
  by_cases hocc : Occurs {x | x ∈ objects} p
  · cases n with
    | zero =>
      rw [digest_zero hocc]
      exact hn
    | succ n =>
      obtain ⟨x, -, hx, -⟩ := digest_payload sha256 hobj hocc hn
      rw [hx, hsha]
  · rw [digest_of_not hocc]
    exact hsha _

/-- Hashes of one width are read back from their concatenation. -/
theorem map_eq_of_flatten_eq {f g : Char → Text} {l : List Char} {w : Nat}
    (hf : ∀ a ∈ l, (f a).length = w) (hg : ∀ a ∈ l, (g a).length = w)
    (h : (l.map f).flatten = (l.map g).flatten) : ∀ a ∈ l, f a = g a := by
  have hmap : l.map f = l.map g := by
    refine List.eq_iff_flatten_eq.2 ⟨h, ?_⟩
    rw [List.map_map, List.map_map]
    exact List.map_congr_left fun a ha => (hf a ha).trans (hg a ha).symm
  exact List.map_inj_left.1 hmap

variable {ids ids' : List Text}

/-- What is assumed of SHA-256 for two trees: 64 hex characters, injective on the payloads the trees
hash, and an empty hash that is neither the hash of one of these nor an id. -/
structure Collisionless (sha256 : Text → Text) (ids ids' : List Text) : Prop where
  width : ∀ x, (sha256 x).length = ID_HEX_LENGTH
  injective : Set.InjOn sha256 (payloads sha256 ids ∪ payloads sha256 ids')
  empty_payload : ∀ x ∈ payloads sha256 ids ∪ payloads sha256 ids',
    sha256 x ≠ EMPTY_SUBTREE_HASH sha256
  empty_left : EMPTY_SUBTREE_HASH sha256 ∉ ids
  empty_right : EMPTY_SUBTREE_HASH sha256 ∉ ids'

theorem Collisionless.separates (h : Collisionless sha256 ids ids') (hids : ∀ x ∈ ids, IsId x)
    (hids' : ∀ x ∈ ids', IsId x) :
    Separates (hashing sha256) ID_HEX_LENGTH {x | x ∈ ids} {x | x ∈ ids'} where
  leaf_left := by
    rintro k hk rfl
    exact h.empty_left hk
  leaf_right := by
    rintro k hk rfl
    exact h.empty_right hk
  node_left p n hocc hn := by
    obtain ⟨x, hx, hdigest, -⟩ := digest_payload sha256 hids hocc hn
    rw [hdigest]
    exact h.empty_payload x (.inl hx)
  node_right p n hocc hn := by
    obtain ⟨x, hx, hdigest, -⟩ := digest_payload sha256 hids' hocc hn
    rw [hdigest]
    exact h.empty_payload x (.inr hx)
  children p n hocc hocc' hn heq := by
    obtain ⟨x, hx, hdigest, hpay⟩ := digest_payload sha256 hids hocc hn
    obtain ⟨x', hx', hdigest', hpay'⟩ := digest_payload sha256 hids' hocc' hn
    have hxx : x = x' := h.injective (.inl hx) (.inr hx') (by rw [← hdigest, heq, hdigest'])
    have hflat := hpay.symm.trans (hxx.trans hpay')
    have hwidth : ∀ a, (p ++ [a]).length + n = ID_HEX_LENGTH := by
      intro a
      rw [List.length_append, List.length_singleton]
      omega
    exact map_eq_of_flatten_eq (fun a _ => digest_length hids h.width (hwidth a))
      (fun a _ => digest_length hids' h.width (hwidth a)) (List.append_cancel_left hflat)

/-- Root digests tell sets of ids apart. -/
theorem root_digest_inj (h : Collisionless sha256 ids ids') (hids : ∀ x ∈ ids, IsId x)
    (hids' : ∀ x ∈ ids', IsId x) :
    digest (hashing sha256) {x | x ∈ ids} ID_HEX_LENGTH [] =
      digest (hashing sha256) {x | x ∈ ids'} ID_HEX_LENGTH [] ↔ {x | x ∈ ids} = {x | x ∈ ids'} := by
  constructor
  · exact eq_of_digest_eq (h.separates hids hids') (fun k hk => (hids k hk).1)
      (fun k hk => (hids' k hk).1) (fun k hk => (hids k hk).2) fun k hk => (hids' k hk).2
  · intro he
    rw [he]

end Merkle

namespace SQLiteMerkleTree

/-- Two stores built by any insertions, incremental or rebuilt, have one root exactly when they hold
the same ids. -/
theorem root_eq_iff (sha256 : Text → Text) (ids ids' : List Text)
    (hids : ∀ objectId ∈ ids, IsId objectId) (hids' : ∀ objectId ∈ ids', IsId objectId)
    (hsha : Collisionless sha256 ids ids') :
    ∃ tree tree', ids.foldlM (updateMerklePath sha256) {} = .ok tree ∧
      ids'.foldlM (updateMerklePath sha256) {} = .ok tree' ∧
      tree.getRootHash sha256 = InMemoryMerkleTree.getRootHash sha256 ids ∧
      tree'.getRootHash sha256 = InMemoryMerkleTree.getRootHash sha256 ids' ∧
      (tree.getRootHash sha256 = tree'.getRootHash sha256 ↔ ∀ x, x ∈ ids ↔ x ∈ ids') := by
  obtain ⟨tree, hrun, hlev, hrep⟩ := insertAll_empty sha256 hids
  obtain ⟨tree', hrun', hlev', hrep'⟩ := insertAll_empty sha256 hids'
  have hroot := (answers_eq hids hlev hrep).1
  have hroot' := (answers_eq hids' hlev' hrep').1
  refine ⟨tree, tree', hrun, hrun', hroot, hroot', ?_⟩
  rw [hroot, hroot', rebuilt_root_eq hids, rebuilt_root_eq hids', root_digest_inj hsha hids hids']
  exact Set.ext_iff

/-! ## A digest that tells payloads of two ids apart -/

/-- The first character of the payload, or of the second child's hash for the root, and its length,
for a hash without collisions on the texts that occur. -/
def markedDigest (payload : Text) : Text :=
  payload.getD (if payload.length = 1024 then 64 else 0) 'x' :: Char.ofNat payload.length ::
    List.replicate 62 'x'

theorem length_markedDigest (payload : Text) : (markedDigest payload).length = ID_HEX_LENGTH := by
  rw [markedDigest, List.length_cons, List.length_cons, List.length_replicate, ID_HEX_LENGTH]

/-- The first id there is. -/
def zeros : Text := List.replicate ID_HEX_LENGTH '0'

/-- An id that shares no prefix with it. -/
def ones : Text := List.replicate ID_HEX_LENGTH '1'

/-- Of the two ids, one at least the first. -/
def OfTwo (ids : List Text) : Prop := zeros ∈ ids ∧ ∀ x ∈ ids, x = zeros ∨ x = ones

theorem OfTwo.isId {ids : List Text} (h : OfTwo ids) : ∀ x ∈ ids, IsId x := by
  intro x hx
  rcases h.2 x hx with rfl | rfl
  · exact isId_replicate (by decide)
  · exact isId_replicate (by decide)

/-- Two of them with a common prefix are one. -/
theorem eq_of_prefix_take {x y : Text} (hx : x = zeros ∨ x = ones) (hy : y = zeros ∨ y = ones)
    {level : Nat} (hlevel : level ≠ 0) (h : x.take level <+: y) : y = x := by
  obtain ⟨l, rfl⟩ := Nat.exists_eq_succ_of_ne_zero hlevel
  rcases hx with rfl | rfl <;> rcases hy with rfl | rfl
  · rfl
  · cases (List.cons_prefix_cons.1 h).1
  · cases (List.cons_prefix_cons.1 h).1
  · rfl

/-- What is hashed for a prefix. -/
def payloadAt (ids : List Text) (p : Text) : Text :=
  p ++ (InMemoryMerkleTree.getChildrenHashes markedDigest ids p).flatten

variable {ids ids' : List Text} {p : Text}

theorem children_eq (h : OfTwo ids) (hp : p.length < ID_HEX_LENGTH) :
    ∃ n, p.length + (n + 1) = ID_HEX_LENGTH ∧
      InMemoryMerkleTree.getChildrenHashes markedDigest ids p =
        NIBBLES.map fun a => digest (hashing markedDigest) {x | x ∈ ids} n (p ++ [a]) := by
  obtain ⟨n, hn⟩ : ∃ n, p.length + (n + 1) = ID_HEX_LENGTH :=
    ⟨ID_HEX_LENGTH - p.length - 1, by omega⟩
  exact ⟨n, hn, rebuilt_children_eq h.isId hn⟩

theorem length_of_mem_children (h : OfTwo ids) (hp : p.length < ID_HEX_LENGTH) {hash : Text}
    (hhash : hash ∈ InMemoryMerkleTree.getChildrenHashes markedDigest ids p) :
    hash.length = ID_HEX_LENGTH := by
  obtain ⟨n, hn, hchildren⟩ := children_eq h hp
  rw [hchildren] at hhash
  obtain ⟨a, -, rfl⟩ := List.mem_map.1 hhash
  refine digest_length h.isId length_markedDigest ?_
  rw [List.length_append, List.length_singleton]
  omega

theorem length_payloadAt (h : OfTwo ids) (hp : p.length < ID_HEX_LENGTH) :
    (payloadAt ids p).length = p.length + 1024 := by
  have hwidths : (InMemoryMerkleTree.getChildrenHashes markedDigest ids p).map List.length =
      List.replicate 16 64 :=
    List.eq_replicate_iff.2 ⟨by rw [List.length_map]; rfl, fun n hn => by
      obtain ⟨hash, hhash, rfl⟩ := List.mem_map.1 hn
      exact length_of_mem_children h hp hhash⟩
  rw [payloadAt, List.length_append, List.length_flatten, hwidths]
  rfl

theorem payloadAt_congr (h : OfTwo ids) (h' : OfTwo ids') (hp : p.length < ID_HEX_LENGTH)
    (hsame : ∀ k, p <+: k → (k ∈ ids ↔ k ∈ ids')) : payloadAt ids p = payloadAt ids' p := by
  obtain ⟨n, hn, hchildren⟩ := children_eq h hp
  obtain ⟨n', hn', hchildren'⟩ := children_eq h' hp
  obtain rfl : n = n' := by omega
  rw [payloadAt, payloadAt, hchildren, hchildren']
  congr 2
  exact List.map_congr_left fun a _ =>
    digest_congr fun k hk => hsame k ((List.prefix_append p [a]).trans hk)

/-- Below the root the mark is the prefix's. -/
theorem markedDigest_inner (h : OfTwo ids) {a : Char}
    (hp : (a :: p).length < ID_HEX_LENGTH) : markedDigest (payloadAt ids (a :: p)) =
      a :: Char.ofNat (p.length + 1 + 1024) :: List.replicate 62 'x' := by
  have hlen := length_payloadAt h hp
  rw [markedDigest, hlen, if_neg (by rw [List.length_cons]; omega)]
  rfl

/-- A subtree of the second digit has its mark, and an empty one that of the empty hash. -/
theorem digest_second (h : OfTwo ids) {n : Nat} (hn : n + 1 = ID_HEX_LENGTH) :
    ∃ rest, digest (hashing markedDigest) {x | x ∈ ids} n ['1'] =
      (if ones ∈ ids then '1' else 'c') :: rest := by
  by_cases hones : ones ∈ ids
  · obtain ⟨m, rfl⟩ : ∃ m, n = m + 1 := ⟨62, Nat.succ.inj hn⟩
    have hlen : (['1'] : Text).length < ID_HEX_LENGTH := by decide
    have hocc : Occurs {x | x ∈ ids} ['1'] := ⟨ones, hones, List.prefix_append ['1'] _⟩
    have hm : (['1'] : Text).length + (m + 1) = ID_HEX_LENGTH := by
      rw [← hn, List.length_singleton]
      omega
    rw [if_pos hones, digest_succ hocc]
    have hpayload : (hashing markedDigest).node ['1'] (NIBBLES.map fun a =>
        digest (hashing markedDigest) {x | x ∈ ids} m (['1'] ++ [a])) =
          markedDigest (payloadAt ids ['1']) := by
      rw [payloadAt, rebuilt_children_eq h.isId hm]
      rfl
    exact ⟨_, hpayload.trans (markedDigest_inner h hlen)⟩
  · have hocc : ¬Occurs {x | x ∈ ids} ['1'] := by
      rintro ⟨k, hk, hp⟩
      rcases h.2 k hk with rfl | rfl
      · cases (List.cons_prefix_cons.1 hp).1
      · exact hones hk
    rw [if_neg hones, digest_of_not hocc]
    exact ⟨_, rfl⟩

/-- At the root it is that of the second child's hash. -/
theorem markedDigest_root (h : OfTwo ids) : markedDigest (payloadAt ids []) =
    (if ones ∈ ids then '1' else 'c') :: Char.ofNat 1024 :: List.replicate 62 'x' := by
  have hroot : ([] : Text).length < ID_HEX_LENGTH := by decide
  obtain ⟨n, hn, hchildren⟩ := children_eq h hroot
  rw [List.length_nil, Nat.zero_add] at hn
  have hfirst : (digest (hashing markedDigest) {x | x ∈ ids} n ['0']).length = 64 :=
    digest_length h.isId length_markedDigest ((Nat.add_comm _ _).trans hn)
  obtain ⟨rest, hsecond⟩ := digest_second h hn
  have hat : payloadAt ids [] = digest (hashing markedDigest) {x | x ∈ ids} n ['0'] ++
      (digest (hashing markedDigest) {x | x ∈ ids} n ['1'] ++ ((NIBBLES.drop 2).map fun a =>
        digest (hashing markedDigest) {x | x ∈ ids} n [a]).flatten) := by
    rw [payloadAt, hchildren]
    rfl
  have hmark : (payloadAt ids []).getD 64 'x' = if ones ∈ ids then '1' else 'c' := by
    rw [hat, hsecond, List.getD_eq_getElem?_getD, List.getElem?_append_right hfirst.le, hfirst]
    rfl
  rw [markedDigest, length_payloadAt h hroot, ← hmark]
  rfl

/-- The mark of a prefix of an id, and its level. -/
theorem markedDigest_take (h : OfTwo ids) {x : Text} (hx : x ∈ ids) {level : Nat}
    (hlevel : level < ID_HEX_LENGTH) : markedDigest (payloadAt ids (x.take level)) =
      (if level = 0 then if ones ∈ ids then '1' else 'c' else x.headD 'x') ::
        Char.ofNat (level + 1024) :: List.replicate 62 'x' := by
  cases level with
  | zero => exact markedDigest_root h
  | succ l =>
    obtain ⟨a, rest, rfl⟩ : ∃ a rest, x = a :: rest := by
      rcases h.2 x hx with rfl | rfl
      · exact ⟨_, _, rfl⟩
      · exact ⟨_, _, rfl⟩
    have hlen : (rest.take l).length = l := by
      have hfull := (h.isId _ hx).1
      rw [List.length_cons] at hfull
      rw [List.length_take]
      omega
    have hinner := markedDigest_inner h (a := a) (p := rest.take l)
      (by rw [List.length_cons, hlen]; exact hlevel)
    rw [hlen] at hinner
    exact hinner

theorem toNat_ofNat_level {level : Nat} (h : level < ID_HEX_LENGTH) :
    (Char.ofNat (level + 1024)).toNat = level + 1024 := by
  have hcode : ∀ n : Fin 64, (Char.ofNat (n + 1024)).toNat = n + 1024 := by decide
  exact hcode ⟨level, h⟩

/-- Equal digests are of equal payloads. -/
theorem payloadAt_inj (h : OfTwo ids) (h' : OfTwo ids') {x y : Text} (hx : x ∈ ids) (hy : y ∈ ids')
    {l m : Nat} (hl : l < ID_HEX_LENGTH) (hm : m < ID_HEX_LENGTH)
    (heq : markedDigest (payloadAt ids (x.take l)) = markedDigest (payloadAt ids' (y.take m))) :
    payloadAt ids (x.take l) = payloadAt ids' (y.take m) := by
  rw [markedDigest_take h hx hl, markedDigest_take h' hy hm] at heq
  obtain ⟨hmark, htail⟩ := List.cons_eq_cons.1 heq
  have hlevel := congrArg Char.toNat (List.cons_eq_cons.1 htail).1
  rw [toNat_ofNat_level hl, toNat_ofNat_level hm, Nat.add_right_cancel_iff] at hlevel
  subst hlevel
  have hlen : ∀ z : Text, (z.take l).length < ID_HEX_LENGTH :=
    fun z => (List.length_take_le l z).trans_lt hl
  by_cases hroot : l = 0
  · -- the mark tells whether both hold the second id
    rw [if_pos hroot, if_pos hroot] at hmark
    have hones : ones ∈ ids ↔ ones ∈ ids' := by
      by_cases h₁ : ones ∈ ids <;> by_cases h₂ : ones ∈ ids'
      · exact iff_of_true h₁ h₂
      · rw [if_pos h₁, if_neg h₂] at hmark
        cases hmark
      · rw [if_neg h₁, if_pos h₂] at hmark
        cases hmark
      · exact iff_of_false h₁ h₂
    subst hroot
    refine payloadAt_congr h h' (hlen x) fun k _ => ?_
    constructor
    · intro hk
      rcases h.2 k hk with rfl | rfl
      · exact h'.1
      · exact hones.1 hk
    · intro hk
      rcases h'.2 k hk with rfl | rfl
      · exact h.1
      · exact hones.2 hk
  · -- the mark tells the id, the only one below the prefix
    rw [if_neg hroot, if_neg hroot] at hmark
    obtain rfl : x = y := by
      rcases h.2 x hx with rfl | rfl <;> rcases h'.2 y hy with rfl | rfl
      · rfl
      · cases hmark
      · cases hmark
      · rfl
    refine payloadAt_congr h h' (hlen x) fun k hp => ?_
    constructor
    · intro hk
      rw [eq_of_prefix_take (h.2 x hx) (h.2 k hk) hroot hp]
      exact hy
    · intro hk
      rw [eq_of_prefix_take (h.2 x hx) (h'.2 k hk) hroot hp]
      exact hx

theorem markedDigest_collisionless (h : OfTwo ids) (h' : OfTwo ids') :
    Collisionless markedDigest ids ids' := by
  have hempty : EMPTY_SUBTREE_HASH markedDigest ∉ [zeros, ones] := by decide
  have hin : ∀ {objects : List Text}, OfTwo objects → EMPTY_SUBTREE_HASH markedDigest ∉ objects :=
    fun ho hmem => hempty (by simpa using ho.2 _ hmem)
  have hne : ∀ {objects : List Text}, OfTwo objects → ∀ x ∈ payloads markedDigest objects,
      markedDigest x ≠ EMPTY_SUBTREE_HASH markedDigest := by
    rintro objects ho x ⟨objectId, hid, level, hlevel, rfl⟩ heq
    have hmark := heq.symm.trans (markedDigest_take ho hid hlevel)
    have hcode := congrArg Char.toNat (List.cons_eq_cons.1 (List.cons_eq_cons.1 hmark).2).1
    rw [toNat_ofNat_level hlevel] at hcode
    have hshort : (Char.ofNat "cks-crdt-merkle-empty-subtree".toList.length).toNat = 29 := by decide
    omega
  refine ⟨length_markedDigest, ?_, ?_, hin h, hin h'⟩
  · rintro x (hx | hx) y (hy | hy) heq <;>
      obtain ⟨objectId, hid, level, hlevel, rfl⟩ := hx <;>
      obtain ⟨objectId', hid', level', hlevel', rfl⟩ := hy
    · exact payloadAt_inj h h hid hid' hlevel hlevel' heq
    · exact payloadAt_inj h h' hid hid' hlevel hlevel' heq
    · exact payloadAt_inj h' h hid hid' hlevel hlevel' heq
    · exact payloadAt_inj h' h' hid hid' hlevel hlevel' heq
  · rintro x (hx | hx)
    · exact hne h x hx
    · exact hne h' x hx

theorem ofTwo_zeros : OfTwo [zeros] :=
  ⟨List.mem_cons_self, fun _ hx => .inl (List.mem_singleton.1 hx)⟩

theorem rebuilt_zeros_root_ne :
    InMemoryMerkleTree.getRootHash markedDigest [zeros] ≠ EMPTY_SUBTREE_HASH markedDigest := by
  have hsep := (markedDigest_collisionless ofTwo_zeros ofTwo_zeros).separates ofTwo_zeros.isId
    ofTwo_zeros.isId
  rw [rebuilt_root_eq ofTwo_zeros.isId]
  exact digest_ne_empty hsep.leaf_left hsep.node_left (fun k hk => (ofTwo_zeros.isId k hk).1)
    ⟨zeros, List.mem_cons_self, List.nil_prefix⟩ (Nat.zero_add _)

/-- Two ids inserted in either order, one of them again, and a store that lacks one. -/
theorem root_eq_iff_shuffled : ∃ tree tree' tree'',
    [zeros, ones].foldlM (updateMerklePath markedDigest) {} = .ok tree ∧
    [ones, zeros, ones].foldlM (updateMerklePath markedDigest) {} = .ok tree' ∧
    [zeros].foldlM (updateMerklePath markedDigest) {} = .ok tree'' ∧
    tree.getRootHash markedDigest = tree'.getRootHash markedDigest ∧
    tree.getRootHash markedDigest ≠ tree''.getRootHash markedDigest := by
  have htwo : OfTwo [zeros, ones] := ⟨by simp, by simp⟩
  have hagain : OfTwo [ones, zeros, ones] := ⟨by simp, by simp [or_comm]⟩
  obtain ⟨tree, tree', hrun, hrun', -, -, hsame⟩ := root_eq_iff markedDigest [zeros, ones]
    [ones, zeros, ones] htwo.isId hagain.isId (markedDigest_collisionless htwo hagain)
  obtain ⟨tree₂, tree'', hrun₂, hrun'', -, -, hdiffer⟩ := root_eq_iff markedDigest [zeros, ones]
    [zeros] htwo.isId ofTwo_zeros.isId (markedDigest_collisionless htwo ofTwo_zeros)
  cases hrun.symm.trans hrun₂
  refine ⟨tree, tree', tree'', hrun, hrun', hrun'', hsame.2 fun x => ?_, fun h => ?_⟩
  · simp only [List.mem_cons, List.not_mem_nil, or_false]
    tauto
  · have hones := List.mem_singleton.1 ((hdiffer.1 h ones).1 (by simp))
    exact absurd hones (by decide)

end SQLiteMerkleTree

end CksRuntime
