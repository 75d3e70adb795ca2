import Mathlib.Data.Set.Insert
import Mathlib.Logic.Function.Basic

/-!
# Hash tries

A set of keys of one length as a tree of its prefixes, each node hashed from its children. `digest`
is the hash of a subtree as a function of the set alone; a table of stored hashes `Represents` the
set when it has just these. Rehashing the path of a key takes the table of a set to that of the set
with the key (`represents_insertPath`), and a table whose nodes agree with their children is the
table of its leaves (`represents_of_consistent`). Hashes that tell apart what is hashed tell apart
the sets (`mem_iff_of_digest_eq`).
-/

set_option autoImplicit false

namespace HashTrie

/-- How nodes are hashed; `letters` are the children of a node, in order. -/
structure Hashing (α η : Type) where
  letters : List α
  empty : η
  leaf : List α → η
  node : List α → List η → η

variable {α η : Type} (F : Hashing α η)

/-- Some key has the prefix. -/
def Occurs (S : Set (List α)) (p : List α) : Prop := ∃ k ∈ S, p <+: k

open Classical in
/-- The hash of the subtree at `p`, with `n` levels below it. -/
noncomputable def digest (S : Set (List α)) : Nat → List α → η
  | 0, p => if Occurs S p then F.leaf p else F.empty
  | n + 1, p =>
    if Occurs S p then F.node p (F.letters.map fun a => digest S n (p ++ [a])) else F.empty

variable {F} {S T : Set (List α)} {p k : List α} {n d : Nat}

theorem digest_of_not (h : ¬Occurs S p) : digest F S n p = F.empty := by
  cases n <;> exact if_neg h

theorem digest_zero (h : Occurs S p) : digest F S 0 p = F.leaf p := if_pos h

theorem digest_succ (h : Occurs S p) :
    digest F S (n + 1) p = F.node p (F.letters.map fun a => digest F S n (p ++ [a])) := if_pos h

theorem occurs_insert : Occurs (insert k S) p ↔ p <+: k ∨ Occurs S p := by
  simp only [Occurs, Set.mem_insert_iff, exists_eq_or_imp]

theorem Occurs.length_le (h : Occurs S p) (hS : ∀ k ∈ S, k.length = d) : p.length ≤ d := by
  obtain ⟨k, hk, hp⟩ := h
  rw [← hS k hk]
  exact hp.length_le

/-- At full length the keys themselves occur. -/
theorem occurs_iff_mem (hS : ∀ k ∈ S, k.length = d) (hp : p.length = d) : Occurs S p ↔ p ∈ S := by
  constructor
  · rintro ⟨k, hk, hpk⟩
    rw [hpk.eq_of_length (hp.trans (hS k hk).symm)]
    exact hk
  · exact fun h => ⟨p, h, List.prefix_rfl⟩

theorem occurs_congr (h : ∀ k, p <+: k → (k ∈ S ↔ k ∈ T)) : Occurs S p ↔ Occurs T p :=
  exists_congr fun k => and_congr_left fun hp => h k hp

/-- A subtree depends on the keys below it only. -/
theorem digest_congr (h : ∀ k, p <+: k → (k ∈ S ↔ k ∈ T)) : digest F S n p = digest F T n p := by
  induction n generalizing p with
  | zero =>
    by_cases hp : Occurs S p
    · rw [digest_zero hp, digest_zero ((occurs_congr h).1 hp)]
    · rw [digest_of_not hp, digest_of_not fun hp' => hp ((occurs_congr h).2 hp')]
  | succ n ih =>
    by_cases hp : Occurs S p
    · rw [digest_succ hp, digest_succ ((occurs_congr h).1 hp)]
      congr 1
      exact List.map_congr_left fun a _ => ih fun k hk => h k ((List.prefix_append p [a]).trans hk)
    · rw [digest_of_not hp, digest_of_not fun hp' => hp ((occurs_congr h).2 hp')]

/-- A new key changes the subtrees on its path only. -/
theorem digest_insert_of_not (h : ¬p <+: k) : digest F (insert k S) n p = digest F S n p := by
  refine digest_congr fun k' hk' => Set.mem_insert_iff.trans (or_iff_right fun hsame => h ?_)
  rw [← hsame]
  exact hk'

/-! ## Tables -/

/-- The stored hash of a child, or the empty hash. -/
def childHash (F : Hashing α η) (rows : List α → Option η) (q : List α) : η :=
  (rows q).getD F.empty

/-- The hashes under a path, in the order of the letters. -/
def children (F : Hashing α η) (rows : List α → Option η) (p : List α) : List η :=
  F.letters.map fun a => childHash F rows (p ++ [a])

open Classical in
/-- What a table of keys of length `d` stores at `p`. -/
noncomputable def stored (F : Hashing α η) (d : Nat) (S : Set (List α)) (p : List α) : Option η :=
  if Occurs S p then some (digest F S (d - p.length) p) else none

/-- The table has the hashes of the set's prefixes, and no others. -/
def Represents (F : Hashing α η) (d : Nat) (S : Set (List α)) (rows : List α → Option η) : Prop :=
  ∀ p, rows p = stored F d S p

theorem stored_of_occurs (h : Occurs S p) :
    stored F d S p = some (digest F S (d - p.length) p) := if_pos h

theorem stored_of_not (h : ¬Occurs S p) : stored F d S p = none := if_neg h

theorem stored_getD : (stored F d S p).getD F.empty = digest F S (d - p.length) p := by
  by_cases h : Occurs S p
  · rw [stored_of_occurs h, Option.getD_some]
  · rw [stored_of_not h, digest_of_not h, Option.getD_none]

theorem represents_empty : Represents F d ∅ fun _ => none := by
  intro p
  rw [stored_of_not]
  rintro ⟨k, hk, -⟩
  exact hk

/-- An inner node whose children are stored right. -/
theorem stored_of_children {rows : List α → Option η} (hp : Occurs S p) (hlt : p.length < d)
    (h : ∀ a ∈ F.letters, rows (p ++ [a]) = stored F d S (p ++ [a])) :
    stored F d S p = some (F.node p (children F rows p)) := by
  obtain ⟨m, hm⟩ : ∃ m, d - p.length = m + 1 := ⟨d - p.length - 1, by omega⟩
  rw [stored_of_occurs hp, hm, digest_succ hp, children]
  congr 2
  refine List.map_congr_left fun a ha => ?_
  have hlen : d - (p ++ [a]).length = m := by
    rw [List.length_append, List.length_singleton]
    omega
  rw [childHash, h a ha, stored_getD, hlen]

/-- A table whose inner nodes are hashed from their stored children, and whose leaves are a set of
keys, is the table of that set. -/
theorem represents_of_consistent {rows : List α → Option η} (hS : ∀ k ∈ S, k.length = d)
    (hdom : ∀ p, ¬Occurs S p → rows p = none) (hleaf : ∀ k ∈ S, rows k = some (F.leaf k))
    (hnode : ∀ p, Occurs S p → p.length < d → rows p = some (F.node p (children F rows p))) :
    Represents F d S rows := by
  -- by induction on the number of levels below the prefix
  have hlevel : ∀ n p, d - p.length = n → rows p = stored F d S p := by
    intro n
    induction n with
    | zero =>
      intro p hn
      by_cases hp : Occurs S p
      · have hlen : p.length = d := le_antisymm (hp.length_le hS) (by omega)
        rw [hleaf p ((occurs_iff_mem hS hlen).1 hp), stored_of_occurs hp, hn, digest_zero hp]
      · rw [hdom p hp, stored_of_not hp]
    | succ n ih =>
      intro p hn
      by_cases hp : Occurs S p
      · have hlt : p.length < d := by omega
        rw [hnode p hp hlt, stored_of_children hp hlt fun a _ => ih (p ++ [a]) (by
          rw [List.length_append, List.length_singleton]
          omega)]
      · rw [hdom p hp, stored_of_not hp]
  exact fun p => hlevel _ p rfl

/-- A key is added by any change of the nodes of its path that leaves each of them hashed from the
children it has by then. -/
theorem represents_of_path {rows rows' : List α → Option η} (h : Represents F d S rows)
    (hS : ∀ x ∈ S, x.length = d) (hk : k.length = d) (hframe : ∀ p, ¬p <+: k → rows' p = rows p)
    (hleaf : rows' k = some (F.leaf k))
    (hpath : ∀ p, p <+: k → p.length < d → rows' p = some (F.node p (children F rows' p))) :
    Represents F d (insert k S) rows' := by
  have hS' : ∀ x ∈ insert k S, x.length = d := by
    rintro x (rfl | hx)
    exacts [hk, hS x hx]
  refine represents_of_consistent hS' ?_ ?_ ?_
  · intro p hp
    rw [occurs_insert, not_or] at hp
    rw [hframe p hp.1, h p, stored_of_not hp.2]
  · rintro x (rfl | hx)
    · exact hleaf
    · by_cases hxk : x <+: k
      · rw [hxk.eq_of_length ((hS x hx).trans hk.symm), hleaf]
      · have hocc : Occurs S x := ⟨x, hx, List.prefix_rfl⟩
        rw [hframe x hxk, h x, stored_of_occurs hocc, hS x hx, Nat.sub_self, digest_zero hocc]
  · intro p hp hlt
    by_cases hpk : p <+: k
    · exact hpath p hpk hlt
    · have hocc := (occurs_insert.1 hp).resolve_left hpk
      have hchild : ∀ a, ¬p ++ [a] <+: k := fun a ha => hpk ((List.prefix_append p [a]).trans ha)
      have hsame : children F rows' p = children F rows p :=
        List.map_congr_left fun a _ => by rw [childHash, childHash, hframe _ (hchild a)]
      rw [hsame, hframe p hpk, h p]
      exact stored_of_children hocc hlt fun a _ => h (p ++ [a])

/-! ## Rehashing a path -/

variable [DecidableEq α]

/-- The hash at a path, from those under it. -/
def rehash (F : Hashing α η) (rows : List α → Option η) (p : List α) : List α → Option η :=
  Function.update rows p (some (F.node p (children F rows p)))

/-- The levels below `l`, from the lowest up. -/
def rehashUp (F : Hashing α η) (k : List α) : Nat → (List α → Option η) → List α → Option η
  | 0, rows => rows
  | l + 1, rows => rehashUp F k l (rehash F rows (k.take l))

/-- A leaf is written, and the path above it. -/
def insertPath (F : Hashing α η) (k : List α) (rows : List α → Option η) : List α → Option η :=
  rehashUp F k k.length (Function.update rows k (some (F.leaf k)))

/-- The table is that of the set but for the levels of the path below `l`. -/
def DoneFrom (F : Hashing α η) (d : Nat) (S : Set (List α)) (k : List α) (l : Nat)
    (rows : List α → Option η) : Prop := ∀ p, p <+: k ∧ p.length < l ∨ rows p = stored F d S p

omit [DecidableEq α] in
/-- The children of the next node of the path are done. -/
theorem DoneFrom.node {rows : List α → Option η} {l : Nat} (h : DoneFrom F d S k (l + 1) rows)
    (hk : k.length = d) (hl : l < d) (hocc : Occurs S (k.take l)) :
    stored F d S (k.take l) = some (F.node (k.take l) (children F rows (k.take l))) := by
  have hlen : (k.take l).length = l := by
    rw [List.length_take, hk]
    omega
  refine stored_of_children hocc (by omega) fun a _ => (h _).resolve_left fun hlt => ?_
  have := hlt.2
  rw [List.length_append, hlen, List.length_singleton] at this
  omega

/-- Any change of the next node of the path alone that hashes it from its children. -/
theorem DoneFrom.update {rows rows' : List α → Option η} {l : Nat}
    (h : DoneFrom F d S k (l + 1) rows) (hk : k.length = d) (hl : l < d)
    (hocc : Occurs S (k.take l))
    (hrows : rows' = Function.update rows (k.take l)
      (some (F.node (k.take l) (children F rows (k.take l))))) : DoneFrom F d S k l rows' := by
  subst hrows
  intro p
  by_cases hp : p = k.take l
  · subst hp
    right
    rw [Function.update_self, h.node hk hl hocc]
  · rw [Function.update_of_ne hp]
    refine (h p).imp_left fun ⟨hpk, hlt⟩ => ⟨hpk, ?_⟩
    have hne : p.length ≠ l := by
      rintro rfl
      exact hp (List.prefix_iff_eq_take.1 hpk)
    omega

omit [DecidableEq α] in
theorem doneFrom_zero {rows : List α → Option η} :
    DoneFrom F d S k 0 rows ↔ Represents F d S rows :=
  forall_congr' fun _ => or_iff_right fun h => Nat.not_lt_zero _ h.2

/-- The leaf is written, and what is not on the path is as before. -/
theorem Represents.doneFrom_leaf {rows rows' : List α → Option η} (h : Represents F d S rows)
    (hk : k.length = d) (hrows : rows' = Function.update rows k (some (F.leaf k))) :
    DoneFrom F d (insert k S) k d rows' := by
  subst hrows
  intro p
  by_cases hp : p = k
  · subst hp
    have hocc : Occurs (insert p S) p := occurs_insert.2 (.inl List.prefix_rfl)
    right
    rw [Function.update_self, stored_of_occurs hocc, hk, Nat.sub_self, digest_zero hocc]
  · rw [Function.update_of_ne hp]
    by_cases hpk : p <+: k
    · exact .inl ⟨hpk, hk ▸ lt_of_le_of_ne hpk.length_le fun hlen => hp (hpk.eq_of_length hlen)⟩
    · right
      have hiff : Occurs (insert k S) p ↔ Occurs S p := by rw [occurs_insert, or_iff_right hpk]
      rw [h p]
      by_cases hS : Occurs S p
      · rw [stored_of_occurs hS, stored_of_occurs (hiff.2 hS), digest_insert_of_not hpk]
      · rw [stored_of_not hS, stored_of_not fun hS' => hS (hiff.1 hS')]

theorem represents_rehashUp (hk : k.length = d) (hocc : ∀ {q}, q <+: k → Occurs S q) :
    ∀ (l : Nat) (rows : List α → Option η), l ≤ d → DoneFrom F d S k l rows →
      Represents F d S (rehashUp F k l rows)
  | 0, _, _, h => doneFrom_zero.1 h
  | l + 1, _, hl, h => represents_rehashUp hk hocc l _ (by omega)
    (h.update hk (by omega) (hocc (List.take_prefix l k)) rfl)

theorem represents_insertPath {rows : List α → Option η} (h : Represents F d S rows)
    (hk : k.length = d) : Represents F d (insert k S) (insertPath F k rows) :=
  represents_rehashUp hk (fun hq => occurs_insert.2 (.inl hq)) k.length _ hk.le
    (hk ▸ h.doneFrom_leaf hk rfl)

/-! ## What a hash tells -/

omit [DecidableEq α] in
theorem digest_ne_empty (hleaf : ∀ k ∈ S, F.leaf k ≠ F.empty)
    (hnode : ∀ p n, Occurs S p → p.length + (n + 1) = d → digest F S (n + 1) p ≠ F.empty)
    (hS : ∀ k ∈ S, k.length = d) (hp : Occurs S p) (hn : p.length + n = d) :
    digest F S n p ≠ F.empty := by
  cases n with
  | zero =>
    rw [digest_zero hp]
    exact hleaf p ((occurs_iff_mem hS hn).1 hp)
  | succ n => exact hnode p n hp hn

/-- The hashing tells apart what it hashes for two sets: the leaves, and the children of a node. -/
structure Separates (F : Hashing α η) (d : Nat) (S T : Set (List α)) : Prop where
  leaf_left : ∀ k ∈ S, F.leaf k ≠ F.empty
  leaf_right : ∀ k ∈ T, F.leaf k ≠ F.empty
  node_left : ∀ p n, Occurs S p → p.length + (n + 1) = d → digest F S (n + 1) p ≠ F.empty
  node_right : ∀ p n, Occurs T p → p.length + (n + 1) = d → digest F T (n + 1) p ≠ F.empty
  children : ∀ p n, Occurs S p → Occurs T p → p.length + (n + 1) = d →
    digest F S (n + 1) p = digest F T (n + 1) p →
      ∀ a ∈ F.letters, digest F S n (p ++ [a]) = digest F T n (p ++ [a])

omit [DecidableEq α] in
theorem mem_iff_of_digest_eq (hF : Separates F d S T) (hS : ∀ k ∈ S, k.length = d)
    (hT : ∀ k ∈ T, k.length = d) (hk : ∀ a ∈ k, a ∈ F.letters) (hlen : k.length = d) :
    ∀ (n : Nat) (p : List α), p <+: k → p.length + n = d → digest F S n p = digest F T n p →
      (k ∈ S ↔ k ∈ T) := by
  intro n
  induction n with
  | zero =>
    intro p hp hn h
    have hpk : p = k := hp.eq_of_length (by omega)
    subst hpk
    by_cases hpS : Occurs S p <;> by_cases hpT : Occurs T p
    · exact iff_of_true ((occurs_iff_mem hS hlen).1 hpS) ((occurs_iff_mem hT hlen).1 hpT)
    · rw [digest_of_not hpT] at h
      exact absurd h (digest_ne_empty hF.leaf_left hF.node_left hS hpS hn)
    · rw [digest_of_not hpS] at h
      exact absurd h.symm (digest_ne_empty hF.leaf_right hF.node_right hT hpT hn)
    · exact iff_of_false (fun hm => hpS ((occurs_iff_mem hS hlen).2 hm)) fun hm =>
        hpT ((occurs_iff_mem hT hlen).2 hm)
  | succ n ih =>
    intro p hp hn h
    have hmem : ∀ {U : Set (List α)}, k ∈ U → Occurs U p := fun hm => ⟨k, hm, hp⟩
    by_cases hpS : Occurs S p <;> by_cases hpT : Occurs T p
    · obtain ⟨rest, hrest⟩ := hp
      cases rest with
      | nil =>
        rw [List.append_nil] at hrest
        subst hrest
        omega
      | cons a rest =>
        have ha : a ∈ F.letters := hk a (by rw [← hrest]; simp)
        -- equal nodes have equal children, down the path to `k`
        refine ih (p ++ [a]) ⟨rest, by rw [← hrest]; simp⟩ ?_ (hF.children p n hpS hpT hn h a ha)
        rw [List.length_append, List.length_singleton]
        omega
    · rw [digest_of_not hpT] at h
      exact absurd h (digest_ne_empty hF.leaf_left hF.node_left hS hpS hn)
    · rw [digest_of_not hpS] at h
      exact absurd h.symm (digest_ne_empty hF.leaf_right hF.node_right hT hpT hn)
    · exact iff_of_false (fun hm => hpS (hmem hm)) fun hm => hpT (hmem hm)

omit [DecidableEq α] in
/-- Equal root hashes: equal sets. -/
theorem eq_of_digest_eq (hF : Separates F d S T) (hS : ∀ k ∈ S, k.length = d)
    (hT : ∀ k ∈ T, k.length = d) (hSl : ∀ k ∈ S, ∀ a ∈ k, a ∈ F.letters)
    (hTl : ∀ k ∈ T, ∀ a ∈ k, a ∈ F.letters) (h : digest F S d [] = digest F T d []) : S = T := by
  have hroot : ∀ k, k.length = d → (∀ a ∈ k, a ∈ F.letters) → (k ∈ S ↔ k ∈ T) := fun k hlen hk =>
    mem_iff_of_digest_eq hF hS hT hk hlen d [] (List.nil_prefix) (by simp) h
  ext k
  constructor
  · exact fun hm => (hroot k (hS k hm) (hSl k hm)).1 hm
  · exact fun hm => (hroot k (hT k hm) (hTl k hm)).2 hm

end HashTrie
