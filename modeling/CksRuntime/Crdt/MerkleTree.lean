import Mathlib.Data.List.Dedup
import Mathlib.Logic.Function.Basic

/-!
# The Merkle prefix tree

`crdt/merkle_tree.py` for SQLite, and `InMemoryCRDTStore._rebuild_tree`: the radix-16 tree of the
object ids, kept up along one path at a time or built anew. A Python string is the list of its
characters, and `sha256` is the hex digest of one, whatever function that is.
-/

set_option autoImplicit false

namespace CksRuntime

/-- A text, by its characters. -/
abbrev Text := List Char

instance (x : Text) (l : List Text) : Decidable (x ∈ l) := inferInstance

namespace Merkle

/-- The digits of an id. -/
def ID_HEX_LENGTH : Nat := 64

/-- The hexadecimal digits, in order. -/
def NIBBLES : Text :=
  ['0', '1', '2', '3', '4', '5', '6', '7', '8', '9', 'a', 'b', 'c', 'd', 'e', 'f']

/-- `str.lower`, on hexadecimal digits. -/
def lower (s : Text) : Text := s.map Char.toLower

/-- `_validate_id`. What it raises is a `ValueError`. -/
def validateId (objectId : Text) : Except String Unit :=
  if objectId.length ≠ ID_HEX_LENGTH ∨ (lower objectId).any (· ∉ NIBBLES) then
    .error ("MerkleTree object ids must be 64-character lowercase hex SHA-256 digests, got '" ++
      String.ofList objectId ++ "'")
  else .ok ()

/-- A 64-character lowercase hex id. -/
def IsId (objectId : Text) : Prop := objectId.length = ID_HEX_LENGTH ∧ ∀ c ∈ objectId, c ∈ NIBBLES

instance (objectId : Text) : Decidable (IsId objectId) :=
  inferInstanceAs (Decidable (_ ∧ _))

variable (sha256 : Text → Text)

/-- What stands for a subtree with nothing in it. -/
def EMPTY_SUBTREE_HASH : Text := sha256 "cks-crdt-merkle-empty-subtree".toList

/-- `_node_hash`. -/
def nodeHash (prefixPath : Text) (children : List Text) : Text :=
  sha256 (prefixPath ++ children.flatten)

end Merkle

open Merkle

/-! ## SQLite -/

/-- A row of `cks_merkle_tree`. -/
structure MerkleRow where
  level : Nat
  hash : Text
  deriving DecidableEq

/-- The table, by `prefix_path`. -/
structure SQLiteMerkleTree where
  rows : Text → Option MerkleRow := fun _ => none

namespace SQLiteMerkleTree

variable (sha256 : Text → Text)

/-- `_get_hash`. -/
def getHash (tree : SQLiteMerkleTree) (prefixPath : Text) : Text :=
  (tree.rows prefixPath).elim (EMPTY_SUBTREE_HASH sha256) (·.hash)

/-- `get_root_hash`. -/
def getRootHash (tree : SQLiteMerkleTree) : Text := tree.getHash sha256 []

/-- `LIKE` with the pattern of `_like_children_pattern`: the escaped prefix, which SQLite compares
without regard to case, and any one character. -/
def likeChildren (prefixPath key : Text) : Bool :=
  key.length = prefixPath.length + 1 ∧ lower (key.take prefixPath.length) = lower prefixPath

/-- The rows the query of `get_children_hashes` finds. -/
def found (tree : SQLiteMerkleTree) (prefixPath key : Text) : Option Text :=
  ((tree.rows key).filter fun row =>
    row.level = prefixPath.length + 1 ∧ likeChildren prefixPath key).map (·.hash)

/-- `get_children_hashes`. -/
def getChildrenHashes (tree : SQLiteMerkleTree) (prefixPath : Text) : List Text :=
  NIBBLES.map fun nibble =>
    (tree.found prefixPath (prefixPath ++ [nibble])).getD (EMPTY_SUBTREE_HASH sha256)

/-- `_upsert`: a row that exists keeps its level. -/
def upsert (tree : SQLiteMerkleTree) (prefixPath : Text) (level : Nat) (hash : Text) :
    SQLiteMerkleTree where
  rows := Function.update tree.rows prefixPath (some
    ((tree.rows prefixPath).elim ⟨level, hash⟩ ({ · with hash := hash })))

/-- The loop over the levels above the leaf, from the lowest up. -/
def updateLevels (objectId : Text) : Nat → SQLiteMerkleTree → SQLiteMerkleTree
  | 0, tree => tree
  | level + 1, tree =>
    let prefixPath := objectId.take level
    let children := tree.getChildrenHashes sha256 prefixPath
    updateLevels objectId level (tree.upsert prefixPath level (nodeHash sha256 prefixPath children))

/-- `update_merkle_path`, in one transaction. -/
def updateMerklePath (tree : SQLiteMerkleTree) (objectId : Text) :
    Except String SQLiteMerkleTree := do
  validateId objectId
  let objectId := lower objectId
  pure (updateLevels sha256 objectId ID_HEX_LENGTH (tree.upsert objectId ID_HEX_LENGTH objectId))

end SQLiteMerkleTree

/-! ## In memory -/

namespace InMemoryMerkleTree

variable (sha256 : Text → Text)

/-- A level of the tree, from the one below it. -/
def rebuildLevel (objects : List Text) (level : Nat) (nodes : Text → Option Text) :
    Text → Option Text :=
  ((objects.map (·.take level)).dedup).foldl (fun nodes prefixPath =>
    Function.update nodes prefixPath (some (nodeHash sha256 prefixPath
      (NIBBLES.map fun nibble =>
        (nodes (prefixPath ++ [nibble])).getD (EMPTY_SUBTREE_HASH sha256))))) nodes

/-- The levels above the leaves, from below. -/
def rebuildLevels (objects : List Text) : Nat → (Text → Option Text) → Text → Option Text
  | 0, nodes => nodes
  | level + 1, nodes => rebuildLevels objects level (rebuildLevel sha256 objects level nodes)

/-- `_rebuild_tree`: the nodes of the ids held. -/
def rebuildTree (objects : List Text) : Text → Option Text :=
  let nodes := rebuildLevels sha256 objects ID_HEX_LENGTH
    (objects.foldl (fun nodes objectId => Function.update nodes objectId (some objectId))
      fun _ => none)
  if objects.isEmpty then Function.update nodes [] (some (EMPTY_SUBTREE_HASH sha256)) else nodes

/-- `get_root_hash`, of a tree that is built for the call. -/
def getRootHash (objects : List Text) : Text :=
  (rebuildTree sha256 objects []).getD (EMPTY_SUBTREE_HASH sha256)

/-- `get_children_hashes`, of a tree that is built for the call. -/
def getChildrenHashes (objects : List Text) (prefixPath : Text) : List Text :=
  NIBBLES.map fun nibble =>
    (rebuildTree sha256 objects (prefixPath ++ [nibble])).getD (EMPTY_SUBTREE_HASH sha256)

end InMemoryMerkleTree

end CksRuntime
