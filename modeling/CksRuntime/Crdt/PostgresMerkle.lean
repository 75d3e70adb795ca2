import CksRuntime.Crdt.MerkleTree
import CksRuntime.Lib.ReadCommitted
import CksRuntime.Lib.Transition

/-!
# The Merkle tree in PostgreSQL

Concurrent `PostgresCRDTStore.add_object` calls, statement by statement. Each call inserts its row
in a transaction in which the trigger updates the path of the id, and then runs `update_merkle_path`
in a second one. Both do the same: write the leaf, and for each level up read sixteen children one
by one and write their hash. The rows of the tree are taken by hash; the level of one is the length
of its prefix.
-/

set_option autoImplicit false

namespace CksRuntime.Crdt

open Merkle ReadCommitted Transition

/-- The ids, each of which names the one call that inserts it. -/
abbrev ObjectId : Type := {objectId : Text // IsId objectId}

/-- The two transactions of a call. -/
inductive PathStage
  | trigger | updateMerklePath
  deriving DecidableEq

/-- Where a call is. -/
inductive PathPhase
  | idle
  /-- To write the leaf. -/
  | leaf (stage : PathStage)
  /-- To write the levels below `todo`, the highest of which has the first of its children read. -/
  | node (stage : PathStage) (todo : Nat) (childHashes : List Text)
  | finished
  deriving DecidableEq

/-- The tree, the ids whose row is committed, where each call is, and the rows its transaction has
read. -/
structure PgMerkle where
  db : DB ObjectId Text Text
  objects : List Text := []
  phase : ObjectId → PathPhase := fun _ => .idle
  reads : ObjectId → List (Text × Option Text) := fun _ => []

/-- A statement of the transaction of one insertion. -/
inductive PathStatement
  | call (c : ObjectId)
  | upsertLeaf (c : ObjectId)
  | readChild (c : ObjectId)
  | upsertNode (c : ObjectId)
  | commit (c : ObjectId)
  | abort (c : ObjectId)

namespace PgMerkle

/-- A transaction has come to `phase`. -/
def setPhase (s : PgMerkle) (c : ObjectId) (phase : PathPhase) : PgMerkle :=
  { s with phase := Function.update s.phase c phase }

/-- A statement of the transaction has read the row. -/
def readRow (s : PgMerkle) (c : ObjectId) (prefixPath : Text) : PgMerkle :=
  { s with
    reads := Function.update s.reads c ((prefixPath, s.db.view c prefixPath) :: s.reads c) }

/-- A transaction has written a row. -/
def write (s : PgMerkle) (c : ObjectId) (prefixPath hash : Text) : PgMerkle :=
  { s with db := s.db.write c prefixPath (some hash) }

/-- What comes after the commit: the first one is of the call's row too. -/
def commit (s : PgMerkle) (c : ObjectId) (stage : PathStage) : PgMerkle where
  db := s.db.commit c
  objects := match stage with
    | .trigger => s.objects ++ [c.1]
    | .updateMerklePath => s.objects
  phase := Function.update s.phase c (match stage with
    | .trigger => .leaf .updateMerklePath
    | .updateMerklePath => .finished)
  reads := Function.update s.reads c []

/-- A transaction that is aborted is retried from its first statement. -/
def abort (s : PgMerkle) (c : ObjectId) (stage : PathStage) : PgMerkle :=
  { s with
    db := s.db.abort c
    phase := Function.update s.phase c (.leaf stage)
    reads := Function.update s.reads c [] }

variable (sha256 : Text → Text)

/-- What the statements do, one at a time and in any order. -/
inductive Step : PgMerkle → PathStatement → PgMerkle → Prop
  | call {s : PgMerkle} {c : ObjectId} :
      s.phase c = .idle → Step s (.call c) (s.setPhase c (.leaf .trigger))
  | upsertLeaf {s : PgMerkle} {c : ObjectId} {stage : PathStage} :
      s.phase c = .leaf stage → s.db.Free c c.1 →
      Step s (.upsertLeaf c) ((s.write c c.1 c.1).setPhase c (.node stage ID_HEX_LENGTH []))
  | readChild {s : PgMerkle} {c : ObjectId} {stage : PathStage} {level : Nat}
      {childHashes : List Text} {nibble : Char} :
      s.phase c = .node stage (level + 1) childHashes →
      NIBBLES[childHashes.length]? = some nibble →
      Step s (.readChild c)
        ((s.readRow c (c.1.take level ++ [nibble])).setPhase c
          (.node stage (level + 1) (childHashes ++
            [(s.db.view c (c.1.take level ++ [nibble])).getD (EMPTY_SUBTREE_HASH sha256)])))
  | upsertNode {s : PgMerkle} {c : ObjectId} {stage : PathStage} {level : Nat}
      {childHashes : List Text} :
      s.phase c = .node stage (level + 1) childHashes → childHashes.length = NIBBLES.length →
      s.db.Free c (c.1.take level) →
      Step s (.upsertNode c) ((s.write c (c.1.take level)
        (nodeHash sha256 (c.1.take level) childHashes)).setPhase c (.node stage level []))
  | commit {s : PgMerkle} {c : ObjectId} {stage : PathStage} :
      s.phase c = .node stage 0 [] → Step s (.commit c) (s.commit c stage)
  | abort {s : PgMerkle} {c : ObjectId} {stage : PathStage} :
      s.phase c = .leaf stage ∨ (∃ todo childHashes, s.phase c = .node stage todo childHashes) →
      Step s (.abort c) (s.abort c stage)

/-- Any number of calls on an empty store. -/
def system : System PgMerkle PathStatement where
  init s := s = { db := ⟨fun _ => none, fun _ _ => none⟩ }
  step := Step sha256

/-- A transaction commits with every row it has read as it read it. -/
def ReadsCurrent (s : PgMerkle) : PathStatement → Prop
  | .commit c => ∀ read ∈ s.reads c, s.db.view c read.1 = read.2
  | _ => True

/-- The hashes of a node's sixteen stored children. -/
def storedChildren (s : PgMerkle) (prefixPath : Text) : List Text :=
  NIBBLES.map fun nibble => (s.db.rows (prefixPath ++ [nibble])).getD (EMPTY_SUBTREE_HASH sha256)

/-- Every stored inner node has the node hash of its stored children. -/
def Consistent (s : PgMerkle) : Prop :=
  ∀ prefixPath hash, s.db.rows prefixPath = some hash → prefixPath.length < ID_HEX_LENGTH →
    hash = nodeHash sha256 prefixPath (s.storedChildren sha256 prefixPath)

/-- `get_root_hash`, of what is committed. -/
def getRootHash (s : PgMerkle) : Text := (s.db.rows []).getD (EMPTY_SUBTREE_HASH sha256)

end PgMerkle

end CksRuntime.Crdt
