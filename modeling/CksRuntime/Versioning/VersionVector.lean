import CksRuntime.Versioning.Metadata

/-!
# Version vectors

`versioning/version_vector.py`: per-node commit clocks of one session, kept in the session's
metadata. A clock that is missing reads as zero, but an empty vector is told apart from every
other: it dominates nothing.
-/

set_option autoImplicit false

namespace CksRuntime

/-- `VersionVector`. -/
structure VersionVector where
  clocks : Dict Int := ∅
  deriving DecidableEq

namespace VersionVector

/-- `clocks.get(node_id, 0)`. -/
def get (v : VersionVector) (nodeId : String) : Int := (v.clocks.lookup nodeId).getD 0

/-- Record one more local commit from `nodeId`. -/
def bump (v : VersionVector) (nodeId : String) : VersionVector :=
  ⟨v.clocks.insert nodeId (v.get nodeId + 1)⟩

/-- Record having seen up to `clock` from `nodeId`. -/
def observe (v : VersionVector) (nodeId : String) (clock : Int) : VersionVector :=
  ⟨v.clocks.insert nodeId (max (v.get nodeId) clock)⟩

theorem ext_lookup {v w : VersionVector} (h : ∀ k, v.clocks.lookup k = w.clocks.lookup k) : v = w :=
  congrArg mk (Finmap.ext_lookup h)

theorem lookup_observe (v : VersionVector) (n : String) (c : Int) (k : String) :
    (v.observe n c).clocks.lookup k =
      if k = n then some (max (v.get n) c) else v.clocks.lookup k := by
  unfold observe
  split
  · rename_i h; subst h; exact Finmap.lookup_insert _
  · rename_i h; exact Finmap.lookup_insert_of_ne _ h

theorem get_observe (v : VersionVector) (n : String) (c : Int) (k : String) :
    (v.observe n c).get k = if k = n then max (v.get n) c else v.get k := by
  unfold get
  rw [lookup_observe]
  split <;> rfl

/-- Python reads a dict's items in insertion order; `absorb` may read them in any. -/
theorem observe_comm (v : VersionVector) (n : String) (c : Int) (m : String) (d : Int) :
    (v.observe n c).observe m d = (v.observe m d).observe n c := by
  apply ext_lookup
  intro k
  simp only [lookup_observe, get_observe]
  by_cases hkm : k = m <;> by_cases hkn : k = n
  · subst hkm; subst hkn; simp [max_right_comm]
  · subst hkm; simp [hkn]
  · subst hkn; simp [hkm]
  · simp [hkm, hkn]

/-- Fold every entry of `other` into this vector via `observe`. -/
def absorb (v other : VersionVector) : VersionVector :=
  other.clocks.foldl observe observe_comm v

/-- Whether this vector has seen at least as much as `other` from every node `other` knows. -/
def dominates (v other : VersionVector) : Prop :=
  v.clocks ≠ ∅ ∧ ∀ nodeId ∈ other.clocks.keys, other.get nodeId ≤ v.get nodeId

instance (v other : VersionVector) : Decidable (v.dominates other) := by
  unfold dominates; exact inferInstance

/-! ## In the metadata -/

/-- `from_metadata`: what is no dict of ints is passed over. -/
def fromMetadata (metadata : Metadata) : VersionVector :=
  match metadata.versionVector with
  | some (.dict ints _) => ⟨ints⟩
  | _ => ⟨∅⟩

/-- `to_metadata`. -/
def toMetadata (v : VersionVector) (metadata : Metadata) : Metadata :=
  { metadata with versionVector := some (.dict v.clocks ∅) }

end VersionVector

end CksRuntime
