import CksRuntime.Core.Interface

/-!
# Causality

`crdt/causality.py` over the clocks of `crdt/version_vector.py`: two clocks compared node by node, a
missing node reading as zero, and their pointwise maximum.
-/

set_option autoImplicit false

namespace CksRuntime.Crdt

/-- The CRDT's own vector, which shares nothing with the session's. -/
structure VersionVector where
  clocks : Dict Int := ∅
  deriving DecidableEq

/-- `clocks.get(node_id, 0)`. -/
def VersionVector.get (v : VersionVector) (nodeId : String) : Int := (v.clocks.lookup nodeId).getD 0

namespace VersionVector

/-- Record having seen up to `clock` from `nodeId`; an older clock is a no-op. -/
def observe (v : VersionVector) (nodeId : String) (clock : Int) : VersionVector :=
  if clock > v.get nodeId then ⟨v.clocks.insert nodeId clock⟩ else v

theorem ext_lookup {v w : VersionVector} (h : ∀ k, v.clocks.lookup k = w.clocks.lookup k) : v = w :=
  congrArg mk (Finmap.ext_lookup h)

theorem lookup_observe (v : VersionVector) (n : String) (c : Int) (k : String) :
    (v.observe n c).clocks.lookup k =
      if k = n ∧ v.get n < c then some c else v.clocks.lookup k := by
  unfold observe
  by_cases hc : v.get n < c
  · rw [if_pos hc]
    by_cases hk : k = n
    · subst hk
      rw [if_pos ⟨rfl, hc⟩]
      exact Finmap.lookup_insert _
    · rw [if_neg fun h => hk h.1]
      exact Finmap.lookup_insert_of_ne _ hk
  · rw [if_neg hc, if_neg fun h => hc h.2]

theorem get_observe (v : VersionVector) (n : String) (c : Int) (k : String) :
    (v.observe n c).get k = if k = n then max (v.get n) c else v.get k := by
  unfold get
  rw [lookup_observe]
  change Option.getD (if k = n ∧ v.get n < c then _ else _) 0 = if k = n then max (v.get n) c else _
  by_cases hk : k = n
  · subst hk
    by_cases hc : v.get k < c
    · simp [hc, max_eq_right hc.le]
    · simp only [hc, and_false, if_false, if_true]
      exact (max_eq_left (not_lt.1 hc)).symm
  · simp [hk]

/-- Python reads a dict's items in insertion order; `merge` may read them in any. -/
theorem observe_comm (v : VersionVector) (n : String) (c : Int) (m : String) (d : Int) :
    (v.observe n c).observe m d = (v.observe m d).observe n c := by
  apply ext_lookup
  intro k
  simp only [lookup_observe, get_observe]
  by_cases hkm : k = m <;> by_cases hkn : k = n
  · subst hkm; subst hkn; grind
  · subst hkm; simp [hkn, Ne.symm hkn]
  · subst hkn; simp [hkm, Ne.symm hkm]
  · simp [hkm, hkn]

/-- The pointwise maximum, read off `other` entry by entry. -/
def merge (v other : VersionVector) : VersionVector :=
  other.clocks.foldl observe observe_comm v

end VersionVector

/-- How two vectors stand to each other. -/
inductive CausalityResult
  | dominates | dominated | concurrent | equal
  deriving DecidableEq, Repr

/-- `causality_check`. -/
def causalityCheck (a b : VersionVector) : CausalityResult :=
  let nodeIds := a.clocks.keys ∪ b.clocks.keys
  let aHasGreater := ∃ nodeId ∈ nodeIds, a.get nodeId > b.get nodeId
  let bHasGreater := ∃ nodeId ∈ nodeIds, b.get nodeId > a.get nodeId
  if aHasGreater ∧ bHasGreater then .concurrent
  else if aHasGreater then .dominates
  else if bHasGreater then .dominated
  else .equal

end CksRuntime.Crdt
