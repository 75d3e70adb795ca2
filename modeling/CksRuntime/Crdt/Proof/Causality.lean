import CksRuntime.Crdt.Causality
import Mathlib.Order.Basic

/-!
# The order of clocks

Clocks are ordered node by node. The four results of `causality_check` are the four ways two clocks
can lie in this preorder; clocks that are equal in it may still differ as dicts, by zero entries.
-/

set_option autoImplicit false

namespace CksRuntime.Crdt

namespace VersionVector

instance : Preorder VersionVector where
  le a b := ∀ nodeId, a.get nodeId ≤ b.get nodeId
  le_refl _ _ := le_rfl
  le_trans _ _ _ h h' nodeId := (h nodeId).trans (h' nodeId)

variable {a b : VersionVector}

theorem le_iff : a ≤ b ↔ ∀ nodeId, a.get nodeId ≤ b.get nodeId := Iff.rfl

theorem get_of_notMem {nodeId : String} (h : nodeId ∉ a.clocks.keys) : a.get nodeId = 0 := by
  rw [get, Finmap.lookup_eq_none.2 fun hm => h (Finmap.mem_keys.2 hm)]
  rfl

/-- Only nodes of either clock can tell them apart. -/
theorem exists_greater_iff {nodeIds : Finset String} (ha : a.clocks.keys ⊆ nodeIds)
    (hb : b.clocks.keys ⊆ nodeIds) :
    (∃ nodeId ∈ nodeIds, a.get nodeId > b.get nodeId) ↔ ¬a ≤ b := by
  rw [le_iff]
  push Not
  constructor
  · rintro ⟨nodeId, -, h⟩
    exact ⟨nodeId, h⟩
  · rintro ⟨nodeId, h⟩
    refine ⟨nodeId, ?_, h⟩
    by_contra hn
    rw [get_of_notMem fun hm => hn (ha hm), get_of_notMem fun hm => hn (hb hm)] at h
    exact lt_irrefl _ h

end VersionVector

open VersionVector

variable {a b : VersionVector}

/-- What each result says of the two clocks. -/
def Relates (a b : VersionVector) : CausalityResult → Prop
  | .dominates => b < a
  | .dominated => a < b
  | .concurrent => ¬a ≤ b ∧ ¬b ≤ a
  | .equal => a ≤ b ∧ b ≤ a

theorem causalityCheck_relates (a b : VersionVector) : Relates a b (causalityCheck a b) := by
  have ha : (∃ nodeId ∈ a.clocks.keys ∪ b.clocks.keys, a.get nodeId > b.get nodeId) ↔ ¬a ≤ b :=
    exists_greater_iff Finset.subset_union_left Finset.subset_union_right
  have hb : (∃ nodeId ∈ a.clocks.keys ∪ b.clocks.keys, b.get nodeId > a.get nodeId) ↔ ¬b ≤ a :=
    exists_greater_iff Finset.subset_union_right Finset.subset_union_left
  unfold causalityCheck
  dsimp only
  split
  · rename_i h
    exact ⟨ha.1 h.1, hb.1 h.2⟩
  · rename_i hnot
    split
    · rename_i h
      exact lt_of_le_not_ge (not_not.1 fun hn => hnot ⟨h, hb.2 hn⟩) (ha.1 h)
    · rename_i hna
      have hab : a ≤ b := not_not.1 fun hn => hna (ha.2 hn)
      split
      · rename_i h
        exact lt_of_le_not_ge hab (hb.1 h)
      · rename_i hnb
        exact ⟨hab, not_not.1 fun hn => hnb (hb.2 hn)⟩

/-- Two clocks lie in one way only. -/
theorem Relates.unique {r r' : CausalityResult} (h : Relates a b r) (h' : Relates a b r') :
    r = r' := by
  cases r <;> cases r' <;> simp only [Relates, lt_iff_le_not_ge] at h h' <;> grind

theorem causalityCheck_eq_iff {r : CausalityResult} : causalityCheck a b = r ↔ Relates a b r := by
  constructor
  · rintro rfl
    exact causalityCheck_relates a b
  · exact (causalityCheck_relates a b).unique

theorem causalityCheck_concurrent : causalityCheck a b = .concurrent ↔ ¬a ≤ b ∧ ¬b ≤ a :=
  causalityCheck_eq_iff

theorem causalityCheck_dominated : causalityCheck a b = .dominated ↔ a < b := causalityCheck_eq_iff

theorem causalityCheck_equal : causalityCheck a b = .equal ↔ a ≤ b ∧ b ≤ a := causalityCheck_eq_iff

/-- A clock that does not dominate is superseded unless it is concurrent. -/
theorem causalityCheck_ne_concurrent (h : ¬a < b) : causalityCheck a b ≠ .concurrent ↔ b ≤ a := by
  rw [Ne, causalityCheck_concurrent, not_and_or, not_not, not_not]
  exact ⟨fun hor => hor.elim (fun hab => not_not.1 fun hn => h (lt_of_le_not_ge hab hn)) id, .inr⟩

end CksRuntime.Crdt
