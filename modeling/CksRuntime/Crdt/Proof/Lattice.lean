import CksRuntime.Crdt.Proof.Causality

/-!
# The lattice of clocks

`Below a b`: `causality_check` finds `a` dominated by or equal to `b`. That is the pointwise order
(`below_iff`), and of clocks without negative counters `merge` is its join: `get_merge` reads it off
node by node, and the lattice laws follow from those of `max`. Two clocks the check calls equal may
still differ by zero entries, so the laws hold up to `Same`.
-/

set_option autoImplicit false

namespace CksRuntime.Crdt

namespace VersionVector

/-- No counter is negative; a missing one reads as zero. -/
def NonNegative (v : VersionVector) : Prop := ∀ nodeId ∈ v.clocks.keys, 0 ≤ v.get nodeId

instance (v : VersionVector) : Decidable v.NonNegative := by
  unfold NonNegative; exact inferInstance

/-- The order the check decides. -/
def Below (a b : VersionVector) : Prop :=
  causalityCheck a b = .dominated ∨ causalityCheck a b = .equal

/-- The same clocks, a missing one read as zero. -/
def Same (a b : VersionVector) : Prop := ∀ nodeId, a.get nodeId = b.get nodeId

variable {a b c : VersionVector}

theorem NonNegative.get_nonneg (h : a.NonNegative) (nodeId : String) : 0 ≤ a.get nodeId := by
  by_cases hm : nodeId ∈ a.clocks.keys
  · exact h nodeId hm
  · rw [get_of_notMem hm]

theorem below_iff : Below a b ↔ a ≤ b := by
  rw [Below, causalityCheck_dominated, causalityCheck_equal]
  constructor
  · rintro (h | h)
    · exact h.le
    · exact h.1
  · intro h
    by_cases hba : b ≤ a
    · exact .inr ⟨h, hba⟩
    · exact .inl (lt_of_le_not_ge h hba)

theorem same_iff : Same a b ↔ a ≤ b ∧ b ≤ a := by
  constructor
  · intro h
    exact ⟨fun n => (h n).le, fun n => (h n).ge⟩
  · rintro ⟨hab, hba⟩ n
    exact le_antisymm (hab n) (hba n)

/-! ## `merge` -/

/-- `merge`, entry by entry. -/
theorem get_merge_elim (v w : VersionVector) (k : String) :
    (v.merge w).get k = (w.clocks.lookup k).elim (v.get k) fun c => max (v.get k) c := by
  obtain ⟨clocks⟩ := w
  refine Finmap.induction_on clocks fun a => ?_
  obtain ⟨entries, hnd⟩ := a
  change (entries.foldl (fun d s => observe d s.1 s.2) v).get k = (entries.dlookup k).elim _ _
  induction entries generalizing v with
  | nil => rfl
  | cons e es ih =>
    obtain ⟨n, c⟩ := e
    rw [List.nodupKeys_cons] at hnd
    rw [List.foldl_cons, ih _ hnd.2]
    by_cases hk : k = n
    · subst hk
      rw [List.dlookup_cons_eq, List.dlookup_eq_none.2 hnd.1]
      simp [get_observe]
    · rw [List.dlookup_cons_ne _ _ hk, get_observe]
      simp [hk]

theorem get_merge (ha : a.NonNegative) (k : String) :
    (a.merge b).get k = max (a.get k) (b.get k) := by
  rw [get_merge_elim, get.eq_def b]
  cases b.clocks.lookup k with
  | none => exact (max_eq_left (ha.get_nonneg k)).symm
  | some c => rfl

theorem NonNegative.merge (ha : a.NonNegative) : (a.merge b).NonNegative := by
  intro k _
  rw [get_merge ha]
  exact (ha.get_nonneg k).trans (le_max_left _ _)

theorem le_merge_left (ha : a.NonNegative) : a ≤ a.merge b := by
  intro k
  rw [get_merge ha]
  exact le_max_left _ _

theorem le_merge_right (ha : a.NonNegative) : b ≤ a.merge b := by
  intro k
  rw [get_merge ha]
  exact le_max_right _ _

theorem merge_le (ha : a.NonNegative) (hac : a ≤ c) (hbc : b ≤ c) : a.merge b ≤ c := by
  intro k
  rw [get_merge ha]
  exact max_le (hac k) (hbc k)

theorem merge_comm (ha : a.NonNegative) (hb : b.NonNegative) : Same (a.merge b) (b.merge a) := by
  intro k
  rw [get_merge ha, get_merge hb, max_comm]

theorem merge_assoc (ha : a.NonNegative) (hb : b.NonNegative) :
    Same ((a.merge b).merge c) (a.merge (b.merge c)) := by
  intro k
  rw [get_merge ha.merge, get_merge ha, get_merge ha, get_merge hb, max_assoc]

theorem merge_self (ha : a.NonNegative) : Same (a.merge a) a := by
  intro k
  rw [get_merge ha, max_self]

/-! ## The laws together -/

/-- `Below` is a partial order of clocks up to `Same`. -/
structure OrderLaws : Prop where
  refl : ∀ a, Below a a
  trans : ∀ a b c, Below a b → Below b c → Below a c
  antisymm : ∀ a b, Below a b → Below b a → Same a b
  congr : ∀ a a' b b', Same a a' → Same b b' → (Below a b ↔ Below a' b')

theorem orderLaws : OrderLaws where
  refl _ := below_iff.2 le_rfl
  trans _ _ _ h h' := below_iff.2 ((below_iff.1 h).trans (below_iff.1 h'))
  antisymm _ _ h h' := same_iff.2 ⟨below_iff.1 h, below_iff.1 h'⟩
  congr a a' b b' ha hb := by
    obtain ⟨h1, h2⟩ := same_iff.1 ha
    obtain ⟨h3, h4⟩ := same_iff.1 hb
    rw [below_iff, below_iff]
    exact ⟨fun h => h2.trans (h.trans h3), fun h => h1.trans (h.trans h4)⟩

/-- `merge` is the least upper bound of its two clocks. -/
structure IsJoin (a b m : VersionVector) : Prop where
  left : Below a m
  right : Below b m
  least : ∀ c, Below a c → Below b c → Below m c

theorem merge_isJoin (ha : a.NonNegative) : IsJoin a b (a.merge b) where
  left := below_iff.2 (le_merge_left ha)
  right := below_iff.2 (le_merge_right ha)
  least _ h h' := below_iff.2 (merge_le ha (below_iff.1 h) (below_iff.1 h'))

/-- The order the check decides is a partial order of clocks up to missing entries, in which `merge`
is the least upper bound, commutative, associative and idempotent. -/
theorem merge_lattice (a b c : VersionVector) (ha : a.NonNegative) (hb : b.NonNegative) :
    OrderLaws ∧ IsJoin a b (a.merge b) ∧ (a.merge b).NonNegative ∧
      Same (a.merge b) (b.merge a) ∧ Same ((a.merge b).merge c) (a.merge (b.merge c)) ∧
      Same (a.merge a) a :=
  ⟨orderLaws, merge_isJoin ha, ha.merge, merge_comm ha hb, merge_assoc ha hb, merge_self ha⟩

/-- Two nodes ahead of each other, one entry of which is an explicit zero. -/
theorem merge_lattice_fork :
    IsJoin ⟨(∅ : Dict Int).insert "n" 2⟩ ⟨((∅ : Dict Int).insert "m" 3).insert "n" 0⟩
      (merge ⟨(∅ : Dict Int).insert "n" 2⟩ ⟨((∅ : Dict Int).insert "m" 3).insert "n" 0⟩) :=
  (merge_lattice _ _ ⟨∅⟩ (by decide) (by decide)).2.1

end VersionVector

end CksRuntime.Crdt
