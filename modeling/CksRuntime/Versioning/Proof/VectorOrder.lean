import CksRuntime.Versioning.VersionVector

/-!
# The order of version vectors

`v ≤ w`: `w` has every key of `v`, at no smaller a clock. Every way the Runtime changes a session's
vector goes up in this order (`lt_bump`, `le_absorb`), and a fast-forward goes up strictly
(`lt_absorb`): once a vector has moved it never comes back. What a vector may reach from above is
`get_absorb_le` and `get_bump`.
-/

set_option autoImplicit false

namespace CksRuntime.VersionVector

/-! ## Lookups -/

theorem mem_clocks {v : VersionVector} {k : String} :
    k ∈ v.clocks ↔ ∃ c, v.clocks.lookup k = some c := Finmap.mem_iff

theorem get_of_lookup {v : VersionVector} {k : String} {c : Int} (h : v.clocks.lookup k = some c) :
    v.get k = c := by simp [get, h]

theorem get_of_notMem {v : VersionVector} {k : String} (h : k ∉ v.clocks) : v.get k = 0 := by
  simp [get, Finmap.lookup_eq_none.2 h]

theorem lookup_eq_of_mem {v : VersionVector} {k : String} (h : k ∈ v.clocks) :
    v.clocks.lookup k = some (v.get k) := by
  obtain ⟨c, hc⟩ := mem_clocks.1 h
  rw [get_of_lookup hc, hc]

@[simp] theorem get_empty (k : String) : (⟨∅⟩ : VersionVector).get k = 0 := rfl

theorem clocks_ne_empty {v : VersionVector} {k : String} (h : k ∈ v.clocks) : v.clocks ≠ ∅ := by
  intro he
  rw [he] at h
  exact Finmap.notMem_empty h

theorem exists_mem_of_ne_empty {v : VersionVector} (h : v.clocks ≠ ∅) : ∃ k, k ∈ v.clocks := by
  by_contra hn
  push Not at hn
  exact h (Finmap.ext_lookup fun k => by rw [Finmap.lookup_eq_none.2 (hn k), Finmap.lookup_empty])

theorem lookup_bump (v : VersionVector) (n k : String) :
    (v.bump n).clocks.lookup k = if k = n then some (v.get n + 1) else v.clocks.lookup k := by
  unfold bump
  split
  · rename_i h; subst h; exact Finmap.lookup_insert _
  · rename_i h; exact Finmap.lookup_insert_of_ne _ h

theorem get_bump (v : VersionVector) (n k : String) :
    (v.bump n).get k = if k = n then v.get n + 1 else v.get k := by
  unfold get
  rw [lookup_bump]
  split <;> rfl

theorem get_bump_self (v : VersionVector) (n : String) : (v.bump n).get n = v.get n + 1 := by
  simp [get_bump]

theorem mem_bump {v : VersionVector} {n k : String} : k ∈ (v.bump n).clocks ↔ k = n ∨ k ∈ v.clocks :=
  Finmap.mem_insert

/-- `absorb`, entry by entry. -/
theorem lookup_absorb (v w : VersionVector) (k : String) :
    (v.absorb w).clocks.lookup k =
      (w.clocks.lookup k).elim (v.clocks.lookup k) fun c => some (max (v.get k) c) := by
  obtain ⟨clocks⟩ := w
  refine Finmap.induction_on clocks fun a => ?_
  obtain ⟨entries, hnd⟩ := a
  change (entries.foldl (fun d s => observe d s.1 s.2) v).clocks.lookup k =
    (entries.dlookup k).elim _ _
  induction entries generalizing v with
  | nil => rfl
  | cons e es ih =>
    obtain ⟨n, c⟩ := e
    rw [List.nodupKeys_cons] at hnd
    rw [List.foldl_cons, ih _ hnd.2]
    by_cases hk : k = n
    · subst hk
      rw [List.dlookup_cons_eq, List.dlookup_eq_none.2 hnd.1]
      simp [lookup_observe]
    · rw [List.dlookup_cons_ne _ _ hk, lookup_observe, get_observe]
      simp [hk]

theorem get_absorb_of_mem (v : VersionVector) {w : VersionVector} {k : String} (h : k ∈ w.clocks) :
    (v.absorb w).get k = max (v.get k) (w.get k) := by
  rw [get, lookup_absorb, lookup_eq_of_mem h]
  rfl

theorem get_absorb_of_notMem (v : VersionVector) {w : VersionVector} {k : String}
    (h : k ∉ w.clocks) : (v.absorb w).get k = v.get k := by
  rw [get, lookup_absorb, Finmap.lookup_eq_none.2 h]
  rfl

theorem mem_absorb {v w : VersionVector} {k : String} :
    k ∈ (v.absorb w).clocks ↔ k ∈ v.clocks ∨ k ∈ w.clocks := by
  simp only [mem_clocks, lookup_absorb]
  cases w.clocks.lookup k <;> simp

theorem get_le_absorb (v w : VersionVector) (k : String) : v.get k ≤ (v.absorb w).get k := by
  by_cases h : k ∈ w.clocks
  · rw [get_absorb_of_mem v h]; exact le_max_left _ _
  · rw [get_absorb_of_notMem v h]

theorem get_absorb_le {v w : VersionVector} {k : String} {b : Int} (hv : v.get k ≤ b)
    (hw : w.get k ≤ b) : (v.absorb w).get k ≤ b := by
  by_cases h : k ∈ w.clocks
  · rw [get_absorb_of_mem v h]; exact max_le hv hw
  · rw [get_absorb_of_notMem v h]; exact hv

/-! ## Dominance -/

theorem dominates_iff {v w : VersionVector} :
    v.dominates w ↔ v.clocks ≠ ∅ ∧ ∀ k ∈ w.clocks, w.get k ≤ v.get k := by
  simp only [dominates, Finmap.mem_keys]

theorem not_dominates_of_empty {v w : VersionVector} (h : v.clocks = ∅) : ¬v.dominates w :=
  fun hd => hd.1 h

/-- The second fast path of a merge: the source has seen all the target has, and more. -/
def FastForwards (target source : VersionVector) : Prop :=
  ¬target.dominates source ∧ source.dominates target

instance (target source : VersionVector) : Decidable (FastForwards target source) := by
  unfold FastForwards; exact inferInstance

/-! ## The order -/

instance : PartialOrder VersionVector where
  le v w := ∀ k, v.get k ≤ w.get k ∧ (k ∈ v.clocks → k ∈ w.clocks)
  le_refl v k := ⟨le_rfl, id⟩
  le_trans u v w huv hvw k := ⟨(huv k).1.trans (hvw k).1, fun h => (hvw k).2 ((huv k).2 h)⟩
  le_antisymm v w hvw hwv := by
    apply ext_lookup
    intro k
    by_cases h : k ∈ v.clocks
    · have hw := (hvw k).2 h
      rw [lookup_eq_of_mem h, lookup_eq_of_mem hw, le_antisymm (hvw k).1 (hwv k).1]
    · have hw : k ∉ w.clocks := fun hw => h ((hwv k).2 hw)
      rw [Finmap.lookup_eq_none.2 h, Finmap.lookup_eq_none.2 hw]

theorem get_mono {v w : VersionVector} (h : v ≤ w) (k : String) : v.get k ≤ w.get k := (h k).1

/-- What a vector dominates, every later one does. -/
theorem dominates_mono {u v w : VersionVector} (h : v.dominates u) (hvw : v ≤ w) :
    w.dominates u := by
  obtain ⟨hne, hle⟩ := dominates_iff.1 h
  obtain ⟨k, hk⟩ := exists_mem_of_ne_empty hne
  exact dominates_iff.2 ⟨clocks_ne_empty ((hvw k).2 hk), fun k hk => (hle k hk).trans (hvw k).1⟩

theorem absorb_dominates (v : VersionVector) {w : VersionVector} (h : w.clocks ≠ ∅) :
    (v.absorb w).dominates w := by
  obtain ⟨k, hk⟩ := exists_mem_of_ne_empty h
  refine dominates_iff.2 ⟨clocks_ne_empty (mem_absorb.2 (.inr hk)), fun k hk => ?_⟩
  rw [get_absorb_of_mem v hk]
  exact le_max_right _ _

theorem le_absorb (v w : VersionVector) : v ≤ v.absorb w :=
  fun k => ⟨get_le_absorb v w k, fun h => mem_absorb.2 (.inl h)⟩

theorem lt_bump (v : VersionVector) (n : String) : v < v.bump n := by
  refine lt_of_le_of_ne (fun k => ⟨?_, fun h => mem_bump.2 (.inr h)⟩) fun h => ?_
  · rw [get_bump]
    split
    · rename_i hk; subst hk; omega
    · exact le_rfl
  · have := congrArg (·.get n) h
    simp only [get_bump_self] at this
    omega

/-- A fast-forward moves the vector: some clock, or the first key, is new. -/
theorem lt_absorb {v w : VersionVector} (h : FastForwards v w) : v < v.absorb w := by
  refine lt_of_le_of_ne (le_absorb v w) fun he => h.1 (dominates_iff.2 ⟨?_, fun k hk => ?_⟩)
  · obtain ⟨k, hk⟩ := exists_mem_of_ne_empty h.2.1
    rw [he]
    exact clocks_ne_empty (mem_absorb.2 (.inr hk))
  · rw [he, get_absorb_of_mem v hk]
    exact le_max_right _ _

theorem absorb_empty (v : VersionVector) {w : VersionVector} (hw : w.clocks = ∅) :
    v.absorb w = v := by
  apply ext_lookup
  intro k
  rw [lookup_absorb, hw, Finmap.lookup_empty]
  rfl

/-- A vector that does not dominate what it absorbs moves, unless both are empty. -/
theorem absorb_eq_self_iff {v w : VersionVector} (hd : ¬v.dominates w) :
    v.absorb w = v ↔ v.clocks = ∅ ∧ w.clocks = ∅ := by
  refine ⟨fun h => ?_, fun h => absorb_empty v h.2⟩
  have hv : v.clocks = ∅ := by
    by_contra hne
    refine hd (dominates_iff.2 ⟨hne, fun k hk => ?_⟩)
    rw [← h, get_absorb_of_mem v hk]
    exact le_max_right _ _
  refine ⟨hv, ?_⟩
  by_contra hne
  obtain ⟨k, hk⟩ := exists_mem_of_ne_empty hne
  have hmem : k ∈ (v.absorb w).clocks := mem_absorb.2 (.inr hk)
  rw [h, hv] at hmem
  exact Finmap.notMem_empty hmem

@[simp] theorem fromMetadata_toMetadata (v : VersionVector) (m : Metadata) :
    fromMetadata (v.toMetadata m) = v := rfl

@[simp] theorem nodeId_toMetadata (v : VersionVector) (m : Metadata) :
    (v.toMetadata m).nodeId = m.nodeId := rfl

end CksRuntime.VersionVector
