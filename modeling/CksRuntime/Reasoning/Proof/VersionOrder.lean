import CksRuntime.Reasoning.Components

/-!
# The order of versions

`_is_outdated` compares tuples, where a proper prefix comes first; `Precedes` compares component by
component, where a missing one reads as zero. `lt_iff_precedes`: of versions without negative
components the two tell the same, unless the second is the first with zeros added. A version that is
no tuple of numbers is outdated beside every other text, and every other text beside it.
-/

set_option autoImplicit false

namespace CksRuntime

/-! ## Component by component -/

/-- A missing component reads as zero. -/
def component (v : List Int) (i : Nat) : Int := v.getD i 0

/-- At the first component that differs, `a` has the smaller one. -/
def Precedes (a b : List Int) : Prop :=
  ∃ i, (∀ j < i, component a j = component b j) ∧ component a i < component b i

/-- No part is negative. -/
def Unsigned (v : List Int) : Prop := ∀ c ∈ v, 0 ≤ c

instance (v : List Int) : Decidable (Unsigned v) :=
  inferInstanceAs (Decidable (∀ c ∈ v, 0 ≤ c))

/-- `b` is `a` with zeros added. -/
def ZeroExtended (a b : List Int) : Prop := ∃ n, b = a ++ List.replicate (n + 1) 0

@[simp] theorem component_nil (i : Nat) : component [] i = 0 := rfl

@[simp] theorem component_cons_zero (c : Int) (v : List Int) : component (c :: v) 0 = c := rfl

theorem component_succ (v : List Int) (i : Nat) : component v (i + 1) = component v.tail i := by
  cases v <;> rfl

theorem Unsigned.component_nonneg {v : List Int} (h : Unsigned v) (i : Nat) :
    0 ≤ component v i := by
  induction v generalizing i with
  | nil => exact le_rfl
  | cons c v ih =>
    cases i with
    | zero => exact h c List.mem_cons_self
    | succ i => exact ih (fun d hd => h d (List.mem_cons_of_mem c hd)) i

theorem not_precedes_nil {a : List Int} (h : Unsigned a) : ¬Precedes a [] := by
  rintro ⟨i, -, hlt⟩
  exact absurd hlt (not_lt.2 (h.component_nonneg i))

/-- The first components tell, or what follows them. -/
theorem precedes_iff (a b : List Int) :
    Precedes a b ↔ component a 0 < component b 0 ∨
      component a 0 = component b 0 ∧ Precedes a.tail b.tail := by
  constructor
  · rintro ⟨i, hsame, hlt⟩
    cases i with
    | zero => exact .inl hlt
    | succ i =>
      simp only [component_succ] at hlt
      refine .inr ⟨hsame 0 (Nat.zero_lt_succ i), i, fun j hj => ?_, hlt⟩
      simpa only [component_succ] using hsame (j + 1) (by omega)
  · rintro (hlt | ⟨hfirst, i, hsame, hlt⟩)
    · exact ⟨0, fun j hj => absurd hj (Nat.not_lt_zero j), hlt⟩
    · refine ⟨i + 1, fun j hj => ?_, ?_⟩
      · cases j with
        | zero => exact hfirst
        | succ j =>
          rw [component_succ, component_succ]
          exact hsame j (by omega)
      · rw [component_succ, component_succ]
        exact hlt

/-- Only zeros do not come after nothing. -/
theorem precedes_nil {b : List Int} (h : Unsigned b) (hzeros : b ≠ List.replicate b.length 0) :
    Precedes [] b := by
  induction b with
  | nil => exact absurd rfl hzeros
  | cons y ys ih =>
    rw [precedes_iff]
    rcases lt_or_eq_of_le (h y List.mem_cons_self) with hy | rfl
    · exact .inl hy
    · refine .inr ⟨rfl, ih (fun c hc => h c (List.mem_cons_of_mem _ hc)) fun he => hzeros ?_⟩
      rw [List.length_cons, List.replicate_succ, ← he]

theorem lt_iff_precedes {a b : List Int} (ha : Unsigned a) (hb : Unsigned b)
    (hext : ¬ZeroExtended a b) : a < b ↔ Precedes a b := by
  induction a generalizing b with
  | nil =>
    cases b with
    | nil => exact iff_of_false (List.not_lt_nil _) (not_precedes_nil ha)
    | cons y ys =>
      refine iff_of_true (List.nil_lt_cons y ys) (precedes_nil hb fun he => hext ⟨ys.length, ?_⟩)
      rw [List.nil_append, ← List.length_cons, ← he]
  | cons x xs ih =>
    cases b with
    | nil => exact iff_of_false (List.not_lt_nil _) (not_precedes_nil ha)
    | cons y ys =>
      rw [List.cons_lt_cons_iff, precedes_iff]
      refine or_congr_right (and_congr_right fun hxy => ?_)
      subst hxy
      refine ih (fun c hc => ha c (List.mem_cons_of_mem _ hc))
        (fun c hc => hb c (List.mem_cons_of_mem _ hc)) ?_
      rintro ⟨n, rfl⟩
      exact hext ⟨n, rfl⟩

/-! ## `_is_outdated` -/

theorem lstripV_lstripV (v : GraphValue) : lstripV (lstripV v) = lstripV v := by
  cases v with
  | str s =>
    simp only [lstripV, PyText.lstrip, String.toList_ofList, List.dropWhile_idempotent]
  | other truthy => rfl

/-- The prefix is stripped either way. -/
theorem versionTuple_lstripV (v : GraphValue) : versionTuple (lstripV v) = versionTuple v := by
  unfold versionTuple
  rw [lstripV_lstripV]

theorem isOutdated_self (s : String) : isOutdated (.str s) s = false := if_pos rfl

theorem isOutdated_tuples {s t : String} {a b : List Int} (ha : versionTuple (.str s) = some a)
    (hb : versionTuple (.str t) = some b) : isOutdated (.str s) t = true ↔ a < b := by
  unfold isOutdated
  rw [versionTuple_lstripV, versionTuple_lstripV, ha, hb]
  by_cases hst : s = t
  · subst hst
    rw [ha] at hb
    cases hb
    simp
  · rw [if_neg fun h => hst (GraphValue.str.inj h)]
    exact decide_eq_true_iff

theorem isOutdated_unparsable {s t : String} (hne : s ≠ t)
    (h : versionTuple (.str s) = none ∨ versionTuple (.str t) = none) :
    isOutdated (.str s) t = true := by
  unfold isOutdated
  rw [versionTuple_lstripV, versionTuple_lstripV, if_neg fun he => hne (GraphValue.str.inj he)]
  rcases h with h | h
  · rw [h]
  · rw [h]
    cases versionTuple (.str s) <;> rfl

/-- No text is behind itself. Of two dotted versions one is behind if it precedes the other, unless
the other only adds zeros, and never both are. Texts that differ and are not both versions are both
taken to be behind. -/
theorem isOutdated_order (s t : String) :
    isOutdated (.str s) s = false ∧
    (∀ a b, versionTuple (.str s) = some a → versionTuple (.str t) = some b →
      (isOutdated (.str s) t = true → isOutdated (.str t) s = false) ∧
      (Unsigned a → Unsigned b → ¬ZeroExtended a b →
        (isOutdated (.str s) t = true ↔ Precedes a b))) ∧
    (s ≠ t → versionTuple (.str s) = none ∨ versionTuple (.str t) = none →
      isOutdated (.str s) t = true ∧ isOutdated (.str t) s = true) := by
  refine ⟨isOutdated_self s, fun a b ha hb => ⟨fun h => ?_, fun hna hnb hext => ?_⟩,
    fun hne h => ⟨isOutdated_unparsable hne h, isOutdated_unparsable hne.symm h.symm⟩⟩
  · have hlt : a < b := (isOutdated_tuples ha hb).1 h
    exact Bool.eq_false_iff.2 fun h' => lt_asymm hlt ((isOutdated_tuples hb ha).1 h')
  · rw [isOutdated_tuples ha hb, lt_iff_precedes hna hnb hext]

/-- A version that is no tuple of numbers and one that is are each behind the other. -/
theorem isOutdated_both_ways :
    ¬∀ s t : String, isOutdated (.str s) t = true → isOutdated (.str t) s = false := fun h =>
  absurd (h "dev" "1.0" (by decide)) (by decide)

end CksRuntime
