import Mathlib.Data.List.Basic
import Mathlib.Order.Lattice

/-!
# The newest element

`newest f`: of a list, the last element whose key is greatest. A stable sort by the key puts it at
the end (`getLast?_mergeSort`), so that it can be found without sorting.
-/

set_option autoImplicit false

namespace Newest

variable {α β : Type} [LinearOrder β]

/-- The element at which `f` is largest, the last one of several. -/
def newest (f : α → β) : List α → Option α
  | [] => none
  | a :: l =>
    match newest f l with
    | some b => if f a ≤ f b then some b else some a
    | none => some a

theorem getLast?_mergeSort (f : α → β) (l : List α) :
    (l.mergeSort fun a b => decide (f a ≤ f b)).getLast? = newest f l := by
  have htrans : ∀ a b c, decide (f a ≤ f b) = true → decide (f b ≤ f c) = true →
      decide (f a ≤ f c) = true := fun a b c hab hbc =>
    decide_eq_true (le_trans (of_decide_eq_true hab) (of_decide_eq_true hbc))
  have htotal : ∀ a b, (decide (f a ≤ f b) || decide (f b ≤ f a)) = true := by
    intro a b
    rw [Bool.or_eq_true, decide_eq_true_eq, decide_eq_true_eq]
    exact le_total _ _
  induction l with
  | nil => simp [newest]
  | cons a l ih =>
    obtain ⟨l₁, l₂, hcons, hl, hlt⟩ := List.mergeSort_cons htrans htotal a l
    have hsorted := List.pairwise_mergeSort htrans htotal (a :: l)
    rw [hcons] at hsorted ⊢
    rw [hl] at ih
    rw [newest, ← ih]
    -- `a` is last exactly when nothing of the sorted rest comes after it
    rcases List.eq_nil_or_concat' l₂ with h₂ | ⟨l₂, b, h₂⟩
    · subst h₂
      rw [List.append_nil, List.getLast?_concat]
      rcases List.eq_nil_or_concat' l₁ with h₁ | ⟨l₁, b, h₁⟩
      · subst h₁
        rfl
      · subst h₁
        have hb : ¬f a ≤ f b := by simpa using hlt b (by simp)
        rw [List.getLast?_concat]
        exact (if_neg hb).symm
    · subst h₂
      have hb : f a ≤ f b := by
        have hafter := (List.pairwise_append.1 hsorted).2.1
        exact of_decide_eq_true ((List.pairwise_cons.1 hafter).1 b (by simp))
      have hlast : l₁ ++ a :: (l₂ ++ [b]) = l₁ ++ a :: l₂ ++ [b] := by simp
      rw [hlast, ← List.append_assoc, List.getLast?_concat, List.getLast?_concat]
      exact (if_pos hb).symm

end Newest
