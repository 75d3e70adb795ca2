import Mathlib.Data.List.Basic

/-!
# A list that changes while it is gone through

A loop by index over a list that others append to and remove from. At index `k` it has passed
`l.take k` and has `l.drop k` before it. A removal of what is before it changes nothing else; a
removal of what it has passed moves the next element behind it.
-/

set_option autoImplicit false

namespace LiveList

variable {α : Type} {l : List α} {a x : α} {k : Nat}

theorem mem_take_append (h : a ∈ l.take k) (l' : List α) : a ∈ (l ++ l').take k := by
  rw [List.take_append]
  exact List.mem_append_left _ h

theorem mem_drop_append (h : a ∈ l.drop k) (l' : List α) : a ∈ (l ++ l').drop k := by
  have hk : k ≤ l.length := by
    by_contra hk
    rw [List.drop_of_length_le (by omega)] at h
    cases h
  rw [List.drop_append_of_le_length hk]
  exact List.mem_append_left _ h

theorem disjoint (hl : l.Nodup) (h : a ∈ l.take k) : a ∉ l.drop k := by
  rw [← List.take_append_drop k l] at hl
  exact fun h' => (List.nodup_append.1 hl).2.2 a h a h' rfl

/-- One more is passed. -/
theorem drop_of_getElem? (hx : l[k]? = some x) : l.drop k = x :: l.drop (k + 1) := by
  obtain ⟨hk, rfl⟩ := List.getElem?_eq_some_iff.1 hx
  exact List.drop_eq_getElem_cons hk

theorem take_of_getElem? (hx : l[k]? = some x) : l.take (k + 1) = l.take k ++ [x] := by
  rw [List.take_add_one, hx]
  rfl

variable [DecidableEq α]

theorem drop_erase_passed (h : x ∈ l.take k) : (l.erase x).drop k = (l.drop k).tail := by
  have hlength : ((l.take k).erase x).length = (l.take k).length - 1 := List.length_erase_of_mem h
  have hpos : 0 < (l.take k).length := List.length_pos_of_mem h
  rw [List.length_take] at hlength hpos
  have herase : l.erase x = (l.take k).erase x ++ l.drop k := by
    rw [← List.erase_append_left _ h, List.take_append_drop]
  rw [herase, List.drop_append, List.drop_of_length_le (by omega), List.nil_append, hlength]
  by_cases hk : k ≤ l.length
  · rw [← List.drop_one, show k - (min k l.length - 1) = 1 by omega]
  · rw [List.drop_of_length_le (l := l) (by omega), List.drop_nil]
    rfl

theorem take_erase_passed (h : x ∈ l.take k) :
    (l.erase x).take k = (l.take k).erase x ++ (l.drop k).take 1 := by
  have hlength : ((l.take k).erase x).length = (l.take k).length - 1 := List.length_erase_of_mem h
  have hpos : 0 < (l.take k).length := List.length_pos_of_mem h
  rw [List.length_take] at hlength hpos
  have herase : l.erase x = (l.take k).erase x ++ l.drop k := by
    rw [← List.erase_append_left _ h, List.take_append_drop]
  rw [herase, List.take_append, List.take_of_length_le (l := (l.take k).erase x) (by omega), hlength]
  by_cases hk : k ≤ l.length
  · rw [show k - (min k l.length - 1) = 1 by omega]
  · rw [List.drop_of_length_le (l := l) (by omega)]
    simp

theorem take_erase_ahead (h : x ∉ l.take k) : (l.erase x).take k = l.take k := by
  have herase : l.erase x = l.take k ++ (l.drop k).erase x := by
    rw [← List.erase_append_right _ h, List.take_append_drop]
  by_cases hk : k ≤ l.length
  · rw [herase, List.take_append_of_le_length (by rw [List.length_take]; omega), List.take_take,
      Nat.min_self]
  · rw [herase, List.drop_of_length_le (by omega), List.erase_nil, List.append_nil, List.take_take,
      Nat.min_self]

theorem drop_erase_ahead (h : x ∉ l.take k) : (l.erase x).drop k = (l.drop k).erase x := by
  have herase : l.erase x = l.take k ++ (l.drop k).erase x := by
    rw [← List.erase_append_right _ h, List.take_append_drop]
  by_cases hk : k ≤ l.length
  · rw [herase, List.drop_append, List.drop_of_length_le (by rw [List.length_take]; omega),
      List.length_take, show k - min k l.length = 0 by omega, List.drop_zero, List.nil_append]
  · rw [herase, List.drop_of_length_le (l := l) (by omega), List.erase_nil, List.append_nil,
      List.drop_of_length_le (by rw [List.length_take]; omega)]

end LiveList
