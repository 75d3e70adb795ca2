import Mathlib.Data.List.Infix

/-!
# LIKE patterns

Matching a text against a pattern with a wildcard for any run of characters and one for any single
character, other characters being compared by `same`. A text that contains a string literally
matches the pattern that asks for the string anywhere (`like_of_infix`), also when the string has
wildcards of its own; the converse is what wildcards and a coarser comparison break.
-/

set_option autoImplicit false

namespace Like

variable {α : Type} [DecidableEq α] (same : α → α → Bool) (many one : α)

/-- Whether the pattern matches all of the text. -/
def like : List α → List α → Bool
  | [], t => t.isEmpty
  | c :: p, t =>
    if c = many then t.tails.any (like p)
    else (t.head?.any fun d => decide (c = one) || same c d) && like p t.tail

variable {same many one}

@[simp] theorem like_nil (t : List α) : like same many one [] t = t.isEmpty := rfl

theorem like_many {p t : List α} :
    like same many one (many :: p) t = true ↔ ∃ t', t' <:+ t ∧ like same many one p t' = true := by
  rw [like, if_pos rfl, List.any_eq_true]
  simp only [List.mem_tails]

theorem like_single (t : List α) : like same many one [many] t = true :=
  like_many.2 ⟨[], List.nil_suffix, rfl⟩

/-- A literal prefix of the text is matched by itself. -/
theorem like_append (hsame : ∀ c, same c c = true) {q t : List α}
    (h : like same many one q t = true) : ∀ p : List α, like same many one (p ++ q) (p ++ t) = true
  | [] => h
  | c :: p => by
    have ih := like_append hsame h p
    by_cases hc : c = many
    · subst hc
      exact like_many.2 ⟨p ++ t, List.suffix_cons c _, ih⟩
    · rw [List.cons_append, List.cons_append, like, if_neg hc]
      simp [hsame, ih]

theorem like_of_infix (hsame : ∀ c, same c c = true) {s t : List α} (h : s <:+: t) :
    like same many one (many :: (s ++ [many])) t = true := by
  obtain ⟨a, b, rfl⟩ := h
  refine like_many.2 ⟨s ++ b, ⟨a, by rw [List.append_assoc]⟩, ?_⟩
  exact like_append hsame (like_single b) s

end Like
