import Mathlib.Data.List.Induction
import Mathlib.Order.Basic

/-!
# Clocked logs

Writers append values to one log, each at a clock of its own. A reader that has seen each writer up
to some clock knows the entries below these clocks (`Knows`), and the last entry it knows is what it
should hold (`current`). A new entry matters to those who know it only (`current_snoc_of_knows`,
`current_snoc_of_not`), and who knows just what two others know holds what one of them does
(`current_join`).
-/

set_option autoImplicit false

namespace Clocked

/-- A value, with who wrote it and when. -/
structure Entry (ι τ α : Type) where
  writer : ι
  clock : τ
  value : α

variable {ι τ α : Type} [LE τ] [DecidableLE τ]

/-- Who has seen each writer up to `clock` has seen the entry. -/
def Knows (clock : ι → τ) (e : Entry ι τ α) : Prop := e.clock ≤ clock e.writer

instance (clock : ι → τ) (e : Entry ι τ α) : Decidable (Knows clock e) :=
  inferInstanceAs (Decidable (e.clock ≤ clock e.writer))

/-- The last value known, or the initial one. -/
def current (log : List (Entry ι τ α)) (initial : α) (clock : ι → τ) : α :=
  (log.filter (decide <| Knows clock ·)).getLast?.elim initial (·.value)

variable {log : List (Entry ι τ α)} {initial : α} {u v w : ι → τ} {e : Entry ι τ α}

@[simp] theorem current_nil : current ([] : List (Entry ι τ α)) initial v = initial := rfl

theorem current_snoc_of_knows (h : Knows v e) : current (log ++ [e]) initial v = e.value := by
  have hf : (log ++ [e]).filter (decide <| Knows v ·) =
      log.filter (decide <| Knows v ·) ++ [e] := by
    simp [List.filter_append, h]
  rw [current, hf, List.getLast?_concat]
  rfl

theorem current_snoc_of_not (h : ¬Knows v e) :
    current (log ++ [e]) initial v = current log initial v := by
  have hf : (log ++ [e]).filter (decide <| Knows v ·) = log.filter (decide <| Knows v ·) := by
    simp [List.filter_append, h]
  rw [current, hf, current]

/-- Who knows what two know together holds what one of them does. -/
theorem current_join (h : ∀ e ∈ log, Knows u e ↔ Knows v e ∨ Knows w e) :
    current log initial u = current log initial v ∨
      current log initial u = current log initial w := by
  induction log using List.reverseRecOn with
  | nil => exact .inl rfl
  | append_singleton log e ih =>
    have hlog := ih fun e' he' => h e' (List.mem_append_left _ he')
    have he := h e (List.mem_append_right _ List.mem_cons_self)
    by_cases hu : Knows u e
    · rw [current_snoc_of_knows hu]
      rcases he.1 hu with hv | hw
      · exact .inl (current_snoc_of_knows hv).symm
      · exact .inr (current_snoc_of_knows hw).symm
    · have hv : ¬Knows v e := fun hv => hu (he.2 (.inl hv))
      have hw : ¬Knows w e := fun hw => hu (he.2 (.inr hw))
      rw [current_snoc_of_not hu, current_snoc_of_not hv, current_snoc_of_not hw]
      exact hlog

end Clocked
