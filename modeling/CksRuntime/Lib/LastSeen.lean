import Mathlib.Data.List.Nodup

/-!
# A filter that remembers one key

A filter that reports what it is offered unless it has reported the same just before, and forgets
when it is cleared. `reported` is what it has reported since. Nothing is reported twice exactly as
long as what is offered again is the last report (`step_nodup_iff`).
-/

set_option autoImplicit false

namespace LastSeen

variable {α : Type} [DecidableEq α]

/-- The last item offered, and all that were reported. -/
structure Memo (α : Type) where
  last : Option α := none
  reported : List α := []

/-- An item is offered, or the last one is forgotten. -/
inductive Input (α : Type)
  | offer (x : α)
  | clear

namespace Memo

/-- An item is reported unless it is the last one again. -/
def step (m : Memo α) : Input α → Memo α
  | .offer x => if m.last = some x then m else ⟨some x, m.reported ++ [x]⟩
  | .clear => {}

/-- What is remembered is the last report. -/
def Faithful (m : Memo α) : Prop := m.reported.getLast? = m.last

/-- What has been reported is offered again only right after its report. -/
def RepeatsLast (m : Memo α) : Input α → Prop
  | .offer x => x ∈ m.reported → m.reported.getLast? = some x
  | .clear => True

theorem step_of_last {m : Memo α} {x : α} (h : m.last = some x) : m.step (.offer x) = m :=
  if_pos h

theorem step_of_ne {m : Memo α} {x : α} (h : m.last ≠ some x) :
    m.step (.offer x) = ⟨some x, m.reported ++ [x]⟩ := if_neg h

theorem Faithful.step {m : Memo α} (h : m.Faithful) (i : Input α) : (m.step i).Faithful := by
  cases i with
  | offer x =>
    by_cases hlast : m.last = some x
    · rwa [step_of_last hlast]
    · rw [step_of_ne hlast]
      simp [Faithful]
  | clear => rfl

/-- **The filter's one memory is enough** exactly for a key that is offered again at once. -/
theorem step_nodup_iff {m : Memo α} (h : m.Faithful) (hn : m.reported.Nodup) (i : Input α) :
    (m.step i).reported.Nodup ↔ m.RepeatsLast i := by
  cases i with
  | clear => simp [step, RepeatsLast]
  | offer x =>
    by_cases hlast : m.last = some x
    · rw [step_of_last hlast]
      exact iff_of_true hn fun _ => h.trans hlast
    · rw [step_of_ne hlast]
      have hne : m.reported.getLast? ≠ some x := by rwa [h]
      have hnodup : (m.reported ++ [x]).Nodup ↔ x ∉ m.reported := by
        simp [List.nodup_append, hn]
        grind
      show (m.reported ++ [x]).Nodup ↔ (x ∈ m.reported → m.reported.getLast? = some x)
      rw [hnodup]
      simp [hne]

end Memo

end LastSeen
