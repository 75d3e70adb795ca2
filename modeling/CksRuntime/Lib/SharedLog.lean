import Mathlib.Data.List.Nodup

/-!
# Copies of a shared log

A log of distinct keys that grows at its end, and a copy of it that may have been appended to on its
own since. `Follows`: the copy is as much of the log as it had seen, or ends in a key the log does
not have. What decides whether a copy is up to date is then its last key (`eq_of_getLast?`).
-/

set_option autoImplicit false

namespace SharedLog

variable {κ : Type} {log copy : List κ} {k : κ}

/-- A copy is a prefix of the log, or ends on something the log does not have. -/
def Follows (log copy : List κ) : Prop := copy <+: log ∨ ∃ k ∈ copy.getLast?, k ∉ log

theorem follows_refl : Follows log log := .inl List.prefix_rfl

theorem follows_nil : Follows log [] := .inl List.nil_prefix

/-- A copy that is appended to on its own. -/
theorem follows_stray (h : k ∉ log) : Follows log (copy ++ [k]) :=
  .inr ⟨k, List.getLast?_concat, h⟩

/-- The log grows by a key the copy does not have. -/
theorem Follows.snoc (h : Follows log copy) (hk : k ∉ copy) : Follows (log ++ [k]) copy := by
  rcases h with h | ⟨k', hlast, hk'⟩
  · exact .inl (h.trans (List.prefix_append log [k]))
  · refine .inr ⟨k', hlast, fun hmem => ?_⟩
    rcases List.mem_append.1 hmem with hmem | hmem
    · exact hk' hmem
    · rw [List.mem_singleton] at hmem
      exact hk (hmem ▸ List.mem_of_getLast? hlast)

/-- A copy that ends where the log ends is the log. -/
theorem Follows.eq_of_getLast? (h : Follows log copy) (hn : log.Nodup)
    (hlast : copy.getLast? = log.getLast?) : copy = log := by
  rcases h with ⟨rest, rfl⟩ | ⟨k, hk, hnot⟩
  · cases hrest : rest.getLast? with
    | none => rw [List.getLast?_eq_none_iff.1 hrest, List.append_nil]
    | some k =>
      -- the last key would be in the log twice
      rw [List.getLast?_append, hrest, Option.some_or] at hlast
      exact absurd rfl ((List.nodup_append.1 hn).2.2 k (List.mem_of_getLast? hlast) k
        (List.mem_of_getLast? hrest))
  · rw [hlast] at hk
    exact absurd (List.mem_of_getLast? hk) hnot

end SharedLog
