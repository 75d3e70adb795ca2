import Mathlib.Data.Set.Basic

/-!
# Pointer doubling

Nodes know names of nodes. Along names a node has others within so many hops; once each has learned
what those it knows know, twice as far is within reach of one. No node keeps its own name.
-/

set_option autoImplicit false

namespace Doubling

variable {ν ι : Type}

/-- `a` is named at the end of a chain of `n` names, each known where the one before leads. -/
inductive Hops (host : ι → Option ν) (know : ν → Set ι) : Nat → ν → ι → Prop
  | one {r : ν} {a : ι} : a ∈ know r → Hops host know 1 r a
  | cons {n : Nat} {r q : ν} {p a : ι} :
      p ∈ know r → host p = some q → Hops host know n q a → Hops host know (n + 1) r a

variable {host : ι → Option ν} {know know' : ν → Set ι} {r : ν} {a : ι} {n : Nat}

theorem Hops.pos (h : Hops host know n r a) : 0 < n := by
  cases h <;> omega

/-- A chain of more than `m` names goes on from its `m`-th. -/
theorem Hops.split {m : Nat} (hm : 0 < m) (hlt : m < n) (h : Hops host know n r a) :
    ∃ p q, Hops host know m r p ∧ host p = some q ∧ Hops host know (n - m) q a := by
  induction h generalizing m with
  | one => omega
  | @cons n r q p a hp hq h ih =>
    by_cases h1 : m = 1
    · subst h1
      exact ⟨p, q, .one hp, hq, h⟩
    · obtain ⟨p', q', hfirst, hq', hrest⟩ := ih (m := m - 1) (by omega) (by omega)
      have hm' : m = m - 1 + 1 := by omega
      have hn' : n + 1 - m = n - (m - 1) := by omega
      rw [hn']
      rw [hm'] at hm ⊢
      exact ⟨p', q', .cons hp hq hfirst, hq', hrest⟩

/-- Every node knows what is within `n` hops, its own name apart. -/
def Within (host : ι → Option ν) (own : ν → Option ι) (start know : ν → Set ι) (n : Nat) : Prop :=
  ∀ m r a, m ≤ n → Hops host start m r a → own r ≠ some a → a ∈ know r

theorem within_one (host : ι → Option ν) (own : ν → Option ι) (know : ν → Set ι) :
    Within host own know know 1 := by
  intro m r a hm h _
  cases h with
  | one ha => exact ha
  | cons _ _ h =>
    have := h.pos
    omega

/-- One exchange doubles the distance: each node learns what those it knows know, and their names. -/
theorem Within.double {own : ν → Option ι} {start : ν → Set ι}
    (hown : ∀ r a, own r = some a → host a = some r)
    (h : Within host own start know n) (hmono : ∀ r, know r ⊆ know' r)
    (hlearn : ∀ r p q a, p ∈ know r → host p = some q → a ∈ know q ∨ own q = some a →
      own r ≠ some a → a ∈ know' r) : Within host own start know' (2 * n) := by
  intro m r a hm hops hne
  by_cases hle : m ≤ n
  · exact hmono r (h m r a hle hops hne)
  · obtain ⟨p, q, hfirst, hq, hrest⟩ := hops.split (m := m - n) (by omega) (by omega)
    have hfar : own q ≠ some a → a ∈ know q := h _ q a (by omega) hrest
    by_cases hp : own r = some p
    · -- the chain comes back to its start
      rw [hown r p hp, Option.some.injEq] at hq
      subst hq
      exact hmono r (hfar hne)
    · refine hlearn r p q a (h _ r p (by omega) hfirst hp) hq ?_ hne
      by_cases ha : own q = some a
      · exact .inr ha
      · exact .inl (hfar ha)

end Doubling
