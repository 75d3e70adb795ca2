import Mathlib.Logic.Relation

/-!
# Labelled transition systems

`System.Reachable`: the states a system gets to from its initial ones, any label after any other.
`System.restrict` keeps the steps that meet a condition on the state before and the label, so that
"in every run whose steps all meet the condition" is reachability in the restricted system.
`Reachable.invariant` is the induction every safety theorem here is an instance of, and `Path` the
runs between two states, for statements about what happens from one step to a later one.
-/

set_option autoImplicit false

namespace Transition

/-- A transition system with labelled steps. -/
structure System (σ ι : Type) where
  init : σ → Prop
  step : σ → ι → σ → Prop

namespace System

variable {σ ι : Type}

/-- States some run comes to. -/
inductive Reachable (S : System σ ι) : σ → Prop
  | init {s : σ} : S.init s → Reachable S s
  | step {s s' : σ} {l : ι} : Reachable S s → S.step s l s' → Reachable S s'

/-- The steps of `S` that meet `C`. -/
def restrict (S : System σ ι) (C : σ → ι → Prop) : System σ ι where
  init := S.init
  step s l s' := S.step s l s' ∧ C s l

variable {S : System σ ι}

/-- A property of the initial states that every step from a reachable state keeps holds in every
reachable state. -/
theorem Reachable.invariant {P : σ → Prop} {s : σ} (h : S.Reachable s)
    (h0 : ∀ s, S.init s → P s)
    (hs : ∀ s l s', S.Reachable s → P s → S.step s l s' → P s') : P s := by
  induction h with
  | init hi => exact h0 _ hi
  | step hr hst ih => exact hs _ _ _ hr ih hst

theorem Reachable.of_restrict {C : σ → ι → Prop} {s : σ} (h : (S.restrict C).Reachable s) :
    S.Reachable s := by
  induction h with
  | init hi => exact .init hi
  | step _ hst ih => exact .step ih hst.1

theorem Reachable.mono {C C' : σ → ι → Prop} {s : σ} (h : (S.restrict C).Reachable s)
    (hC : ∀ s l, C s l → C' s l) : (S.restrict C').Reachable s := by
  induction h with
  | init hi => exact .init hi
  | step _ hst ih => exact .step ih ⟨hst.1, hC _ _ hst.2⟩

/-- Seen through `f`, a run of `S` is one of `T`, where every step is seen as a step or not at all.
The steps are those from states that meet `I`, which the run keeps. -/
theorem Reachable.refines {τ κ : Type} {T : System τ κ} {I : σ → Prop} (f : σ → τ) {s : σ}
    (h : S.Reachable s) (h0 : ∀ s, S.init s → I s ∧ T.init (f s))
    (hs : ∀ s l s', T.Reachable (f s) → I s → S.step s l s' →
      I s' ∧ (f s' = f s ∨ ∃ k, T.step (f s) k (f s'))) : I s ∧ T.Reachable (f s) := by
  induction h with
  | init hi => exact ⟨(h0 _ hi).1, .init (h0 _ hi).2⟩
  | @step s s' l _ hst ih =>
    obtain ⟨hI, hsame | ⟨k, hk⟩⟩ := hs s l s' ih.2 ih.1 hst
    · rw [hsame]
      exact ⟨hI, ih.2⟩
    · exact ⟨hI, ih.2.step hk⟩

/-- A run from one state to another, with the labels it takes. -/
inductive Path (S : System σ ι) : σ → List ι → σ → Prop
  | refl (s : σ) : Path S s [] s
  | tail {s s' s'' : σ} {ls : List ι} {l : ι} :
      Path S s ls s' → S.step s' l s'' → Path S s (ls ++ [l]) s''

theorem Path.reachable {s s' : σ} {ls : List ι} (h : S.Path s ls s') (hs : S.Reachable s) :
    S.Reachable s' := by
  induction h with
  | refl => exact hs
  | tail _ hst ih => exact .step ih hst

/-- A run through a step of it. -/
theorem Path.of_mem {s s' : σ} {ls : List ι} {l : ι} (h : S.Path s ls s') (hl : l ∈ ls) :
    ∃ ls₁ ls₂ s₁ s₂, ls = ls₁ ++ l :: ls₂ ∧ S.Path s ls₁ s₁ ∧ S.step s₁ l s₂ ∧
      S.Path s₂ ls₂ s' := by
  induction h with
  | refl => cases hl
  | @tail s₁ s₂ ls l' hp hst ih =>
    rcases List.mem_append.1 hl with hl | hl
    · obtain ⟨ls₁, ls₂, t₁, t₂, rfl, hp₁, hst₁, hp₂⟩ := ih hl
      exact ⟨ls₁, ls₂ ++ [l'], t₁, t₂, by simp, hp₁, hst₁, hp₂.tail hst⟩
    · cases List.mem_singleton.1 hl
      exact ⟨ls, [], _, _, rfl, hp, hst, .refl _⟩

/-- What every step of a run keeps holds at its end. -/
theorem Path.invariant {P : σ → Prop} {s s' : σ} {ls : List ι} (h : S.Path s ls s')
    (hr : S.Reachable s) (h0 : P s)
    (hs : ∀ s l s', l ∈ ls → S.Reachable s → P s → S.step s l s' → P s') : P s' := by
  induction h with
  | refl => exact h0
  | @tail s₁ s₂ ls l hp hst ih =>
    have hP := ih fun s l s' hl => hs s l s' (List.mem_append_left _ hl)
    exact hs _ _ _ (by simp) (hp.reachable hr) hP hst

end System

end Transition
