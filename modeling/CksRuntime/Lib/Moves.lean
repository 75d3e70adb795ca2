import CksRuntime.Lib.Effect

/-!
# Where a call leaves its state

`Moves ok err x`: from any state, `x` returns in one that `ok` relates it to or raises in one that
`err` does. Where `ok` is reflexive and transitive and `err` may follow it (`Flow`), the
constructors of a program move as their parts do.
-/

set_option autoImplicit false

namespace Effect

variable {ε σ α β : Type} {ok err : σ → σ → Prop}

/-- A call from `s` has ended so. -/
def Lands (ok err : σ → σ → Prop) (s : σ) : EStateM.Result ε σ α → Prop
  | .ok _ s' => ok s s'
  | .error _ s' => err s s'

/-- Wherever a call starts, its outcome is in `ok` or `err` of that. -/
def Moves (ok err : σ → σ → Prop) (x : EStateM ε σ α) : Prop := ∀ s, Lands ok err s (x s)

/-- The relations of a program that may raise at any point. -/
structure Flow (ok err : σ → σ → Prop) : Prop where
  refl : ∀ s, ok s s
  trans : ∀ {s s' s''}, ok s s' → ok s' s'' → ok s s''
  raise : ∀ {s s'}, ok s s' → err s s'
  after : ∀ {s s' s''}, ok s s' → err s' s'' → err s s''

namespace Moves

theorem of_ok {x : EStateM ε σ α} (h : Moves ok err x) {s s' : σ} {a : α} (hx : x s = .ok a s') :
    ok s s' := by
  have hs := h s
  rw [hx] at hs
  exact hs

theorem of_error {x : EStateM ε σ α} (h : Moves ok err x) {s s' : σ} {e : ε}
    (hx : x s = .error e s') : err s s' := by
  have hs := h s
  rw [hx] at hs
  exact hs

/-- A call that only raises, in a state that is told whatever it does. -/
theorem of_raises {x : EStateM ε σ α} (hraises : ∀ s a s', x s ≠ .ok a s')
    (h : ∀ s, err s (stateOf (x s))) : Moves ok err x := by
  intro s
  have hs := h s
  cases hx : x s with
  | ok a s' => exact absurd hx (hraises s a s')
  | error e s' =>
    rw [hx] at hs
    exact hs

theorem modify {g : σ → σ} (hg : ∀ s, ok s (g s)) :
    Moves ok err (modify g : EStateM ε σ PUnit) := hg

/-- A call that reads its state first. -/
theorem get_bind {k : σ → EStateM ε σ α} (hk : ∀ s, Lands ok err s (k s s)) :
    Moves ok err (get >>= k) := hk

variable (hflow : Flow ok err)

include hflow

theorem pure (a : α) : Moves ok err (Pure.pure a : EStateM ε σ α) := fun s => hflow.refl s

theorem throw (e : ε) : Moves ok err (MonadExcept.throw e : EStateM ε σ α) :=
  fun s => hflow.raise (hflow.refl s)

theorem bind {x : EStateM ε σ α} {k : α → EStateM ε σ β} (hx : Moves ok err x)
    (hk : ∀ a, Moves ok err (k a)) : Moves ok err (x >>= k) := by
  intro s
  rw [bind_run]
  cases h : x s with
  | error e s' => exact hx.of_error h
  | ok a s' =>
    dsimp only
    have hs' := hx.of_ok h
    cases h' : k a s' with
    | ok b s'' => exact hflow.trans hs' ((hk a).of_ok h')
    | error e s'' => exact hflow.after hs' ((hk a).of_error h')

theorem forM {f : α → EStateM ε σ PUnit} (l : List α) (hf : ∀ a ∈ l, Moves ok err (f a)) :
    Moves ok err (forM l f) := by
  induction l with
  | nil => exact pure hflow _
  | cons a l ih =>
    rw [List.forM_cons]
    exact bind hflow (hf a List.mem_cons_self) fun _ =>
      ih fun b hb => hf b (List.mem_cons_of_mem _ hb)

end Moves

end Effect
