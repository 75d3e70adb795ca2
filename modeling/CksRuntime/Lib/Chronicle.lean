import Mathlib.Data.List.Basic

/-!
# Chronicles

A log each of whose entries records a state, possibly as a change to the state before it.
`Chronicle R prev entries states`: entry by entry, `entries` record `states` after `prev`, where
`R prev entry state` says what recording is. A chronicle is extended at its end (`snoc`), read at
an index (`getElem`) and cut after one (`drop`, `take`); a reader that steps through a chronicle
ends at its last state (`foldlM_eq`).
-/

set_option autoImplicit false

/-- Each state follows from the one before and an event. -/
inductive Chronicle {σ ε : Type} (R : Option σ → ε → σ → Prop) :
    Option σ → List ε → List σ → Prop
  | nil (prev : Option σ) : Chronicle R prev [] []
  | cons {prev : Option σ} {e : ε} {s : σ} {es : List ε} {ss : List σ} :
      R prev e s → Chronicle R (some s) es ss → Chronicle R prev (e :: es) (s :: ss)

namespace Chronicle

variable {σ ε : Type} {R : Option σ → ε → σ → Prop} {prev : Option σ} {es : List ε} {ss : List σ}

theorem length_eq (h : Chronicle R prev es ss) : es.length = ss.length := by
  induction h with
  | nil => rfl
  | cons _ _ ih => rw [List.length_cons, List.length_cons, ih]

/-- A new entry records a state given the last one. -/
theorem snoc (h : Chronicle R prev es ss) {e : ε} {s : σ} (he : R (ss.getLast?.or prev) e s) :
    Chronicle R prev (es ++ [e]) (ss ++ [s]) := by
  induction h with
  | nil prev => exact .cons he (.nil _)
  | @cons prev e' s' es ss h' _ ih =>
    refine .cons h' (ih ?_)
    rw [List.getLast?_cons] at he
    cases hl : ss.getLast? with
    | none => simpa [hl] using he
    | some t => simpa [hl] using he

theorem getElem (h : Chronicle R prev es ss) {i : Nat} {e : ε} (he : es[i]? = some e) :
    ∃ s p, ss[i]? = some s ∧ R p e s ∧ Chronicle R (some s) (es.drop (i + 1)) (ss.drop (i + 1)) := by
  induction h generalizing i with
  | nil => simp at he
  | @cons prev e' s' es ss h' hes ih =>
    cases i with
    | zero =>
      cases he
      exact ⟨s', prev, rfl, h', hes⟩
    | succ i => exact ih he

theorem take (h : Chronicle R prev es ss) (n : Nat) :
    Chronicle R prev (es.take n) (ss.take n) := by
  induction h generalizing n with
  | nil => simpa using .nil _
  | cons h' _ ih =>
    cases n with
    | zero => exact .nil _
    | succ n => exact .cons h' (ih n)

/-- A reader that gets the recorded state from every entry it is given ends at the last state. -/
theorem foldlM_eq {ε' : Type} (step : σ → ε → Except ε' σ) {s : σ}
    (h : Chronicle R (some s) es ss) (hstep : ∀ e ∈ es, ∀ s t, R (some s) e t → step s e = .ok t) :
    es.foldlM step s = .ok (ss.getLastD s) := by
  generalize hp : some s = prev at h
  induction h generalizing s with
  | nil => rfl
  | @cons prev e t es ss h' _ ih =>
    subst hp
    rw [List.foldlM_cons, hstep e List.mem_cons_self s t h']
    change es.foldlM step t = _
    rw [ih (fun e he => hstep e (List.mem_cons_of_mem _ he)) rfl, List.getLastD_cons]

end Chronicle
