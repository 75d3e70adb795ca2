import CksRuntime.Lib.Effect

/-!
# What a call reads of its state

`Respects f x`: from states with the same `f`, the call `x` returns or raises the same and leaves
the same `f`, so it neither reads what `f` drops nor lets it into what `f` keeps. The constructors
of a program respect `f` when their parts do (`Respects.bind`, …), and two calls that agree through
`f` go on to agree (`Respects.bind_eq`).
-/

set_option autoImplicit false

namespace Effect

variable {ε σ τ α β : Type}

/-- The result, and what `f` keeps of the state. -/
def through (f : σ → τ) : EStateM.Result ε σ α → EStateM.Result ε τ α
  | .ok a s => .ok a (f s)
  | .error e s => .error e (f s)

/-- A call sees of a state only what `f` keeps of it. -/
def Respects (f : σ → τ) (x : EStateM ε σ α) : Prop :=
  ∀ s s', f s = f s' → through f (x s) = through f (x s')

/-- From states with the same `f`, the two return or raise the same and leave the same `f`. -/
def Agree (f : σ → τ) (x x' : EStateM ε σ α) : Prop :=
  ∀ s s', f s = f s' → through f (x s) = through f (x' s')

/-- Two calls that agree so far go on to agree. -/
theorem Agree.bind_eq {f : σ → τ} {k k' : α → EStateM ε σ β} (hk : ∀ a, Agree f (k a) (k' a))
    {x x' : EStateM ε σ α} {s s' : σ} (h : through f (x s) = through f (x' s')) :
    through f ((x >>= k) s) = through f ((x' >>= k') s') := by
  rw [bind_run, bind_run]
  cases hx : x s with
  | ok a t =>
    cases hx' : x' s' with
    | ok a' t' =>
      rw [hx, hx'] at h
      injection h with ha ht
      subst ha
      exact hk a t t' ht
    | error e' t' =>
      rw [hx, hx'] at h
      cases h
  | error e t =>
    cases hx' : x' s' with
    | ok a' t' =>
      rw [hx, hx'] at h
      cases h
    | error e' t' =>
      rw [hx, hx'] at h
      injection h with he ht
      subst he
      exact congrArg (EStateM.Result.error e) ht

namespace Respects

variable {f : σ → τ}

theorem pure (a : α) : Respects f (pure a : EStateM ε σ α) := by
  intro s s' h
  simp [through, h]

theorem throw (e : ε) : Respects f (throw e : EStateM ε σ α) := by
  intro s s' h
  simp [through, h]

theorem modify {g : σ → σ} (hg : ∀ s s', f s = f s' → f (g s) = f (g s')) :
    Respects f (modify g : EStateM ε σ PUnit) := by
  intro s s' h
  exact congrArg (EStateM.Result.ok PUnit.unit) (hg s s' h)

theorem bind_eq {k : α → EStateM ε σ β} (hk : ∀ a, Respects f (k a)) {x x' : EStateM ε σ α}
    {s s' : σ} (h : through f (x s) = through f (x' s')) :
    through f ((x >>= k) s) = through f ((x' >>= k) s') := Agree.bind_eq hk h

theorem bind {x : EStateM ε σ α} {k : α → EStateM ε σ β} (hx : Respects f x)
    (hk : ∀ a, Respects f (k a)) : Respects f (x >>= k) :=
  fun s s' h => bind_eq hk (hx s s' h)

/-- What is read of the state is what `f` keeps. -/
theorem get_bind {k : σ → EStateM ε σ α} (hk : ∀ s, Respects f (k s))
    (hread : ∀ s s', f s = f s' → k s = k s') : Respects f (get >>= k) := by
  intro s s' h
  rw [bind_get_run, bind_get_run, hread s s' h]
  exact hk s' s s' h

end Respects

/-! ## Two programs -/

namespace Agree

variable {f : σ → τ}

theorem bind {x x' : EStateM ε σ α} {k k' : α → EStateM ε σ β} (hx : Agree f x x')
    (hk : ∀ a, Agree f (k a) (k' a)) : Agree f (x >>= k) (x' >>= k') :=
  fun s s' h => bind_eq hk (hx s s' h)

/-- Each reads what it likes of its state, and they go on to agree. -/
theorem get_bind {k k' : σ → EStateM ε σ α} (hk : ∀ s s', f s = f s' → Agree f (k s) (k' s')) :
    Agree f (get >>= k) (get >>= k') := by
  intro s s' h
  rw [bind_get_run, bind_get_run]
  exact hk s s' h s s' h

/-- Loops over lists with the same images, where the rounds of elements with one image agree. -/
theorem forM {γ : Type} {h : α → γ} {g : α → EStateM ε σ PUnit} :
    ∀ {l l' : List α}, l.map h = l'.map h → (∀ a b, h a = h b → Agree f (g a) (g b)) →
      Agree f (forM l g) (forM l' g)
  | [], [], _, _ => Respects.pure _
  | a :: l, b :: l', hl, hg => by
    obtain ⟨hab, hll⟩ := List.cons.inj hl
    rw [List.forM_cons, List.forM_cons]
    exact bind (hg a b hab) fun _ => forM hll hg

end Agree

end Effect
