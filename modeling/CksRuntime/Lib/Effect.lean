import Mathlib.Logic.Relation

/-!
# State and exceptions

A call into an imperative object returns or raises, and the state it had changed by then stays
changed either way: `EStateM ε σ`. The program constructors run (`bind_get_run`, …), a bind
inverted (`bind_eq_ok`, `bind_eq_error`), and the loop that raises (`forM_eq_error`).
-/

set_option autoImplicit false

namespace Effect

variable {ε σ α β : Type}

/-- The state a call leaves, whether it returned or raised. -/
def stateOf : EStateM.Result ε σ α → σ
  | .ok _ s => s
  | .error _ s => s

@[simp] theorem stateOf_ok (a : α) (s : σ) : stateOf (.ok a s : EStateM.Result ε σ α) = s := rfl

@[simp] theorem stateOf_error (e : ε) (s : σ) :
    stateOf (.error e s : EStateM.Result ε σ α) = s := rfl

/-- Whether a call returned. -/
def returned : EStateM.Result ε σ α → Bool
  | .ok _ _ => true
  | .error _ _ => false

/-! ## Running the constructors -/

@[simp] theorem pure_run (a : α) (s : σ) : (pure a : EStateM ε σ α) s = .ok a s := rfl

@[simp] theorem throw_run (e : ε) (s : σ) : (throw e : EStateM ε σ α) s = .error e s := rfl

@[simp] theorem get_run (s : σ) : (get : EStateM ε σ σ) s = .ok s s := rfl

@[simp] theorem modify_run (f : σ → σ) (s : σ) :
    (modify f : EStateM ε σ PUnit) s = .ok ⟨⟩ (f s) := rfl

theorem bind_run (x : EStateM ε σ α) (f : α → EStateM ε σ β) (s : σ) :
    (x >>= f) s = match x s with
      | .ok a s' => f a s'
      | .error e s' => .error e s' := rfl

@[simp] theorem bind_pure_run (a : α) (f : α → EStateM ε σ β) (s : σ) :
    (pure a >>= f) s = f a s := rfl

@[simp] theorem bind_throw_run (e : ε) (f : α → EStateM ε σ β) (s : σ) :
    ((throw e : EStateM ε σ α) >>= f) s = .error e s := rfl

@[simp] theorem bind_get_run (f : σ → EStateM ε σ β) (s : σ) : (get >>= f) s = f s s := rfl

@[simp] theorem bind_modify_run (g : σ → σ) (f : PUnit → EStateM ε σ β) (s : σ) :
    (modify g >>= f) s = f ⟨⟩ (g s) := rfl

theorem tryCatch_run (x : EStateM ε σ α) (f : ε → EStateM ε σ α) (s : σ) :
    (tryCatch x f : EStateM ε σ α) s = match x s with
      | .ok a s' => .ok a s'
      | .error e s' => f e s' := by
  change EStateM.tryCatch x f s = _
  unfold EStateM.tryCatch
  cases x s <;> rfl

theorem bind_eq_ok {x : EStateM ε σ α} {f : α → EStateM ε σ β} {s s' : σ} {b : β} :
    (x >>= f) s = .ok b s' ↔ ∃ a s₁, x s = .ok a s₁ ∧ f a s₁ = .ok b s' := by
  rw [bind_run]
  cases x s <;> simp [and_assoc]

theorem bind_eq_error {x : EStateM ε σ α} {f : α → EStateM ε σ β} {s s' : σ} {e : ε} :
    (x >>= f) s = .error e s' ↔
      x s = .error e s' ∨ ∃ a s₁, x s = .ok a s₁ ∧ f a s₁ = .error e s' := by
  rw [bind_run]
  cases x s <;> simp [and_assoc]

theorem bind_of_ok {x : EStateM ε σ α} {s s₁ : σ} {a : α} (h : x s = .ok a s₁)
    (f : α → EStateM ε σ β) : (x >>= f) s = f a s₁ := by rw [bind_run, h]

theorem bind_of_error {x : EStateM ε σ α} {s s₁ : σ} {e : ε} (h : x s = .error e s₁)
    (f : α → EStateM ε σ β) : (x >>= f) s = .error e s₁ := by rw [bind_run, h]

theorem stateOf_bind_pure_comp (x : EStateM ε σ α) (g : α → β) (s : σ) :
    stateOf ((x >>= fun a => pure (g a)) s) = stateOf (x s) := by
  rw [bind_run]
  cases x s <;> rfl

theorem stateOf_bind_pure (x : EStateM ε σ α) (b : β) (s : σ) :
    stateOf ((x >>= fun _ => pure b) s) = stateOf (x s) := by
  rw [bind_run]
  cases x s <;> rfl

/-- `x`, and then `restore`, whether `x` returned or raised. -/
def finallyDo (x : EStateM ε σ α) (restore : σ → σ) : EStateM ε σ α := fun s =>
  match x s with
  | .ok a s' => .ok a (restore s')
  | .error e s' => .error e (restore s')

/-! ## Loops -/

/-- A loop that raises raises in one of its rounds, the earlier ones having returned. -/
theorem forM_eq_error {f : α → EStateM ε σ PUnit} {s s' : σ} {e : ε} :
    ∀ {l : List α}, forM l f s = .error e s' →
      ∃ pre x post s₁, l = pre ++ x :: post ∧ forM pre f s = .ok ⟨⟩ s₁ ∧ f x s₁ = .error e s'
  | [], h => by cases h
  | a :: l, h => by
    rw [List.forM_cons, bind_eq_error] at h
    obtain h | ⟨u, s₁, ha, hl⟩ := h
    · exact ⟨[], a, l, s, rfl, rfl, h⟩
    · obtain ⟨pre, x, post, s₂, rfl, hpre, hx⟩ := forM_eq_error hl
      refine ⟨a :: pre, x, post, s₂, rfl, ?_, hx⟩
      rw [List.forM_cons, bind_of_ok ha, hpre]

/-- A `mapM` that returns: so did the call of every element. -/
theorem ok_of_mapM_eq_ok {f : α → Except ε β} : ∀ {l : List α} {ys : List β},
    l.mapM f = .ok ys → ∀ x ∈ l, ∃ y, f x = .ok y
  | a :: l, ys, h, x, hx => by
    rw [List.mapM_cons] at h
    cases ha : f a with
    | error e =>
      rw [ha] at h
      cases h
    | ok y =>
      cases hl : l.mapM f with
      | error e =>
        rw [ha, hl] at h
        cases h
      | ok zs =>
        rcases List.mem_cons.1 hx with rfl | hx
        · exact ⟨y, ha⟩
        · exact ok_of_mapM_eq_ok hl x hx

/-- One that raises: so did the call of an element. -/
theorem error_of_mapM_eq_error {f : α → Except ε β} {e : ε} : ∀ {l : List α},
    l.mapM f = .error e → ∃ x ∈ l, f x = .error e
  | a :: l, h => by
    rw [List.mapM_cons] at h
    cases ha : f a with
    | error e' =>
      rw [ha] at h
      cases h
      exact ⟨a, List.mem_cons_self, ha⟩
    | ok y =>
      cases hl : l.mapM f with
      | error e' =>
        rw [ha, hl] at h
        cases h
        obtain ⟨x, hx, hfx⟩ := error_of_mapM_eq_error hl
        exact ⟨x, List.mem_cons_of_mem _ hx, hfx⟩
      | ok ys =>
        rw [ha, hl] at h
        cases h

/-- A fold that returns goes through a state after each element. -/
theorem foldlM_cons_eq_ok {f : β → α → Except ε β} {a : α} {l : List α} {s t : β} :
    (a :: l).foldlM f s = .ok t ↔ ∃ u, f s a = .ok u ∧ l.foldlM f u = .ok t := by
  rw [List.foldlM_cons]
  cases ha : f s a with
  | error e =>
    refine iff_of_false (fun h => by cases h) ?_
    rintro ⟨u, hu, -⟩
    cases hu
  | ok u =>
    refine ⟨fun h => ⟨u, rfl, h⟩, ?_⟩
    rintro ⟨u', hu, h⟩
    cases hu
    exact h

theorem foldlM_append_eq_ok {f : β → α → Except ε β} {l l' : List α} {s t : β} :
    (l ++ l').foldlM f s = .ok t ↔ ∃ u, l.foldlM f s = .ok u ∧ l'.foldlM f u = .ok t := by
  rw [List.foldlM_append]
  cases hl : l.foldlM f s with
  | error e =>
    refine iff_of_false (fun h => by cases h) ?_
    rintro ⟨u, hu, -⟩
    cases hu
  | ok u =>
    refine ⟨fun h => ⟨u, rfl, h⟩, ?_⟩
    rintro ⟨u', hu, h⟩
    cases hu
    exact h

/-! ## Postconditions -/

/-- What a call that returns returns and leaves, and what one that raises leaves. -/
def Post (Q : α → σ → Prop) (E : σ → Prop) : EStateM.Result ε σ α → Prop
  | .ok a s => Q a s
  | .error _ s => E s

theorem Post.bind {Q : α → σ → Prop} {R : β → σ → Prop} {E : σ → Prop} {x : EStateM ε σ α}
    {f : α → EStateM ε σ β} {s : σ} (hx : Post Q E (x s))
    (hf : ∀ a s', Q a s' → Post R E (f a s')) : Post R E ((x >>= f) s) := by
  rw [bind_run]
  cases h : x s with
  | ok a s' =>
    rw [h] at hx
    exact hf a s' hx
  | error e s' =>
    rw [h] at hx
    exact hx

theorem Post.mono {Q R : α → σ → Prop} {E F : σ → Prop} {r : EStateM.Result ε σ α}
    (hr : Post Q E r) (hq : ∀ a s, Q a s → R a s) (he : ∀ s, E s → F s) : Post R F r := by
  cases r with
  | ok a s => exact hq a s hr
  | error e s => exact he s hr

theorem Post.tryCatch {Q : α → σ → Prop} {E F : σ → Prop} {x : EStateM ε σ α}
    {f : ε → EStateM ε σ α} {s : σ} (hx : Post Q E (x s)) (hf : ∀ e s', E s' → Post Q F (f e s')) :
    Post Q F ((MonadExcept.tryCatch x f : EStateM ε σ α) s) := by
  have hrun := tryCatch_run x f s
  cases h : x s with
  | ok a s' =>
    rw [h] at hx hrun
    exact hrun ▸ hx
  | error e s' =>
    rw [h] at hx hrun
    exact hrun ▸ hf e s' hx

theorem Post.finallyDo {Q R : α → σ → Prop} {E F : σ → Prop} {x : EStateM ε σ α} {restore : σ → σ}
    {s : σ} (hx : Post Q E (x s)) (hq : ∀ a s', Q a s' → R a (restore s'))
    (he : ∀ s', E s' → F (restore s')) : Post R F (finallyDo x restore s) := by
  unfold Effect.finallyDo
  cases h : x s with
  | ok a s' =>
    rw [h] at hx
    exact hq a s' hx
  | error e s' =>
    rw [h] at hx
    exact he s' hx

/-- What every round of a loop keeps holds when the loop ends. -/
theorem Post.foldlM {f : β → α → EStateM ε σ β} {I : β → σ → Prop} {E : σ → Prop} {l : List α}
    (hf : ∀ b s, ∀ a ∈ l, I b s → Post I E (f b a s)) {b : β} {s : σ} (h : I b s) :
    Post I E (l.foldlM f b s) := by
  induction l generalizing b s with
  | nil => exact h
  | cons a l ih =>
    rw [List.foldlM_cons]
    refine Post.bind (hf b s a List.mem_cons_self h) fun b' s' h' => ?_
    exact ih (fun b s a ha => hf b s a (List.mem_cons_of_mem _ ha)) h'

/-! ## Loops over entries that may not be readable -/

/-- Each entry is read and put, until the reading of one raises. -/
def putAll (put : σ → α → σ) (entries : List (Except ε α)) : EStateM ε σ PUnit :=
  forM entries fun entry =>
    match entry with
    | .ok a => modify fun s => put s a
    | .error e => throw e

/-- What is read before the first entry that raises. -/
def readable : List (Except ε α) → List α
  | .ok a :: entries => a :: readable entries
  | .error _ :: _ => []
  | [] => []

theorem ok_of_mem_readable {a : α} : ∀ {entries : List (Except ε α)},
    a ∈ readable entries → .ok a ∈ entries
  | .ok b :: entries, h => by
    rcases List.mem_cons.1 h with rfl | h
    · exact List.mem_cons_self
    · exact List.mem_cons_of_mem _ (ok_of_mem_readable h)

/-- What the first entry that raises raises. -/
def firstError : List (Except ε α) → Option ε
  | .ok _ :: entries => firstError entries
  | .error e :: _ => some e
  | [] => none

theorem firstError_ne_none_iff {entries : List (Except ε α)} :
    firstError entries ≠ none ↔ ∃ e, .error e ∈ entries := by
  induction entries with
  | nil => simp [firstError]
  | cons entry entries ih =>
    cases entry with
    | ok a => simpa [firstError] using ih
    | error e => simp [firstError]

theorem firstError_map_ok (rows : List α) :
    firstError (rows.map fun a => (.ok a : Except ε α)) = none := by
  induction rows with
  | nil => rfl
  | cons a rows ih => exact ih

theorem readable_map_ok (rows : List α) :
    readable (rows.map fun a => (.ok a : Except ε α)) = rows := by
  induction rows with
  | nil => rfl
  | cons a rows ih => exact congrArg (a :: ·) ih

/-- What a loop gets to that ends with the first element that stops it. -/
def Reached (stops : α → Prop) (l : List α) (a : α) : Prop :=
  ∃ pre post, l = pre ++ a :: post ∧ ∀ b ∈ pre, ¬stops b

theorem Reached.mem {stops : α → Prop} {l : List α} {a : α} (h : Reached stops l a) : a ∈ l := by
  obtain ⟨pre, post, rfl, -⟩ := h
  simp

@[simp] theorem reached_nil {stops : α → Prop} {a : α} : ¬Reached stops [] a := by
  intro h
  cases h.mem

theorem reached_cons {stops : α → Prop} {l : List α} {a b : α} :
    Reached stops (b :: l) a ↔ a = b ∨ ¬stops b ∧ Reached stops l a := by
  constructor
  · intro h
    obtain ⟨pre, post, hl, hpre⟩ := h
    cases pre with
    | nil =>
      cases hl
      exact .inl rfl
    | cons b' pre =>
      cases hl
      exact .inr ⟨hpre _ List.mem_cons_self, pre, post, rfl,
        fun c hc => hpre c (List.mem_cons_of_mem _ hc)⟩
  · intro h
    rcases h with h | ⟨hb, pre, post, hl, hpre⟩
    · subst h
      exact ⟨[], l, rfl, by simp⟩
    · subst hl
      refine ⟨b :: pre, post, rfl, fun c hc => ?_⟩
      rcases List.mem_cons.1 hc with hc | hc
      · rw [hc]
        exact hb
      · exact hpre c hc

/-- Where nothing stops the loop it gets to everything. -/
theorem reached_iff_mem {stops : α → Prop} {l : List α} {a : α} (h : ∀ b ∈ l, ¬stops b) :
    Reached stops l a ↔ a ∈ l := by
  refine ⟨Reached.mem, fun ha => ?_⟩
  obtain ⟨pre, post, rfl⟩ := List.append_of_mem ha
  exact ⟨pre, post, rfl, fun b hb => h b (List.mem_append_left _ hb)⟩

theorem mem_readable_filterMap {f : β → Option (Except ε α)} {l : List β} {a : α} :
    a ∈ readable (l.filterMap f) ↔
      ∃ b, Reached (fun b => ∃ e, f b = some (.error e)) l b ∧ f b = some (.ok a) := by
  induction l with
  | nil => simp [readable]
  | cons b l ih =>
    simp only [reached_cons, or_and_right, exists_or, exists_eq_left]
    cases hb : f b with
    | none =>
      rw [List.filterMap_cons_none hb, ih]
      simp
    | some x =>
      rw [List.filterMap_cons_some hb]
      cases x with
      | ok a' => simp [readable, ih, eq_comm]
      | error e => simp [readable]

theorem firstError_filterMap {f : β → Option (Except ε α)} {l : List β} :
    firstError (l.filterMap f) ≠ none ↔ ∃ b ∈ l, ∃ e, f b = some (.error e) := by
  rw [firstError_ne_none_iff]
  simp only [List.mem_filterMap]
  constructor
  · intro h
    obtain ⟨e, b, hb, hf⟩ := h
    exact ⟨b, hb, e, hf⟩
  · intro h
    obtain ⟨b, hb, e, hf⟩ := h
    exact ⟨e, b, hb, hf⟩

/-- A call that leaves `s`, and raises if there is something to raise. -/
def outcome (raised : Option ε) (s : σ) : EStateM.Result ε σ PUnit :=
  match raised with
  | none => .ok ⟨⟩ s
  | some e => .error e s

@[simp] theorem stateOf_outcome (raised : Option ε) (s : σ) : stateOf (outcome raised s) = s := by
  cases raised <;> rfl

theorem putAll_run (put : σ → α → σ) (entries : List (Except ε α)) (s : σ) :
    putAll put entries s = outcome (firstError entries) ((readable entries).foldl put s) := by
  induction entries generalizing s with
  | nil => rfl
  | cons entry entries ih =>
    cases entry with
    | ok a => exact ih (put s a)
    | error e => rfl

theorem bind_of_outcome {x : EStateM ε σ PUnit} {s s' : σ} {raised : Option ε}
    (h : x s = outcome raised s') (f : PUnit → EStateM ε σ PUnit) :
    (x >>= f) s = raised.elim (f ⟨⟩ s') fun e => .error e s' := by
  cases raised with
  | none => exact bind_of_ok h f
  | some e => exact bind_of_error h f

end Effect
