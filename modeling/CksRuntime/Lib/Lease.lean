import Mathlib.Data.List.Basic

/-!
# The life of a leased item

An item is handed out under a lease, which a touch renews and which runs out `timeout` after the
last renewal, or for good (`drain`). `Life.after` is what a history makes of an item, and `none` if
the history cannot have happened; the other results are what a history that can have happened shows
(`Exclusive`).
-/

set_option autoImplicit false

namespace Lease

/-- What happens to an item. -/
inductive Event
  | create
  | handOut
  | drain
  | touch
  | fail
  | kill
  | revive
  | finish
deriving DecidableEq

/-- Where an item is. -/
inductive Life
  | absent
  | waiting
  | held (since : Nat)
  | dead
  | gone
deriving DecidableEq

/-- What happened to an item, and when; the latest is last. -/
abbrev History := List (Event × Nat)

/-- Somebody is given the item. -/
def Event.IsHandOut (e : Event) : Prop := e = .handOut ∨ e = .drain

instance (e : Event) : Decidable e.IsHandOut := inferInstanceAs (Decidable (_ ∨ _))

namespace Life

/-- Where an event, at its time, takes an item; none where it cannot happen. -/
def next (timeout : Nat) (life : Life) (x : Event × Nat) : Option Life :=
  match life, x.1 with
  | .absent, .create => some .waiting
  | .waiting, .handOut => some (.held x.2)
  | .waiting, .drain => some .gone
  | .held since, .handOut => if since + timeout ≤ x.2 then some (.held x.2) else none
  | .held since, .touch => if since ≤ x.2 then some (.held x.2) else none
  | .waiting, .fail | .held _, .fail => some .waiting
  | .waiting, .kill | .held _, .kill | .dead, .kill => some .dead
  | .dead, .revive => some .waiting
  | .waiting, .finish | .held _, .finish | .dead, .finish => some .gone
  | _, _ => none

/-- Where a history has taken an item. -/
def after (timeout : Nat) (life : Life) (h : History) : Option Life := h.foldlM (next timeout) life

/-- What can happen in a life. -/
inductive Moves (timeout t : Nat) : Life → Event → Life → Prop
  | create : Moves timeout t .absent .create .waiting
  | handOut : Moves timeout t .waiting .handOut (.held t)
  | drain : Moves timeout t .waiting .drain .gone
  | handOn {since : Nat} : since + timeout ≤ t → Moves timeout t (.held since) .handOut (.held t)
  | touch {since : Nat} : since ≤ t → Moves timeout t (.held since) .touch (.held t)
  | fail {life : Life} : life ≠ .absent → life ≠ .gone → life ≠ .dead →
      Moves timeout t life .fail .waiting
  | kill {life : Life} : life ≠ .absent → life ≠ .gone → Moves timeout t life .kill .dead
  | revive : Moves timeout t .dead .revive .waiting
  | finish {life : Life} : life ≠ .absent → life ≠ .gone → Moves timeout t life .finish .gone

theorem moves_of_next {timeout t : Nat} {life life' : Life} {e : Event}
    (hx : life.next timeout (e, t) = some life') : life.Moves timeout t e life' := by
  cases life with
  | held since =>
    cases e with
    | handOut =>
      obtain ⟨ht, hlife⟩ := Option.ite_none_right_eq_some.1 hx
      obtain rfl := Option.some.inj hlife
      exact .handOn ht
    | touch =>
      obtain ⟨ht, hlife⟩ := Option.ite_none_right_eq_some.1 hx
      obtain rfl := Option.some.inj hlife
      exact .touch ht
    | _ => cases hx <;> constructor <;> simp
  | _ => cases e <;> cases hx <;> constructor <;> simp

end Life

/-- Nothing is handed out that is not free to be. -/
structure Exclusive (timeout : Nat) (h : History) : Prop where
  /-- Between two hand-outs the item failed or was revived, or its lease ran out untouched. -/
  between : ∀ pre mid post e₁ t₁ e₂ t₂, h = pre ++ (e₁, t₁) :: (mid ++ (e₂, t₂) :: post) →
    e₁.IsHandOut → e₂.IsHandOut → (∃ x ∈ mid, x.1 = .fail ∨ x.1 = .revive) ∨
      t₁ + timeout ≤ t₂ ∧ ∀ t, (Event.touch, t) ∈ mid → t + timeout ≤ t₂
  ended : ∀ pre post e t, h = pre ++ (e, t) :: post → e = .finish ∨ e = .drain →
    ∀ x ∈ post, ¬x.1.IsHandOut
  dead : ∀ pre mid post t e t', h = pre ++ (Event.kill, t) :: (mid ++ (e, t') :: post) →
    e.IsHandOut → ∃ x ∈ mid, x.1 = .revive

section
variable {timeout : Nat} {life life' : Life} {h h' : History} {x : Event × Nat}

@[simp] theorem after_nil : life.after timeout [] = some life := rfl

theorem after_append :
    life.after timeout (h ++ h') = (life.after timeout h).bind (·.after timeout h') := by
  simp only [Life.after, List.foldlM_append]
  rfl

theorem after_cons (hx : life.after timeout (x :: h) = some life') :
    ∃ l, life.next timeout x = some l ∧ l.after timeout h = some life' := by
  have hbind : (life.next timeout x).bind (·.after timeout h) = some life' := hx
  exact Option.bind_eq_some_iff.1 hbind

/-- A history goes through a life at each of its points. -/
theorem after_split (hh : life.after timeout (h ++ x :: h') = some life') : ∃ l l',
    life.after timeout h = some l ∧ l.next timeout x = some l' ∧
      l'.after timeout h' = some life' := by
  rw [after_append] at hh
  obtain ⟨l, hl, hrest⟩ := Option.bind_eq_some_iff.1 hh
  obtain ⟨l', hx, hl'⟩ := after_cons hrest
  exact ⟨l, l', hl, hx, hl'⟩

/-- An item that is gone is not heard of again. -/
theorem after_gone (hh : Life.gone.after timeout h = some life) : h = [] := by
  cases h with
  | nil => rfl
  | cons x h =>
    obtain ⟨l, hx, -⟩ := after_cons hh
    obtain ⟨e, t⟩ := x
    cases Life.moves_of_next hx with
    | fail _ hgone => exact absurd rfl hgone
    | kill _ hgone => exact absurd rfl hgone
    | finish _ hgone => exact absurd rfl hgone

theorem after_dead (hh : Life.dead.after timeout h = some life)
    (hrevive : ∀ x ∈ h, x.1 ≠ .revive) : life = .dead ∨ life = .gone := by
  induction h with
  | nil => exact .inl (Option.some.inj hh).symm
  | cons x h ih =>
    obtain ⟨l, hx, hl⟩ := after_cons hh
    have hne := hrevive x List.mem_cons_self
    have hrest : ∀ y ∈ h, y.1 ≠ .revive := fun y hy => hrevive y (List.mem_cons_of_mem _ hy)
    obtain ⟨e, t⟩ := x
    cases Life.moves_of_next hx with
    | kill => exact ih hl hrest
    | finish =>
      rw [after_gone hl] at hl
      exact .inr (Option.some.inj hl).symm
    | revive => exact absurd rfl hne
    | fail _ _ hdead => exact absurd rfl hdead

theorem next_handOut (hx : life.next timeout x = some life') (he : x.1.IsHandOut) :
    life ≠ .dead ∧ life ≠ .gone := by
  obtain ⟨e, t⟩ := x
  cases Life.moves_of_next hx with
  | handOut => simp
  | drain => simp
  | handOn => simp
  | _ => simp [Event.IsHandOut] at he

theorem next_end (hx : life.next timeout x = some life') (he : x.1 = .finish ∨ x.1 = .drain) :
    life' = .gone := by
  obtain ⟨e, t⟩ := x
  cases Life.moves_of_next hx with
  | drain => rfl
  | finish => rfl
  | _ => simp at he

theorem next_kill (hx : life.next timeout x = some life') (he : x.1 = .kill) : life' = .dead := by
  obtain ⟨e, t⟩ := x
  cases Life.moves_of_next hx with
  | kill => rfl
  | _ => cases he

theorem next_lease {t : Nat} (hx : life.next timeout (.handOut, t) = some life') :
    life' = .held t := by
  cases Life.moves_of_next hx with
  | handOut => rfl
  | handOn => rfl

/-- Without a failure a held item stays held, from its last renewal. -/
theorem after_held {since : Nat} (hh : (Life.held since).after timeout h = some life)
    (hfree : ∀ x ∈ h, x.1 ≠ .fail ∧ x.1 ≠ .revive) : life = .dead ∨ life = .gone ∨
      ∃ since', life = .held since' ∧ since ≤ since' ∧
        ∀ t, (Event.touch, t) ∈ h → t ≤ since' := by
  induction h generalizing since with
  | nil => exact .inr (.inr ⟨since, (Option.some.inj hh).symm, Nat.le_refl _, by simp⟩)
  | cons x h ih =>
    obtain ⟨l, hx, hl⟩ := after_cons hh
    have hne := hfree x List.mem_cons_self
    have hrest : ∀ y ∈ h, y.1 ≠ .fail ∧ y.1 ≠ .revive := fun y hy =>
      hfree y (List.mem_cons_of_mem _ hy)
    -- a renewal moves `since` forward
    have hrenew : ∀ t, since ≤ t → l = .held t → life = .dead ∨ life = .gone ∨
        ∃ since', life = .held since' ∧ since ≤ since' ∧
          ∀ u, (Event.touch, u) ∈ (x.1, t) :: h → u ≤ since' := by
      intro t ht heq
      subst heq
      obtain hlife | hlife | ⟨since', hlife, hle, htouch⟩ := ih hl hrest
      · exact .inl hlife
      · exact .inr (.inl hlife)
      · refine .inr (.inr ⟨since', hlife, by omega, ?_⟩)
        intro u hu
        obtain hu | hu := List.mem_cons.1 hu
        · have : u = t := (Prod.mk.inj hu).2
          omega
        · exact htouch u hu
    obtain ⟨e, t⟩ := x
    cases Life.moves_of_next hx with
    | handOn ht => exact hrenew t (by omega) rfl
    | touch ht => exact hrenew t ht rfl
    | kill =>
      obtain hdead | hgone := after_dead hl fun y hy => (hrest y hy).2
      · exact .inl hdead
      · exact .inr (.inl hgone)
    | finish =>
      rw [after_gone hl] at hl
      exact .inr (.inl (Option.some.inj hl).symm)
    | fail => exact absurd rfl hne.1

theorem between_of_life (hh : life.after timeout h = some life') {pre mid post : History}
    {e₁ e₂ : Event} {t₁ t₂ : Nat} (hsplit : h = pre ++ (e₁, t₁) :: (mid ++ (e₂, t₂) :: post))
    (he₁ : e₁.IsHandOut) (he₂ : e₂.IsHandOut) :
    (∃ x ∈ mid, x.1 = .fail ∨ x.1 = .revive) ∨
      t₁ + timeout ≤ t₂ ∧ ∀ t, (Event.touch, t) ∈ mid → t + timeout ≤ t₂ := by
  by_cases hfree : ∃ x ∈ mid, x.1 = .fail ∨ x.1 = .revive
  · exact .inl hfree
  · right
    simp only [not_exists, not_and, not_or] at hfree
    subst hsplit
    obtain ⟨l, l₁, -, hx₁, hrest⟩ := after_split hh
    obtain ⟨l₂, l₃, hmid, hx₂, -⟩ := after_split hrest
    obtain rfl | rfl := he₁
    · -- handed out under a lease from `t₁`
      obtain rfl := next_lease hx₁
      obtain hdead | hgone | ⟨since', hlife, hle, htouch⟩ := after_held hmid hfree
      · exact absurd hdead (next_handOut hx₂ he₂).1
      · exact absurd hgone (next_handOut hx₂ he₂).2
      · subst hlife
        have hexpired : since' + timeout ≤ t₂ := by
          cases Life.moves_of_next hx₂ with
          | handOn ht => exact ht
          | _ => simp [Event.IsHandOut] at he₂
        refine ⟨by omega, fun t ht => ?_⟩
        have := htouch t ht
        omega
    · -- drained, so gone
      obtain rfl := next_end hx₁ (.inr rfl)
      have hnil := after_gone hrest
      simp at hnil

/-- A history that can have happened hands nothing out that is not free to be. -/
theorem exclusive_of_life (hh : life.after timeout h = some life') : Exclusive timeout h where
  between _ _ _ _ _ _ _ hsplit he₁ he₂ := between_of_life hh hsplit he₁ he₂
  ended pre post e t hsplit he := by
    subst hsplit
    obtain ⟨l, l', -, hx, hrest⟩ := after_split hh
    obtain rfl := next_end hx he
    rw [after_gone hrest]
    simp
  dead pre mid post t e t' hsplit he := by
    by_contra hrevive
    simp only [not_exists, not_and] at hrevive
    subst hsplit
    obtain ⟨l, l', -, hx, hrest⟩ := after_split hh
    obtain rfl := next_kill hx rfl
    obtain ⟨l₂, l₃, hmid, hx₂, -⟩ := after_split hrest
    obtain h₂ | h₂ := after_dead hmid hrevive
    · exact (next_handOut hx₂ he).1 h₂
    · exact (next_handOut hx₂ he).2 h₂

end

end Lease
