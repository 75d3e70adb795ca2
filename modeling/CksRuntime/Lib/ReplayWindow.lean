import Mathlib.Algebra.Order.Group.Int
import Mathlib.Data.Int.Interval
import Mathlib.Data.Finset.Card
import Mathlib.Order.Bounds.Basic

/-!
# Replay windows

Numbers that may arrive out of order, each to be let in at most once. The reference remembers all
it has let in (`Fresh`); a window remembers the greatest, and of the others those that are less than
`width` behind it. `Tracks` relates the two: a window admits what the reference does
(`Tracks.admits_iff`), stays related when it does (`Tracks.push`), and is no larger than it is wide
(`Tracks.length_le`).
-/

set_option autoImplicit false

namespace ReplayWindow

variable {α : Type} [AddCommGroup α] [LinearOrder α]

/-- Never let in, and less than `width` behind everything that was. -/
def Fresh (width : α) (accepted : List α) (n : α) : Prop :=
  n ∉ accepted ∧ ∀ m ∈ accepted, m - width < n

/-- The highest number accepted, and those remembered. -/
structure Window (α : Type) where
  high : Option α := none
  seen : List α := []

namespace Window

/-- A number is neither too old nor seen. -/
def Admits (width : α) (w : Window α) (n : α) : Prop :=
  (∀ m ∈ w.high, m - width < n) ∧ n ∉ w.seen

/-- The greatest number with `n` among them. -/
def raise (w : Window α) (n : α) : α := w.high.elim n (max n)

/-- `n` is let in, and what has fallen behind is forgotten. -/
def push (width : α) (w : Window α) (n : α) : Window α :=
  ⟨some (w.raise n), (w.seen ++ [n]).filter fun m => w.raise n - width < m⟩

end Window

/-- The window of a history. -/
structure Tracks (width : α) (w : Window α) (accepted : List α) : Prop where
  none : w.high = none → accepted = []
  greatest : ∀ m ∈ w.high, IsGreatest {n | n ∈ accepted} m
  seen : ∀ n, n ∈ w.seen ↔ n ∈ accepted ∧ ∀ m ∈ w.high, m - width < n
  nodup : w.seen.Nodup

variable {width : α} {w : Window α} {accepted : List α} {n : α}

theorem tracks_empty : Tracks width ({} : Window α) [] where
  none _ := rfl
  greatest := by simp
  seen := by simp
  nodup := List.nodup_nil

theorem Tracks.raise (h : Tracks width w accepted) :
    IsGreatest {m | m ∈ n :: accepted} (w.raise n) := by
  unfold Window.raise
  cases hw : w.high with
  | none => simp [h.none hw, IsGreatest]
  | some top =>
    have htop := h.greatest top hw
    constructor
    · rcases max_choice n top with hmax | hmax
      · simp [hmax]
      · simpa [hmax] using Or.inr htop.1
    · intro m hm
      rcases List.mem_cons.1 hm with rfl | hm
      · exact le_max_left _ _
      · exact (htop.2 hm).trans (le_max_right _ _)

variable [IsOrderedAddMonoid α]

/-- Being ahead of what has fallen behind the greatest is being ahead of what has fallen behind
any. -/
theorem Tracks.forall_high (h : Tracks width w accepted) :
    (∀ m ∈ w.high, m - width < n) ↔ ∀ m ∈ accepted, m - width < n := by
  constructor
  · intro hn m hm
    cases hw : w.high with
    | none => simp [h.none hw] at hm
    | some top =>
      have hle : m ≤ top := (h.greatest top hw).2 hm
      calc m - width ≤ top - width := sub_le_sub_right hle width
        _ < n := hn top hw
  · intro hn m hm
    exact hn m (h.greatest m hm).1

theorem Tracks.admits_iff (h : Tracks width w accepted) :
    w.Admits width n ↔ Fresh width accepted n := by
  unfold Window.Admits Fresh
  rw [h.seen, h.forall_high]
  tauto

/-- What is forgotten had fallen behind the greatest already, or has now. -/
theorem Tracks.push (h : Tracks width w accepted) (hn : Fresh width accepted n) :
    Tracks width (w.push width n) (n :: accepted) where
  none hw := by simp [Window.push] at hw
  greatest m hm := by
    simp only [Window.push, Option.mem_some_iff] at hm
    exact hm ▸ h.raise
  seen m := by
    simp only [Window.push, List.mem_filter, List.mem_append, List.mem_cons,
      List.not_mem_nil, or_false, h.seen, Option.mem_some_iff, forall_eq', decide_eq_true_eq]
    constructor
    · rintro ⟨⟨hm, -⟩ | rfl, hlt⟩
      · exact ⟨.inr hm, hlt⟩
      · exact ⟨.inl rfl, hlt⟩
    · rintro ⟨rfl | hm, hlt⟩
      · exact ⟨.inr rfl, hlt⟩
      · refine ⟨.inl ⟨hm, fun top htop => ?_⟩, hlt⟩
        have hle : top ≤ w.raise n := h.raise.2 (List.mem_cons_of_mem n (h.greatest top htop).1)
        exact (sub_le_sub_right hle width).trans_lt hlt
  nodup := by
    refine List.Nodup.filter _ (List.nodup_append.2 ⟨h.nodup, List.nodup_singleton n, ?_⟩)
    rintro m hm _ hn' rfl
    rw [List.mem_singleton] at hn'
    exact hn.1 (hn' ▸ ((h.seen m).1 hm).1)

/-- A window holds no more numbers than it is wide. -/
theorem Tracks.length_le {width : ℤ} {w : Window ℤ} {accepted : List ℤ}
    (h : Tracks width w accepted) (hwidth : 0 ≤ width) : (w.seen.length : ℤ) ≤ width := by
  cases hw : w.high with
  | none =>
    have hseen : w.seen = [] := List.eq_nil_iff_forall_not_mem.2 fun n hn => by
      simpa [h.none hw] using ((h.seen n).1 hn).1
    simpa [hseen] using hwidth
  | some top =>
    have hsub : w.seen.toFinset ⊆ Finset.Ioc (top - width) top := by
      intro n hn
      obtain ⟨hmem, hlt⟩ := (h.seen n).1 (List.mem_toFinset.1 hn)
      exact Finset.mem_Ioc.2 ⟨hlt top hw, (h.greatest top hw).2 hmem⟩
    have hcard := Finset.card_le_card hsub
    rw [List.toFinset_card_of_nodup h.nodup, Int.card_Ioc] at hcard
    omega

end ReplayWindow
