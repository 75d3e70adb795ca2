import Mathlib.Data.List.Induction
import Mathlib.Data.Set.Finite.List
import Mathlib.Order.Preorder.Finite

/-!
# Multi-value registers

A register holds values under clocks of any preorder. A write under a clock strictly below that of
another value held is refused, any other evicts the values it is not below and keeps what is
incomparable. So the clocks held are an antichain (`Antichain.write`). Deliveries of one set of
writes agree in any order and with any repetition exactly when the set is `Settled`
(`deliver_eq_some_iff`, `settled_of_deliver_eq`); a register collapsed to one value stays so under
replays exactly when what it discarded is strictly below (`replay_iff`). Of writes under one clock
all are refused or the last one goes through (`writeAll_of_not_blocked`).
-/

set_option autoImplicit false

namespace MultiValue

variable {ι γ : Type} [Preorder γ]

/-- Another value held is strictly above. -/
def Blocked (r : ι → Option γ) (x : ι) (c : γ) : Prop := ∃ y d, y ≠ x ∧ r y = some d ∧ c < d

open Classical in
/-- A write is refused by a newer one under another key, and drops what is no newer. -/
noncomputable def write (r : ι → Option γ) (x : ι) (c : γ) : ι → Option γ :=
  if Blocked r x c then r
  else fun y => if y = x then some c else (r y).filter fun d => ¬d ≤ c

variable {r : ι → Option γ} {x y : ι} {c d : γ}

theorem write_of_blocked (h : Blocked r x c) : write r x c = r := if_pos h

theorem write_self (h : ¬Blocked r x c) : write r x c x = some c := by
  rw [write, if_neg h, if_pos rfl]

theorem write_of_ne (h : ¬Blocked r x c) (hne : y ≠ x) :
    write r x c y = some d ↔ r y = some d ∧ ¬d ≤ c := by
  rw [write, if_neg h]
  simp [hne, Option.filter_eq_some_iff]

/-- What a register holds after a write was held before or is the write. -/
theorem eq_or_of_write (h : write r x c y = some d) : r y = some d ∨ y = x ∧ d = c := by
  by_cases hb : Blocked r x c
  · rw [write_of_blocked hb] at h
    exact .inl h
  · by_cases hne : y = x
    · subst hne
      rw [write_self hb, Option.some.injEq] at h
      exact .inr ⟨rfl, h.symm⟩
    · exact .inl ((write_of_ne hb hne).1 h).1

/-! ## The antichain -/

/-- No clock held is below another. -/
def Antichain (r : ι → Option γ) : Prop :=
  ∀ ⦃x y c d⦄, x ≠ y → r x = some c → r y = some d → ¬c ≤ d

theorem antichain_empty : Antichain fun _ : ι => (none : Option γ) := by
  intro x y c d _ hx
  cases hx

theorem Antichain.write (h : Antichain r) : Antichain (write r x c) := by
  by_cases hb : Blocked r x c
  · rwa [write_of_blocked hb]
  intro y z d e hne hy hz
  by_cases hyx : y = x
  · subst hyx
    rw [write_self hb, Option.some.injEq] at hy
    subst hy
    obtain ⟨hz, hnot⟩ := (write_of_ne hb hne.symm).1 hz
    -- what is kept is not below the write, so it would be strictly above
    exact fun hle => hb ⟨z, e, hne.symm, hz, lt_of_le_not_ge hle hnot⟩
  · obtain ⟨hy, hnot⟩ := (write_of_ne hb hyx).1 hy
    by_cases hzx : z = x
    · subst hzx
      rw [write_self hb, Option.some.injEq] at hz
      subst hz
      exact hnot
    · exact h hne hy ((write_of_ne hb hzx).1 hz).1

/-! ## Deliveries of a set of writes -/

/-- What writes leave, in this order. -/
noncomputable def deliver (ws : List (ι × γ)) : ι → Option γ :=
  ws.foldl (fun r w => write r w.1 w.2) fun _ => none

theorem deliver_snoc (ws : List (ι × γ)) (w : ι × γ) :
    deliver (ws ++ [w]) = write (deliver ws) w.1 w.2 := by
  rw [deliver, List.foldl_append]
  rfl

theorem deliver_antichain (ws : List (ι × γ)) : Antichain (deliver ws) := by
  induction ws using List.reverseRecOn with
  | nil => exact antichain_empty
  | append_singleton ws w ih =>
    rw [deliver_snoc]
    exact ih.write

theorem mem_of_deliver {ws : List (ι × γ)} (h : deliver ws x = some c) : (x, c) ∈ ws := by
  induction ws using List.reverseRecOn with
  | nil => cases h
  | append_singleton ws w ih =>
    rw [deliver_snoc] at h
    rcases eq_or_of_write h with h | ⟨rfl, rfl⟩
    · exact List.mem_append_left _ (ih h)
    · exact List.mem_append_right _ List.mem_cons_self

variable {S : Set (ι × γ)}

/-- A write that no write of another id is strictly above. -/
def Top (S : Set (ι × γ)) (w : ι × γ) : Prop :=
  w ∈ S ∧ ∀ v ∈ S, v.1 ≠ w.1 → ¬w.2 < v.2

/-- The top writes are the only ones of their id, and no other id has a write of their clock. -/
def Settled (S : Set (ι × γ)) : Prop :=
  ∀ w, Top S w → ∀ v ∈ S, (v.1 = w.1 → v.2 = w.2) ∧ (v.1 ≠ w.1 → ¬(w.2 ≤ v.2 ∧ v.2 ≤ w.2))

theorem Settled.not_le (h : Settled S) {v w : ι × γ} (hw : Top S w) (hv : v ∈ S)
    (hne : v.1 ≠ w.1) : ¬w.2 ≤ v.2 := by
  intro hle
  by_cases hge : v.2 ≤ w.2
  · exact (h w hw v hv).2 hne ⟨hle, hge⟩
  · exact hw.2 v hv hne (lt_of_le_not_ge hle hge)

/-- Over a finite set, what is not a top write is strictly below one. -/
theorem exists_top (hS : S.Finite) {w : ι × γ} (hw : w ∈ S) (hnot : ¬Top S w) :
    ∃ v, Top S v ∧ w.2 < v.2 := by
  obtain ⟨v, hv, -, hlt⟩ : ∃ v ∈ S, v.1 ≠ w.1 ∧ w.2 < v.2 := by
    by_contra hall
    push Not at hall
    exact hnot ⟨hw, hall⟩
  obtain ⟨m, hle, hmax⟩ := (hS.image Prod.snd).exists_le_maximal (Set.mem_image_of_mem _ hv)
  obtain ⟨u, hu, rfl⟩ := hmax.prop
  refine ⟨u, ⟨hu, fun t ht _ hut => ?_⟩, hlt.trans_le hle⟩
  exact hut.not_ge (hmax.le_of_ge (Set.mem_image_of_mem _ ht) hut.le)

/-- A top write, once delivered, is held for good. -/
theorem deliver_of_top (h : Settled S) {ws : List (ι × γ)} (hws : ∀ w ∈ ws, w ∈ S)
    (htop : Top S (x, c)) (hmem : (x, c) ∈ ws) : deliver ws x = some c := by
  induction ws using List.reverseRecOn with
  | nil => cases hmem
  | append_singleton ws w ih =>
    have hsub : ∀ v ∈ ws, v ∈ S := fun v hv => hws v (List.mem_append_left _ hv)
    have hw : w ∈ S := hws w (List.mem_append_right _ List.mem_cons_self)
    rw [deliver_snoc]
    by_cases hx : w.1 = x
    · -- the only write of its id, and nothing held is above it
      have hc : w.2 = c := (h _ htop w hw).1 hx
      have hb : ¬Blocked (deliver ws) w.1 w.2 := by
        rintro ⟨y, d, hne, hy, hlt⟩
        rw [hc] at hlt
        rw [hx] at hne
        exact htop.2 _ (hsub _ (mem_of_deliver hy)) hne hlt
      rw [← hx, write_self hb, hc]
    · have hold : deliver ws x = some c := by
        refine ih hsub ((List.mem_append.1 hmem).resolve_right fun hin => ?_)
        rw [List.mem_singleton] at hin
        exact hx (by rw [← hin])
      by_cases hb : Blocked (deliver ws) w.1 w.2
      · rwa [write_of_blocked hb]
      · exact (write_of_ne hb fun he => hx he.symm).2 ⟨hold, h.not_le htop hw hx⟩

/-- Of a settled set every delivery leaves the top writes. -/
theorem deliver_eq_some_iff (h : Settled S) {ws : List (ι × γ)} (hws : ∀ w, w ∈ ws ↔ w ∈ S) :
    deliver ws x = some c ↔ Top S (x, c) := by
  have hsub : ∀ w ∈ ws, w ∈ S := fun w => (hws w).1
  have hfin : S.Finite := (List.finite_toSet ws).subset fun w hw => (hws w).2 hw
  constructor
  · intro hheld
    by_contra hnot
    have hmem := hsub _ (mem_of_deliver hheld)
    obtain ⟨v, hv, hlt⟩ := exists_top hfin hmem hnot
    have hvheld : deliver ws v.1 = some v.2 := deliver_of_top h hsub hv ((hws v).2 hv.1)
    by_cases hx : v.1 = x
    · have hc := (h v hv _ hmem).1 hx.symm
      exact hlt.ne hc
    · exact deliver_antichain ws (Ne.symm hx) hheld hvheld hlt.le
  · exact fun htop => deliver_of_top h hsub htop ((hws _).2 htop.1)

/-- Without a write it does not hold, a register does not come to hold it. -/
theorem foldl_write_ne (ws : List (ι × γ)) (hws : (x, c) ∉ ws) :
    ∀ {r : ι → Option γ}, r x ≠ some c →
      ws.foldl (fun r w => write r w.1 w.2) r x ≠ some c := by
  induction ws with
  | nil => exact fun h => h
  | cons w ws ih =>
    intro r h
    rw [List.foldl_cons]
    refine ih (fun hm => hws (List.mem_cons_of_mem _ hm)) fun hw => ?_
    rcases eq_or_of_write hw with hold | ⟨h1, h2⟩
    · exact h hold
    · exact hws (by rw [h1, h2]; exact List.mem_cons_self)

/-- A set whose deliveries all agree is settled: a top write delivered last is held, and delivered
first, before one that replaces or evicts it, it is not. -/
theorem settled_of_deliver_eq (hS : S.Finite)
    (h : ∀ ws ws' : List (ι × γ), (∀ w, w ∈ ws ↔ w ∈ S) → (∀ w, w ∈ ws' ↔ w ∈ S) →
      ∀ x, deliver ws x = deliver ws' x) : Settled S := by
  classical
  intro w hw v hv
  set all := hS.toFinset.toList
  have hall : ∀ u, u ∈ all ↔ u ∈ S := by simp [all]
  -- the top write last
  have hlast : deliver (all ++ [w]) w.1 = some w.2 := by
    rw [deliver_snoc, write_self]
    rintro ⟨y, d, hne, hy, hlt⟩
    exact hw.2 _ ((hall _).1 (mem_of_deliver hy)) hne hlt
  have hset : ∀ u, u ∈ all ++ [w] ↔ u ∈ S := by
    intro u
    rw [List.mem_append, List.mem_singleton, hall]
    exact ⟨fun hu => hu.elim id fun he => he ▸ hw.1, .inl⟩
  -- the top write first and `v` right after it
  set rest := all.filter (· ≠ w)
  have hset' : ∀ u, u ∈ w :: v :: rest ↔ u ∈ S := by
    intro u
    simp only [rest, List.mem_cons, List.mem_filter, hall, decide_eq_true_eq]
    constructor
    · rintro (rfl | rfl | hu)
      exacts [hw.1, hv, hu.1]
    · intro hu
      by_cases he : u = w
      exacts [.inl he, .inr (.inr ⟨hu, he⟩)]
  have hgone : ¬deliver [w, v] w.1 ≠ some w.2 := by
    intro hne
    refine foldl_write_ne rest (x := w.1) (c := w.2) (by simp [rest]) hne ?_
    change deliver (w :: v :: rest) w.1 = some w.2
    rw [← h _ _ hset hset' w.1, hlast]
  rw [not_not] at hgone
  have hfirst : deliver [w] = write (fun _ => none) w.1 w.2 := rfl
  have hone : ∀ y d, deliver [w] y = some d → y = w.1 ∧ d = w.2 := by
    intro y d hy
    have := mem_of_deliver hy
    rw [List.mem_singleton] at this
    exact ⟨congrArg Prod.fst this, congrArg Prod.snd this⟩
  have hsnoc : deliver [w, v] = write (deliver [w]) v.1 v.2 := deliver_snoc [w] v
  rw [hsnoc] at hgone
  constructor
  · intro hx
    have hb : ¬Blocked (deliver [w]) v.1 v.2 := by
      rintro ⟨y, d, hne, hy, -⟩
      exact hne ((hone y d hy).1.trans hx.symm)
    rw [← hx, write_self hb, Option.some.injEq] at hgone
    exact hgone
  · rintro hx ⟨hle, hge⟩
    have hb : ¬Blocked (deliver [w]) v.1 v.2 := by
      rintro ⟨y, d, -, hy, hlt⟩
      rw [(hone y d hy).2] at hlt
      exact hlt.not_ge hle
    exact ((write_of_ne hb (Ne.symm hx)).1 hgone).2 hle

/-! ## Collapsing to one value -/

variable [DecidableEq ι]

/-- The register that holds one value only. -/
def solo (x : ι) (c : γ) : ι → Option γ := Function.update (fun _ => none) x (some c)

omit [Preorder γ] in
theorem eq_of_solo (h : solo x c y = some d) : y = x ∧ d = c := by
  by_cases hyx : y = x
  · subst hyx
    rw [solo, Function.update_self, Option.some.injEq] at h
    exact ⟨rfl, h.symm⟩
  · rw [solo, Function.update_of_ne hyx] at h
    cases h

theorem antichain_solo : Antichain (solo x c) := by
  intro y z d e hne hy hz
  exact absurd ((eq_of_solo hy).1.trans (eq_of_solo hz).1.symm) hne

theorem write_solo_self (c' : γ) : write (solo x c) x c' = solo x c' := by
  have hb : ¬Blocked (solo x c) x c' := by
    rintro ⟨y, d, hne, hy, -⟩
    exact hne (eq_of_solo hy).1
  funext y
  by_cases hy : y = x
  · subst hy
    rw [write_self hb, solo, Function.update_self]
  · ext d
    rw [write_of_ne hb hy, solo, solo, Function.update_of_ne hy, Function.update_of_ne hy]
    simp

theorem write_solo_of_lt (hne : y ≠ x) (h : d < c) : write (solo x c) y d = solo x c :=
  write_of_blocked ⟨x, c, hne.symm, Function.update_self _ _ _, h⟩

theorem write_solo_of_not_lt (hne : y ≠ x) (h : ¬d < c) : write (solo x c) y d y = some d := by
  refine write_self ?_
  rintro ⟨z, e, -, hz, hlt⟩
  by_cases hzx : z = x
  · subst hzx
    rw [solo, Function.update_self, Option.some.injEq] at hz
    exact h (hz ▸ hlt)
  · rw [solo, Function.update_of_ne hzx] at hz
    cases hz

/-- Replays of some writes leave one value alone exactly when every write of another id is strictly
below every write of that value's id. -/
theorem replay_iff (applied : Set (ι × γ)) (hx : (x, c) ∈ applied) :
    (∀ ws : List (ι × γ), (∀ w ∈ ws, w ∈ applied) →
      ∃ c', ws.foldl (fun r w => write r w.1 w.2) (solo x c) = solo x c') ↔
    ∀ v ∈ applied, v.1 ≠ x → ∀ w ∈ applied, w.1 = x → v.2 < w.2 := by
  constructor
  · rintro h v hv hne w hw rfl
    by_contra hlt
    obtain ⟨c', hrun⟩ := h [w, v] (by simp [hw, hv])
    rw [List.foldl_cons, List.foldl_cons, List.foldl_nil, write_solo_self] at hrun
    have hv' := write_solo_of_not_lt hne hlt
    rw [hrun, solo, Function.update_of_ne hne] at hv'
    cases hv'
  · intro h ws
    -- every state of the replay holds one value, of the winner
    induction ws generalizing c with
    | nil => exact fun _ => ⟨c, rfl⟩
    | cons w ws ih =>
      intro hws
      have hw := hws w List.mem_cons_self
      have hrest : ∀ v ∈ ws, v ∈ applied := fun v hv => hws v (List.mem_cons_of_mem _ hv)
      rw [List.foldl_cons]
      by_cases hwx : w.1 = x
      · subst hwx
        rw [write_solo_self]
        exact ih hw hrest
      · rw [write_solo_of_lt hwx (h w hw hwx _ hx rfl)]
        exact ih hx hrest

/-! ## Writes under one clock -/

omit [DecidableEq ι]

/-- The same clock under each key of a list. -/
noncomputable def writeAll (r : ι → Option γ) (xs : List ι) (c : γ) : ι → Option γ :=
  xs.foldl (fun r x => write r x c) r

variable {xs : List ι}

theorem writeAll_snoc (r : ι → Option γ) (xs : List ι) (x : ι) (c : γ) :
    writeAll r (xs ++ [x]) c = write (writeAll r xs c) x c := by
  rw [writeAll, List.foldl_append]
  rfl

theorem writeAll_of_blocked (h : ∀ x ∈ xs, Blocked r x c) : writeAll r xs c = r := by
  induction xs with
  | nil => rfl
  | cons x xs ih =>
    rw [writeAll, List.foldl_cons, write_of_blocked (h x List.mem_cons_self)]
    exact ih fun y hy => h y (List.mem_cons_of_mem _ hy)

/-- Once a write goes through, so does every other under its clock. -/
theorem not_blocked_write (h : ¬Blocked r x c) (y : ι) : ¬Blocked (write r x c) y c := by
  rintro ⟨z, d, -, hz, hlt⟩
  by_cases hzx : z = x
  · subst hzx
    rw [write_self h, Option.some.injEq] at hz
    exact lt_irrefl d (hz ▸ hlt)
  · exact h ⟨z, d, hzx, ((write_of_ne h hzx).1 hz).1, hlt⟩

theorem writeAll_of_not_blocked (h : ∃ x ∈ xs, ¬Blocked r x c) : ∃ r₀ x,
    xs.getLast? = some x ∧ ¬Blocked r₀ x c ∧ writeAll r xs c = write r₀ x c := by
  induction xs using List.reverseRecOn with
  | nil => simp at h
  | append_singleton xs x ih =>
    rw [writeAll_snoc, List.getLast?_concat]
    by_cases hxs : ∃ y ∈ xs, ¬Blocked r y c
    · obtain ⟨r₀, y, -, hfree, hrun⟩ := ih hxs
      rw [hrun]
      exact ⟨_, x, rfl, not_blocked_write hfree x, rfl⟩
    · push Not at hxs
      obtain ⟨y, hy, hfree⟩ := h
      rw [writeAll_of_blocked hxs]
      rcases List.mem_append.1 hy with hy | hy
      · exact absurd (hxs y hy) hfree
      · rw [List.mem_singleton.1 hy] at hfree
        exact ⟨r, x, rfl, hfree, rfl⟩

variable [DecidableEq ι]

/-- A write that goes through is alone if nothing incomparable is held. -/
theorem write_eq_solo (h : ¬Blocked r x c)
    (hcomparable : ∀ y d, y ≠ x → write r x c y = some d → d ≤ c ∨ c ≤ d) :
    write r x c = solo x c := by
  funext y
  by_cases hyx : y = x
  · subst hyx
    rw [write_self h, solo, Function.update_self]
  · rw [solo, Function.update_of_ne hyx, Option.eq_none_iff_forall_ne_some]
    intro d hy
    obtain ⟨hr, hnot⟩ := (write_of_ne h hyx).1 hy
    rcases hcomparable y d hyx hy with hle | hle
    · exact hnot hle
    · exact h ⟨y, d, hyx, hr, lt_of_le_not_ge hle hnot⟩

theorem not_blocked_solo (x y : ι) (c : γ) : ¬Blocked (solo x c) y c := by
  rintro ⟨z, d, -, hz, hlt⟩
  rw [(eq_of_solo hz).2] at hlt
  exact lt_irrefl c hlt

theorem write_solo (x y : ι) (c : γ) : write (solo x c) y c = solo y c := by
  refine write_eq_solo (not_blocked_solo x y c) fun z d hne hz => .inl ?_
  rw [(eq_of_solo ((write_of_ne (not_blocked_solo x y c) hne).1 hz).1).2]

theorem writeAll_solo (x : ι) (xs : List ι) (c : γ) :
    writeAll (solo x c) xs c = solo (xs.getLast?.getD x) c := by
  induction xs using List.reverseRecOn with
  | nil => rfl
  | append_singleton xs y ih =>
    rw [writeAll_snoc, ih, write_solo, List.getLast?_concat]
    rfl

end MultiValue
