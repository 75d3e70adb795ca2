import CksRuntime.Lib.Transition
import Mathlib.Data.List.Nodup
import Mathlib.Logic.Function.Basic

/-!
# An index kept by deltas in any order

Versions of some contents are made one after another, each with a task to bring its difference to
the one before into an index. Tasks are run in any order, and a run may stop half-way and start
again later. Once all are done the index holds, under each key, what the version had whose task was
the last to write there (`index_eq_iff`).
-/

set_option autoImplicit false

namespace DeltaIndex

open Transition

/-- What is stored under each key. -/
abbrev Contents (ι τ : Type) := ι → Option τ

/-- What is written, in order: a value, or that there is none any more. -/
abbrev Delta (ι τ : Type) := List (ι × Option τ)

/-- The keys a delta writes. -/
def keys {ι τ : Type} (d : Delta ι τ) : List ι := d.map Prod.fst

theorem mem_keys_append {ι τ : Type} {d d' : Delta ι τ} {k : ι} :
    k ∈ keys (d ++ d') ↔ k ∈ keys d ∨ k ∈ keys d' := by
  simp only [keys, List.map_append, List.mem_append]

section
variable {ι τ : Type} [DecidableEq ι]

/-- What a delta leaves. -/
def apply (c : Contents ι τ) (d : Delta ι τ) : Contents ι τ :=
  d.foldl (fun c x => Function.update c x.1 x.2) c

variable {d : Delta ι τ} {c c' : Contents ι τ} {k : ι}

theorem apply_append (d' : Delta ι τ) : apply c (d ++ d') = apply (apply c d) d' :=
  List.foldl_append

theorem apply_of_notMem (h : k ∉ keys d) : apply c d k = c k := by
  induction d generalizing c with
  | nil => rfl
  | cons x d ih =>
    simp only [keys, List.map_cons, List.mem_cons, not_or] at h
    show apply (Function.update c x.1 x.2) d k = c k
    rw [ih h.2, Function.update_of_ne h.1]

/-- A key holds what was last written there. -/
theorem apply_of_forall {v : Option τ} (h : k ∈ keys d) (hv : ∀ x ∈ d, x.1 = k → x.2 = v) :
    apply c d k = v := by
  induction d generalizing c with
  | nil => simp [keys] at h
  | cons x d ih =>
    show apply (Function.update c x.1 x.2) d k = v
    by_cases hk : k ∈ keys d
    · exact ih hk fun y hy => hv y (List.mem_cons_of_mem _ hy)
    · have hx : x.1 = k := by
        simp only [keys, List.map_cons, List.mem_cons] at h
        obtain h | h := h
        · exact h.symm
        · exact absurd h hk
      rw [apply_of_notMem hk, ← hx, Function.update_self]
      exact hv x List.mem_cons_self hx

/-- The delta takes every key it writes to what `cur` has, and leaves out only keys where `prev` has
the same. -/
structure Carries (prev cur : Contents ι τ) (d : Delta ι τ) : Prop where
  reached : ∀ c, ∀ k ∈ keys d, apply c d k = cur k
  covers : ∀ k ∉ keys d, prev k = cur k

end

/-- A version of the contents, and the delta its task writes. -/
structure Version (ι τ ν : Type) where
  name : ν
  contents : Contents ι τ
  /-- `none` if the task of the version never gets as far as writing. -/
  delta : Option (Delta ι τ)

/-- The versions made, their tasks, and the index these write to. -/
structure State (ι τ ν : Type) where
  versions : List (Version ι τ ν) := []
  pending : List ν := []
  /-- In the order they were completed. -/
  completed : List ν := []
  index : Contents ι τ := fun _ => none

namespace State

variable {ι τ ν : Type}

/-- The contents of the last version made. -/
def latest (s : State ι τ ν) : Contents ι τ :=
  (s.versions.getLast?.map (·.contents)).getD fun _ => none

/-- The task of the version writes under the key. -/
def Touches (s : State ι τ ν) (name : ν) (k : ι) : Prop :=
  ∃ v ∈ s.versions, v.name = name ∧ ∃ d ∈ v.delta, k ∈ keys d

/-- No task completed after that of the version writes under the key, and that one does. -/
def LastTouch (s : State ι τ ν) (name : ν) (k : ι) : Prop :=
  s.Touches name k ∧ ∃ before after, s.completed = before ++ name :: after ∧
    ∀ name' ∈ after, ¬s.Touches name' k

end State

/-- A version is made with its task; a task stops at any write of its delta, or completes. -/
inductive Step {ι τ ν : Type} [DecidableEq ι] [DecidableEq ν] :
    State ι τ ν → Unit → State ι τ ν → Prop
  | make (s : State ι τ ν) (v : Version ι τ ν) :
      (∀ u ∈ s.versions, u.name ≠ v.name) → (∀ d ∈ v.delta, Carries s.latest v.contents d) →
      Step s () { s with versions := s.versions ++ [v], pending := s.pending ++ [v.name] }
  | stop (s : State ι τ ν) (v : Version ι τ ν) (d : Delta ι τ) (n : Nat) :
      v ∈ s.versions → v.name ∈ s.pending → v.delta = some d →
      Step s () { s with index := apply s.index (d.take n) }
  | complete (s : State ι τ ν) (v : Version ι τ ν) (d : Delta ι τ) :
      v ∈ s.versions → v.name ∈ s.pending → v.delta = some d →
      Step s () { s with
        index := apply s.index d
        pending := s.pending.erase v.name
        completed := s.completed ++ [v.name] }

/-- Nothing is indexed at first. -/
def system (ι τ ν : Type) [DecidableEq ι] [DecidableEq ν] : System (State ι τ ν) Unit where
  init s := s = {}
  step := Step

namespace State

section
variable {ι τ ν : Type} {s : State ι τ ν} {k : ι}

/-- What a key holds when no pending task has it in hand. -/
structure Settled (s : State ι τ ν) (k : ι) : Prop where
  last : ∀ v ∈ s.versions, s.LastTouch v.name k → s.index k = v.contents k
  untouched : (∀ name ∈ s.completed, ¬s.Touches name k) → s.index k = none

/-- A task is pending or completed, and a key that no pending task writes is settled. -/
structure Inv (s : State ι τ ν) : Prop where
  nodup : (s.versions.map (·.name)).Nodup
  tasks : ∀ v ∈ s.versions, v.name ∈ s.pending ∨ v.name ∈ s.completed
  known : ∀ name, name ∈ s.pending ∨ name ∈ s.completed → ∃ v ∈ s.versions, v.name = name
  written : ∀ v ∈ s.versions, v.name ∈ s.completed → v.delta.isSome
  carried : (∀ v ∈ s.versions, v.delta.isSome) →
    ∀ k, (∀ v ∈ s.versions, ¬s.Touches v.name k) → s.latest k = none
  settled : ∀ k, (∃ name ∈ s.pending, s.Touches name k) ∨ s.Settled k

theorem snoc_eq_append_cons {α : Type} {l before after : List α} {x y : α}
    (h : l ++ [y] = before ++ x :: after) :
    after = [] ∧ l = before ∧ y = x ∨ ∃ after', after = after' ++ [y] ∧ l = before ++ x :: after' := by
  obtain rfl | ⟨after', z, rfl⟩ := after.eq_nil_or_concat
  · obtain ⟨hl, hy⟩ := List.append_inj' h rfl
    exact .inl ⟨rfl, hl, List.singleton_inj.1 hy⟩
  · rw [List.concat_eq_append, ← List.cons_append, ← List.append_assoc] at h
    obtain ⟨hl, hy⟩ := List.append_inj' h rfl
    exact .inr ⟨after', by rw [List.concat_eq_append, List.singleton_inj.1 hy], hl⟩

theorem touches_iff (h : (s.versions.map (·.name)).Nodup) {v : Version ι τ ν}
    (hv : v ∈ s.versions) : s.Touches v.name k ↔ ∃ d ∈ v.delta, k ∈ keys d := by
  constructor
  · intro ⟨u, hu, hname, htouch⟩
    rw [← List.inj_on_of_nodup_map h hu hv hname]
    exact htouch
  · intro htouch
    exact ⟨v, hv, rfl, htouch⟩

/-- The last of the completed tasks that write under a key. -/
theorem exists_lastTouch (h : s.Inv) (hex : ∃ name ∈ s.completed, s.Touches name k) :
    ∃ v ∈ s.versions, s.LastTouch v.name k := by
  have hsplit : ∀ l : List ν, (∃ name ∈ l, s.Touches name k) → ∃ before name after,
      l = before ++ name :: after ∧ s.Touches name k ∧ ∀ name' ∈ after, ¬s.Touches name' k := by
    intro l
    induction l with
    | nil => simp
    | cons name l ih =>
      intro hl
      by_cases hrest : ∃ name ∈ l, s.Touches name k
      · obtain ⟨before, name', after, rfl, ht, hafter⟩ := ih hrest
        exact ⟨name :: before, name', after, rfl, ht, hafter⟩
      · have ht : s.Touches name k := by
          obtain ⟨name', hname', ht⟩ := hl
          obtain rfl | hname' := List.mem_cons.1 hname'
          · exact ht
          · exact absurd ⟨name', hname', ht⟩ hrest
        exact ⟨[], name, l, rfl, ht, fun name' hname' ht' => hrest ⟨name', hname', ht'⟩⟩
  obtain ⟨before, name, after, hcompleted, ht, hafter⟩ := hsplit _ hex
  obtain ⟨v, hv, rfl⟩ := h.known name (.inr (by simp [hcompleted]))
  exact ⟨v, hv, ht, before, after, hcompleted, hafter⟩

/-- A settled key stays so while nothing is completed that writes there. -/
theorem Settled.congr {s' : State ι τ ν} (h : s.Settled k) (hcompleted : s'.completed = s.completed)
    (hindex : s'.index k = s.index k)
    (hversions : ∀ v ∈ s'.versions, v.name ∈ s.completed → v ∈ s.versions)
    (htouches : ∀ name ∈ s.completed, (s'.Touches name k ↔ s.Touches name k)) :
    s'.Settled k := by
  constructor
  · intro v hv hlast
    obtain ⟨ht, before, after, hsplit, hafter⟩ := hlast
    rw [hcompleted] at hsplit
    have hmem : v.name ∈ s.completed := by simp [hsplit]
    rw [hindex]
    refine h.last v (hversions v hv hmem) ⟨(htouches _ hmem).1 ht, before, after, hsplit, ?_⟩
    intro name hname ht
    have hmem' : name ∈ s.completed := by simp [hsplit, hname]
    exact hafter name hname ((htouches _ hmem').2 ht)
  · intro hnot
    rw [hindex]
    refine h.untouched fun name hname ht => ?_
    exact hnot name (hcompleted ▸ hname) ((htouches _ hname).2 ht)

variable [DecidableEq ι]

theorem inv_make {v : Version ι τ ν} (h : s.Inv) (hfresh : ∀ u ∈ s.versions, u.name ≠ v.name)
    (hdelta : ∀ d ∈ v.delta, Carries s.latest v.contents d) :
    Inv { s with versions := s.versions ++ [v], pending := s.pending ++ [v.name] } := by
  generalize hs' : ({ s with versions := s.versions ++ [v], pending := s.pending ++ [v.name] } :
    State ι τ ν) = s'
  have hversions : s'.versions = s.versions ++ [v] := by rw [← hs']
  have hpending : s'.pending = s.pending ++ [v.name] := by rw [← hs']
  have hcompleted : s'.completed = s.completed := by rw [← hs']
  have hindex : s'.index = s.index := by rw [← hs']
  have hmem : ∀ u, u ∈ s'.versions ↔ u ∈ s.versions ∨ u = v := by
    simp [hversions]
  -- no task has the new name yet, so what a task touches is what it touched
  have hnew : ∀ name, name ∈ s.pending ∨ name ∈ s.completed → name ≠ v.name := by
    rintro name hname rfl
    obtain ⟨u, hu, hne⟩ := h.known _ hname
    exact hfresh u hu hne
  have htouch : ∀ name k, s.Touches name k → s'.Touches name k := by
    intro name k ⟨u, hu, hrest⟩
    exact ⟨u, (hmem u).2 (.inl hu), hrest⟩
  have hback : ∀ name k, name ≠ v.name → s'.Touches name k → s.Touches name k := by
    intro name k hne ⟨u, hu, hname, hrest⟩
    obtain hu | rfl := (hmem u).1 hu
    · exact ⟨u, hu, hname, hrest⟩
    · exact absurd hname.symm hne
  constructor
  case nodup =>
    rw [hversions, List.map_append, List.nodup_append]
    refine ⟨h.nodup, by simp, ?_⟩
    intro a ha b hb
    obtain ⟨u, hu, rfl⟩ := List.mem_map.1 ha
    simp only [List.map_singleton, List.mem_singleton] at hb
    rw [hb]
    exact hfresh u hu
  case tasks =>
    intro u hu
    rw [hpending, hcompleted]
    obtain hu | rfl := (hmem u).1 hu
    · obtain hp | hc := h.tasks u hu
      · exact .inl (List.mem_append_left _ hp)
      · exact .inr hc
    · exact .inl (by simp)
  case known =>
    intro name hname
    rw [hpending, hcompleted, List.mem_append, List.mem_singleton] at hname
    by_cases hv : name = v.name
    · exact ⟨v, (hmem v).2 (.inr rfl), hv.symm⟩
    · obtain ⟨u, hu, hne⟩ := h.known name (by simpa [hv] using hname)
      exact ⟨u, (hmem u).2 (.inl hu), hne⟩
  case written =>
    intro u hu hc
    rw [hcompleted] at hc
    obtain hu | rfl := (hmem u).1 hu
    · exact h.written u hu hc
    · exact absurd rfl (hnew _ (.inr hc))
  case carried =>
    intro hsome k hnot
    have hlatest : s'.latest = v.contents := by simp [latest, hversions]
    obtain ⟨d, hd⟩ := Option.isSome_iff_exists.1 (hsome v ((hmem v).2 (.inr rfl)))
    have hk : k ∉ keys d := fun hk =>
      hnot v ((hmem v).2 (.inr rfl)) ⟨v, (hmem v).2 (.inr rfl), rfl, d, hd, hk⟩
    -- a key the delta leaves out is as it was in the version before
    rw [hlatest, ← (hdelta d hd).covers k hk]
    refine h.carried (fun u hu => hsome u ((hmem u).2 (.inl hu))) k ?_
    intro u hu ht
    exact hnot u ((hmem u).2 (.inl hu)) (htouch _ _ ht)
  case settled =>
    intro k
    obtain ⟨name, hname, ht⟩ | hsettled := h.settled k
    · exact .inl ⟨name, by simp [hpending, hname], htouch _ _ ht⟩
    · refine .inr (hsettled.congr hcompleted (by rw [hindex]) ?_ ?_)
      · intro u hu hc
        obtain hu | rfl := (hmem u).1 hu
        · exact hu
        · exact absurd rfl (hnew _ (.inr hc))
      · intro name hname
        exact ⟨hback _ _ (hnew _ (.inr hname)), htouch _ _⟩

theorem inv_stop {v : Version ι τ ν} {d : Delta ι τ} {n : Nat} (h : s.Inv) (hv : v ∈ s.versions)
    (hpending : v.name ∈ s.pending) (hd : v.delta = some d) :
    Inv { s with index := apply s.index (d.take n) } where
  nodup := h.nodup
  tasks := h.tasks
  known := h.known
  written := h.written
  carried := h.carried
  settled k := by
    by_cases hk : k ∈ keys d
    · exact .inl ⟨v.name, hpending, v, hv, rfl, d, hd, hk⟩
    · have hsame : apply s.index (d.take n) k = s.index k := by
        apply apply_of_notMem
        intro hmem
        obtain ⟨x, hx, rfl⟩ := List.mem_map.1 hmem
        exact hk (List.mem_map_of_mem (List.mem_of_mem_take hx))
      obtain hdirty | hsettled := h.settled k
      · exact .inl hdirty
      · exact .inr (hsettled.congr rfl hsame (fun _ hu _ => hu) fun _ _ => Iff.rfl)

variable [DecidableEq ν]

theorem inv_complete {v : Version ι τ ν} {d : Delta ι τ} (h : s.Inv) (hv : v ∈ s.versions)
    (hd : v.delta = some d)
    (hreached : ∀ c, ∀ k ∈ keys d, apply c d k = v.contents k) :
    Inv { s with
      index := apply s.index d
      pending := s.pending.erase v.name
      completed := s.completed ++ [v.name] } where
  nodup := h.nodup
  tasks u hu := by
    show u.name ∈ s.pending.erase v.name ∨ u.name ∈ s.completed ++ [v.name]
    rw [List.mem_append, List.mem_singleton]
    by_cases hne : u.name = v.name
    · exact .inr (.inr hne)
    · obtain hp | hc := h.tasks u hu
      · exact .inl ((List.mem_erase_of_ne hne).2 hp)
      · exact .inr (.inl hc)
  known name hname := by
    change name ∈ s.pending.erase v.name ∨ name ∈ s.completed ++ [v.name] at hname
    rw [List.mem_append, List.mem_singleton] at hname
    obtain hp | hc | rfl := hname
    · exact h.known name (.inl (List.mem_of_mem_erase hp))
    · exact h.known name (.inr hc)
    · exact ⟨v, hv, rfl⟩
  written u hu hc := by
    obtain hc | hc := List.mem_append.1 hc
    · exact h.written u hu hc
    · rw [List.inj_on_of_nodup_map h.nodup hu hv (List.mem_singleton.1 hc), hd]
      rfl
  carried := h.carried
  settled k := by
    by_cases hk : k ∈ keys d
    · have ht : s.Touches v.name k := ⟨v, hv, rfl, d, hd, hk⟩
      refine .inr ⟨?_, ?_⟩
      · intro u hu hlast
        obtain ⟨_, before, after, hsplit, hafter⟩ := hlast
        show apply s.index d k = u.contents k
        rw [hreached s.index k hk]
        -- nothing comes after the task just completed
        obtain ⟨-, -, hname⟩ | ⟨after', rfl, -⟩ := snoc_eq_append_cons hsplit
        · rw [List.inj_on_of_nodup_map h.nodup hu hv hname.symm]
        · exact absurd ht (hafter v.name (by simp))
      · intro hnot
        exact absurd ht (hnot v.name (by simp))
    · have hsame : apply s.index d k = s.index k := apply_of_notMem hk
      have hne : ∀ name, s.Touches name k → name ≠ v.name := by
        rintro name ht rfl
        obtain ⟨d', hd', hk'⟩ := (touches_iff h.nodup hv).1 ht
        rw [hd] at hd'
        exact hk (Option.some.inj hd' ▸ hk')
      obtain ⟨name, hname, ht⟩ | hsettled := h.settled k
      · exact .inl ⟨name, (List.mem_erase_of_ne (hne name ht)).2 hname, ht⟩
      · refine .inr ⟨?_, ?_⟩
        · intro u hu hlast
          obtain ⟨ht, before, after, hsplit, hafter⟩ := hlast
          refine hsame.trans (hsettled.last u hu ⟨ht, ?_⟩)
          obtain ⟨-, -, hname⟩ | ⟨after', rfl, hsplit'⟩ := snoc_eq_append_cons hsplit
          · exact absurd hname.symm (hne u.name ht)
          · exact ⟨before, after', hsplit', fun name hname =>
              hafter name (List.mem_append_left _ hname)⟩
        · intro hnot
          refine hsame.trans (hsettled.untouched fun name hname => ?_)
          exact hnot name (List.mem_append_left _ hname)

end

end State

section
variable {ι τ ν : Type} [DecidableEq ι] [DecidableEq ν] {s : State ι τ ν}

/-- Each version's delta carries the contents of the version before it to its own. -/
def Carried (s : State ι τ ν) : Prop :=
  ∀ v ∈ s.versions, ∀ d ∈ v.delta, ∀ c, ∀ k ∈ keys d, apply c d k = v.contents k

theorem inv_of_reachable (h : (system ι τ ν).Reachable s) : s.Inv ∧ Carried s := by
  refine h.invariant (P := fun s => s.Inv ∧ Carried s) ?_ ?_
  · intro s hinit
    rw [show s = {} from hinit]
    refine ⟨⟨by simp, by simp, by simp, by simp, fun _ k _ => rfl, fun k => .inr ?_⟩, by
      simp [Carried]⟩
    exact ⟨by simp, fun _ => rfl⟩
  · intro s l s' _ hinv hstep
    obtain ⟨hinv, hcarried⟩ := hinv
    cases hstep with
    | make v hfresh hdelta =>
      refine ⟨State.inv_make hinv hfresh hdelta, ?_⟩
      intro u hu d hd
      obtain hu | hu := List.mem_append.1 hu
      · exact hcarried u hu d hd
      · rw [List.mem_singleton.1 hu] at hd ⊢
        exact (hdelta d hd).reached
    | stop v d n hv hpending hd => exact ⟨State.inv_stop hinv hv hpending hd, hcarried⟩
    | complete v d hv _ hd =>
      exact ⟨State.inv_complete hinv hv hd (hcarried v hv d hd), hcarried⟩

/-- Once all tasks are completed, a key holds what the latest version has there if and only if the
last task that wrote there is of a version that has the same. -/
theorem index_eq_iff (h : (system ι τ ν).Reachable s) (hdone : s.pending = []) (k : ι) :
    s.index k = s.latest k ↔
      ∀ v ∈ s.versions, s.LastTouch v.name k → v.contents k = s.latest k := by
  obtain ⟨hinv, -⟩ := inv_of_reachable h
  have hsettled : s.Settled k := by
    obtain ⟨name, hname, -⟩ | hsettled := hinv.settled k
    · simp [hdone] at hname
    · exact hsettled
  constructor
  · intro hindex v hv hlast
    rw [← hsettled.last v hv hlast, hindex]
  · intro hlast
    by_cases hex : ∃ name ∈ s.completed, s.Touches name k
    · obtain ⟨v, hv, htouch⟩ := State.exists_lastTouch hinv hex
      rw [hsettled.last v hv htouch, hlast v hv htouch]
    · have hnot : ∀ name ∈ s.completed, ¬s.Touches name k := by simpa using hex
      have hcompleted : ∀ v ∈ s.versions, v.name ∈ s.completed := fun v hv =>
        (hinv.tasks v hv).resolve_left (by simp [hdone])
      rw [hsettled.untouched hnot]
      refine (hinv.carried ?_ k ?_).symm
      · exact fun v hv => hinv.written v hv (hcompleted v hv)
      · exact fun v hv => hnot _ (hcompleted v hv)

end

end DeltaIndex
