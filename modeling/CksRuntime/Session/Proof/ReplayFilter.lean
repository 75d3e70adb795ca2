import CksRuntime.Lib.Effect
import CksRuntime.Session.Replay

/-!
# The replay filter

`replay_transparent_iff`: the filter gives back the results of a patch that can be applied, and of
every part of it, exactly when it drops nothing (`dedupe_eq_iff`). Where it drops an operator the
two runs part at its object; they meet again only if a removal of what is not there is let pass
(`parted_ne`).
-/

set_option autoImplicit false

namespace CksRuntime

open Effect (foldlM_cons_eq_ok foldlM_append_eq_ok)

variable {K : Core}

/-- The ids that the filter takes for taken after an operator that it keeps. -/
def trackStep (existing : List String) (op : K.Operator) : List String :=
  match K.asRemoveObject op with
  | some objectId => existing.filter (· ≠ objectId)
  | none =>
    match K.asAddObject op with
    | some obj => existing.insert (K.identityId obj)
    | none => existing

namespace Core.Evolution

variable {ev : K.Evolution} (hev : ev.Lawful)
include hev

/-! ## The operators -/

theorem asAddObject_eq_some {op : K.Operator} {obj : K.Obj} :
    K.asAddObject op = some obj ↔ ev.operator op = .addObject obj := by
  rw [hev.asAddObject]
  cases ev.operator op <;> simp

/-- What an operator leaves of an object it does not remove. -/
theorem get_apply_ne_none {s s' : K.Structure} {op : K.Operator} {objectId : String}
    (h : ev.apply s op = .ok s') (hget : K.get s objectId ≠ none)
    (hop : (ev.operator op).removed ≠ some objectId) : K.get s' objectId ≠ none := by
  have hadded := hev.added s op s'
  have hremoved := hev.removed s op s'
  cases hkind : ev.operator op with
  | addObject obj | addRelation obj =>
    rw [hkind] at hadded
    rw [(hadded obj rfl h).2]
    split
    · exact Option.some_ne_none obj
    · exact hget
  | removeObject id | removeRelation id =>
    rw [hkind] at hremoved hop
    rw [hremoved id rfl h, if_neg fun heq => hop (congrArg some heq.symm)]
    exact hget

/-- An object stays as long as nothing removes it. -/
theorem get_foldlM_ne_none {objectId : String} {ops : List K.Operator} :
    ∀ {s s' : K.Structure}, ops.foldlM ev.apply s = .ok s' → K.get s objectId ≠ none →
      (∀ op ∈ ops, (ev.operator op).removed ≠ some objectId) → K.get s' objectId ≠ none := by
  induction ops with
  | nil =>
    intro s s' h hget _
    cases h
    exact hget
  | cons op ops ih =>
    intro s s' h hget hops
    obtain ⟨s₁, happly, h⟩ := foldlM_cons_eq_ok.1 h
    have hget₁ := get_apply_ne_none hev happly hget (hops op List.mem_cons_self)
    exact ih h hget₁ fun op' hop' => hops op' (List.mem_cons_of_mem _ hop')

/-! ## The filter -/

omit hev in
theorem AddsObject.added {op : K.Operator} {objectId : String} (h : ev.AddsObject op objectId) :
    ∃ obj, (ev.operator op).added = some obj ∧ K.identityId obj = objectId := by
  obtain ⟨obj, hop, hid⟩ := h
  exact ⟨obj, by rw [hop]; rfl, hid⟩

theorem dedupeLoop_drop {op : K.Operator} {objectId : String} {existing : List String}
    (hadds : ev.AddsObject op objectId) (hmem : objectId ∈ existing) (patch : List K.Operator) :
    dedupeLoop existing (op :: patch) = dedupeLoop existing patch := by
  obtain ⟨obj, hop, rfl⟩ := hadds
  have hremove : K.asRemoveObject op = none := by rw [hev.asRemoveObject, hop]
  simp only [dedupeLoop, hremove, (asAddObject_eq_some hev).2 hop, if_pos hmem]

theorem trackStep_of_mem {op : K.Operator} {objectId : String} {existing : List String}
    (hadds : ev.AddsObject op objectId) (hmem : objectId ∈ existing) :
    trackStep existing op = existing := by
  obtain ⟨obj, hop, rfl⟩ := hadds
  have hremove : K.asRemoveObject op = none := by rw [hev.asRemoveObject, hop]
  simp only [trackStep, hremove, (asAddObject_eq_some hev).2 hop, List.insert_of_mem hmem]

theorem dedupeLoop_keep {op : K.Operator} {existing : List String}
    (hkeep : ∀ objectId, ev.AddsObject op objectId → objectId ∉ existing)
    (patch : List K.Operator) : dedupeLoop existing (op :: patch) =
      op :: dedupeLoop (trackStep existing op) patch := by
  rw [dedupeLoop, trackStep]
  cases hremove : K.asRemoveObject op with
  | some objectId => rfl
  | none =>
    cases hadd : K.asAddObject op with
    | none => rfl
    | some obj =>
      have hnew := hkeep _ ⟨obj, (asAddObject_eq_some hev).1 hadd, rfl⟩
      simp only [if_neg hnew, List.insert_of_not_mem hnew]

theorem mem_trackStep {existing : List String} {op : K.Operator} {objectId : String} :
    objectId ∈ trackStep existing op ↔ ev.AddsObject op objectId ∨
      objectId ∈ existing ∧ ev.operator op ≠ .removeObject objectId := by
  rw [trackStep, hev.asAddObject, hev.asRemoveObject, AddsObject]
  cases ev.operator op with
  | addObject obj => simp [eq_comm (a := objectId)]
  | removeObject id => simp [ne_comm (a := objectId)]
  | addRelation relation => simp
  | removeRelation id => simp

/-- The ids that the filter takes for taken: those of the state and of what is added, until a
`RemoveObject` of them. -/
theorem mem_foldl_trackStep {s : K.Structure} {objectId : String} (ops : List K.Operator) :
    objectId ∈ ops.foldl trackStep ((K.objects s).map K.identityId) ↔
      ∃ before after, ops = before ++ after ∧
        (before = [] ∧ K.get s objectId ≠ none ∨
          ∃ ops' op, before = ops' ++ [op] ∧ ev.AddsObject op objectId) ∧
        ∀ op ∈ after, ev.operator op ≠ .removeObject objectId := by
  induction ops using List.reverseRecOn with
  | nil =>
    have hids : objectId ∈ (K.objects s).map K.identityId ↔ K.get s objectId ≠ none := by
      simp [Core.get]
    simp [hids]
  | append_singleton ops op ih =>
    rw [List.foldl_append, List.foldl_cons, List.foldl_nil, mem_trackStep hev, ih]
    constructor
    · rintro (hadds | ⟨⟨before, after, rfl, hfrom, hafter⟩, hop⟩)
      · exact ⟨ops ++ [op], [], by simp, Or.inr ⟨ops, op, rfl, hadds⟩, by simp⟩
      · refine ⟨before, after ++ [op], by simp, hfrom, ?_⟩
        simpa [or_imp, forall_and] using ⟨hafter, hop⟩
    · rintro ⟨before, after, heq, hfrom, hafter⟩
      rcases List.eq_nil_or_concat' after with rfl | ⟨after', op', rfl⟩
      · rw [List.append_nil] at heq
        subst heq
        obtain ⟨hnil, -⟩ | ⟨ops', op', hops, hadds⟩ := hfrom
        · simp at hnil
        · obtain ⟨-, hlast⟩ := List.append_inj' hops rfl
          obtain rfl := List.singleton_inj.1 hlast
          exact Or.inl hadds
      · rw [← List.append_assoc] at heq
        obtain ⟨rfl, hlast⟩ := List.append_inj' heq rfl
        obtain rfl := List.singleton_inj.1 hlast
        exact Or.inr ⟨⟨before, after', rfl, hfrom, fun op hop => hafter op (by simp [hop])⟩,
          hafter op (by simp)⟩

/-- The filter goes through a patch one part after the other. -/
theorem dedupeLoop_append (before after : List K.Operator) : ∀ existing : List String,
    dedupeLoop existing (before ++ after) =
      dedupeLoop existing before ++ dedupeLoop (before.foldl trackStep existing) after := by
  induction before with
  | nil => exact fun existing => rfl
  | cons op before ih =>
    intro existing
    rw [List.cons_append, List.foldl_cons]
    by_cases hdrop : ∃ objectId, ev.AddsObject op objectId ∧ objectId ∈ existing
    · obtain ⟨objectId, hadds, hmem⟩ := hdrop
      rw [dedupeLoop_drop hev hadds hmem, dedupeLoop_drop hev hadds hmem,
        trackStep_of_mem hev hadds hmem]
      exact ih existing
    · have hkeep := fun objectId hadds hmem => hdrop ⟨objectId, hadds, hmem⟩
      rw [dedupeLoop_keep hev hkeep, dedupeLoop_keep hev hkeep, ih]
      rfl

theorem length_dedupeLoop_le (patch : List K.Operator) : ∀ existing : List String,
    (dedupeLoop existing patch).length ≤ patch.length := by
  induction patch with
  | nil => exact fun existing => le_rfl
  | cons op patch ih =>
    intro existing
    by_cases hdrop : ∃ objectId, ev.AddsObject op objectId ∧ objectId ∈ existing
    · obtain ⟨objectId, hadds, hmem⟩ := hdrop
      rw [dedupeLoop_drop hev hadds hmem]
      exact Nat.le_succ_of_le (ih existing)
    · rw [dedupeLoop_keep hev fun objectId hadds hmem => hdrop ⟨objectId, hadds, hmem⟩]
      exact Nat.succ_le_succ (ih _)

/-- Two states apart at an object, which the filter takes for taken, stay apart, whatever comes. -/
theorem parted_ne (hstrict : ev.Strict) {objectId : String} (patch : List K.Operator) :
    ∀ {existing : List String} {s s' t : K.Structure}, K.get s objectId ≠ none →
      K.get s' objectId = none → objectId ∈ existing → patch.foldlM ev.apply s = .ok t →
        (dedupeLoop existing patch).foldlM ev.apply s' ≠ .ok t := by
  induction patch with
  | nil =>
    intro existing s s' t hget hget' _ h h'
    cases h
    cases h'
    exact hget hget'
  | cons op patch ih =>
    intro existing s s' t hget hget' hmem h h'
    obtain ⟨s₁, happly, h⟩ := foldlM_cons_eq_ok.1 h
    by_cases hdrop : ∃ id, ev.AddsObject op id ∧ id ∈ existing
    · obtain ⟨id, hadds, hid⟩ := hdrop
      rw [dedupeLoop_drop hev hadds hid] at h'
      have hremoved : (ev.operator op).removed ≠ some objectId := by
        obtain ⟨obj, hop, -⟩ := hadds
        rw [hop]
        exact fun h => by cases h
      exact ih (get_apply_ne_none hev happly hget hremoved) hget' hmem h h'
    · rw [dedupeLoop_keep hev fun id hadds hid => hdrop ⟨id, hadds, hid⟩] at h'
      obtain ⟨s₁', happly', h'⟩ := foldlM_cons_eq_ok.1 h'
      -- neither run can add the object (the one has it) or remove it (the other has not)
      have hremoved : (ev.operator op).removed ≠ some objectId := fun hrem =>
        hstrict s' op s₁' objectId hrem happly' hget'
      have hadded : ∀ obj, (ev.operator op).added = some obj → K.identityId obj ≠ objectId := by
        intro obj hadd hid
        rw [← hid] at hget
        exact hget (hev.added s op s₁ obj hadd happly).1
      have hget₁' : K.get s₁' objectId = none := by
        cases hkind : ev.operator op with
        | addObject obj | addRelation obj =>
          have hadd : (ev.operator op).added = some obj := by rw [hkind]; rfl
          rw [(hev.added s' op s₁' obj hadd happly').2, if_neg (hadded obj hadd).symm]
          exact hget'
        | removeObject id | removeRelation id =>
          have hrem : (ev.operator op).removed = some id := by rw [hkind]; rfl
          rw [hev.removed s' op s₁' id hrem happly', hget', ite_self]
      have hmem₁ : objectId ∈ trackStep existing op :=
        (mem_trackStep hev).2 (Or.inr ⟨hmem, fun hop => hremoved (by rw [hop]; rfl)⟩)
      exact ih (get_apply_ne_none hev happly hget hremoved) hget₁' hmem₁ h h'

/-- A patch that can be applied has the same result through the filter only if nothing is
dropped. -/
theorem replay_loop_iff (hstrict : ev.Strict) (patch : List K.Operator) :
    ∀ {existing : List String} {s t : K.Structure}, patch.foldlM ev.apply s = .ok t →
      ((dedupeLoop existing patch).foldlM ev.apply s = .ok t ↔
        dedupeLoop existing patch = patch) := by
  induction patch with
  | nil =>
    intro existing s t h
    exact iff_of_true h rfl
  | cons op patch ih =>
    intro existing s t h
    obtain ⟨s₁, happly, h⟩ := foldlM_cons_eq_ok.1 h
    by_cases hdrop : ∃ id, ev.AddsObject op id ∧ id ∈ existing
    · obtain ⟨id, hadds, hid⟩ := hdrop
      obtain ⟨obj, hadded, rfl⟩ := hadds.added
      obtain ⟨hnone, hget⟩ := hev.added s op s₁ obj hadded happly
      rw [dedupeLoop_drop hev hadds hid]
      refine iff_of_false (parted_ne hev hstrict patch ?_ hnone hid h) fun heq => ?_
      · rw [hget, if_pos rfl]
        exact Option.some_ne_none obj
      · have hle := length_dedupeLoop_le hev patch existing
        rw [heq, List.length_cons] at hle
        omega
    · rw [dedupeLoop_keep hev fun id hadds hid => hdrop ⟨id, hadds, hid⟩, List.foldlM_cons, happly,
        List.cons.injEq]
      exact (ih h).trans ⟨fun heq => ⟨rfl, heq⟩, fun heq => heq.2⟩

/-- Nothing is dropped when no `AddObject` has an id that is taken as the filter tracks them. -/
theorem dedupeLoop_eq_iff (patch : List K.Operator) : ∀ {existing : List String},
    dedupeLoop existing patch = patch ↔ ∀ before op after objectId, patch = before ++ op :: after →
      ev.AddsObject op objectId → objectId ∉ before.foldl trackStep existing := by
  intro existing
  constructor
  · rintro h before op after objectId rfl hadds hmem
    rw [dedupeLoop_append hev, dedupeLoop_drop hev hadds hmem] at h
    have hlen := congrArg List.length h
    have hbefore := length_dedupeLoop_le hev before existing
    have hafter := length_dedupeLoop_le hev after (before.foldl trackStep existing)
    simp only [List.length_append, List.length_cons] at hlen
    omega
  · intro h
    induction patch generalizing existing with
    | nil => rfl
    | cons op patch ih =>
      have hkeep : ∀ objectId, ev.AddsObject op objectId → objectId ∉ existing :=
        fun objectId hadds => h [] op patch objectId rfl hadds
      rw [dedupeLoop_keep hev hkeep]
      refine congrArg (op :: ·) (ih fun before op' after objectId heq hadds => ?_)
      exact h (op :: before) op' after objectId (by rw [heq]; rfl) hadds

/-! ## Transparency -/

theorem dedupe_eq_loop (s : K.Structure) (patch : List K.Operator) :
    dedupeReplayedAddObjects s patch = dedupeLoop ((K.objects s).map K.identityId) patch := by
  rw [dedupeReplayedAddObjects]
  split
  · rfl
  · rename_i hany
    refine ((dedupeLoop_eq_iff hev patch).2 fun before op after objectId heq hadds => ?_).symm
    obtain ⟨obj, hop, -⟩ := hadds
    refine absurd (List.any_eq_true.2 ⟨op, by simp [heq], ?_⟩) hany
    rw [(asAddObject_eq_some hev).2 hop]
    rfl

/-- What is added and never removed is there. -/
theorem get_ne_none_of_added {s t : K.Structure} {before after : List K.Operator}
    {objectId : String} (h : (before ++ after).foldlM ev.apply s = .ok t)
    (hfrom : before = [] ∧ K.get s objectId ≠ none ∨
      ∃ ops' op, before = ops' ++ [op] ∧ ev.AddsObject op objectId)
    (hafter : ∀ op ∈ after, (ev.operator op).removed ≠ some objectId) :
    K.get t objectId ≠ none := by
  obtain ⟨s₁, hbefore, h⟩ := foldlM_append_eq_ok.1 h
  refine get_foldlM_ne_none hev h ?_ hafter
  obtain ⟨rfl, hget⟩ | ⟨ops', op, rfl, hadds⟩ := hfrom
  · cases hbefore
    exact hget
  · obtain ⟨obj, hadded, rfl⟩ := hadds.added
    obtain ⟨s₀, -, hop⟩ := foldlM_append_eq_ok.1 hbefore
    obtain ⟨s₁', happly, hnil⟩ := foldlM_cons_eq_ok.1 hop
    cases hnil
    rw [(hev.added s₀ op s₁ obj hadded happly).2, if_pos rfl]
    exact Option.some_ne_none obj

/-- Where the object is not there the filter takes its id for taken only after a
`RemoveRelation`. -/
theorem mem_tracked_iff {s s₁ : K.Structure} {ops : List K.Operator} {objectId : String}
    (h : ops.foldlM ev.apply s = .ok s₁) (hnone : K.get s₁ objectId = none) :
    objectId ∈ ops.foldl trackStep ((K.objects s).map K.identityId) ↔
      ev.RemovedAsRelation s ops objectId := by
  rw [mem_foldl_trackStep hev]
  constructor
  · rintro ⟨before, after, rfl, hfrom, hafter⟩
    refine ⟨before, after, rfl, hfrom, hafter, ?_⟩
    by_contra! hrelation
    refine get_ne_none_of_added hev h hfrom (fun op hop => ?_) hnone
    cases hkind : ev.operator op with
    | addObject obj | addRelation obj => exact Option.some_ne_none objectId |>.symm
    | removeObject id =>
      intro heq
      cases heq
      exact hafter op hop hkind
    | removeRelation id =>
      intro heq
      cases heq
      exact hrelation op hop hkind
  · rintro ⟨before, after, heq, hfrom, hafter, -⟩
    exact ⟨before, after, heq, hfrom, hafter⟩

/-- The states on the way through a patch that can be applied. -/
theorem evolve_split {s t : K.Structure} {before after : List K.Operator} {op : K.Operator}
    (h : K.evolve s (before ++ op :: after) = .ok t) :
    ∃ s₁ s₂, before.foldlM ev.apply s = .ok s₁ ∧ ev.apply s₁ op = .ok s₂ := by
  rw [hev.evolve] at h
  obtain ⟨s₁, hbefore, hrest⟩ := foldlM_append_eq_ok.1 h
  obtain ⟨s₂, happly, -⟩ := foldlM_cons_eq_ok.1 hrest
  exact ⟨s₁, s₂, hbefore, happly⟩

/-- The filter drops nothing of a patch that can be applied exactly when it is replayable. -/
theorem dedupe_eq_iff {s t : K.Structure} {patch : List K.Operator}
    (h : K.evolve s patch = .ok t) :
    dedupeReplayedAddObjects s patch = patch ↔ ev.Replayable s patch := by
  rw [dedupe_eq_loop hev, dedupeLoop_eq_iff hev, Replayable]
  have htracked : ∀ before op after objectId, patch = before ++ op :: after →
      ev.AddsObject op objectId →
      (objectId ∈ before.foldl trackStep ((K.objects s).map K.identityId) ↔
        ev.RemovedAsRelation s before objectId) := by
    rintro before op after objectId rfl hadds
    obtain ⟨s₁, s₂, hbefore, happly⟩ := evolve_split hev h
    obtain ⟨obj, hadded, rfl⟩ := hadds.added
    exact mem_tracked_iff hev hbefore (hev.added s₁ op s₂ obj hadded happly).1
  constructor
  · intro hkept before op after objectId heq hadds
    rw [← htracked before op after objectId heq hadds]
    exact hkept before op after objectId heq hadds
  · intro hreplay before op after objectId heq hadds
    rw [htracked before op after objectId heq hadds]
    exact hreplay before op after objectId heq hadds

omit hev in
theorem Replayable.take {s : K.Structure} {before after : List K.Operator}
    (h : ev.Replayable s (before ++ after)) : ev.Replayable s before := by
  rintro ops op ops' objectId rfl hadds
  exact h ops op (ops' ++ after) objectId (by simp) hadds

/-- Through the filter a patch that can be applied comes to the same state at each of its operators
exactly when no `AddObject` follows a `RemoveRelation` of an id that the filter takes for taken. Of
a Core in which the removal of what is not there raises that holds of the last state alone. -/
theorem replay_transparent_iff {s t : K.Structure} {patch : List K.Operator}
    (h : K.evolve s patch = .ok t) :
    ((∀ before after, patch = before ++ after →
        K.evolve s (dedupeReplayedAddObjects s before) = K.evolve s before) ↔
      ev.Replayable s patch) ∧
    (ev.Strict →
      (K.evolve s (dedupeReplayedAddObjects s patch) = .ok t ↔ ev.Replayable s patch)) := by
  refine ⟨⟨?_, ?_⟩, fun hstrict => ?_⟩
  · rintro htransparent before op after objectId rfl hadds hrelation
    obtain ⟨s₁, s₂, hbefore, happly⟩ := evolve_split hev h
    obtain ⟨obj, hadded, rfl⟩ := hadds.added
    obtain ⟨hnone, hget⟩ := hev.added s₁ op s₂ obj hadded happly
    have hmem := (mem_tracked_iff hev hbefore hnone).2 hrelation
    have hdrop : dedupeReplayedAddObjects s (before ++ [op]) = dedupeReplayedAddObjects s before := by
      rw [dedupe_eq_loop hev, dedupe_eq_loop hev, dedupeLoop_append hev,
        dedupeLoop_drop hev hadds hmem, dedupeLoop, List.append_nil]
    have hlast := htransparent (before ++ [op]) after (by simp)
    rw [hdrop, htransparent before (op :: after) rfl, hev.evolve, hev.evolve, hbefore] at hlast
    have hop : [op].foldlM ev.apply s₁ = .ok s₂ := foldlM_cons_eq_ok.2 ⟨s₂, happly, rfl⟩
    rw [foldlM_append_eq_ok.2 ⟨s₁, hbefore, hop⟩] at hlast
    cases hlast
    have hself := hget (K.identityId obj)
    rw [hnone, if_pos rfl] at hself
    cases hself
  · rintro hreplay before after rfl
    rw [hev.evolve] at h
    obtain ⟨s₁, hbefore, -⟩ := foldlM_append_eq_ok.1 h
    rw [← hev.evolve] at hbefore
    rw [(dedupe_eq_iff hev hbefore).2 hreplay.take]
  · rw [← dedupe_eq_iff hev h, hev.evolve, dedupe_eq_loop hev]
    rw [hev.evolve] at h
    exact replay_loop_iff hev hstrict patch h

end Core.Evolution

/-! ## The shelf -/

theorem shelf_get_append {s : List ShelfItem} {item : ShelfItem} (h : Core.shelf.get s item.id = none)
    (k : String) :
    Core.shelf.get (s ++ [item]) k = if k = item.id then some item else Core.shelf.get s k := by
  simp only [Core.get, List.find?_append, List.find?_singleton] at h ⊢
  by_cases hk : k = item.id
  · subst hk
    simp [h]
  · simp [hk, Ne.symm hk]

theorem shelf_get_filter (s : List ShelfItem) (objectId k : String) :
    Core.shelf.get (s.filter (·.id ≠ objectId)) k =
      if k = objectId then none else Core.shelf.get s k := by
  simp only [Core.get, List.find?_filter]
  by_cases hk : k = objectId
  · subst hk
    simp
  · rw [if_neg hk]
    refine congrArg (List.find? · s) (funext fun item => ?_)
    by_cases hid : item.id = k
    · simp [hid, hk]
    · simp [hid]

theorem shelf_add {s s' : List ShelfItem} {item : ShelfItem} (h : shelfAdd s item = .ok s') :
    Core.shelf.get s item.id = none ∧
      ∀ k, Core.shelf.get s' k = if k = item.id then some item else Core.shelf.get s k := by
  unfold shelfAdd at h
  split at h
  · cases h
  · rename_i hnew
    cases h
    have hnone : Core.shelf.get s item.id = none := by simpa [Core.get] using hnew
    exact ⟨hnone, shelf_get_append hnone⟩

theorem shelf_remove {s s' : List ShelfItem} {objectId : String} (h : shelfRemove s objectId = .ok s') :
    Core.shelf.get s objectId ≠ none ∧
      ∀ k, Core.shelf.get s' k = if k = objectId then none else Core.shelf.get s k := by
  unfold shelfRemove at h
  split at h
  · rename_i hmem
    cases h
    exact ⟨by simpa [Core.get] using hmem, shelf_get_filter s objectId⟩
  · cases h

theorem shelf_lawful : Core.shelf.evolution.Lawful where
  evolve _ _ := rfl
  asAddObject op := by cases op <;> rfl
  asRemoveObject op := by cases op <;> rfl
  added s op s' obj hadded h := by
    cases op with
    | addObject item | addRelation item =>
      cases hadded
      exact shelf_add h
    | removeObject id | removeRelation id => cases hadded
  removed s op s' objectId hremoved h := by
    cases op with
    | addObject item | addRelation item => cases hremoved
    | removeObject id | removeRelation id =>
      cases hremoved
      exact (shelf_remove h).2

theorem shelf_strict : Core.shelf.evolution.Strict := by
  intro s op s' objectId hremoved h
  cases op with
  | addObject item | addRelation item => cases hremoved
  | removeObject id | removeRelation id =>
    cases hremoved
    exact (shelf_remove h).1

/-- An object whose identity is replaced goes through the filter. -/
theorem replayable_replaced : Core.shelf.evolution.Replayable [⟨"a", false⟩]
    [.removeObject "a", .addObject ⟨"a", true⟩] :=
  ((Core.Evolution.replay_transparent_iff shelf_lawful rfl).2 shelf_strict).1 rfl

/-- A relation that an object replaces does not: the object is dropped. -/
theorem relation_replaced_lost : Core.shelf.evolution.Lawful ∧
    ∃ (s t : List ShelfItem) (patch : List (EvolveOperator ShelfItem)),
      Core.shelf.evolve s patch = .ok t ∧
        Core.shelf.evolve s (dedupeReplayedAddObjects s patch) ≠ .ok t := by
  refine ⟨shelf_lawful, [⟨"r", true⟩], [⟨"r", false⟩],
    [.removeRelation "r", .addObject ⟨"r", false⟩], rfl, ?_⟩
  have hlost : Core.shelf.evolve [⟨"r", true⟩] (dedupeReplayedAddObjects [⟨"r", true⟩]
      [.removeRelation "r", .addObject ⟨"r", false⟩]) = .ok [] := rfl
  rw [hlost]
  intro h
  cases h

end CksRuntime
