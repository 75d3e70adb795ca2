import CksRuntime.Projection.OutboxWorker
import CksRuntime.Runtime.Proof.Desk

/-!
# What the embedding index comes to hold

A task writes the difference between the contents its version and the one before it were created at,
whenever it is worked off (`work_eq`), and that difference carries the one's entries to the other's
(`carries_taskWrites`). So the worker refines `DeltaIndex`, and the order of the tasks decides.
-/

set_option autoImplicit false

namespace CksRuntime

open DeltaIndex Transition

variable {K : Core} {view : EmbeddingView K}

/-! ## The writes of a task -/

/-- The entries of the version before; a first version has none before it. -/
def entriesBefore (view : EmbeddingView K) (old : Option K.Structure) : Contents String String :=
  (old.map view.entry).getD fun _ => none

theorem entry_eq_some {s : K.Structure} {objectId text : String} :
    view.entry s objectId = some text ↔ ∃ obj, K.get s objectId = some obj ∧
      view.isRelation obj = false ∧ view.formatForEmbedding obj = text := by
  simp only [EmbeddingView.entry, Option.map_eq_some_iff, Option.filter_eq_some_iff,
    decide_eq_true_eq, Bool.not_eq_true]
  constructor
  · rintro ⟨obj, ⟨hget, hrel⟩, htext⟩
    exact ⟨obj, hget, hrel, htext⟩
  · rintro ⟨obj, hget, hrel, htext⟩
    exact ⟨obj, ⟨hget, hrel⟩, htext⟩

/-- What is embedded is what the new structure has. -/
theorem get_of_mem_objectsToEmbed (hids : K.IdentityLaw) {t : K.Structure}
    {patch : Option (List K.Operator)} {obj : K.Obj} (h : obj ∈ objectsToEmbed view t patch) :
    K.get t (K.identityId obj) = some obj ∧ view.isRelation obj = false := by
  obtain ⟨hmem, hrel⟩ := List.mem_filter.1 h
  refine ⟨?_, by simpa using hrel⟩
  cases patch with
  | none => exact get_of_mem hids hmem
  | some patch =>
    obtain ⟨op, -, hop⟩ := List.mem_filterMap.1 hmem
    obtain ⟨o, -, hget⟩ := Option.bind_eq_some_iff.1 hop
    rw [(mem_of_get hget).2]
    exact hget

theorem taskWrites_eq_ok {old : Option K.Structure} {t : K.Structure} {writes : List IndexWrite}
    (h : taskWrites view old t = .ok writes) : ∃ patch,
    writes = (idsToRemove patch).map deleteObjectEmbeddings ++
      (objectsToEmbed view t patch).map (fun obj =>
        saveObjectEmbeddings (K.identityId obj) (view.formatForEmbedding obj)) ∧
    (old = none ∧ patch = none ∨
      ∃ s p, old = some s ∧ patch = some p ∧ K.diff s t = .ok p) := by
  unfold taskWrites at h
  cases old with
  | none => exact ⟨none, (Except.ok.inj h).symm, .inl ⟨rfl, rfl⟩⟩
  | some s =>
    cases hdiff : K.diff s t with
    | error e =>
      simp only [hdiff] at h
      cases h
    | ok p =>
      simp only [hdiff] at h
      exact ⟨some p, (Except.ok.inj h).symm, .inr ⟨s, p, rfl, rfl, hdiff⟩⟩

section
variable {old : Option K.Structure} {t : K.Structure} {patch : Option (List K.Operator)}
  {objectId : String} {obj : K.Obj}

/-- An object that is not as it was before is embedded. -/
theorem mem_objectsToEmbed (hdiff : K.DiffLaw view.isRelation)
    (hpatch : old = none ∧ patch = none ∨
      ∃ s p, old = some s ∧ patch = some p ∧ K.diff s t = .ok p)
    (hget : K.get t objectId = some obj) (hrel : view.isRelation obj = false)
    (hnew : ∀ s ∈ old, K.get s objectId ≠ some obj) : obj ∈ objectsToEmbed view t patch := by
  refine List.mem_filter.2 ⟨?_, by simpa using hrel⟩
  obtain ⟨rfl, rfl⟩ | ⟨s, p, rfl, rfl, hp⟩ := hpatch
  · exact (mem_of_get hget).1
  · obtain ⟨op, hop, o, ho, hid⟩ := hdiff.added s t p hp objectId obj hget hrel (hnew s rfl)
    exact List.mem_filterMap.2 ⟨op, hop, by rw [ho, Option.bind_some, hid, hget]⟩

/-- An id that is removed and not embedded again has no entry. -/
theorem entry_of_mem_idsToRemove (hdiff : K.DiffLaw view.isRelation)
    (hpatch : old = none ∧ patch = none ∨
      ∃ s p, old = some s ∧ patch = some p ∧ K.diff s t = .ok p)
    (hremove : objectId ∈ idsToRemove patch)
    (hembed : ¬∃ obj ∈ objectsToEmbed view t patch, K.identityId obj = objectId) :
    view.entry t objectId = none := by
  by_contra hne
  obtain ⟨text, htext⟩ := Option.ne_none_iff_exists'.1 hne
  obtain ⟨obj, hget, hrel, -⟩ := entry_eq_some.1 htext
  refine hembed ⟨obj, mem_objectsToEmbed hdiff hpatch hget hrel ?_, (mem_of_get hget).2⟩
  intro s hs hsame
  obtain ⟨-, rfl⟩ | ⟨s', p, rfl, rfl, hp⟩ := hpatch
  · simp [idsToRemove] at hremove
  · obtain rfl := Option.some.inj hs
    obtain ⟨op, hop, hid⟩ := List.mem_filterMap.1 hremove
    split at hid
    · cases hid
    · exact hdiff.only_removed s' t p hp op hop objectId hid (hsame.trans hget.symm)

theorem mem_idsToRemove (hdiff : K.DiffLaw view.isRelation) {s : K.Structure}
    {p : List K.Operator} (hp : K.diff s t = .ok p) (hs : K.get s objectId = some obj)
    (hrel : view.isRelation obj = false) (hgone : K.get t objectId ≠ some obj) :
    objectId ∈ idsToRemove (some p) := by
  obtain ⟨op, hop, hadd, hremove⟩ := hdiff.removed s t p hp objectId obj hs hrel hgone
  refine List.mem_filterMap.2 ⟨op, hop, ?_⟩
  rw [hadd, hremove]
  rfl

/-- An id that is neither removed nor embedded has the entry it had. -/
theorem entriesBefore_eq (hdiff : K.DiffLaw view.isRelation)
    (hpatch : old = none ∧ patch = none ∨
      ∃ s p, old = some s ∧ patch = some p ∧ K.diff s t = .ok p)
    (hremove : objectId ∉ idsToRemove patch)
    (hembed : ¬∃ obj ∈ objectsToEmbed view t patch, K.identityId obj = objectId) :
    entriesBefore view old objectId = view.entry t objectId := by
  cases hcur : view.entry t objectId with
  | some text =>
    obtain ⟨obj, hget, hrel, htext⟩ := entry_eq_some.1 hcur
    -- it would be embedded if it had not been there before
    have hbefore : ∃ s ∈ old, K.get s objectId = some obj := by
      by_contra hnew
      simp only [not_exists, not_and] at hnew
      have hmem := mem_objectsToEmbed hdiff hpatch hget hrel hnew
      exact hembed ⟨obj, hmem, (mem_of_get hget).2⟩
    obtain ⟨s, rfl, hs⟩ := hbefore
    exact entry_eq_some.2 ⟨obj, hs, hrel, htext⟩
  | none =>
    by_contra hne
    obtain ⟨text, htext⟩ := Option.ne_none_iff_exists'.1 hne
    obtain ⟨rfl, -⟩ | ⟨s, p, rfl, rfl, hp⟩ := hpatch
    · cases htext
    · obtain ⟨obj, hs, hrel, htext⟩ := entry_eq_some.1 htext
      refine hremove (mem_idsToRemove hdiff hp hs hrel fun hget => ?_)
      rw [entry_eq_some.2 ⟨obj, hget, hrel, htext⟩] at hcur
      cases hcur

end

theorem mem_keys_saves {objs : List K.Obj} {objectId : String} :
    objectId ∈ keys (objs.map fun obj =>
      saveObjectEmbeddings (K.identityId obj) (view.formatForEmbedding obj)) ↔
      ∃ obj ∈ objs, K.identityId obj = objectId := by
  simp [keys, saveObjectEmbeddings]

theorem mem_keys_deletions {ids : List String} {objectId : String} :
    objectId ∈ keys (ids.map deleteObjectEmbeddings) ↔ objectId ∈ ids := by
  simp [keys, deleteObjectEmbeddings]

/-- A task carries the entries of the version before to those of its own. -/
theorem carries_taskWrites (hids : K.IdentityLaw) (hdiff : K.DiffLaw view.isRelation)
    {old : Option K.Structure} {t : K.Structure} {writes : List IndexWrite}
    (h : taskWrites view old t = .ok writes) :
    Carries (entriesBefore view old) (view.entry t) writes := by
  obtain ⟨patch, rfl, hpatch⟩ := taskWrites_eq_ok h
  constructor
  · intro c objectId hkey
    rw [mem_keys_append, mem_keys_deletions, mem_keys_saves] at hkey
    rw [apply_append]
    by_cases hembed : ∃ obj ∈ objectsToEmbed view t patch, K.identityId obj = objectId
    · -- the last write is a save
      apply apply_of_forall (mem_keys_saves.2 hembed)
      intro x hx hid
      obtain ⟨obj, hobj, rfl⟩ := List.mem_map.1 hx
      obtain ⟨hget, hrel⟩ := get_of_mem_objectsToEmbed hids hobj
      obtain rfl : K.identityId obj = objectId := hid
      exact (entry_eq_some.2 ⟨obj, hget, hrel, rfl⟩).symm
    · -- it is a deletion
      have hremove := hkey.resolve_right hembed
      rw [apply_of_notMem (mt mem_keys_saves.1 hembed),
        entry_of_mem_idsToRemove hdiff hpatch hremove hembed]
      apply apply_of_forall (mem_keys_deletions.2 hremove)
      intro x hx _
      obtain ⟨id, -, rfl⟩ := List.mem_map.1 hx
      rfl
  · intro objectId hkey
    rw [mem_keys_append, mem_keys_deletions, mem_keys_saves, not_or] at hkey
    exact entriesBefore_eq hdiff hpatch hkey.1 hkey.2

/-! ## The worker refines the index of deltas -/

/-- A version as the index sees it, by the structure it was created at and the one before. -/
def indexVersion (view : EmbeddingView K) (old : Option K.Structure) (v : Version K)
    (t : K.Structure) : DeltaIndex.Version String String String where
  name := v.versionId
  contents := view.entry t
  delta := (taskWrites view old t).toOption

/-- The versions of a history, as the index sees them. -/
def indexVersions (view : EmbeddingView K) (old : Option K.Structure) :
    List (Version K) → List K.Structure → List (DeltaIndex.Version String String String)
  | v :: history, t :: states =>
    indexVersion view old v t :: indexVersions view (some t) history states
  | _, _ => []

theorem indexVersions_snoc {old : Option K.Structure} {history : List (Version K)}
    {states : List K.Structure} (hlen : history.length = states.length) (v : Version K)
    (t : K.Structure) : indexVersions view old (history ++ [v]) (states ++ [t]) =
      indexVersions view old history states ++ [indexVersion view (states.getLast?.or old) v t] := by
  induction history generalizing old states with
  | nil =>
    obtain rfl := List.length_eq_zero_iff.1 hlen.symm
    rfl
  | cons u history ih =>
    cases states with
    | nil => simp at hlen
    | cons s states =>
      rw [List.cons_append, List.cons_append, indexVersions, ih (by simpa using hlen),
        indexVersions, List.cons_append]
      cases states with
      | nil => simp
      | cons s' states => simp [List.getLast?_cons]

theorem indexVersions_getElem {old : Option K.Structure} {history : List (Version K)}
    {states : List K.Structure} (hlen : history.length = states.length) (i : Nat) :
    (indexVersions view old history states)[i]? =
      (history[i]?.bind fun v => states[i]?.map fun t =>
        indexVersion view ((states.take i).getLast?.or old) v t) := by
  induction history generalizing old states i with
  | nil => simp [indexVersions]
  | cons u history ih =>
    cases states with
    | nil => simp at hlen
    | cons s states =>
      rw [indexVersions]
      cases i with
      | zero => simp
      | succ i =>
        simp only [List.getElem?_cons_succ]
        rw [ih (by simpa using hlen)]
        simp only [List.take_succ_cons, List.getLast?_cons]
        cases (states.take i).getLast? <;> simp

/-- The stored session is what the versions record, by the structures they were created at. -/
structure Recorded (w : ProjectionWorld K) (states : List K.Structure) : Prop where
  chronicle : Chronicle Records none w.session.versionHistory states
  current : ∀ t ∈ states.getLast?, t = w.session.knowledgeStructure
  nodup : (w.session.versionHistory.map (·.versionId)).Nodup
  named : ∀ v ∈ w.session.versionHistory, v.versionId ≠ ""

/-- A task writes the difference its version made, whenever it is worked off. -/
theorem work_eq (hp : K.PatchLaw) {w : ProjectionWorld K}
    {states : List K.Structure} (h : Recorded w states) {i : Nat} {v : Version K} {t : K.Structure}
    (hv : w.session.versionHistory[i]? = some v) (ht : states[i]? = some t) :
    w.work view v.versionId = taskWrites view (states.take i).getLast? t := by
  have hstate := getVersionState_eq hp h.chronicle h.nodup hv ht
  have hindex := versionIndex_eq h.nodup hv
  unfold ProjectionWorld.work executeTask
  simp only [reconstructWithRetry, hstate, bind, Except.bind, resolvePrevious, hindex]
  cases i with
  | zero => rfl
  | succ i =>
    have hlt : i + 1 < states.length := (List.getElem?_eq_some_iff.1 ht).1
    obtain ⟨s, hs⟩ : ∃ s, states[i]? = some s := ⟨_, List.getElem?_eq_getElem (by omega)⟩
    obtain ⟨u, hu⟩ : ∃ u, w.session.versionHistory[i]? = some u :=
      ⟨_, List.getElem?_eq_getElem (by rw [h.chronicle.length_eq]; omega)⟩
    have hstate' := getVersionState_eq hp h.chronicle h.nodup hu hs
    have hne := h.named u (List.mem_of_getElem? hu)
    have hlast : (states.take (i + 1)).getLast? = some s := by
      rw [List.getLast?_take]
      simp [hs]
    simp only [hu, Option.map_some, Option.filter_some, hne, ne_eq, not_false_eq_true,
      decide_true, if_true, hstate', hlast]
    rfl

/-- The worker's tasks and index are those of a run of the index. -/
structure Refines (view : EmbeddingView K) (w : ProjectionWorld K)
    (s : DeltaIndex.State String String String) : Prop where
  reachable : (DeltaIndex.system String String String).Reachable s
  pending : s.pending = w.pending
  completed : s.completed = w.completed
  index : s.index = w.index
  versions : ∃ states, Recorded w states ∧
    s.versions = indexVersions view none w.session.versionHistory states

section
variable {w w' : ProjectionWorld K} {s : DeltaIndex.State String String String}

/-- The versions of both sides, one by one. -/
theorem Refines.version (h : Refines view w s) (hp : K.PatchLaw)
    {u : DeltaIndex.Version String String String} (hu : u ∈ s.versions) :
    u.delta = (w.work view u.name).toOption ∧
      ∃ t, w.session.getVersionState u.name = .ok t ∧ u.contents = view.entry t := by
  obtain ⟨states, hrec, hversions⟩ := h.versions
  obtain ⟨i, hi⟩ := List.mem_iff_getElem?.1 (hversions ▸ hu)
  rw [indexVersions_getElem hrec.chronicle.length_eq] at hi
  obtain ⟨v, hv, hi⟩ := Option.bind_eq_some_iff.1 hi
  obtain ⟨t, ht, rfl⟩ := Option.map_eq_some_iff.1 hi
  refine ⟨?_, t, getVersionState_eq hp hrec.chronicle hrec.nodup hv ht, rfl⟩
  show (taskWrites view _ t).toOption = (w.work view v.versionId).toOption
  rw [work_eq hp hrec hv ht, Option.or_none]

theorem Refines.names (h : Refines view w s) :
    s.versions.map (·.name) = w.session.versionHistory.map (·.versionId) := by
  obtain ⟨states, hrec, hversions⟩ := h.versions
  rw [hversions]
  have hlen := hrec.chronicle.length_eq
  generalize w.session.versionHistory = history at hlen
  generalize none = old
  clear hrec hversions
  induction history generalizing old states with
  | nil => rfl
  | cons u history ih =>
    cases states with
    | nil => simp at hlen
    | cons t states =>
      rw [indexVersions, List.map_cons, List.map_cons, ih _ (by simpa using hlen)]
      rfl

theorem latest_eq {states : List K.Structure} (hrec : Recorded w states)
    (hversions : s.versions = indexVersions view none w.session.versionHistory states) :
    s.latest = entriesBefore view states.getLast? := by
  have hlen := hrec.chronicle.length_eq
  rw [State.latest, hversions]
  generalize w.session.versionHistory = history at hlen
  obtain rfl | ⟨states, t, rfl⟩ := states.eq_nil_or_concat
  · obtain rfl := List.length_eq_zero_iff.1 hlen
    rfl
  · obtain rfl | ⟨history, v, rfl⟩ := history.eq_nil_or_concat
    · simp at hlen
    · rw [List.concat_eq_append, List.concat_eq_append, indexVersions_snoc (by simpa using hlen)]
      simp [entriesBefore, indexVersion]

theorem refines_commit (hr : K.ReplayLaw) (hids : K.IdentityLaw) (hdiff : K.DiffLaw view.isRelation)
    (h : Refines view w s) {env : Env K} {session : Session K} {v : Version K}
    (hhistory : session.versionHistory = w.session.versionHistory)
    (hbuild : Pipeline.buildVersion env session w.session.knowledgeStructure = .ok v)
    (hfresh : ∀ u ∈ w.session.versionHistory, u.versionId ≠ v.versionId) (hne : v.versionId ≠ "") :
    ∃ s', Refines view { w with
      session := { session with versionHistory := session.versionHistory ++ [v] }
      pending := w.pending ++ [v.versionId] } s' := by
  obtain ⟨states, hrec, hversions⟩ := h.versions
  have hlatest := latest_eq hrec hversions
  -- the index makes the version that the commit does
  let u := indexVersion view states.getLast? v session.knowledgeStructure
  refine ⟨{ s with versions := s.versions ++ [u], pending := s.pending ++ [u.name] },
    .step (l := ()) h.reachable (.make s u ?_ ?_), ?_, h.completed, h.index, ?_⟩
  · intro x hx hname
    have hmem := List.mem_map_of_mem (f := fun x => x.name) hx
    rw [h.names] at hmem
    obtain ⟨y, hy, hyname⟩ := List.mem_map.1 hmem
    exact hfresh y hy (hyname.trans hname)
  · intro d hd
    rw [hlatest]
    apply carries_taskWrites hids hdiff
    cases hwrites : taskWrites view states.getLast? session.knowledgeStructure with
    | error e => simp [u, indexVersion, hwrites, Except.toOption] at hd
    | ok writes =>
      simp only [u, indexVersion, hwrites, Except.toOption, Option.mem_def,
        Option.some.injEq] at hd
      rw [hd]
  · show s.pending ++ [v.versionId] = w.pending ++ [v.versionId]
    rw [h.pending]
  · refine ⟨states ++ [session.knowledgeStructure], ⟨?_, by simp, ?_, ?_⟩, ?_⟩
    · exact chronicle_append (hhistory ▸ hrec.chronicle) hrec.current hbuild fun _ => hr _ _
    · show ((session.versionHistory ++ [v]).map (·.versionId)).Nodup
      rw [hhistory]
      exact nodup_append hrec.nodup hfresh
    · intro x hx
      obtain hx | hx := List.mem_append.1 hx
      · exact hrec.named x (hhistory ▸ hx)
      · rw [List.mem_singleton.1 hx]
        exact hne
    · show s.versions ++ [u] = indexVersions view none (session.versionHistory ++ [v]) _
      rw [hhistory, indexVersions_snoc hrec.chronicle.length_eq, hversions, Option.or_none]

/-- The version whose task is tried, as the index sees it. -/
theorem Refines.tried (h : Refines view w s) (hp : K.PatchLaw)
    {versionId : String} {writes : List IndexWrite} (hpending : versionId ∈ w.pending)
    (hwork : w.work view versionId = .ok writes) :
    ∃ u ∈ s.versions, u.name = versionId ∧ u.delta = some writes := by
  obtain ⟨hinv, -⟩ := inv_of_reachable h.reachable
  obtain ⟨u, hu, rfl⟩ := hinv.known versionId (.inl (h.pending ▸ hpending))
  refine ⟨u, hu, rfl, ?_⟩
  rw [(h.version hp hu).1, hwork]
  rfl

theorem exists_refines (hp : K.PatchLaw) (hr : K.ReplayLaw) (hids : K.IdentityLaw)
    (hdiff : K.DiffLaw view.isRelation) (h : (ProjectionWorld.system view).Reachable w) :
    ∃ s, Refines view w s := by
  refine h.invariant (P := fun w => ∃ s, Refines view w s) ?_ ?_
  · intro w hinit
    obtain ⟨hhistory, hw⟩ := hinit
    refine ⟨{}, .init rfl, by rw [hw], by rw [hw], by rw [hw], [], ⟨?_, by simp, ?_, ?_⟩, ?_⟩
    · rw [hhistory]
      exact .nil none
    · simp [hhistory]
    · simp [hhistory]
    · rw [hhistory]
      rfl
  · intro w l w' _ hs hstep
    obtain ⟨s, hs⟩ := hs
    cases hstep with
    | commit env session v hhistory hbuild hfresh hne =>
      exact refines_commit hr hids hdiff hs hhistory hbuild hfresh hne
    | failEarly => exact ⟨s, hs⟩
    | fail versionId writes n hpending hwork =>
      -- a try writes a first part of the delta
      obtain ⟨u, hu, rfl, hdelta⟩ := hs.tried hp hpending hwork
      refine ⟨{ s with index := apply s.index (writes.take n) }, .step (l := ()) hs.reachable
        (.stop s u writes n hu (hs.pending ▸ hpending) hdelta), hs.pending, hs.completed, ?_, ?_⟩
      · show apply s.index _ = apply w.index _
        rw [hs.index]
      · obtain ⟨states, hrec, hversions⟩ := hs.versions
        exact ⟨states, ⟨hrec.chronicle, hrec.current, hrec.nodup, hrec.named⟩, hversions⟩
    | complete versionId writes hpending hwork =>
      obtain ⟨u, hu, rfl, hdelta⟩ := hs.tried hp hpending hwork
      refine ⟨_, .step (l := ()) hs.reachable
        (.complete s u writes hu (hs.pending ▸ hpending) hdelta), ?_, ?_, ?_, ?_⟩
      · show s.pending.erase u.name = w.pending.erase u.name
        rw [hs.pending]
      · show s.completed ++ [u.name] = w.completed ++ [u.name]
        rw [hs.completed]
      · show apply s.index _ = apply w.index _
        rw [hs.index]
      · obtain ⟨states, hrec, hversions⟩ := hs.versions
        exact ⟨states, ⟨hrec.chronicle, hrec.current, hrec.nodup, hrec.named⟩, hversions⟩

/-! ## Once all tasks are done -/

theorem Refines.latestEntry (h : Refines view w s) (hp : K.PatchLaw) :
    w.latestEntry view = s.latest := by
  obtain ⟨states, hrec, hversions⟩ := h.versions
  rw [latest_eq hrec hversions]
  funext objectId
  unfold ProjectionWorld.latestEntry Session.latestVersionId
  cases hlast : w.session.versionHistory.getLast? with
  | none =>
    have hnil : w.session.versionHistory = [] := List.getLast?_eq_none_iff.1 hlast
    have hstates : states = [] := by
      rw [← List.length_eq_zero_iff, ← hrec.chronicle.length_eq, hnil]
      rfl
    rw [hstates]
    rfl
  | some v =>
    have hv : w.session.versionHistory[states.length - 1]? = some v := by
      rw [← hrec.chronicle.length_eq, ← List.getLast?_eq_getElem?, hlast]
    have hlt := (List.getElem?_eq_some_iff.1 hv).1
    rw [hrec.chronicle.length_eq] at hlt
    obtain ⟨t, ht⟩ : ∃ t, states[states.length - 1]? = some t := ⟨_, List.getElem?_eq_getElem hlt⟩
    rw [List.getLast?_eq_getElem?, ht]
    simp only [Option.map_some,
      getVersionState_eq hp hrec.chronicle hrec.nodup hv ht]
    rfl

theorem Refines.touches (h : Refines view w s) (hp : K.PatchLaw)
    {u : DeltaIndex.Version String String String} (hu : u ∈ s.versions) {objectId : String} :
    s.Touches u.name objectId ↔ w.Touches view u.name objectId := by
  obtain ⟨hinv, -⟩ := inv_of_reachable h.reachable
  rw [State.touches_iff hinv.nodup hu, (h.version hp hu).1]
  unfold ProjectionWorld.Touches
  cases w.work view u.name with
  | error e => simp [Except.toOption]
  | ok writes => simp [Except.toOption]

theorem Refines.lastTouch (h : Refines view w s) (hp : K.PatchLaw)
    {u : DeltaIndex.Version String String String} (hu : u ∈ s.versions) {objectId : String} :
    s.LastTouch u.name objectId ↔ w.LastTouch view u.name objectId := by
  obtain ⟨hinv, -⟩ := inv_of_reachable h.reachable
  have hother : ∀ name ∈ w.completed, s.Touches name objectId ↔ w.Touches view name objectId := by
    intro name hname
    obtain ⟨x, hx, rfl⟩ := hinv.known name (.inr (h.completed ▸ hname))
    exact h.touches hp hx
  unfold State.LastTouch ProjectionWorld.LastTouch
  rw [h.touches hp hu, h.completed]
  refine and_congr_right fun _ => exists_congr fun before => exists_congr fun after =>
    and_congr_right fun hsplit => forall₂_congr fun name hname => not_congr (hother name ?_)
  rw [hsplit]
  exact List.mem_append_right _ (List.mem_cons_of_mem _ hname)

/-- Once all tasks are completed, the index is that of the latest version if and only if the last
completed task that touched an object is of a version that has it as the latest has. -/
theorem index_current_iff (hp : K.PatchLaw) (hr : K.ReplayLaw) (hids : K.IdentityLaw)
    (hdiff : K.DiffLaw view.isRelation) (h : (ProjectionWorld.system view).Reachable w)
    (hdone : w.pending = []) :
    (∀ objectId, w.index objectId = w.latestEntry view objectId) ↔
      ∀ versionId objectId t, w.LastTouch view versionId objectId →
        w.session.getVersionState versionId = .ok t →
        view.entry t objectId = w.latestEntry view objectId := by
  obtain ⟨s, hs⟩ := exists_refines hp hr hids hdiff h
  obtain ⟨hinv, -⟩ := inv_of_reachable hs.reachable
  have hiff := index_eq_iff hs.reachable (by rw [hs.pending, hdone])
  rw [hs.latestEntry hp, ← hs.index]
  constructor
  · intro hindex versionId objectId t hlast ht
    have hmem : versionId ∈ s.completed := by
      obtain ⟨-, before, after, hsplit, -⟩ := hlast
      simp [hs.completed, hsplit]
    obtain ⟨u, hu, rfl⟩ := hinv.known versionId (.inr hmem)
    obtain ⟨-, t', ht', hcontents⟩ := hs.version hp hu
    rw [ht] at ht'
    obtain rfl := Except.ok.inj ht'
    rw [← hcontents]
    exact (hiff objectId).1 (hindex objectId) u hu ((hs.lastTouch hp hu).2 hlast)
  · intro hlast objectId
    refine (hiff objectId).2 fun u hu htouch => ?_
    obtain ⟨-, t, ht, hcontents⟩ := hs.version hp hu
    rw [hcontents]
    exact hlast u.name objectId t ((hs.lastTouch hp hu).1 htouch) ht

end

/-! ## An object that comes back -/

/-- An object, as the worker looks at it. -/
def slotView : EmbeddingView Core.slot where
  isRelation _ := false
  name obj := obj
  type _ := "Concept"
  description _ := none

/-- A session of the slot. -/
def slotSession (content : Option String) (versionHistory : List (Version Core.slot)) :
    Session Core.slot where
  knowledgeStructure := content
  sessionId := "s"
  versionHistory := versionHistory

/-- A version of it. -/
def slotVersion (versionId : String) (content : Option (Option String))
    (patch : Option (List SlotOperator)) : Version Core.slot where
  versionId := versionId
  sessionId := "s"
  transactionId := ""
  knowledgeStructure := content
  metadata := {}
  stateHash := some ()
  patch := patch
  createdAt := 0

/-- The first version puts an object into the slot, the second takes it out. -/
def slotHistory : List (Version Core.slot) :=
  [slotVersion "v1" (some (some "a")) none, slotVersion "v2" none (some [.remove])]

/-- Both versions are committed. -/
def bothCommitted : ProjectionWorld Core.slot where
  session := slotSession none slotHistory
  pending := ["v1", "v2"]

theorem bothCommitted_reachable : (ProjectionWorld.system slotView).Reachable bothCommitted := by
  have hempty : (ProjectionWorld.system slotView).Reachable { session := slotSession none [] } :=
    .init ⟨rfl, rfl⟩
  have hfirst := hempty.step (.commit _ { replicaId := none, versionId := "v1" }
    (slotSession (some "a") []) (slotVersion "v1" (some (some "a")) none) rfl rfl
    (by simp [slotSession]) (by decide))
  exact hfirst.step (.commit _ { replicaId := none, versionId := "v2" }
    (slotSession none [slotVersion "v1" (some (some "a")) none])
    (slotVersion "v2" none (some [.remove])) rfl rfl (by simp [slotSession, slotVersion])
    (by decide))

theorem work_first (w : ProjectionWorld Core.slot) (h : w.session = slotSession none slotHistory) :
    w.work slotView "v1" = .ok [("x", some "a (Concept): ")] := by
  rw [ProjectionWorld.work, h]
  rfl

theorem work_second (w : ProjectionWorld Core.slot) (h : w.session = slotSession none slotHistory) :
    w.work slotView "v2" = .ok [("x", none)] := by
  rw [ProjectionWorld.work, h]
  rfl

/-- The tasks are completed in the order of the commits. -/
def inOrder : ProjectionWorld Core.slot where
  session := slotSession none slotHistory
  completed := ["v1", "v2"]
  index := apply (apply (fun _ => none) [("x", some "a (Concept): ")]) [("x", none)]

/-- The second task is completed first. -/
def outOfOrder : ProjectionWorld Core.slot where
  session := slotSession none slotHistory
  completed := ["v2", "v1"]
  index := apply (apply (fun _ => none) [("x", none)]) [("x", some "a (Concept): ")]

theorem inOrder_reachable : (ProjectionWorld.system slotView).Reachable inOrder :=
  .step (.step bothCommitted_reachable (.complete _ "v1" _ (by simp [bothCommitted])
    (work_first _ rfl))) (.complete _ "v2" _ (by simp [bothCommitted]) (work_second _ rfl))

theorem outOfOrder_reachable : (ProjectionWorld.system slotView).Reachable outOfOrder :=
  .step (.step bothCommitted_reachable (.complete _ "v2" _ (by simp [bothCommitted])
    (work_second _ rfl))) (.complete _ "v1" _ (by simp [bothCommitted]) (work_first _ rfl))

theorem index_current_inOrder : inOrder.index "x" = inOrder.latestEntry slotView "x" := by
  refine (index_current_iff slot_patchLaw slot_replayLaw slot_identityLaw slot_diffLaw
    inOrder_reachable rfl).2 ?_ "x"
  intro versionId objectId t hlast ht
  obtain ⟨htouch, before, after, hsplit, hafter⟩ := hlast
  have hcases : versionId = "v1" ∧ after = ["v2"] ∨ versionId = "v2" := by
    match before, hsplit with
    | [], hsplit =>
      simp only [inOrder, List.nil_append, List.cons.injEq] at hsplit
      exact .inl ⟨hsplit.1.symm, hsplit.2.symm⟩
    | [_], hsplit =>
      simp only [inOrder, List.cons_append, List.nil_append, List.cons.injEq] at hsplit
      exact .inr hsplit.2.1.symm
    | _ :: _ :: _, hsplit => simp [inOrder] at hsplit
  obtain ⟨rfl, rfl⟩ | rfl := hcases
  · -- the second task touches the object as well
    obtain ⟨writes, hwork, hmem⟩ := htouch
    rw [work_first _ rfl] at hwork
    obtain rfl := Except.ok.inj hwork
    refine absurd ⟨_, work_second inOrder rfl, ?_⟩ (hafter "v2" (by simp))
    simpa [keys] using hmem
  · have hlatest : inOrder.session.latestVersionId = some "v2" := rfl
    rw [ProjectionWorld.latestEntry, hlatest, Option.map_some, ht]

/-- An object that is gone is in the index, since the task of the version that had it came last. -/
theorem removed_object_embedded : ¬∀ w : ProjectionWorld Core.slot,
    (ProjectionWorld.system slotView).Reachable w → w.pending = [] →
      ∀ objectId, w.index objectId = w.latestEntry slotView objectId := by
  intro hclaim
  have hindex := hclaim outOfOrder outOfOrder_reachable rfl "x"
  have hgone : outOfOrder.latestEntry slotView "x" = none := rfl
  rw [hgone] at hindex
  cases hindex

end CksRuntime
