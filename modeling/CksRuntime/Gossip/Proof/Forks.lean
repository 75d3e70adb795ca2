import CksRuntime.Gossip.Forks
import CksRuntime.Gossip.Proof.Redelivery

/-!
# No fork is forgotten

While a key has more than one pointer, they are about to be read, or have been read as they are, or
stand on the list as they are (`Accounted`). A call changes either none of this or the pointers, and
whoever changes these to more than one has yet to read them. So once no merge is at the key its fork
is on the list (`fork_listed`), and a merge that nothing comes between is a run of such calls
(`mergeCrdtObjects_path`).
-/

set_option autoImplicit false

namespace CksRuntime.Crdt

open Transition MultiValue

theorem ForkRow.map_eventId_markForkResolved (rows : List ForkRow) (eventId : String) :
    (markForkResolved rows eventId).map (·.eventId) = rows.map (·.eventId) := by
  rw [markForkResolved, List.map_map]
  refine List.map_congr_left fun row _ => ?_
  rw [Function.comp_apply]
  split <;> rfl

theorem getPointers_congr {backend : Backend} {register register' : MVRegister} {key : Text}
    (h : register' key = register key) :
    getPointers backend register' key = getPointers backend register key := by
  unfold getPointers
  rw [h]

namespace Forks

variable {ι : Type} {backend : Backend} {w w' : Forks ι} {l : ForkCall ι}
  {key : Text}

/-! ## What accounts for a fork -/

/-- A row that lists the key's present pointers, and that nobody may take off the list. -/
def Reported (backend : Backend) (w : Forks ι) (key : Text) (row : ForkRow) : Prop :=
  row ∈ w.rows ∧ row.status = .pending ∧ row.eventId ∉ w.arbitrated ∧
    row.event = forkEvent key (getPointers backend w.register key)

/-- A merge has yet to look at the bucket, or has seen it as it is, or a row reports it. -/
def Accounted (backend : Backend) (w : Forks ι) (key : Text) : Prop :=
  (∃ i, w.merges i = some (key, .applied)) ∨
    (∃ i, w.merges i = some (key, .found (getPointers backend w.register key))) ∨
      ∃ row, Reported backend w key row

/-- A call that leaves the key's pointers, the merges at it and its reports accounts for it as
before. -/
theorem Accounted.frame (h : Accounted backend w key) (hkey : w'.register key = w.register key)
    (hmerges : ∀ i check, w.merges i = some (key, check) → w'.merges i = some (key, check))
    (hrows : ∀ row ∈ w.rows, row.status = .pending → row.eventId ∉ w.arbitrated →
      row.event.pointerKey = key → row ∈ w'.rows ∧ row.eventId ∉ w'.arbitrated) :
    Accounted backend w' key := by
  obtain ⟨i, hi⟩ | ⟨i, hi⟩ | ⟨row, hrow, hpending, hopen, hevent⟩ := h
  · exact .inl ⟨i, hmerges i _ hi⟩
  · refine .inr (.inl ⟨i, ?_⟩)
    rw [getPointers_congr hkey]
    exact hmerges i _ hi
  · obtain ⟨hrow', hopen'⟩ := hrows row hrow hpending hopen (by rw [hevent]; rfl)
    exact .inr (.inr ⟨row, hrow', hpending, hopen', by rw [hevent, getPointers_congr hkey]⟩)

theorem not_at_of_ne {i : ι} {key' : Text} {check : ForkCheck}
    (hi : w.merges i = some (key', check)) (hne : key ≠ key') (check' : ForkCheck) :
    w.merges i ≠ some (key, check') := by
  rw [hi]
  intro h
  cases h
  exact hne rfl

theorem forked_congr (hkey : w'.register key = w.register key) :
    w'.Forked backend key ↔ w.Forked backend key := by
  unfold Forked
  rw [getPointers_congr hkey]

/-! ## What is recorded -/

/-- Every event has an id of its own, and what is arbitrated is recorded. -/
structure Filed (w : Forks ι) : Prop where
  eventIds : (w.rows.map (·.eventId)).Nodup
  arbitrated : ∀ eventId ∈ w.arbitrated, eventId ∈ w.rows.map (·.eventId)

theorem eventsOf_recorded {eventId : String} (h : eventId ∈ w.eventsOf key) :
    eventId ∈ w.rows.map (·.eventId) := by
  obtain ⟨row, hrow, rfl⟩ := List.mem_map.1 h
  exact List.mem_map_of_mem (List.mem_filter.1 hrow).1

variable [DecidableEq ι]

theorem Filed.step (h : Filed w) (hs : Step backend w l w') : Filed w' := by
  cases hs with
  | update _ _ _ => exact ⟨h.eventIds, h.arbitrated⟩
  | read _ => exact ⟨h.eventIds, h.arbitrated⟩
  | @escalate i key pointers eventId hi hfresh =>
    constructor
    · show ((w.rows ++ [_]).map ForkRow.eventId).Nodup
      rw [List.map_append, List.map_singleton, List.nodup_append]
      refine ⟨h.eventIds, List.nodup_singleton _, fun x hx y hy he => ?_⟩
      rw [he, List.mem_singleton.1 hy] at hx
      exact hfresh hx
    · intro x hx
      obtain ⟨row, hrow, rfl⟩ := List.mem_map.1 (h.arbitrated x hx)
      exact List.mem_map_of_mem (List.mem_append_left _ hrow)
  | stop _ => exact ⟨h.eventIds, h.arbitrated⟩
  | resolve key winner =>
    refine ⟨h.eventIds, fun x hx => ?_⟩
    simp only [resolvedPointer] at hx
    split at hx
    · exact (List.mem_append.1 hx).elim (h.arbitrated x) eventsOf_recorded
    · exact h.arbitrated x hx
  | mark eventId =>
    constructor
    · show ((ForkRow.markForkResolved w.rows eventId).map ForkRow.eventId).Nodup
      rw [ForkRow.map_eventId_markForkResolved]
      exact h.eventIds
    · show ∀ x ∈ w.arbitrated, x ∈ (ForkRow.markForkResolved w.rows eventId).map ForkRow.eventId
      rw [ForkRow.map_eventId_markForkResolved]
      exact h.arbitrated

theorem reachable_filed (hw : (system backend ι).Reachable w) : Filed w :=
  hw.invariant (fun _ h => h ▸ ⟨List.nodup_nil, fun _ h => nomatch h⟩) fun _ _ _ _ h hs => h.step hs

/-! ## A step -/

theorem setMerge_keeps {i : ι} {check' : Option (Text × ForkCheck)}
    (hi : ∀ check, w.merges i ≠ some (key, check)) (j : ι) (check : ForkCheck)
    (hj : w.merges j = some (key, check)) : (w.setMerge i check').merges j = some (key, check) := by
  have hne : j ≠ i := by
    rintro rfl
    exact hi check hj
  exact (Function.update_of_ne hne _ _).trans hj

theorem updated_register (i : ι) (key' : Text) (new : Pointer) :
    (w.updated backend i key' new).register = (updatePointer backend w.register key' new).2 := rfl

theorem updated_accounted {i : ι} (hi : w.merges i = none) (key' : Text) (new : Pointer)
    (h : w.Forked backend key → Accounted backend w key)
    (hfork : (w.updated backend i key' new).Forked backend key) :
    Accounted backend (w.updated backend i key' new) key := by
  have hat : ∀ check, w.merges i ≠ some (key, check) := fun check => by
    rw [hi]
    exact Option.some_ne_none _ |>.symm
  by_cases happlied : (updatePointer backend w.register key' new).1 = true ∧ key = key'
  · -- the merge has yet to read what it has written
    obtain ⟨happlied, rfl⟩ := happlied
    refine .inl ⟨i, ?_⟩
    exact (Function.update_self _ _ _).trans (if_pos happlied)
  · have hkey : (w.updated backend i key' new).register key = w.register key := by
      rw [updated_register]
      cases hdone : (updatePointer backend w.register key' new).1 with
      | false => rw [updatePointer_of_false backend hdone]
      | true => rw [updatePointer_apply, if_neg fun he => happlied ⟨hdone, he⟩]
    exact (h ((forked_congr hkey).1 hfork)).frame hkey (setMerge_keeps hat)
      fun row hrow _ hopen _ => ⟨hrow, hopen⟩

theorem checked_accounted {i : ι} {key' : Text} (hi : w.merges i = some (key', .applied))
    (h : w.Forked backend key → Accounted backend w key)
    (hfork : (w.checked backend i key').Forked backend key) :
    Accounted backend (w.checked backend i key') key := by
  have hfork' : w.Forked backend key := hfork
  by_cases he : key = key'
  · subst he
    refine .inr (.inl ⟨i, ?_⟩)
    exact (Function.update_self _ _ _).trans (if_neg (not_le.2 hfork'))
  · exact (h hfork').frame rfl (setMerge_keeps (not_at_of_ne hi he))
      fun row hrow _ hopen _ => ⟨hrow, hopen⟩

theorem escalated_accounted {i : ι} {key' : Text} {pointers : List Pointer} {eventId : String}
    (hfiled : Filed w) (hi : w.merges i = some (key', .found pointers))
    (hfresh : eventId ∉ w.rows.map (·.eventId)) (h : Accounted backend w key) :
    Accounted backend ({ w with
      rows := ForkRow.escalateFork w.rows eventId (forkEvent key' pointers)
      }.setMerge i none) key := by
  by_cases hit : key = key' ∧ pointers = getPointers backend w.register key
  · -- what it reports is what there is
    obtain ⟨rfl, rfl⟩ := hit
    refine .inr (.inr ⟨⟨eventId, forkEvent key (getPointers backend w.register key), .pending⟩,
      List.mem_append_right _ (List.mem_singleton_self _), rfl,
      fun harb => hfresh (hfiled.arbitrated _ harb), rfl⟩)
  · obtain ⟨j, hj⟩ | ⟨j, hj⟩ | ⟨row, hrow, hopen⟩ := h
    · refine .inl ⟨j, (Function.update_of_ne ?_ _ _).trans hj⟩
      rintro rfl
      rw [hi] at hj
      cases hj
    · refine .inr (.inl ⟨j, (Function.update_of_ne ?_ _ _).trans hj⟩)
      rintro rfl
      rw [hi] at hj
      cases hj
      exact hit ⟨rfl, rfl⟩
    · exact .inr (.inr ⟨row, List.mem_append_left _ hrow, hopen⟩)

omit [DecidableEq ι] in
theorem resolved_accounted (hfiled : Filed w) (key' winner : Text)
    (h : w.Forked backend key → Accounted backend w key)
    (hfork : (w.resolvedPointer key' winner).Forked backend key) :
    Accounted backend (w.resolvedPointer key' winner) key := by
  have hregister : (w.resolvedPointer key' winner).register key =
      if key = key' then ((w.register key').resolve winner).2 else w.register key :=
    resolvePointer_apply w.register key' winner key
  have hdone : (resolvePointer w.register key' winner).1 = ((w.register key').resolve winner).1 :=
    rfl
  rcases (w.register key').resolve_spec winner with ⟨hfalse, hsame⟩ | ⟨htrue, c, -, hsolo⟩
  · have hkey : (w.resolvedPointer key' winner).register key = w.register key := by
      rw [hregister, hsame]
      split
      · rename_i he
        rw [he]
      · rfl
    refine (h ((forked_congr hkey).1 hfork)).frame hkey (fun _ _ hi => hi)
      fun row hrow _ hopen _ => ⟨hrow, ?_⟩
    simp only [resolvedPointer, hdone, hfalse]
    exact hopen
  · by_cases he : key = key'
    · -- the winner alone is no fork
      rw [if_pos he] at hregister
      unfold Forked at hfork
      rw [GossipAdapter.length_getPointers, hregister] at hfork
      exact absurd (Bucket.length_le_one_of_solo hsolo) (not_le.2 hfork)
    · have hkey := hregister.trans (if_neg he)
      refine (h ((forked_congr hkey).1 hfork)).frame hkey (fun _ _ hi => hi)
        fun row hrow _ hopen hevent => ⟨hrow, ?_⟩
      simp only [resolvedPointer, hdone, htrue, if_true]
      intro harb
      obtain harb | harb := List.mem_append.1 harb
      · exact hopen harb
      · -- the row would have the id of one of the other key's
        obtain ⟨other, hother, hid⟩ := List.mem_map.1 harb
        obtain ⟨hin, hof⟩ := List.mem_filter.1 hother
        have hsame := List.inj_on_of_nodup_map hfiled.eventIds hin hrow hid
        rw [hsame, hevent] at hof
        exact he (of_decide_eq_true hof)

omit [DecidableEq ι] in
theorem marked_accounted {eventId : String} (harb : eventId ∈ w.arbitrated)
    (h : Accounted backend w key) :
    Accounted backend { w with rows := ForkRow.markForkResolved w.rows eventId } key := by
  refine h.frame rfl (fun _ _ hi => hi) fun row hrow _ hopen _ => ⟨?_, hopen⟩
  refine List.mem_map.2 ⟨row, hrow, if_neg ?_⟩
  rintro rfl
  exact hopen harb

/-- A call made with care keeps account of the fork. -/
theorem step_accounted (hfiled : Filed w) (hs : Step backend w l w') (hl : Careful key w l)
    (h : w.Forked backend key → Accounted backend w key) (hfork : w'.Forked backend key) :
    Accounted backend w' key := by
  cases hs with
  | update key' new hi => exact updated_accounted hi key' new h hfork
  | read hi => exact checked_accounted hi h hfork
  | escalate hi hfresh => exact escalated_accounted hfiled hi hfresh (h hfork)
  | stop i =>
    exact (h hfork).frame rfl (setMerge_keeps hl) fun row hrow _ hopen _ => ⟨hrow, hopen⟩
  | resolve key' winner => exact resolved_accounted hfiled key' winner h hfork
  | mark eventId => exact marked_accounted hl (h hfork)

/-! ## A run -/

theorem path_accounted {ls : List (ForkCall ι)}
    (hpath : ((system backend ι).restrict (Careful key)).Path w ls w') (hfiled : Filed w)
    (h : w.Forked backend key → Accounted backend w key) :
    Filed w' ∧ (w'.Forked backend key → Accounted backend w' key) := by
  induction hpath with
  | refl => exact ⟨hfiled, h⟩
  | tail _ hst ih => exact ⟨ih.1.step hst.1, step_accounted ih.1 hst.1 hst.2 ih.2⟩

/-- From a moment at which the key is not forked, or a merge has yet to read what it has written to
it, whatever merges, resolvers and crashes did before: as long as reports are taken off the list
only once the fork is resolved, and no merge is cut off at the key, a fork that no merge is at is on
the list with exactly its pointers. -/
theorem fork_listed {ls : List (ForkCall ι)} (hw : (system backend ι).Reachable w)
    (h : ¬w.Forked backend key ∨ ∃ i, w.merges i = some (key, .applied))
    (hpath : ((system backend ι).restrict (Careful key)).Path w ls w')
    (hidle : ∀ i check, w'.merges i ≠ some (key, check)) (hfork : w'.Forked backend key) :
    w'.Listed backend key := by
  have haccounted := (path_accounted hpath (reachable_filed hw)
    fun hforked => .inl (h.resolve_left (not_not.2 hforked))).2 hfork
  obtain ⟨i, hi⟩ | ⟨i, hi⟩ | ⟨row, hrow, hpending, -, hevent⟩ := haccounted
  · exact absurd hi (hidle i _)
  · exact absurd hi (hidle i _)
  · exact ⟨row, List.mem_filter.2 ⟨hrow, decide_eq_true hpending⟩, hevent⟩

/-! A fork of two writes that know nothing of each other, reported by the merge that makes it. -/

/-- The key of the fork. -/
def forkedKey : Text := ['k']

/-- A write that knows of nothing. -/
def firstPointer : Pointer := ⟨['a'], ⟨Finmap.singleton "r" 1⟩, "r", 0⟩

/-- Another one. -/
def secondPointer : Pointer := ⟨['b'], ⟨Finmap.singleton "s" 1⟩, "r", 1⟩

/-- The first merge has applied its pointer and read it back. -/
def firstChecked : Forks Unit :=
  (({} : Forks Unit).updated .inMemory () forkedKey firstPointer).checked .inMemory () forkedKey

/-- The second has, and finds two. -/
def secondChecked : Forks Unit :=
  (firstChecked.updated .inMemory () forkedKey secondPointer).checked .inMemory () forkedKey

/-- It has recorded the fork. -/
def forkEscalated : Forks Unit :=
  { secondChecked with
    rows := ForkRow.escalateFork secondChecked.rows "e"
      (forkEvent forkedKey (getPointers .inMemory secondChecked.register forkedKey))
    }.setMerge () none

/-- No bucket of the key changes while a merge looks at it. -/
def carefulSystem : System (Forks Unit) (ForkCall Unit) :=
  (system .inMemory Unit).restrict (Careful forkedKey)

theorem fork_listed_escalated : forkEscalated.Listed .inMemory forkedKey := by
  have hfirst : carefulSystem.step {} (.update () forkedKey firstPointer)
      (({} : Forks Unit).updated .inMemory () forkedKey firstPointer) := ⟨.update _ _ rfl, trivial⟩
  have hread : carefulSystem.step _ (.read ()) firstChecked := ⟨.read (by decide +kernel), trivial⟩
  have hsecond : carefulSystem.step firstChecked (.update () forkedKey secondPointer)
      (firstChecked.updated .inMemory () forkedKey secondPointer) :=
    ⟨.update _ _ (by decide +kernel), trivial⟩
  have hfound : carefulSystem.step _ (.read ()) secondChecked :=
    ⟨.read (by decide +kernel), trivial⟩
  have hreport : carefulSystem.step secondChecked (.escalate () "e") forkEscalated :=
    ⟨.escalate (by decide +kernel) (by decide +kernel), trivial⟩
  exact fork_listed (.init rfl) (.inl (by decide +kernel))
    (.tail (.tail (.tail (.tail (.tail (.refl _) hfirst) hread) hsecond) hfound) hreport)
    (fun _ _ h => nomatch h) (by decide +kernel)

/-! ## A merge that nothing comes between -/

/-- The register and the events are the store's. -/
def Shows (w : Forks ι) (store : CRDTStore) : Prop :=
  w.register = store.register ∧ w.rows.map (·.event) = store.conflictEvents

theorem exists_fresh_eventId (rows : List ForkRow) :
    ∃ eventId, eventId ∉ rows.map (·.eventId) := by
  have : Infinite String := Infinite.of_injective String.ofList fun _ _ => String.ofList_injective
  obtain ⟨eventId, hfresh⟩ := Infinite.exists_notMem_finset (rows.map (·.eventId)).toFinset
  exact ⟨eventId, fun hin => hfresh (List.mem_toFinset.2 hin)⟩

variable {Obj : Type} {leafHash identityId : Obj → Text} {replicaId : String}
  {v : VersionVector} {store : CRDTStore} {w₀ : Forks ι} {i : ι}

/-- A round of the pointer loop is the calls of a merge on the object's key. -/
theorem advancePointer_path {ls : List (ForkCall ι)} (hpath : (system backend ι).Path w₀ ls w)
    (hi : w.merges i = none) (hw : Shows w store) (object : SnapshotObject Obj) :
    ∃ ls' w', (system backend ι).Path w₀ ls' w' ∧ w'.merges i = none ∧ Shows w'
      (GossipAdapter.advancePointer leafHash identityId backend replicaId v store object) := by
  obtain ⟨hregister, hevents⟩ := hw
  unfold GossipAdapter.advancePointer
  cases htarget : GossipAdapter.pointerTarget leafHash identityId object.payload with
  | none => exact ⟨ls, w, hpath, hi, hregister, hevents⟩
  | some target =>
    obtain ⟨key, objectId⟩ := target
    dsimp only
    generalize GossipAdapter.newPointer replicaId v object objectId = new
    have hupdate : (system backend ι).Path w₀ (ls ++ [.update i key new])
        (w.updated backend i key new) := hpath.tail (Step.update key new hi)
    rw [← hregister]
    cases happlied : (updatePointer backend w.register key new).1 with
    | false =>
      refine ⟨_, _, hupdate, ?_, rfl, hevents⟩
      exact (Function.update_self _ _ _).trans (if_neg (Bool.eq_false_iff.1 happlied))
    | true =>
      have hat : (w.updated backend i key new).merges i = some (key, .applied) :=
        (Function.update_self _ _ _).trans (if_pos happlied)
      have hread : (system backend ι).Path w₀ (ls ++ [.update i key new] ++ [.read i])
          ((w.updated backend i key new).checked backend i key) := hupdate.tail (Step.read hat)
      unfold GossipAdapter.detectAndHandleFork
      rw [if_pos rfl]
      dsimp only
      split
      · rename_i hone
        refine ⟨_, _, hread, (Function.update_self _ _ _).trans (if_pos hone), rfl, hevents⟩
      · rename_i hfork
        have hfound : ((w.updated backend i key new).checked backend i key).merges i =
            some (key, .found (getPointers backend (w.updated backend i key new).register key)) :=
          (Function.update_self _ _ _).trans (if_neg hfork)
        obtain ⟨eventId, hfresh⟩ := exists_fresh_eventId w.rows
        refine ⟨_, _, hread.tail (Step.escalate hfound hfresh : Step backend _ _ _),
          Function.update_self _ _ _, rfl, ?_⟩
        exact (List.map_append ..).trans (congrArg (· ++ _) hevents)

theorem loop_path (objects : List (SnapshotObject Obj)) {ls : List (ForkCall ι)}
    (hpath : (system backend ι).Path w₀ ls w) (hi : w.merges i = none) (hw : Shows w store) :
    ∃ ls' w', (system backend ι).Path w₀ ls' w' ∧ w'.merges i = none ∧ Shows w' (objects.foldl
      (GossipAdapter.advancePointer leafHash identityId backend replicaId v) store) := by
  induction objects generalizing w store ls with
  | nil => exact ⟨ls, w, hpath, hi, hw⟩
  | cons object objects ih =>
    obtain ⟨ls', w', hpath', hi', hw'⟩ := advancePointer_path hpath hi hw object
    exact ih hpath' hi' hw'

/-- `_merge_crdt_objects` in one go is a run of calls. -/
theorem mergeCrdtObjects_path (hi : w.merges i = none) (hw : Shows w store)
    (remote : ObjectSnapshot Obj) :
    ∃ ls w', (system backend ι).Path w ls w' ∧ w'.merges i = none ∧ Shows w'
      (GossipAdapter.mergeCrdtObjects leafHash identityId backend replicaId store remote).2 := by
  have hgrows := CRDTQuarantine.processBatch_grows leafHash remote.objects store
  exact loop_path remote.objects (.refl w) hi
    ⟨hw.1.trans hgrows.register.symm, hw.2.trans hgrows.conflictEvents.symm⟩

end Forks

end CksRuntime.Crdt
