import CksRuntime.Lib.SharedLog
import CksRuntime.Runtime.Archive
import CksRuntime.Runtime.Proof.Writers

/-!
# The history a stored session is loaded with

The versions stored for a session are a log, and the histories of the copies follow it
(`SharedLog.Follows`): a copy strays when a commit of it raises with the version in its history and
not in the store. While the sessions saved are those of copies that end where the log ends, the row
lists the log (`Kept`); and while no clock is behind, sorting the log by time leaves it as it is.
-/

set_option autoImplicit false

namespace CksRuntime

open Transition Effect SharedLog

variable {K : Core}

/-! ## What a commit stores -/

theorem Storage.saveSession_of_accepts {st : Storage K} {s : Session K} {expected : Option String}
    (h : st.Accepts s.sessionId expected) :
    st.saveSession s expected = .ok (st.putSession s.sessionId s.toRow) := by
  unfold saveSession
  cases expected with
  | none => rfl
  | some v =>
    rcases h with h | h
    · cases h
    · cases hr : st.sessions s.sessionId with
      | none => rfl
      | some row => exact if_pos (h row hr)

namespace Pipeline

variable {env : Env K}

theorem createdAt_of_build {s : Session K} {prev : K.Structure} {v : Version K}
    (h : buildVersion env s prev = .ok v) : v.createdAt = env.now := by
  obtain ⟨stateHash, -, hrec⟩ := buildVersion_ok h
  obtain ⟨rfl, -⟩ | ⟨patch, -, rfl, -⟩ := recordState_ok hrec <;> rfl

/-- What `_persist` stores: nothing, or the version and then, if it can, the session. -/
theorem persist_stores (env : Env K) (v : Version K) (expected : Option String) (s₀ : K.Structure)
    (c : Ctx K) {st' : Storage K}
    (h : (stateOf (persist env v expected s₀ c)).shared.storage = st') :
    st'.versions = c.shared.storage.versions ∧ st'.sessions = c.shared.storage.sessions ∨
      env.saveVersionFault = none ∧ st'.versions = c.shared.storage.versions ++ [v] ∧
        (env.saveSessionFault = none → c.shared.storage.Accepts c.session.sessionId expected →
          st'.sessions c.session.sessionId = some c.session.toRow) := by
  subst h
  rw [persist, bind_run]
  cases hv : store env.saveVersionFault (fun c => c.shared.storage.saveVersion v) c with
  | error e c₁ =>
    obtain ⟨rfl, -⟩ := store_error hv
    exact .inl ⟨rfl, rfl⟩
  | ok u c₁ =>
    obtain ⟨hfault, storage, hsave, rfl⟩ := store_ok hv
    obtain ⟨-, rfl⟩ := Storage.saveVersion_ok hsave
    dsimp only
    rw [bind_run]
    cases hs : store env.saveSessionFault
        (fun c => c.shared.storage.saveSession c.session expected) _ with
    | error e c₂ =>
      obtain ⟨rfl, hraise⟩ := store_error hs
      refine .inr ⟨hfault, rfl, fun hnone hacc => ?_⟩
      rcases hraise with hraise | hraise
      · rw [hnone] at hraise
        cases hraise
      · cases hraise.symm.trans (Storage.saveSession_of_accepts hacc)
    | ok u c₂ =>
      obtain ⟨-, storage, hsave, rfl⟩ := store_ok hs
      obtain ⟨-, rfl⟩ := Storage.saveSession_ok hsave
      dsimp only
      obtain ⟨log, hlog⟩ := recordOperations_state env v s₀ _
      rw [hlog]
      exact .inr ⟨hfault, rfl, fun _ _ => Function.update_self _ _ _⟩

end Pipeline

/-- What a commit has stored, and what it has appended to the copy's history. -/
inductive CommitStores (env : Env K) (c c' : Ctx K) : Prop
  | unsaved :
      c'.shared.storage.versions = c.shared.storage.versions →
      c'.shared.storage.sessions = c.shared.storage.sessions →
      (c'.session.versionHistory = c.session.versionHistory ∨
        ∃ v : Version K, v.versionId = env.versionId ∧
          c'.session.versionHistory = c.session.versionHistory ++ [v]) → CommitStores env c c'
  | rolledBack :
      returned (Pipeline.executeStage env c) = false →
      c'.session.versionHistory = c.session.versionHistory →
      SavesAtMost c.shared.storage c'.shared.storage c'.session → CommitStores env c c'
  | saved (v : Version K) :
      Writers.SavesVersion env c → v.versionId = env.versionId →
      v.sessionId = c.session.sessionId → v.createdAt = env.now →
      c'.session.versionHistory = c.session.versionHistory ++ [v] →
      c'.shared.storage.versions = c.shared.storage.versions ++ [v] →
      (env.saveSessionFault = none →
        c.shared.storage.Accepts c.session.sessionId c.session.latestVersionId →
        ∃ row, c'.shared.storage.sessions c.session.sessionId = some row ∧
          row.versionHistoryIds = (c.session.versionHistory ++ [v]).map (·.versionId) ∧
          row.latestVersionId = some v.versionId) → CommitStores env c c'

namespace Pipeline

variable {env : Env K}

/-- What the second half stores is what `_persist` stores. -/
theorem commitStage_storage (expected : Option String) {s₀ : K.Structure} {c c₁ : Ctx K}
    {v : Version K} (h : createVersion env s₀ c = .ok v c₁) :
    (stateOf (commitStage env s₀ expected c)).shared.storage =
        (stateOf (persist env v expected s₀ c₁)).shared.storage ∧
      (stateOf (commitStage env s₀ expected c)).session.versionHistory =
        c.session.versionHistory ++ [v] := by
  obtain ⟨-, rfl⟩ := createVersion_ok h
  have hp := persist_state env v expected s₀ (createdCtx env v c)
  rw [commitStage, bind_of_ok h, bind_run]
  cases hpersist : persist env v expected s₀ (createdCtx env v c) with
  | error e c₂ =>
    rw [hpersist] at hp
    exact ⟨rfl, congrArg Session.versionHistory hp.session⟩
  | ok u c₂ =>
    rw [hpersist] at hp
    dsimp only
    rw [finalize_state]
    exact ⟨rfl, congrArg Session.versionHistory hp.session⟩

end Pipeline

theorem executeStage_stores {env : Env K} {c c' : Ctx K} {e : Err K.Obj}
    (h : Pipeline.executeStage env c = .error e c') : CommitStores env c c' := by
  have hfailed : returned (Pipeline.executeStage env c) = false := by rw [h]; rfl
  obtain ⟨-, hhist, hst | ⟨-, hsave⟩⟩ := executeStage_fails h
  · exact .unsaved (congrArg Storage.versions hst) (congrArg Storage.sessions hst) (.inl hhist)
  · exact .rolledBack hfailed hhist hsave

theorem commitStage_stores {env : Env K} {c c₁ : Ctx K} {u : Unit}
    (h : Pipeline.executeStage env c = .ok u c₁) :
    CommitStores env c (stateOf (Pipeline.commitStage env c.session.knowledgeStructure
      c.session.latestVersionId c₁)) := by
  obtain ⟨⟨ks, ds, hs⟩, -, ⟨es, hsh⟩⟩ := Pipeline.executeStage_ok h
  have hst : c₁.shared.storage = c.shared.storage := by rw [hsh]
  have hhist : c₁.session.versionHistory = c.session.versionHistory := by rw [hs]
  have hid : c₁.session.sessionId = c.session.sessionId := by rw [hs]
  cases hcreate : Pipeline.createVersion env c.session.knowledgeStructure c₁ with
  | error e c₂ =>
    rw [Pipeline.commitStage, bind_of_error hcreate, stateOf_error]
    obtain ⟨-, rfl⟩ | ⟨v, hb, rfl⟩ := Pipeline.createVersion_error hcreate
    · exact .unsaved (congrArg Storage.versions hst) (congrArg Storage.sessions hst) (.inl hhist)
    · exact .unsaved (congrArg Storage.versions hst) (congrArg Storage.sessions hst)
        (.inr ⟨v, (Pipeline.versionId_of_build hb).1, congrArg (· ++ [v]) hhist⟩)
  | ok v c₂ =>
    obtain ⟨hstorage, hhist'⟩ :=
      Pipeline.commitStage_storage c.session.latestVersionId hcreate
    obtain ⟨hb, rfl⟩ := Pipeline.createVersion_ok hcreate
    obtain ⟨hvid, hvsid⟩ := Pipeline.versionId_of_build hb
    rw [hhist] at hhist'
    obtain ⟨hvers, hrows⟩ | ⟨hfault, hvers, hrow⟩ := Pipeline.persist_stores env v
      c.session.latestVersionId c.session.knowledgeStructure _ hstorage.symm
    · exact .unsaved (hvers.trans (congrArg Storage.versions hst))
        (hrows.trans (congrArg Storage.sessions hst)) (.inr ⟨v, hvid, hhist'⟩)
    · refine .saved v ⟨?_, hfault⟩ hvid (hvsid.trans hid) (Pipeline.createdAt_of_build hb) hhist'
        (hvers.trans (congrArg (·.versions ++ [v]) hst)) fun hnone hacc => ?_
      · rw [bind_of_ok h, hcreate]
        rfl
      · have hrow' := hrow hnone (by rw [← hst, ← hid] at hacc; exact hacc)
        refine ⟨_, (congrArg _ hid.symm).trans hrow', ?_, ?_⟩
        · exact congrArg (fun history => (history ++ [v]).map Version.versionId) hhist
        · exact latestVersionId_append (s := c₁.session.versioned env.replicaId v) rfl

theorem commit_stores (env : Env K) (c : Ctx K) :
    CommitStores env c (stateOf (Pipeline.commit env c)) := by
  rw [Pipeline.commit, bind_get_run, bind_run]
  cases h : Pipeline.executeStage env c with
  | error e c' => exact executeStage_stores h
  | ok u c₁ => exact commitStage_stores h

/-! ## The invariant -/

/-- The history of a copy of the session follows the log, and its ids have been drawn. -/
structure Holds (sessionId : String) (used log : List String) (s : Session K) : Prop where
  sessionId : s.sessionId = sessionId
  drawn : ∀ v ∈ s.versionHistory.map (·.versionId), v ∈ used
  follows : Follows log (s.versionHistory.map (·.versionId))

theorem latestVersionId_eq (s : Session K) :
    s.latestVersionId = (s.versionHistory.map (·.versionId)).getLast? := List.getLast?_map.symm

theorem Holds.congr {sessionId : String} {used log : List String} {s s' : Session K}
    (h : Holds sessionId used log s) (hid : s'.sessionId = s.sessionId)
    (hhist : s'.versionHistory = s.versionHistory) : Holds sessionId used log s' where
  sessionId := hid.trans h.sessionId
  drawn := by
    rw [hhist]
    exact h.drawn
  follows := by
    rw [hhist]
    exact h.follows

namespace Writers

variable {ι : Type} {sessionId : String} {w : Writers K ι}

/-- The ids of the versions stored, in order. -/
def storedIds (w : Writers K ι) (sessionId : String) : List String :=
  (w.stored sessionId).map (·.versionId)

theorem lastStored_eq : w.lastStored sessionId = (w.storedIds sessionId).getLast? :=
  List.getLast?_map.symm

/-- The row names what is stored, which is in order, and every copy follows it. -/
structure Kept (sessionId : String) (w : Writers K ι) : Prop where
  copies : ∀ i, ∀ s ∈ w.copies i, Holds sessionId w.used (w.storedIds sessionId) s
  drawn : ∀ v ∈ w.storedIds sessionId, v ∈ w.used
  nodup : (w.storedIds sessionId).Nodup
  sorted : (w.stored sessionId).Pairwise fun a b => a.createdAt ≤ b.createdAt
  row : ∀ row ∈ w.storage.sessions sessionId,
    row.versionHistoryIds = w.storedIds sessionId ∧ row.latestVersionId = w.lastStored sessionId

/-- A copy that ends where the stored versions end has them all. -/
theorem Kept.ids_of_latest (h : Kept sessionId w) {s : Session K}
    (hs : Holds sessionId w.used (w.storedIds sessionId) s)
    (hlast : s.latestVersionId = w.lastStored sessionId) :
    s.versionHistory.map (·.versionId) = w.storedIds sessionId := by
  rw [latestVersionId_eq, lastStored_eq] at hlast
  exact hs.follows.eq_of_getLast? h.nodup hlast

theorem Kept.loads (h : Kept sessionId w) : w.HistoryLoads sessionId := by
  intro s hs row hrow
  have hsorted := h.sorted.imp fun hle => decide_eq_true hle
  rw [Storage.loadSession, hrow, Option.map_some] at hs
  cases hs
  rw [(h.row row hrow).1]
  exact congrArg (List.map _) (List.mergeSort_of_pairwise hsorted)

/-- A loaded copy holds what is stored. -/
theorem Kept.loaded (h : Kept sessionId w) {s : Session K}
    (hs : w.storage.loadSession sessionId = some s) :
    Holds sessionId w.used (w.storedIds sessionId) s := by
  obtain ⟨row, hrow, rfl⟩ := Option.map_eq_some_iff.1 hs
  have hids := h.loads _ hs row hrow
  rw [(h.row row hrow).1] at hids
  refine ⟨rfl, ?_, ?_⟩
  · rw [hids]
    exact h.drawn
  · rw [hids]
    exact follows_refl

theorem Kept.draw (h : Kept sessionId w) (versionId : String) :
    Kept sessionId (w.draw versionId) where
  copies i s hs := ⟨(h.copies i s hs).sessionId,
    fun v hv => List.mem_cons_of_mem _ ((h.copies i s hs).drawn v hv), (h.copies i s hs).follows⟩
  drawn v hv := List.mem_cons_of_mem _ (h.drawn v hv)
  nodup := h.nodup
  sorted := h.sorted
  row := h.row

variable [DecidableEq ι]

/-- A call that saves no version, and leaves the row as it was or with the stored versions. -/
theorem Kept.leave (h : Kept sessionId w) {i : ι} {copy : Option (Session K)} {storage : Storage K}
    (hvers : storage.versions = w.storage.versions)
    (hcopy : ∀ s ∈ copy, Holds sessionId w.used (w.storedIds sessionId) s)
    (hrow : storage.sessions sessionId = w.storage.sessions sessionId ∨
      ∀ row ∈ storage.sessions sessionId, row.versionHistoryIds = w.storedIds sessionId ∧
        row.latestVersionId = w.lastStored sessionId) :
    Kept sessionId (w.leave i copy storage) := by
  have hstored : (w.leave i copy storage).stored sessionId = w.stored sessionId :=
    congrArg (List.filter _) hvers
  have hids : (w.leave i copy storage).storedIds sessionId = w.storedIds sessionId :=
    congrArg (List.map _) hstored
  refine ⟨?_, ?_, ?_, ?_, ?_⟩
  · intro j s hs
    rw [hids]
    exact (copies_update hs).elim (hcopy s) (h.copies j s)
  · rw [hids]
    exact h.drawn
  · rw [hids]
    exact h.nodup
  · rw [hstored]
    exact h.sorted
  · rw [hids, lastStored_eq, hids, ← lastStored_eq]
    rcases hrow with hrow | hrow
    · intro row hr
      exact h.row row (hrow ▸ hr)
    · exact hrow

/-- A copy that has saved itself, and ends where the stored versions end. -/
theorem Kept.leave_saved (h : Kept sessionId w) {i : ι} {s s' : Session K} {storage : Storage K}
    (hs : Holds sessionId w.used (w.storedIds sessionId) s) (hid : s'.sessionId = s.sessionId)
    (hhist : s'.versionHistory = s.versionHistory) (hsave : SavesAtMost w.storage storage s')
    (hlast : s.latestVersionId = w.lastStored sessionId) :
    Kept sessionId (w.leave i (some s') storage) := by
  refine h.leave hsave.versions (fun x hx => ?_) ?_
  · cases hx
    exact hs.congr hid hhist
  · have hrow := hsave.row
    rw [hid, hs.sessionId] at hrow
    rcases hrow with hrow | hrow
    · exact .inl hrow
    · refine .inr fun row hr => ?_
      rw [hrow] at hr
      cases hr
      refine ⟨?_, ?_⟩
      · exact (congrArg (List.map _) hhist).trans (h.ids_of_latest hs hlast)
      · rw [← hlast, latestVersionId_eq, ← hhist]
        exact latestVersionId_eq s'

/-! ## Commits -/

/-- A new version, at the end of the log and of a copy that had all of it. -/
theorem Kept.append (h : Kept sessionId w) {i : ι} {s s' : Session K} {storage : Storage K}
    {v : Version K} {row : SessionRow K} (hs : Holds sessionId w.used (w.storedIds sessionId) s)
    (hlast : s.latestVersionId = w.lastStored sessionId) (hfresh : v.versionId ∉ w.used)
    (hclock : ∀ x ∈ w.stored sessionId, x.createdAt ≤ v.createdAt) (hvsid : v.sessionId = sessionId)
    (hid : s'.sessionId = s.sessionId) (hhist : s'.versionHistory = s.versionHistory ++ [v])
    (hvers : storage.versions = w.storage.versions ++ [v])
    (hrow : storage.sessions sessionId = some row)
    (hrowIds : row.versionHistoryIds = (s.versionHistory ++ [v]).map (·.versionId))
    (hrowLast : row.latestVersionId = some v.versionId) :
    Kept sessionId ((w.draw v.versionId).leave i (some s') storage) := by
  have hids := h.ids_of_latest hs hlast
  have hstored : ((w.draw v.versionId).leave i (some s') storage).stored sessionId =
      w.stored sessionId ++ [v] := by
    change storage.versions.filter (·.sessionId == sessionId) = _
    rw [hvers, List.filter_append, List.filter_singleton, hvsid, beq_self_eq_true]
    rfl
  have hstoredIds : ((w.draw v.versionId).leave i (some s') storage).storedIds sessionId =
      w.storedIds sessionId ++ [v.versionId] := by
    rw [storedIds, hstored, List.map_append]
    rfl
  have hnew : (s.versionHistory ++ [v]).map (·.versionId) =
      w.storedIds sessionId ++ [v.versionId] := by
    rw [List.map_append, hids]
    rfl
  -- other copies go on to follow what is stored: none of them has the new id
  have hdrawn : ∀ x ∈ w.storedIds sessionId ++ [v.versionId], x ∈ v.versionId :: w.used := by
    intro x hx
    rcases List.mem_append.1 hx with hx | hx
    · exact List.mem_cons_of_mem _ (h.drawn x hx)
    · rw [List.mem_singleton.1 hx]
      exact List.mem_cons_self
  refine ⟨?_, ?_, ?_, ?_, ?_⟩
  · intro j x hx
    rw [hstoredIds]
    rcases copies_update hx with hx | hx
    · cases hx
      refine ⟨hid.trans hs.sessionId, ?_, ?_⟩
      · rw [hhist, hnew]
        exact hdrawn
      · rw [hhist, hnew]
        exact follows_refl
    · have hx' := h.copies j x hx
      exact ⟨hx'.sessionId, fun y hy => List.mem_cons_of_mem _ (hx'.drawn y hy),
        hx'.follows.snoc fun hmem => hfresh (hx'.drawn _ hmem)⟩
  · rw [hstoredIds]
    exact hdrawn
  · rw [hstoredIds]
    refine List.nodup_append.2 ⟨h.nodup, List.nodup_singleton _, fun x hx y hy he => ?_⟩
    rw [List.mem_singleton] at hy
    exact hfresh (h.drawn _ (hy ▸ he ▸ hx))
  · rw [hstored]
    refine List.pairwise_append.2 ⟨h.sorted, List.pairwise_singleton _ _, fun x hx y hy => ?_⟩
    rw [List.mem_singleton.1 hy]
    exact hclock x hx
  · intro r hr
    have hr' : some row = some r := hrow.symm.trans hr
    cases hr'
    rw [lastStored_eq, hstoredIds, List.getLast?_concat]
    exact ⟨hrowIds.trans hnew, hrowLast⟩

theorem Kept.commit (h : Kept sessionId w) {i : ι} {env : Env K} {tx : Transaction K}
    {shared : Shared K} {s : Session K} (hs : w.copies i = some s) (hfresh : env.versionId ∉ w.used)
    (hlast : SavesLast sessionId w (.write (.commit i env tx shared))) {c' : Ctx K}
    (hc : stateOf (Pipeline.commit env (w.ctx s tx shared)) = c') :
    Kept sessionId ((w.draw env.versionId).leave i (some c'.session) c'.shared.storage) := by
  have hcopy := h.copies i s hs
  have hid := (commit_saves env (w.ctx s tx shared)).1
  have hstores := commit_stores env (w.ctx s tx shared)
  rw [hc] at hid hstores
  have hdraw := h.draw env.versionId
  cases hstores with
  | unsaved hvers hrows hhist =>
    refine hdraw.leave hvers (fun x hx => ?_) (.inl (congrFun hrows _))
    cases hx
    have hcopy' := hdraw.copies i s hs
    rcases hhist with hhist | ⟨v, hvid, hhist⟩
    · exact hcopy'.congr hid hhist
    · have hids : c'.session.versionHistory.map (·.versionId) =
          s.versionHistory.map (·.versionId) ++ [env.versionId] := by
        rw [hhist, List.map_append, ← hvid]
        rfl
      refine ⟨hid.trans hcopy.sessionId, ?_, ?_⟩
      · rw [hids]
        intro x hx
        rcases List.mem_append.1 hx with hx | hx
        · exact hcopy'.drawn x hx
        · rw [List.mem_singleton.1 hx]
          exact List.mem_cons_self
      · rw [hids]
        -- a version that was rejected ends this copy, and is nowhere stored
        exact follows_stray fun hmem => hfresh (h.drawn _ hmem)
  | rolledBack hfailed hhist hsave =>
    refine hdraw.leave_saved (hdraw.copies i s hs) hid hhist hsave ?_
    refine hlast.1 { s with knowledgeStructure := tx.initialState } ?_
    rw [unconditional, hs, Option.bind_some, if_neg (by rw [hfailed]; exact Bool.false_ne_true)]
    rfl
  | saved v hsaves hvid hvsid hnow hhist hvers hrow =>
    -- here the copy is the latest and its clock has not gone back
    obtain ⟨hlatest, hfault, hclock⟩ := hlast.2 i env tx shared rfl s hs hsaves
    have hacc : w.storage.Accepts s.sessionId s.latestVersionId := by
      refine .inr fun row hr => ?_
      rw [hcopy.sessionId] at hr
      rw [(h.row row hr).2, hlatest]
    obtain ⟨row, hr, hids, hrowLast⟩ := hrow hfault hacc
    rw [← hvid] at hfresh ⊢
    refine h.append hcopy hlatest hfresh ?_ (hvsid.trans hcopy.sessionId) hid hhist hvers
      (hcopy.sessionId ▸ hr) hids hrowLast
    rw [hnow]
    exact hclock

/-! ## Every step -/

theorem Kept.write (h : Kept sessionId w) {w' : Writers K ι} {l : Write K ι}
    (hst : Step sessionId w l w')
    (hother : ∀ storage, l = .elsewhere storage → w'.stored sessionId = w.stored sessionId)
    (hlast : SavesLast sessionId w (.write l)) : Kept sessionId w' := by
  rcases step_cases hst with hleaves | ⟨i, env, tx, shared, s, rfl, hs, hfresh, r, rfl, rfl⟩ |
    ⟨storage, rfl, hrow, -, rfl⟩
  · cases hleaves with
    | loaded i hs =>
      refine h.leave rfl (fun x hx => ?_) (.inl rfl)
      cases hx
      exact h.loaded hs
    | begun i hs hid hhist =>
      refine h.leave rfl (fun x hx => ?_) (.inl rfl)
      cases hx
      exact (h.copies i _ hs).congr hid hhist
    | @saved i s s' storage hun hknown hid hhist hks hsave =>
      refine h.leave_saved ?_ hid hhist hsave (hlast.1 s hun)
      rcases hknown with ⟨hsid, hnil⟩ | ⟨s₀, hs, hsid, hhist₀⟩
      · refine ⟨hsid, ?_, ?_⟩
        · rw [hnil]
          exact fun v hv => absurd hv List.not_mem_nil
        · rw [hnil]
          exact follows_nil
      · exact (h.copies i s₀ hs).congr hsid hhist₀
  · have hkept := h.commit hs hfresh hlast rfl
    exact ⟨hkept.copies, hkept.drawn, hkept.nodup, hkept.sorted, hkept.row⟩
  · have hstored := hother storage rfl
    have hids : storedIds { w with storage := storage } sessionId = w.storedIds sessionId :=
      congrArg (List.map _) hstored
    refine ⟨?_, ?_, ?_, ?_, ?_⟩
    · rw [hids]
      exact h.copies
    · rw [hids]
      exact h.drawn
    · rw [hids]
      exact h.nodup
    · rw [hstored]
      exact h.sorted
    · rw [hids, lastStored_eq, hids, ← lastStored_eq]
      intro row hr
      exact h.row row (hrow ▸ hr)

theorem Kept.step (h : Kept sessionId w) {w' : Writers K ι} {l : Upkeep K ι}
    (hst : UpkeepStep sessionId w l w') (hlast : SavesLast sessionId w l) :
    Kept sessionId w' := by
  cases hst with
  | write hst hother => exact h.write hst hother hlast
  | archive =>
    refine ⟨h.copies, h.drawn, h.nodup, h.sorted, fun row hr => ?_⟩
    change Function.update w.storage.sessions sessionId none sessionId = some row at hr
    rw [Function.update_self] at hr
    cases hr

theorem kept_init (h : (upkeep K ι sessionId).init w) : Kept sessionId w := by
  obtain ⟨storage, hnone, hvers, rfl⟩ := h
  have hstored : stored ({ storage := storage } : Writers K ι) sessionId = [] := by
    refine List.filter_eq_nil_iff.2 fun v hv he => hvers v hv ?_
    exact beq_iff_eq.1 he
  have hids : storedIds ({ storage := storage } : Writers K ι) sessionId = [] := by
    rw [storedIds, hstored, List.map_nil]
  refine ⟨fun i s hs => ?_, ?_, ?_, ?_, fun row hr => ?_⟩
  · cases hs
  · rw [hids]
    exact fun v hv => absurd hv List.not_mem_nil
  · rw [hids]
    exact List.nodup_nil
  · rw [hstored]
    exact List.Pairwise.nil
  · rw [hnone] at hr
    cases hr

end Writers

/-- **A stored session is loaded with the versions its row lists**, in every run of writers and
archivals whose steps all save the last stored version. -/
theorem stored_history_loads {ι : Type} [DecidableEq ι] {sessionId : String} (w : Writers K ι)
    (h : ((Writers.upkeep K ι sessionId).restrict (Writers.SavesLast sessionId)).Reachable w) :
    w.HistoryLoads sessionId :=
  Writers.Kept.loads (h.invariant (fun _ => Writers.kept_init) fun _ _ _ _ hi hst =>
    hi.step hst.1 hst.2)

/-! ## Runs of the register -/

namespace Writers

theorem upkeep_of_writers {ι : Type} [DecidableEq ι] {sessionId : String}
    {C : Writers K ι → Upkeep K ι → Prop} {w : Writers K ι}
    (h : ((system K ι sessionId).restrict fun w l =>
      (∀ storage, l ≠ .elsewhere storage) ∧ C w (.write l)).Reachable w) :
    ((upkeep K ι sessionId).restrict C).Reachable w := by
  induction h with
  | init hi => exact .init hi
  | @step w w' l _ hst ih =>
    have hwrite : UpkeepStep sessionId w (.write l) w' :=
      .write hst.1 fun storage he => absurd he (hst.2.1 storage)
    exact .step ih ⟨hwrite, hst.2.2⟩

theorem savesLast_quiet (w : Writers Core.register Bool) {l : Write Core.register Bool}
    (h : quiet l) : (∀ storage, l ≠ .elsewhere storage) ∧ SavesLast "s" w (.write l) := by
  cases l with
  | load | begin =>
    refine ⟨fun storage he => ?_, fun s hs => ?_, fun i env tx shared he => ?_⟩
    · cases he
    · cases hs
    · cases he
  | create | commit | rollback | abort | close | elsewhere => cases h

/-- A commit of a copy that ends where the stored versions end. -/
theorem savesLast_commit {w : Writers Core.register Bool} {i : Bool} {env : Env Core.register}
    {tx : Transaction Core.register} (hs : (w.copies i).isSome)
    (hl : (w.unconditional (.commit i env tx {})).isNone)
    (hlast : (w.sessionOf i).latestVersionId = w.lastStored "s")
    (hfault : env.saveSessionFault = none) (hclock : ∀ v ∈ w.stored "s", v.createdAt ≤ env.now) :
    SavesLast "s" w (.write (.commit i env tx {})) := by
  rw [Option.isNone_iff_eq_none] at hl
  refine ⟨fun s hs => ?_, fun i' env' tx' shared' he s hs' _ => ?_⟩
  · rw [hl] at hs
    cases hs
  · cases he
    rw [copies_eq hs, Option.mem_some_iff] at hs'
    subst hs'
    exact ⟨hlast, hfault, hclock⟩

theorem savesLast_created : (∀ storage, Write.create (K := Core.register) false
    ⟨"s", "n", none, fun _ => none⟩ (0 : Nat) {} ≠ .elsewhere storage) ∧
      SavesLast "s" ({} : Writers Core.register Bool)
        (.write (.create false ⟨"s", "n", none, fun _ => none⟩ (0 : Nat) {})) := by
  refine ⟨fun storage he => (by cases he), fun s hs => ?_, fun i env tx shared he => by cases he⟩
  cases hs
  rfl

theorem savesLast_first : (∀ storage, Write.commit false (runEnv "a" "v1")
    ((created.begun false "t1").setTx false "t1" 5) {} ≠ .elsewhere storage) ∧
      SavesLast "s" (created.begun false "t1") (.write (.commit false (runEnv "a" "v1")
        ((created.begun false "t1").setTx false "t1" 5) {})) :=
  ⟨fun storage he => (by cases he), savesLast_commit rfl (by decide) rfl rfl nofun⟩

theorem first_upkeep : ((upkeep Core.register Bool "s").restrict (SavesLast "s")).Reachable first :=
  upkeep_of_writers (first_run (fun w _ hl => savesLast_quiet w hl) savesLast_created
    savesLast_first)

theorem second_upkeep :
    ((upkeep Core.register Bool "s").restrict (SavesLast "s")).Reachable second :=
  upkeep_of_writers (second_run (fun w _ hl => savesLast_quiet w hl) savesLast_created
    savesLast_first ⟨fun storage he => (by cases he),
      savesLast_commit rfl (by decide) (by decide) rfl (by decide)⟩)

theorem loaded_sorted {ι : Type} {sessionId : String} {w : Writers K ι} {s : Session K}
    (h : w.storage.loadSession sessionId = some s) :
    (s.versionHistory.Pairwise fun a b => a.createdAt ≤ b.createdAt) ∧
      ∀ v ∈ s.versionHistory, v ∈ w.stored sessionId := by
  obtain ⟨row, -, rfl⟩ := Option.map_eq_some_iff.1 h
  refine ⟨(List.pairwise_mergeSort ?_ ?_ _).imp of_decide_eq_true, fun v hv => ?_⟩
  · intro a b c hab hbc
    exact decide_eq_true ((of_decide_eq_true hab).trans (of_decide_eq_true hbc))
  · intro a b
    rw [Bool.or_eq_true, decide_eq_true_iff, decide_eq_true_iff]
    exact le_total _ _
  · exact List.mem_mergeSort.1 hv

/-- Every version stored is loaded. -/
theorem HistoryLoads.mem {ι : Type} {sessionId : String} {w : Writers K ι}
    (h : w.HistoryLoads sessionId) {ids : List String}
    (hids : (w.storage.sessions sessionId).map (·.versionHistoryIds) = some ids) {v : String}
    (hv : v ∈ (w.stored sessionId).map (·.versionId)) : v ∈ ids := by
  obtain ⟨row, hrow, rfl⟩ := Option.map_eq_some_iff.1 hids
  obtain ⟨x, hx, rfl⟩ := List.mem_map.1 hv
  rw [← h _ (by rw [Storage.loadSession, hrow, Option.map_some]) row hrow]
  exact List.mem_map.2 ⟨x, List.mem_mergeSort.2 hx, rfl⟩

/-- The second Runtime commits what it had begun, after the first has committed. -/
def rejected : Writers Core.register Bool := second.committed true "t2" (runEnv "b" "v3") 9

/-- The session is archived after the first commit, and created again by the second Runtime. -/
def recreated : Writers Core.register Bool :=
  let w : Writers Core.register Bool := { first with storage := first.storage.archiveSession "s" }
  let n := stateOf (Runtime.createSession ⟨"s", "m", none, fun _ => none⟩ (0 : Nat)
    (w.node "s" none {}))
  w.leave true (n.sessions "s") n.shared.storage

/-- A Runtime commits twice, its clock behind at the second commit. -/
def setBack : Writers Core.register Bool :=
  (((created.begun false "t1").committed false "t1" { runEnv "a" "v1" with now := 5 } 5).begun false
    "t2").committed false "t2" (runEnv "a" "v2") 7

theorem setBack_upkeep : (upkeep Core.register Bool "s").Reachable setBack := by
  have hbegun := begun_created (C := fun _ l => (∀ storage, l ≠ .elsewhere storage) ∧ True)
    (fun w _ hl => ⟨(savesLast_quiet w hl).1, trivial⟩) ⟨savesLast_created.1, trivial⟩
  have hcommitted := committed_reachable hbegun false "t1" { runEnv "a" "v1" with now := 5 } 5 rfl
    (by decide) ⟨fun storage he => (by cases he), trivial⟩
  have hbegun₂ := begun_reachable hcommitted false "t2" rfl rfl
    ⟨fun storage he => (by cases he), trivial⟩
  have hcommitted₂ := committed_reachable hbegun₂ false "t2" (runEnv "a" "v2") 7 rfl (by decide)
    ⟨fun storage he => (by cases he), trivial⟩
  exact (upkeep_of_writers (C := fun _ _ => True) hcommitted₂).of_restrict

end Writers

theorem stored_history_loads_second :
    (Writers.second.storage.sessions "s").map (·.versionHistoryIds) = some ["v1", "v2"] ∧
      Writers.second.HistoryLoads "s" :=
  ⟨rfl, stored_history_loads _ Writers.second_upkeep⟩

/-- The version of a rejected commit is stored, and loaded with the session. -/
theorem rejected_version_loads :
    ∃ w : Writers Core.register Bool, (Writers.upkeep Core.register Bool "s").Reachable w ∧
      (w.storage.sessions "s").map (·.versionHistoryIds) = some ["v1", "v2"] ∧
      (w.stored "s").map (·.versionId) = ["v1", "v2", "v3"] ∧ ¬w.HistoryLoads "s" := by
  have hstep : Writers.UpkeepStep "s" Writers.second
      (.write (.commit true (Writers.runEnv "b" "v3") (Writers.second.setTx true "t2" 9) {}))
      Writers.rejected :=
    .write (.commit _ _ _ (Writers.copies_eq rfl) (by decide) rfl) fun storage he => by cases he
  have hids : (Writers.rejected.storage.sessions "s").map (·.versionHistoryIds) =
      some ["v1", "v2"] := by decide
  have hstored : (Writers.rejected.stored "s").map (·.versionId) = ["v1", "v2", "v3"] := by decide
  have hreach := Writers.second_upkeep.of_restrict.step hstep
  refine ⟨Writers.rejected, hreach, hids, hstored, fun h => ?_⟩
  exact absurd (h.mem hids (v := "v3") (by rw [hstored]; decide)) (by decide)

/-- The versions of an archived session stay, and are loaded with the one created in its place. -/
theorem archived_version_loads :
    ∃ w : Writers Core.register Bool, (Writers.upkeep Core.register Bool "s").Reachable w ∧
      (w.storage.sessions "s").map (·.versionHistoryIds) = some [] ∧
      (w.stored "s").map (·.versionId) = ["v1"] ∧ ¬w.HistoryLoads "s" := by
  have harchive := Writers.first_upkeep.of_restrict.step (.archive Writers.first)
  have hcreate : Writers.UpkeepStep "s" { Writers.first with
        storage := Writers.first.storage.archiveSession "s" }
      (.write (.create true ⟨"s", "m", none, fun _ => none⟩ (0 : Nat) {})) Writers.recreated :=
    .write (.create _ _ _ rfl rfl rfl) fun storage he => by cases he
  have hids : (Writers.recreated.storage.sessions "s").map (·.versionHistoryIds) = some [] := rfl
  have hstored : (Writers.recreated.stored "s").map (·.versionId) = ["v1"] := by decide
  refine ⟨Writers.recreated, harchive.step hcreate, hids, hstored, fun h => ?_⟩
  exact absurd (h.mem hids (v := "v1") (by rw [hstored]; decide)) List.not_mem_nil

/-- Versions are loaded in the order of their clocks, not in that of the commits. -/
theorem earlier_clock_loads_first :
    ∃ w : Writers Core.register Bool, (Writers.upkeep Core.register Bool "s").Reachable w ∧
      (w.storage.sessions "s").map (·.versionHistoryIds) = some ["v1", "v2"] ∧
      (w.stored "s").map (·.versionId) = ["v1", "v2"] ∧ ¬w.HistoryLoads "s" := by
  have hids : (Writers.setBack.storage.sessions "s").map (·.versionHistoryIds) =
      some ["v1", "v2"] := by decide
  have hclock : ∀ x ∈ Writers.setBack.stored "s",
      (x.versionId = "v1" → x.createdAt = 5) ∧ (x.versionId = "v2" → x.createdAt = 0) := by decide
  refine ⟨Writers.setBack, Writers.setBack_upkeep, hids, by decide, fun h => ?_⟩
  obtain ⟨row, hrow, hrowIds⟩ := Option.map_eq_some_iff.1 hids
  obtain ⟨s, hs⟩ : ∃ s, Writers.setBack.storage.loadSession "s" = some s :=
    ⟨_, by rw [Storage.loadSession, hrow, Option.map_some]⟩
  have hload := h s hs row hrow
  rw [hrowIds] at hload
  obtain ⟨hsorted, hstored⟩ := Writers.loaded_sorted hs
  obtain ⟨a, rest, hhist, ha, hrest⟩ := List.map_eq_cons_iff.1 hload
  obtain ⟨b, rest', rfl, hb, -⟩ := List.map_eq_cons_iff.1 hrest
  rw [hhist] at hsorted hstored
  have hle := (List.pairwise_cons.1 hsorted).1 b List.mem_cons_self
  rw [(hclock a (hstored a List.mem_cons_self)).1 ha,
    (hclock b (hstored b (List.mem_cons_of_mem _ List.mem_cons_self))).2 hb] at hle
  exact absurd hle (by decide)

end CksRuntime
