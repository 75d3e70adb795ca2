import CksRuntime.Runtime.Proof.Desk
import CksRuntime.Runtime.Proof.Runtime
import CksRuntime.Runtime.Writers

/-!
# The compare-and-swap as a line of commits

What each call saves (`SavesAtMost`, `CommitSaves`), and from it, over all interleavings: as long
as the unconditional saves come from copies that have observed the stored head, the accepted commits
are one line of versions that ends at that head (`Inv`, `inv_step`).
-/

set_option autoImplicit false

namespace CksRuntime

open Transition Effect

variable {K : Core}

/-! ## What a call saves -/

/-- A call has written the row of `s`, or nothing. -/
structure SavesAtMost (st st' : Storage K) (s : Session K) : Prop where
  versions : st'.versions = st.versions
  row : st'.sessions s.sessionId = st.sessions s.sessionId ∨
    st'.sessions s.sessionId = some s.toRow

theorem savesAtMost_refl (st : Storage K) (s : Session K) : SavesAtMost st st s := ⟨rfl, .inl rfl⟩

theorem savesAtMost_put (st : Storage K) (s : Session K) :
    SavesAtMost st (st.putSession s.sessionId s.toRow) s :=
  ⟨rfl, .inr (Function.update_self _ _ _)⟩

theorem rollback_saves (env : Env K) (c : Ctx K) :
    SavesAtMost c.shared.storage (stateOf (Pipeline.rollback env c)).shared.storage
      (stateOf (Pipeline.rollback env c)).session := by
  rcases (Pipeline.rollback_rolledBack env c).storage with h | h
  · rw [h]
    exact savesAtMost_refl _ _
  · rw [h]
    exact savesAtMost_put _ _

theorem abort_saves (env : Env K) (c : Ctx K) :
    SavesAtMost c.shared.storage (stateOf (Pipeline.abort env c)).shared.storage
      (stateOf (Pipeline.abort env c)).session := by
  rw [Pipeline.abort, Pipeline.finishTransaction, bind_modify_run, bind_run]
  cases hs : Pipeline.store env.saveSessionFault
      (fun c => c.shared.storage.saveSession c.session none) _ with
  | error e c₂ =>
    obtain ⟨rfl, -⟩ := Pipeline.store_error hs
    exact savesAtMost_refl _ _
  | ok u c₂ =>
    obtain ⟨-, storage, hsave, rfl⟩ := Pipeline.store_ok hs
    cases hsave
    dsimp only
    rw [bind_get_run, Pipeline.stateOf_publish]
    exact ⟨rfl, .inr (Function.update_self _ _ _)⟩

/-- An adopted session is registered and saved, or only registered. -/
theorem adopt_saves (env : CallEnv K) (s : Session K) (n : Node K) :
    (stateOf (Runtime.adopt env s n)).sessions = Function.update n.sessions s.sessionId (some s) ∧
      SavesAtMost n.shared.storage (stateOf (Runtime.adopt env s n)).shared.storage s := by
  rw [Runtime.adopt_run]
  cases env.saveSessionFault with
  | some exc => exact ⟨rfl, savesAtMost_refl _ _⟩
  | none =>
    cases env.subscriber (.sessionCreated s.sessionId) <;> exact ⟨rfl, savesAtMost_put _ _⟩

theorem createSession_saves (env : CallEnv K) (ks : K.Structure) (n : Node K) :
    (stateOf (Runtime.createSession env ks n)).sessions env.sessionId =
        some (SessionManager.newSession env.sessionId env.nodeId ks) ∧
      SavesAtMost n.shared.storage (stateOf (Runtime.createSession env ks n)).shared.storage
        (SessionManager.newSession env.sessionId env.nodeId ks) := by
  obtain ⟨hses, hsave⟩ :=
    adopt_saves env (SessionManager.newSession env.sessionId env.nodeId ks) n
  exact ⟨(congrFun hses _).trans (Function.update_self _ _ _), hsave⟩

theorem closeSession_saves (env : CallEnv K) {sessionId : String} {s : Session K} {n : Node K}
    (hs : n.sessions sessionId = some s) :
    SavesAtMost n.shared.storage (stateOf (Runtime.closeSession env sessionId n)).shared.storage
      { s with closed := true } := by
  rw [Runtime.closeSession_run env hs]
  dsimp only
  cases env.saveSessionFault with
  | some exc => exact savesAtMost_refl _ _
  | none =>
    cases env.subscriber (.sessionClosed sessionId) <;>
      exact savesAtMost_put _ { s with closed := true }

/-! ## What a commit saves -/

/-- How a commit leaves the copy and the store. -/
inductive CommitSaves (env : Env K) (c : Ctx K)
    (r : EStateM.Result (Err K.Obj) (Ctx K) (Version K)) : Prop
  | nothing :
      returned r = false → (stateOf r).session.versionHistory = c.session.versionHistory →
      (stateOf r).shared.storage.versions = c.shared.storage.versions →
      (stateOf r).shared.storage.sessions = c.shared.storage.sessions → CommitSaves env c r
  | rolledBack :
      returned r = false → returned (Pipeline.executeStage env c) = false →
      (stateOf r).session.versionHistory = c.session.versionHistory →
      (stateOf r).session.knowledgeStructure = c.transaction.initialState →
      SavesAtMost c.shared.storage (stateOf r).shared.storage (stateOf r).session →
      CommitSaves env c r
  | rejected (v : Version K) :
      returned r = false → v.versionId = env.versionId → v.sessionId = c.session.sessionId →
      (stateOf r).session.versionHistory = c.session.versionHistory ++ [v] →
      ((stateOf r).shared.storage.versions = c.shared.storage.versions ∨
        (stateOf r).shared.storage.versions = c.shared.storage.versions ++ [v]) →
      (stateOf r).shared.storage.sessions = c.shared.storage.sessions → CommitSaves env c r
  | accepted (v : Version K) (row : SessionRow K) :
      v.versionId = env.versionId → v.sessionId = c.session.sessionId →
      (stateOf r).session.versionHistory = c.session.versionHistory ++ [v] →
      ((stateOf r).shared.storage.versions = c.shared.storage.versions ∨
        (stateOf r).shared.storage.versions = c.shared.storage.versions ++ [v]) →
      c.shared.storage.Accepts c.session.sessionId c.session.latestVersionId →
      (stateOf r).shared.storage.sessions c.session.sessionId = some row →
      row.latestVersionId = some v.versionId →
      row.knowledgeStructure = (stateOf r).session.knowledgeStructure → CommitSaves env c r

theorem latestVersionId_append {s : Session K} {history : List (Version K)} {v : Version K}
    (h : s.versionHistory = history ++ [v]) : s.latestVersionId = some v.versionId := by
  rw [Session.latestVersionId, h, List.getLast?_concat]
  rfl

/-- A failing first half of a commit leaves the store alone, or has rolled back. -/
theorem executeStage_fails {env : Env K} {c c' : Ctx K} {e : Err K.Obj}
    (h : Pipeline.executeStage env c = .error e c') :
    c'.session.sessionId = c.session.sessionId ∧
      c'.session.versionHistory = c.session.versionHistory ∧
      (c'.shared.storage = c.shared.storage ∨
        c'.session.knowledgeStructure = c.transaction.initialState ∧
          SavesAtMost c.shared.storage c'.shared.storage c'.session) := by
  obtain ⟨done, x, rest, -, hex, -⟩ | ⟨-, -, rfl⟩ | ⟨done, rest, c₁, -, hex, hrb⟩ :=
    Pipeline.executeStage_error h
  · obtain ⟨⟨ks, ds, hs⟩, -, ⟨es, hsh⟩⟩ := hex
    exact ⟨by rw [hs], by rw [hs], .inl (by rw [hsh])⟩
  · exact ⟨rfl, rfl, .inl rfl⟩
  · obtain ⟨⟨ks, ds, hs⟩, ⟨rs, ht⟩, ⟨es, hsh⟩⟩ := hex
    have hst : c₁.shared.storage = c.shared.storage := by rw [hsh]
    refine ⟨by rw [hrb.session, hs], by rw [hrb.session, hs], .inr ⟨by rw [hrb.session, ht], ?_⟩⟩
    rw [← hst]
    rcases hrb.storage with hsaved | hsaved
    · rw [hsaved]
      exact savesAtMost_refl _ _
    · rw [hsaved]
      exact savesAtMost_put _ _

theorem commit_saves_error {env : Env K} {c c' : Ctx K} {e : Err K.Obj}
    (h : Pipeline.commit env c = .error e c') :
    c'.session.sessionId = c.session.sessionId ∧ CommitSaves env c (.error e c') := by
  obtain hstage | ⟨c₁, hex, hraise⟩ := Pipeline.commit_error h
  · have hfailed : returned (Pipeline.executeStage env c) = false := by rw [hstage]; rfl
    obtain ⟨hid, hhist, hst | ⟨hks, hsave⟩⟩ := executeStage_fails hstage
    · exact ⟨hid, .nothing rfl hhist (congrArg Storage.versions hst) (congrArg Storage.sessions hst)⟩
    · exact ⟨hid, .rolledBack rfl hfailed hhist hks hsave⟩
  · obtain ⟨⟨ks, ds, hs⟩, -, ⟨es, hsh⟩⟩ := hex
    have hst : c₁.shared.storage = c.shared.storage := by rw [hsh]
    have hhist : c₁.session.versionHistory = c.session.versionHistory := by rw [hs]
    have hid : c₁.session.sessionId = c.session.sessionId := by rw [hs]
    obtain ⟨-, rfl⟩ | ⟨v, hb, hv⟩ := Pipeline.commitStage_error hraise
    · exact ⟨hid, .nothing rfl hhist (congrArg Storage.versions hst)
        (congrArg Storage.sessions hst)⟩
    · obtain ⟨hvid, hvses⟩ := Pipeline.versionId_of_build hb
      obtain ⟨active, -, hses⟩ := hv.session
      have hvers := hv.versions
      have hrows := hv.sessions
      rw [hst, hid] at hrows
      rw [hst] at hvers
      have happend : c'.session.versionHistory = c.session.versionHistory ++ [v] := by
        rw [hses, Session.versioned, hhist]
      refine ⟨by rw [hses]; exact hid, ?_⟩
      rcases hrows with hrow | ⟨hacc, hrow⟩
      · exact .rejected v rfl hvid (hvses.trans hid) happend hvers hrow
      · refine .accepted v _ hvid (hvses.trans hid) happend hvers hacc
          ((congrFun hrow _).trans (Function.update_self _ _ _)) ?_ ?_
        · exact latestVersionId_append (s := c₁.session.versioned env.replicaId v) rfl
        · rw [stateOf_error, hses]
          rfl

/-- **Every way a commit ends**, and what it has saved by then. -/
theorem commit_saves (env : Env K) (c : Ctx K) :
    (stateOf (Pipeline.commit env c)).session.sessionId = c.session.sessionId ∧
      CommitSaves env c (Pipeline.commit env c) := by
  cases h : Pipeline.commit env c with
  | error e c' => exact commit_saves_error h
  | ok v c' =>
    obtain ⟨c₁, ⟨⟨ks, ds, hs⟩, -, ⟨es, hsh⟩⟩, hb, hcom⟩ := Pipeline.commit_ok h
    have hst : c₁.shared.storage = c.shared.storage := by rw [hsh]
    have hid : c₁.session.sessionId = c.session.sessionId := by rw [hs]
    have hacc := hcom.accepts
    have hrow := hcom.sessions
    have hvers := hcom.versions
    rw [hst, hid] at hacc hrow
    rw [hst] at hvers
    obtain ⟨hvid, hvses⟩ := Pipeline.versionId_of_build hb
    refine ⟨by rw [stateOf_ok, hcom.session]; exact hid, .accepted v _ hvid (hvses.trans hid) ?_
      (.inr hvers) hacc ((congrFun hrow _).trans (Function.update_self _ _ _)) ?_ ?_⟩
    · rw [stateOf_ok, hcom.session, Session.versioned, hs]
    · exact latestVersionId_append (s := c₁.session.versioned env.replicaId v) rfl
    · rw [stateOf_ok, hcom.session]
      rfl

/-! ## What a step does -/

namespace Writers

variable {ι : Type} [DecidableEq ι] {sessionId : String}

/-- A copy is loaded or begins a transaction, or saves itself unconditionally: `s`, a new session or
a copy, up to fields a save leaves open. -/
inductive Leaves (sessionId : String) (w : Writers K ι) (l : Write K ι) : Writers K ι → Prop
  | loaded (i : ι) {s : Session K} :
      w.storage.loadSession sessionId = some s → Leaves sessionId w l (w.leave i (some s) w.storage)
  | begun (i : ι) {s s' : Session K} :
      w.copies i = some s → s'.sessionId = s.sessionId → s'.versionHistory = s.versionHistory →
      Leaves sessionId w l (w.leave i (some s') w.storage)
  | saved (i : ι) {s s' : Session K} {storage : Storage K} :
      s ∈ w.unconditional l →
      (s.sessionId = sessionId ∧ s.versionHistory = [] ∨ ∃ s₀, w.copies i = some s₀ ∧
        s.sessionId = s₀.sessionId ∧ s.versionHistory = s₀.versionHistory) →
      s'.sessionId = s.sessionId → s'.versionHistory = s.versionHistory →
      s'.knowledgeStructure = s.knowledgeStructure → SavesAtMost w.storage storage s' →
      Leaves sessionId w l (w.leave i (some s') storage)

/-- **Every way a step goes.** -/
theorem step_cases {w w' : Writers K ι} {l : Write K ι} (h : Step sessionId w l w') :
    Leaves sessionId w l w' ∨
      (∃ i env tx shared s, l = .commit i env tx shared ∧ w.copies i = some s ∧
        env.versionId ∉ w.used ∧ ∃ r, Pipeline.commit env (w.ctx s tx shared) = r ∧
          w' = (w.leave i (some (stateOf r).session) (stateOf r).shared.storage).record sessionId
            env.versionId s.latestVersionId (stateOf r).session.knowledgeStructure (returned r)) ∨
      ∃ storage, l = .elsewhere storage ∧
        storage.sessions sessionId = w.storage.sessions sessionId ∧
        (∀ v ∈ storage.versions, v.sessionId = sessionId → v ∈ w.storage.versions) ∧
        w' = { w with storage := storage } := by
  cases h with
  | @create i env ks shared n hnone hid hn =>
    subst hid hn
    obtain ⟨hses, hsave⟩ := createSession_saves env ks (w.node env.sessionId none shared)
    rw [hses]
    exact .inl (.saved i rfl (.inl ⟨rfl, rfl⟩) rfl rfl rfl hsave)
  | load i hs hopen => exact .inl (.loaded i hs)
  | @begin i transactionId s s' tx hs hbegin =>
    obtain ⟨-, -, rfl⟩ := begin_ok hbegin
    exact .inl (.begun i hs rfl rfl)
  | @commit i env tx shared s r hs hfresh hr =>
    exact .inr (.inl ⟨i, env, tx, shared, s, rfl, hs, hfresh, r, hr, rfl⟩)
  | @rollback i env tx shared s c hs hc =>
    subst hc
    -- a rollback, an abort and a close save without comparing
    have hrb := Pipeline.rollback_rolledBack env (w.ctx s tx shared)
    have hun : { s with knowledgeStructure := tx.initialState } ∈
        w.unconditional (.rollback i env tx shared) := by
      rw [unconditional, hs]
      rfl
    refine .inl (.saved i hun (.inr ⟨s, hs, rfl, rfl⟩) ?_ ?_ ?_
      (rollback_saves env (w.ctx s tx shared))) <;> rw [hrb.session] <;> rfl
  | @abort i env tx shared s c hs hc =>
    subst hc
    have hun : s ∈ w.unconditional (.abort i env tx shared) := by
      rw [unconditional, hs]
      rfl
    refine .inl (.saved i hun (.inr ⟨s, hs, rfl, rfl⟩) ?_ ?_ ?_
      (abort_saves env (w.ctx s tx shared))) <;> rw [abort_session] <;> rfl
  | @close i env shared s n hs hn =>
    subst hn
    have hun : s ∈ w.unconditional (.close i env shared) := by
      rw [unconditional, hs]
      rfl
    have hreg : (w.node sessionId (some s) shared).sessions sessionId = some s := by
      simp [node]
    have hsaves : SavesAtMost w.storage (stateOf (Runtime.closeSession env sessionId
        (w.node sessionId (some s) shared))).shared.storage { s with closed := true } :=
      closeSession_saves env hreg
    exact .inl (.saved i hun (.inr ⟨s, hs, rfl, rfl⟩) rfl rfl rfl hsaves)
  | elsewhere storage hrow hvers => exact .inr (.inr ⟨storage, rfl, hrow, hvers, rfl⟩)

end Writers

/-! ## The invariant -/

namespace Writers

variable {ι : Type} {sessionId : String}

/-- The accepted commits are serial, none is built on the last of them, and every id was drawn. -/
structure Inv (sessionId : String) (w : Writers K ι) : Prop where
  copies : ∀ i, ∀ s ∈ w.copies i, s.sessionId = sessionId ∧
    ∀ v ∈ s.versionHistory, v.versionId ∈ w.used
  versions : ∀ v ∈ w.storage.versions, v.sessionId = sessionId → v.versionId ∈ w.used
  headUsed : ∀ v ∈ w.head sessionId, v ∈ w.used
  acceptedUsed : ∀ e ∈ w.accepted, e.versionId ∈ w.used ∧ ∀ b ∈ e.base, b ∈ w.used
  /-- Nothing is built on the last accepted version yet. -/
  tip : ∀ l ∈ w.accepted.getLast?, ∀ e ∈ w.accepted, e.base ≠ some l.versionId
  serial : w.Serial sessionId

theorem head_of_row {w : Writers K ι} {row : SessionRow K}
    (h : w.storage.sessions sessionId = some row) : w.head sessionId = row.latestVersionId := by
  rw [head, h]
  rfl

/-- The last version of a copy has been drawn if all have. -/
theorem latest_used {used : List String} {s : Session K}
    (hs : ∀ v ∈ s.versionHistory, v.versionId ∈ used) : ∀ v ∈ s.latestVersionId, v ∈ used := by
  intro v hv
  rw [Session.latestVersionId, Option.mem_def, Option.map_eq_some_iff] at hv
  obtain ⟨x, hx, rfl⟩ := hv
  exact hs x (List.mem_of_getLast? hx)

/-- The world once the id of a commit's version is drawn. -/
def draw (w : Writers K ι) (versionId : String) : Writers K ι :=
  { w with used := versionId :: w.used }

theorem Inv.draw {w : Writers K ι} (h : Inv sessionId w) (versionId : String) :
    Inv sessionId (w.draw versionId) where
  copies i s hs :=
    ⟨(h.copies i s hs).1, fun v hv => List.mem_cons_of_mem _ ((h.copies i s hs).2 v hv)⟩
  versions v hv hid := List.mem_cons_of_mem _ (h.versions v hv hid)
  headUsed v hv := List.mem_cons_of_mem _ (h.headUsed v hv)
  acceptedUsed e he :=
    ⟨List.mem_cons_of_mem _ (h.acceptedUsed e he).1,
      fun b hb => List.mem_cons_of_mem _ ((h.acceptedUsed e he).2 b hb)⟩
  tip := h.tip
  serial := ⟨h.serial.chain, h.serial.versionIds, h.serial.bases, h.serial.head⟩

/-- The versions a commit leaves in the store have been drawn. -/
theorem Inv.versions_append {w : Writers K ι} (h : Inv sessionId w) {storage : Storage K}
    {v : Version K} (hvers : storage.versions = w.storage.versions ∨
      storage.versions = w.storage.versions ++ [v]) :
    ∀ y ∈ storage.versions, y.sessionId = sessionId → y.versionId ∈ v.versionId :: w.used := by
  intro y hy hysid
  have hy' : y ∈ w.storage.versions ∨ y = v := by
    rcases hvers with hv | hv
    · rw [hv] at hy
      exact .inl hy
    · rw [hv, List.mem_append, List.mem_singleton] at hy
      exact hy
  rcases hy' with hy' | rfl
  · exact List.mem_cons_of_mem _ (h.versions y hy' hysid)
  · exact List.mem_cons_self

/-- So have those a commit leaves in the copy. -/
theorem Inv.history_append {w : Writers K ι} (h : Inv sessionId w) {i : ι} {s : Session K}
    (hs : w.copies i = some s) {history : List (Version K)} {v : Version K}
    (hhist : history = s.versionHistory ++ [v]) :
    ∀ y ∈ history, y.versionId ∈ v.versionId :: w.used := by
  intro y hy
  rw [hhist, List.mem_append, List.mem_singleton] at hy
  rcases hy with hy | rfl
  · exact List.mem_cons_of_mem _ ((h.copies i s hs).2 y hy)
  · exact List.mem_cons_self

/-- A loaded copy has the stored versions for its history. -/
theorem Inv.loaded {w : Writers K ι} (h : Inv sessionId w) {s : Session K}
    (hs : w.storage.loadSession sessionId = some s) :
    s.sessionId = sessionId ∧ ∀ v ∈ s.versionHistory, v.versionId ∈ w.used := by
  rw [Storage.loadSession, Option.map_eq_some_iff] at hs
  obtain ⟨row, -, rfl⟩ := hs
  refine ⟨rfl, fun v hv => ?_⟩
  rw [List.mem_mergeSort, List.mem_filter] at hv
  exact h.versions v hv.1 (beq_iff_eq.1 hv.2)

variable [DecidableEq ι]

theorem copies_update {copies : ι → Option (Session K)} {i j : ι} {copy : Option (Session K)}
    {s : Session K} (h : s ∈ Function.update copies i copy j) : s ∈ copy ∨ s ∈ copies j := by
  by_cases hj : j = i
  · subst hj
    rw [Function.update_self] at h
    exact .inl h
  · rw [Function.update_of_ne hj] at h
    exact .inr h

/-- A call that leaves the accepted commits alone, the versions it has made drawn, and the head
where it was, unless there was none. -/
theorem Inv.leave_of {w : Writers K ι} (h : Inv sessionId w) {i : ι} {copy : Option (Session K)}
    {storage : Storage K}
    (hcopy : ∀ s ∈ copy, s.sessionId = sessionId ∧ ∀ v ∈ s.versionHistory, v.versionId ∈ w.used)
    (hvers : ∀ v ∈ storage.versions, v.sessionId = sessionId → v.versionId ∈ w.used)
    (hhead : (w.leave i copy storage).head sessionId = w.head sessionId ∨
      w.storage.sessions sessionId = none ∧
        ∀ v ∈ (w.leave i copy storage).head sessionId, v ∈ w.used) :
    Inv sessionId (w.leave i copy storage) where
  copies j s hs := (copies_update hs).elim (hcopy s) (h.copies j s)
  versions := hvers
  headUsed := by
    rcases hhead with hh | ⟨-, hh⟩
    · rw [hh]
      exact h.headUsed
    · exact hh
  acceptedUsed := h.acceptedUsed
  tip := h.tip
  serial :=
    { chain := h.serial.chain
      versionIds := h.serial.versionIds
      bases := h.serial.bases
      head := by
        intro e he
        have hold := h.serial.head e he
        rcases hhead with hh | ⟨hnone, -⟩
        · rw [hh, hold]
        · rw [head, hnone] at hold
          cases hold }

/-- The head after a save that has observed it. -/
theorem head_of_saves {w : Writers K ι} (i : ι) (copy : Option (Session K)) {storage : Storage K}
    {s : Session K} (hid : s.sessionId = sessionId) (hsave : SavesAtMost w.storage storage s)
    (hobs : ∀ row ∈ w.storage.sessions sessionId, s.latestVersionId = row.latestVersionId)
    (hused : ∀ v ∈ s.latestVersionId, v ∈ w.used) :
    (w.leave i copy storage).head sessionId = w.head sessionId ∨
      w.storage.sessions sessionId = none ∧
        ∀ v ∈ (w.leave i copy storage).head sessionId, v ∈ w.used := by
  have hrow := hsave.row
  rw [hid] at hrow
  rcases hrow with hrow | hrow
  · left
    rw [leave, head, head, hrow]
  · have hnew : (w.leave i copy storage).head sessionId = s.latestVersionId :=
      head_of_row (w := w.leave i copy storage) hrow
    rw [hnew]
    cases hold : w.storage.sessions sessionId with
    | none => exact .inr ⟨rfl, hused⟩
    | some row =>
      left
      rw [hobs row hold, head_of_row hold]

/-- A copy that has saved itself, up to fields other than its history, having observed the head. -/
theorem Inv.leave_saved {w : Writers K ι} (h : Inv sessionId w) {i : ι} {s s' : Session K}
    {storage : Storage K} (hcopy : s.sessionId = sessionId ∧
      ∀ v ∈ s.versionHistory, v.versionId ∈ w.used) (hid : s'.sessionId = s.sessionId)
    (hhist : s'.versionHistory = s.versionHistory) (hsave : SavesAtMost w.storage storage s')
    (hobs : ∀ row ∈ w.storage.sessions sessionId, s.latestVersionId = row.latestVersionId) :
    Inv sessionId (w.leave i (some s') storage) := by
  have hlatest : s'.latestVersionId = s.latestVersionId := by
    rw [Session.latestVersionId, hhist, Session.latestVersionId]
  refine h.leave_of ?_ ?_ (head_of_saves _ _ (hid.trans hcopy.1) hsave ?_ ?_)
  · intro x hx
    cases hx
    rw [hhist]
    exact ⟨hid.trans hcopy.1, hcopy.2⟩
  · rw [hsave.versions]
    exact h.versions
  · rw [hlatest]
    exact hobs
  · rw [hlatest]
    exact latest_used hcopy.2

/-! ## Commits -/

/-- A commit that did not return and whose version is not the head is not accepted. -/
theorem record_of_not {w : Writers K ι} {i : ι} {copy : Option (Session K)} {storage : Storage K}
    {versionId : String} {base : Option String} {content : K.Structure}
    (h : (w.leave i copy storage).head sessionId ≠ some versionId) :
    (w.leave i copy storage).record sessionId versionId base content false =
      (w.draw versionId).leave i copy storage := by
  rw [record, if_neg (by simpa using h)]
  rfl

/-- A commit that has rolled back, having observed the head, has not made its version the head. -/
theorem Inv.head_of_rolledBack {w : Writers K ι} (h : Inv sessionId w) {i : ι} {s s' : Session K}
    {storage : Storage K} {versionId : String} (hs : w.copies i = some s)
    (hfresh : versionId ∉ w.used) (hid : s'.sessionId = s.sessionId)
    (hhist : s'.versionHistory = s.versionHistory) (hsave : SavesAtMost w.storage storage s')
    (hobs : ∀ row ∈ w.storage.sessions sessionId, s.latestVersionId = row.latestVersionId) :
    (w.leave i (some s') storage).head sessionId ≠ some versionId := by
  intro he
  have hlatest : s'.latestVersionId = s.latestVersionId := by
    rw [Session.latestVersionId, hhist, Session.latestVersionId]
  have hmoved := head_of_saves i (some s') (hid.trans (h.copies i s hs).1) hsave
    (by rwa [hlatest]) (by rw [hlatest]; exact latest_used (h.copies i s hs).2)
  rcases hmoved with hm | ⟨-, hm⟩
  · exact hfresh (h.headUsed _ (hm.symm.trans he))
  · exact hfresh (hm _ he)

/-- The next version on the line. -/
theorem Inv.accept {w : Writers K ι} (h : Inv sessionId w) {i : ι} {s s' : Session K}
    {storage : Storage K} {v : Version K} {row : SessionRow K} {content : K.Structure}
    {succeeded : Bool} (hs : w.copies i = some s) (hfresh : v.versionId ∉ w.used)
    (hid : s'.sessionId = s.sessionId) (hhist : s'.versionHistory = s.versionHistory ++ [v])
    (hvers : storage.versions = w.storage.versions ∨
      storage.versions = w.storage.versions ++ [v])
    (hbase : ∀ row ∈ w.storage.sessions sessionId, row.latestVersionId = s.latestVersionId)
    (hrow : storage.sessions sessionId = some row) (hlatest : row.latestVersionId = some v.versionId) :
    Inv sessionId ((w.leave i (some s') storage).record sessionId v.versionId s.latestVersionId
      content succeeded) := by
  have hhead : (w.leave i (some s') storage).head sessionId = some v.versionId :=
    (head_of_row (w := w.leave i (some s') storage) hrow).trans hlatest
  have hcopy := h.copies i s hs
  -- the last accepted version is the head the commit was built on
  have hlast : ∀ l ∈ w.accepted.getLast?, s.latestVersionId = some l.versionId := by
    intro l hl
    have hold := h.serial.head l hl
    cases hr : w.storage.sessions sessionId with
    | none =>
      rw [head, hr] at hold
      cases hold
    | some r =>
      rw [head_of_row hr] at hold
      rw [← hbase r hr, hold]
  have hbaseUsed := latest_used hcopy.2
  rw [record, if_pos (.inr hhead)]
  refine ⟨?_, ?_, ?_, ?_, ?_, ?_, ?_, ?_, ?_⟩
  · intro j x hx
    rcases copies_update hx with hx | hx
    · cases hx
      exact ⟨hid.trans hcopy.1, h.history_append hs hhist⟩
    · exact ⟨(h.copies j x hx).1, fun y hy => List.mem_cons_of_mem _ ((h.copies j x hx).2 y hy)⟩
  · exact h.versions_append hvers
  · intro y hy
    have hy' : some v.versionId = some y := hhead.symm.trans hy
    cases hy'
    exact List.mem_cons_self
  · intro e he
    rw [List.mem_append, List.mem_singleton] at he
    rcases he with he | rfl
    · exact ⟨List.mem_cons_of_mem _ (h.acceptedUsed e he).1,
        fun b hb => List.mem_cons_of_mem _ ((h.acceptedUsed e he).2 b hb)⟩
    · exact ⟨List.mem_cons_self, fun b hb => List.mem_cons_of_mem _ (hbaseUsed b hb)⟩
  · intro l hl e he hb
    rw [List.getLast?_concat] at hl
    cases hl
    rw [List.mem_append, List.mem_singleton] at he
    rcases he with he | rfl
    · exact hfresh ((h.acceptedUsed e he).2 _ hb)
    · exact hfresh (hbaseUsed _ hb)
  · rw [List.isChain_append]
    refine ⟨h.serial.chain, List.isChain_singleton _, fun l hl e he => ?_⟩
    cases he
    exact hlast l hl
  · rw [List.map_append, List.nodup_append]
    refine ⟨h.serial.versionIds, by simp, fun a ha b hb => ?_⟩
    obtain ⟨e, he, rfl⟩ := List.mem_map.1 ha
    rw [List.map_singleton, List.mem_singleton] at hb
    rw [hb]
    intro heq
    have hused := (h.acceptedUsed e he).1
    rw [heq] at hused
    exact hfresh hused
  · rw [List.map_append, List.nodup_append]
    refine ⟨h.serial.bases, by simp, fun a ha b hb => ?_⟩
    obtain ⟨e, he, rfl⟩ := List.mem_map.1 ha
    rw [List.map_singleton, List.mem_singleton] at hb
    rw [hb]
    obtain ⟨l, hl⟩ := Option.ne_none_iff_exists'.1 fun hn =>
      List.ne_nil_of_mem he (List.getLast?_eq_none_iff.1 hn)
    rw [hlast l hl]
    exact h.tip l hl e he
  · intro e he
    rw [List.getLast?_concat] at he
    cases he
    exact hhead

/-- **A commit keeps the line**: if it was not accepted the head has not moved, and if it was, the
head was the version it was built on. -/
theorem Inv.commit {w : Writers K ι} (h : Inv sessionId w) {i : ι} {env : Env K}
    {tx : Transaction K} {shared : Shared K} {s : Session K}
    {r : EStateM.Result (Err K.Obj) (Ctx K) (Version K)} (hs : w.copies i = some s)
    (hfresh : env.versionId ∉ w.used) (hr : Pipeline.commit env (w.ctx s tx shared) = r)
    (hobs : ObservesHead sessionId w (.commit i env tx shared)) :
    Inv sessionId ((w.leave i (some (stateOf r).session) (stateOf r).shared.storage).record
      sessionId env.versionId s.latestVersionId (stateOf r).session.knowledgeStructure
        (returned r)) := by
  obtain ⟨hid, hsaves⟩ := commit_saves env (w.ctx s tx shared)
  rw [hr] at hid hsaves
  have hsid : s.sessionId = sessionId := (h.copies i s hs).1
  have hstale : w.head sessionId ≠ some env.versionId := fun he => hfresh (h.headUsed _ he)
  cases hsaves with
  | nothing hret hhist hvers hrows =>
    have hhead : (w.leave i (some (stateOf r).session) (stateOf r).shared.storage).head sessionId =
        w.head sessionId := by
      rw [leave, head, hrows]
      rfl
    rw [hret, record_of_not (by rwa [hhead])]
    refine (h.draw _).leave_of ?_ ?_ (.inl hhead)
    · intro x hx
      cases hx
      rw [hhist]
      exact (h.draw _).copies i s hs |>.imp_left hid.trans
    · rw [hvers]
      exact (h.draw _).versions
  | rolledBack hret hstage hhist hks hsave =>
    -- the rollback saves over the row, whose head has to be this copy's own
    have hrow : ∀ row ∈ w.storage.sessions sessionId, s.latestVersionId = row.latestVersionId := by
      refine hobs.1 { s with knowledgeStructure := tx.initialState } ?_
      rw [unconditional, hs, Option.bind_some, if_neg (by rw [hstage]; exact Bool.false_ne_true)]
      rfl
    rw [hret, record_of_not (h.head_of_rolledBack hs hfresh hid hhist hsave hrow)]
    exact (h.draw _).leave_saved ((h.draw _).copies i s hs) hid hhist hsave hrow
  | rejected v hret hvid hvsid hhist hvers hrows =>
    have hhead : (w.leave i (some (stateOf r).session) (stateOf r).shared.storage).head sessionId =
        w.head sessionId := by
      rw [leave, head, hrows]
      rfl
    rw [hret, record_of_not (by rwa [hhead])]
    refine (h.draw _).leave_of ?_ ?_ (.inl hhead)
    · intro x hx
      cases hx
      rw [← hvid]
      exact ⟨hid.trans hsid, h.history_append hs hhist⟩
    · rw [← hvid]
      exact h.versions_append hvers
  | accepted v row hvid hvsid hhist hvers hacc hrow hlatest hks =>
    rw [← hvid]
    refine h.accept hs (by rwa [hvid]) hid hhist hvers ?_ (hsid ▸ hrow) hlatest
    intro row hr
    rcases hacc with hnone | hacc
    · have hnil : s.versionHistory = [] := by
        cases hl : s.versionHistory.getLast? with
        | none => exact List.getLast?_eq_none_iff.1 hl
        | some x => simp [ctx, Session.latestVersionId, hl] at hnone
      -- a copy without a version compares nothing
      rw [hobs.2 i env tx shared rfl s hs hnil row hr]
      exact hnone.symm
    · exact hacc row (hsid ▸ hr)

/-! ## Every call -/

/-- **Every call keeps the line** of accepted commits, if whoever saves unconditionally has observed
the head. -/
theorem inv_step {w w' : Writers K ι} {l : Write K ι} (h : Inv sessionId w)
    (hst : Step sessionId w l w') (hobs : ObservesHead sessionId w l) : Inv sessionId w' := by
  rcases step_cases hst with hleaves | ⟨i, env, tx, shared, s, rfl, hs, hfresh, r, hr, rfl⟩ |
    ⟨storage, -, hrow, hvers, rfl⟩
  · cases hleaves with
    | loaded i hs =>
      refine h.leave_of (fun x hx => ?_) h.versions (.inl rfl)
      cases hx
      exact h.loaded hs
    | begun i hs hid hhist =>
      refine h.leave_of (fun x hx => ?_) h.versions (.inl rfl)
      cases hx
      rw [hid, hhist]
      exact h.copies i _ hs
    | @saved i s s' storage hun hknown hid hhist hks hsave =>
      refine h.leave_saved ?_ hid hhist hsave (hobs.1 s hun)
      rcases hknown with ⟨hsid, hnil⟩ | ⟨s₀, hs, hsid, hhist₀⟩
      · rw [hnil]
        exact ⟨hsid, fun v hv => absurd hv List.not_mem_nil⟩
      · rw [hsid, hhist₀]
        exact h.copies i s₀ hs
  · exact h.commit hs hfresh hr hobs
  · have hhead : head { w with storage := storage } sessionId = w.head sessionId := by
      rw [head, hrow]
      rfl
    refine ⟨h.copies, fun v hv hid => h.versions v (hvers v hv hid) hid, ?_, h.acceptedUsed, h.tip,
      ⟨h.serial.chain, h.serial.versionIds, h.serial.bases, ?_⟩⟩
    · rw [hhead]
      exact h.headUsed
    · rw [hhead]
      exact h.serial.head

theorem inv_init {w : Writers K ι} (h : (system K ι sessionId).init w) : Inv sessionId w := by
  obtain ⟨storage, hnone, hvers, rfl⟩ := h
  have hhead : head ({ storage := storage } : Writers K ι) sessionId = none := by
    rw [head, hnone]
    rfl
  refine ⟨fun i s hs => ?_, fun v hv hid => absurd hid (hvers v hv), ?_, nofun, nofun,
    ⟨List.isChain_nil, List.nodup_nil, List.nodup_nil, nofun⟩⟩
  · cases hs
  · rw [hhead]
    exact nofun

theorem reachable_inv {w : Writers K ι}
    (h : ((system K ι sessionId).restrict (ObservesHead sessionId)).Reachable w) :
    Inv sessionId w :=
  h.invariant (fun _ => inv_init) fun _ _ _ _ hi hst => inv_step hi hst.1 hst.2

/-! ## The stored content -/

omit [DecidableEq ι] in
/-- What is current stays so while neither the accepted commits nor the row change. -/
theorem ContentCurrent.congr {w w' : Writers K ι} (h : w.ContentCurrent sessionId)
    (hacc : w'.accepted = w.accepted)
    (hrow : w'.storage.sessions sessionId = w.storage.sessions sessionId) :
    w'.ContentCurrent sessionId := by
  intro e he
  rw [hacc] at he
  rw [hrow]
  exact h e he

omit [DecidableEq ι] in
/-- A save of the stored content. -/
theorem ContentCurrent.saved {w w' : Writers K ι} (h : w.ContentCurrent sessionId)
    (hacc : w'.accepted = w.accepted) {s : Session K} (hid : s.sessionId = sessionId)
    (hsave : SavesAtMost w.storage w'.storage s)
    (hks : ∀ row ∈ w.storage.sessions sessionId, s.knowledgeStructure = row.knowledgeStructure) :
    w'.ContentCurrent sessionId := by
  intro e he
  rw [hacc] at he
  obtain ⟨row, hr, hc⟩ := h e he
  rcases hsave.row with hrow | hrow
  · rw [hid] at hrow
    exact ⟨row, hrow.trans hr, hc⟩
  · rw [hid] at hrow
    exact ⟨s.toRow, hrow, (hks row hr).trans hc⟩

theorem contentCurrent_commit {w : Writers K ι} (h : Inv sessionId w)
    (hcur : w.ContentCurrent sessionId) {i : ι} {env : Env K} {tx : Transaction K}
    {shared : Shared K} {s : Session K} {r : EStateM.Result (Err K.Obj) (Ctx K) (Version K)}
    (hs : w.copies i = some s) (hfresh : env.versionId ∉ w.used)
    (hr : Pipeline.commit env (w.ctx s tx shared) = r)
    (hobs : ObservesHead sessionId w (.commit i env tx shared))
    (hstored : SavesStored sessionId w (.commit i env tx shared)) :
    ContentCurrent ((w.leave i (some (stateOf r).session) (stateOf r).shared.storage).record
      sessionId env.versionId s.latestVersionId (stateOf r).session.knowledgeStructure
        (returned r)) sessionId := by
  obtain ⟨hid, hsaves⟩ := commit_saves env (w.ctx s tx shared)
  rw [hr] at hid hsaves
  have hsid : s.sessionId = sessionId := (h.copies i s hs).1
  have hstale : w.head sessionId ≠ some env.versionId := fun he => hfresh (h.headUsed _ he)
  cases hsaves with
  | nothing hret hhist hvers hrows =>
    rw [hret, record_of_not (by rwa [leave, head, hrows])]
    exact hcur.congr rfl (congrFun hrows _)
  | rolledBack hret hstage hhist hks hsave =>
    have hun : { s with knowledgeStructure := tx.initialState } ∈
        w.unconditional (.commit i env tx shared) := by
      rw [unconditional, hs, Option.bind_some, if_neg (by rw [hstage]; exact Bool.false_ne_true)]
      rfl
    have hhead := h.head_of_rolledBack hs hfresh hid hhist hsave
      (hobs.1 { s with knowledgeStructure := tx.initialState } hun)
    rw [hret, record_of_not hhead]
    refine hcur.saved rfl (hid.trans hsid) hsave fun row hrow => ?_
    rw [hks]
    exact hstored _ hun row hrow
  | rejected v hret hvid hvsid hhist hvers hrows =>
    rw [hret, record_of_not (by rwa [leave, head, hrows])]
    exact hcur.congr rfl (congrFun hrows _)
  | accepted v row hvid hvsid hhist hvers hacc hrow hlatest hks =>
    have hrow' : (stateOf r).shared.storage.sessions sessionId = some row := hsid ▸ hrow
    have hhead : (w.leave i (some (stateOf r).session) (stateOf r).shared.storage).head sessionId =
        some env.versionId := by
      rw [← hvid, ← hlatest]
      exact head_of_row (w := w.leave i (some (stateOf r).session) (stateOf r).shared.storage) hrow'
    -- the commit is accepted, and the row has what it wrote
    rw [record, if_pos (.inr hhead)]
    intro e he
    rw [List.getLast?_concat] at he
    cases he
    exact ⟨row, hrow', hks⟩

/-- **Every call keeps the stored content** the last accepted commit's. -/
theorem contentCurrent_step {w w' : Writers K ι} {l : Write K ι} (h : Inv sessionId w)
    (hcur : w.ContentCurrent sessionId) (hst : Step sessionId w l w')
    (hobs : ObservesHead sessionId w l) (hstored : SavesStored sessionId w l) :
    w'.ContentCurrent sessionId := by
  rcases step_cases hst with hleaves | ⟨i, env, tx, shared, s, rfl, hs, hfresh, r, hr, rfl⟩ |
    ⟨storage, -, hrow, hvers, rfl⟩
  · cases hleaves with
    | loaded | begun => exact hcur.congr rfl rfl
    | @saved i s s' storage hun hknown hid hhist hks hsave =>
      refine hcur.saved rfl ?_ hsave fun row hrow => hks.trans (hstored s hun row hrow)
      rcases hknown with ⟨hsid, -⟩ | ⟨s₀, hs, hsid, -⟩
      · exact hid.trans hsid
      · exact (hid.trans hsid).trans (h.copies i s₀ hs).1
  · exact contentCurrent_commit h hcur hs hfresh hr hobs hstored
  · exact hcur.congr rfl hrow

end Writers

/-! ## Main result -/

/-- **The accepted commits are one line** that ends at the stored head, in every run whose
unconditional saves come from copies that have observed it; and the stored content is the last
accepted commit's, if they save the stored content too. -/
theorem writers_serial {ι : Type} [DecidableEq ι] {sessionId : String} (w : Writers K ι) :
    (((Writers.system K ι sessionId).restrict (Writers.ObservesHead sessionId)).Reachable w →
      w.Serial sessionId) ∧
    (((Writers.system K ι sessionId).restrict fun w l =>
        Writers.ObservesHead sessionId w l ∧ Writers.SavesStored sessionId w l).Reachable w →
      w.ContentCurrent sessionId) := by
  refine ⟨fun h => (Writers.reachable_inv h).serial, fun h => ?_⟩
  have hboth := h.invariant (P := fun w => Writers.Inv sessionId w ∧ w.ContentCurrent sessionId)
    (fun w hinit => ⟨Writers.inv_init hinit, ?_⟩) fun w l w' _ hi hst =>
      ⟨Writers.inv_step hi.1 hst.1 hst.2.1,
        Writers.contentCurrent_step hi.1 hi.2 hst.1 hst.2.1 hst.2.2⟩
  · exact hboth.2
  · obtain ⟨storage, -, -, rfl⟩ := hinit
    exact nofun

/-! ## Runs of the register -/

/-- A session with one stored version is loaded with it. -/
theorem loadSession_single {st : Storage K} {sessionId : String} {row : SessionRow K}
    {v : Version K} (hrow : st.sessions sessionId = some row)
    (hv : st.versions.filter (·.sessionId == sessionId) = [v]) :
    st.loadSession sessionId = some
      { knowledgeStructure := row.knowledgeStructure
        sessionId := sessionId
        metadata := row.metadata
        snapshotInterval := row.snapshotInterval
        interval_pos := row.interval_pos
        versionHistory := [v]
        closed := row.closed
        parentSessionId := row.parentSessionId
        parentVersionId := row.parentVersionId } := by
  rw [Storage.loadSession, hrow, Option.map_some, hv, List.mergeSort_singleton]

namespace Writers

/-- What a commit of a replica meets. -/
def runEnv (replicaId versionId : String) : Env Core.register :=
  { replicaId := some replicaId, versionId := versionId }

/-- The copy, when there is one. -/
def sessionOf (w : Writers Core.register Bool) (i : Bool) : Session Core.register :=
  (w.copies i).getD (SessionManager.newSession "s" "n" (0 : Nat))

/-- A session created by the first Runtime. -/
def created : Writers Core.register Bool :=
  let w : Writers Core.register Bool := {}
  let n := stateOf (Runtime.createSession ⟨"s", "n", none, fun _ => none⟩ (0 : Nat)
    (w.node "s" none {}))
  w.leave false (n.sessions "s") n.shared.storage

/-- A writer has begun a transaction. -/
def begun (w : Writers Core.register Bool) (i : Bool) (transactionId : String) :
    Writers Core.register Bool :=
  w.leave i (some { w.sessionOf i with activeTransaction := some transactionId }) w.storage

/-- A transaction begun now, that writes `v`. -/
def setTx (w : Writers Core.register Bool) (i : Bool) (transactionId : String) (v : Nat) :
    Transaction Core.register where
  transactionId := transactionId
  operations := [⟨"set", .replaceState (some v)⟩]
  initialState := (w.sessionOf i).knowledgeStructure

/-- After a commit of the transaction just begun. -/
def committed (w : Writers Core.register Bool) (i : Bool) (transactionId : String)
    (env : Env Core.register) (v : Nat) : Writers Core.register Bool :=
  let r := Pipeline.commit env (w.ctx (w.sessionOf i) (w.setTx i transactionId v) {})
  (w.leave i (some (stateOf r).session) (stateOf r).shared.storage).record "s" env.versionId
    (w.sessionOf i).latestVersionId (stateOf r).session.knowledgeStructure (returned r)

section
variable {C : Writers Core.register Bool → Write Core.register Bool → Prop}

theorem copies_eq {w : Writers Core.register Bool} {i : Bool} (h : (w.copies i).isSome) :
    w.copies i = some (w.sessionOf i) := by
  rw [sessionOf]
  cases hc : w.copies i with
  | none => rw [hc] at h; cases h
  | some s => rfl

theorem created_reachable
    (hC : C {} (.create false ⟨"s", "n", none, fun _ => none⟩ (0 : Nat) {})) :
    ((system Core.register Bool "s").restrict C).Reachable created := by
  refine .step (.init ⟨{}, rfl, nofun, rfl⟩) ⟨?_, hC⟩
  exact Step.create (K := Core.register) (w := {}) (i := false) ⟨"s", "n", none, fun _ => none⟩
    (0 : Nat) {} rfl rfl rfl

theorem begun_reachable {w : Writers Core.register Bool}
    (hw : ((system Core.register Bool "s").restrict C).Reachable w) (i : Bool)
    (transactionId : String) (hs : (w.copies i).isSome)
    (hnone : (w.sessionOf i).activeTransaction = none) (hC : C w (.begin i transactionId)) :
    ((system Core.register Bool "s").restrict C).Reachable (w.begun i transactionId) := by
  have hok : TransactionManager.begin transactionId (w.sessionOf i) = .ok
      ({ transactionId := transactionId, initialState := (w.sessionOf i).knowledgeStructure },
        { w.sessionOf i with activeTransaction := some transactionId }) := by
    simp [TransactionManager.begin, Session.hasActiveTransaction, hnone]
  exact hw.step ⟨Step.begin transactionId (copies_eq hs) hok, hC⟩

theorem committed_reachable {w : Writers Core.register Bool}
    (hw : ((system Core.register Bool "s").restrict C).Reachable w) (i : Bool)
    (transactionId : String) (env : Env Core.register) (v : Nat) (hs : (w.copies i).isSome)
    (hfresh : env.versionId ∉ w.used) (hC : C w (.commit i env (w.setTx i transactionId v) {})) :
    ((system Core.register Bool "s").restrict C).Reachable (w.committed i transactionId env v) :=
  hw.step ⟨Step.commit env (w.setTx i transactionId v) {} (copies_eq hs) hfresh rfl, hC⟩

end

/-- The first Runtime has committed `5`. -/
def first : Writers Core.register Bool :=
  (created.begun false "t1").committed false "t1" (runEnv "a" "v1") 5

/-- The copy the second Runtime loads. -/
def loadedCopy : Session Core.register :=
  { first.sessionOf false with diagnostics := [], activeTransaction := none }

/-- The version of the first commit. -/
def firstVersion : Version Core.register where
  versionId := "v1"
  sessionId := "s"
  transactionId := "t1"
  knowledgeStructure := some (5 : Nat)
  metadata := (first.sessionOf false).metadata
  stateHash := some (5 : Nat)
  patch := none
  createdAt := 0

theorem loadSession_first : first.storage.loadSession "s" = some loadedCopy := by
  have hrow : first.storage.sessions "s" = some (first.sessionOf false).toRow := rfl
  have hv : first.storage.versions.filter (·.sessionId == "s") = [firstVersion] := rfl
  exact loadSession_single hrow hv

/-- The second writer has loaded the session. -/
def loaded : Writers Core.register Bool := first.leave true (some loadedCopy) first.storage

/-- The second Runtime has begun a transaction, and the first has committed `7`. -/
def second : Writers Core.register Bool :=
  ((loaded.begun true "t2").begun false "t3").committed false "t3" (runEnv "a" "v2") 7

/-- A call that saves nothing. -/
def quiet : Write Core.register Bool → Bool
  | .load _ | .begin _ _ => true
  | _ => false

section
variable {C : Writers Core.register Bool → Write Core.register Bool → Prop}
  (hquiet : ∀ w l, quiet l → C w l)
  (hcreate : C {} (.create false ⟨"s", "n", none, fun _ => none⟩ (0 : Nat) {}))

include hquiet hcreate

theorem begun_created : ((system Core.register Bool "s").restrict C).Reachable
    (created.begun false "t1") :=
  begun_reachable (created_reachable hcreate) false "t1" rfl rfl (hquiet _ _ rfl)

variable (hfirst : C (created.begun false "t1") (.commit false (runEnv "a" "v1")
  ((created.begun false "t1").setTx false "t1" 5) {}))

include hfirst

theorem first_run : ((system Core.register Bool "s").restrict C).Reachable first :=
  committed_reachable (begun_created hquiet hcreate) false "t1" (runEnv "a" "v1") 5 rfl (by decide)
    hfirst

/-- The first Runtime commits again after the second has loaded the session. -/
theorem second_run (hsecond : C ((loaded.begun true "t2").begun false "t3")
      (.commit false (runEnv "a" "v2")
        (((loaded.begun true "t2").begun false "t3").setTx false "t3" 7) {})) :
    ((system Core.register Bool "s").restrict C).Reachable second := by
  have hloaded : ((system Core.register Bool "s").restrict C).Reachable loaded :=
    (first_run hquiet hcreate hfirst).step
      ⟨Step.load true loadSession_first rfl, hquiet _ _ rfl⟩
  have hbegun₂ := begun_reachable hloaded true "t2" rfl rfl (hquiet _ _ rfl)
  have hbegun₃ := begun_reachable hbegun₂ false "t3" rfl rfl (hquiet _ _ rfl)
  exact committed_reachable hbegun₃ false "t3" (runEnv "a" "v2") 7 rfl (by decide) hsecond

end

theorem observes_quiet (w : Writers Core.register Bool) {l : Write Core.register Bool}
    (h : quiet l) : ObservesHead "s" w l ∧ SavesStored "s" w l := by
  cases l with
  | load | begin =>
    refine ⟨⟨fun s hs => ?_, fun i env tx shared he => ?_⟩, fun s hs => ?_⟩
    · cases hs
    · cases he
    · cases hs
  | create | commit | rollback | abort | close | elsewhere => cases h

/-- A call that saves nothing unconditionally, while no version is stored. -/
theorem observes_of_isNone {w : Writers Core.register Bool} {l : Write Core.register Bool}
    (hl : (w.unconditional l).isNone) {row : SessionRow Core.register}
    (hrow : w.storage.sessions "s" = some row) (hlatest : row.latestVersionId = none) :
    ObservesHead "s" w l ∧ SavesStored "s" w l := by
  rw [Option.isNone_iff_eq_none] at hl
  refine ⟨⟨fun s hs => ?_, fun i env tx shared _ s _ _ row' hrow' => ?_⟩, fun s hs => ?_⟩
  · rw [hl] at hs
    cases hs
  · rw [hrow] at hrow'
    cases hrow'
    exact hlatest
  · rw [hl] at hs
    cases hs

/-- A commit whose operations go through, of a copy that has observed some version. -/
theorem observes_commit {w : Writers Core.register Bool} {i : Bool} {env : Env Core.register}
    {tx : Transaction Core.register} (hs : (w.copies i).isSome)
    (hl : (w.unconditional (.commit i env tx {})).isNone)
    (hhist : (w.sessionOf i).versionHistory ≠ []) :
    ObservesHead "s" w (.commit i env tx {}) ∧ SavesStored "s" w (.commit i env tx {}) := by
  rw [Option.isNone_iff_eq_none] at hl
  refine ⟨⟨fun s hun => ?_, fun i' env' tx' shared' he s hs' hempty => ?_⟩, fun s hun => ?_⟩
  · rw [hl] at hun
    cases hun
  · cases he
    rw [copies_eq hs, Option.mem_some_iff] at hs'
    subst hs'
    exact absurd hempty hhist
  · rw [hl] at hun
    cases hun

/-- A rollback to the stored content, of a copy that has observed the stored head. -/
theorem observes_rollback {w : Writers Core.register Bool} {i : Bool} {env : Env Core.register}
    {tx : Transaction Core.register} (hs : (w.copies i).isSome)
    (hrow : (w.storage.sessions "s").map (fun row => (row.latestVersionId, row.knowledgeStructure)) =
      some ((w.sessionOf i).latestVersionId, tx.initialState)) :
    ObservesHead "s" w (.rollback i env tx {}) ∧ SavesStored "s" w (.rollback i env tx {}) := by
  obtain ⟨row, hrow, hsame⟩ := Option.map_eq_some_iff.1 hrow
  obtain ⟨hhead, hcontent⟩ := Prod.mk.inj hsame
  have hun : ∀ s ∈ w.unconditional (.rollback i env tx {}),
      s = { w.sessionOf i with knowledgeStructure := tx.initialState } := by
    intro s hun
    rw [unconditional, copies_eq hs] at hun
    exact (Option.mem_some_iff.1 hun).symm
  refine ⟨⟨fun s hs' row' hrow' => ?_, fun i' env' tx' shared' he => ?_⟩, fun s hs' row' hrow' => ?_⟩
  · rw [hrow] at hrow'
    cases hrow'
    rw [hun s hs']
    exact hhead.symm
  · cases he
  · rw [hrow] at hrow'
    cases hrow'
    rw [hun s hs']
    exact hcontent.symm

/-- The second Runtime commits `7` on what it loaded. -/
def takenOver : Writers Core.register Bool :=
  (loaded.begun true "t2").committed true "t2" (runEnv "b" "v2") 7

/-- The second Runtime's transaction at the stored head, with nothing in it. -/
def emptyTx : Transaction Core.register where
  transactionId := "t3"
  initialState := (7 : Nat)

/-- It rolls a transaction back. -/
def undone : Writers Core.register Bool :=
  let w := takenOver.begun true "t3"
  let c := stateOf (Pipeline.rollback (runEnv "b" "v3") (w.ctx (w.sessionOf true) emptyTx {}))
  w.leave true (some c.session) c.shared.storage

/-- The first Runtime, which still has only `v1`, commits `9`. -/
def contended : Writers Core.register Bool :=
  (undone.begun false "t4").committed false "t4" (runEnv "a" "v3") 9

theorem contended_reachable :
    ((system Core.register Bool "s").restrict fun w l =>
      ObservesHead "s" w l ∧ SavesStored "s" w l).Reachable contended := by
  have hcreate : ∀ l : Write Core.register Bool, (∀ i env tx shared, l ≠ .commit i env tx shared) →
      ObservesHead "s" {} l ∧ SavesStored "s" {} l := by
    refine fun l hl => ⟨⟨fun s _ row hr => ?_, fun i env tx shared he => ?_⟩, fun s _ row hr => ?_⟩
    · cases hr
    · exact absurd he (hl i env tx shared)
    · cases hr
  have hrow : created.storage.sessions "s" = some (created.sessionOf false).toRow := rfl
  have hfirst := first_run (fun w _ hl => observes_quiet w hl)
    (hcreate _ fun i env tx shared he => by cases he) (observes_of_isNone (by decide) hrow rfl)
  have hloaded := hfirst.step ⟨Step.load true loadSession_first rfl, observes_quiet _ rfl⟩
  -- The second Runtime has seen the stored head, in the commit and in the rollback.
  have hbegun := begun_reachable hloaded true "t2" rfl rfl (observes_quiet _ rfl)
  have htaken := committed_reachable hbegun true "t2" (runEnv "b" "v2") 7 rfl (by decide)
    (observes_commit rfl (by decide) (by decide))
  have hbegun₃ := begun_reachable htaken true "t3" rfl rfl (observes_quiet _ rfl)
  have hundone := hbegun₃.step ⟨Step.rollback (i := true) (runEnv "b" "v3") emptyTx {}
    (copies_eq rfl) rfl, observes_rollback rfl (by decide)⟩
  have hbegun₄ := begun_reachable hundone false "t4" rfl rfl (observes_quiet _ rfl)
  exact committed_reachable hbegun₄ false "t4" (runEnv "a" "v3") 9 rfl (by decide)
    (observes_commit rfl (by decide) (by decide))

/-- The second Runtime rolls back the transaction it had begun. -/
def rolledBackTx : Transaction Core.register where
  transactionId := "t2"
  initialState := (5 : Nat)

end Writers

/-- Two Runtimes commit, one rolls back, and the commit of the one that has fallen behind is
rejected. -/
theorem writers_serial_contended :
    Writers.contended.accepted.map (·.versionId) = ["v1", "v2"] ∧
      Writers.contended.Serial "s" ∧ Writers.contended.ContentCurrent "s" :=
  ⟨by decide, (writers_serial _).1 (Writers.contended_reachable.mono fun _ _ h => h.1),
    (writers_serial _).2 Writers.contended_reachable⟩

/-- The rollback of a Runtime that has not seen `v2` moves the stored head back to `v1`. -/
theorem stale_rollback :
    ∃ w : Writers Core.register Bool, (Writers.system Core.register Bool "s").Reachable w ∧
      w.accepted.map (·.versionId) = ["v1", "v2"] ∧ w.head "s" = some "v1" ∧ ¬w.Serial "s" := by
  have hsecond := Writers.second_run (C := fun _ _ => True) (fun _ _ _ => trivial) trivial trivial
    trivial
  have hcopy : Writers.second.copies true = some (Writers.second.sessionOf true) := rfl
  refine ⟨_, hsecond.of_restrict.step (Writers.Step.rollback (Writers.runEnv "b" "v3")
    Writers.rolledBackTx {} hcopy rfl), by decide, by decide, fun h => ?_⟩
  have hhead := h.head ⟨some "v1", "v2", (7 : Nat)⟩ rfl
  revert hhead
  decide

end CksRuntime
