import CksRuntime.Pipeline.Proof.Atomicity
import CksRuntime.Pipeline.Proof.Rollback
import CksRuntime.Runtime.Ledger

/-!
# One outcome for a transaction

The status is guarded (`Transaction.finish`), the rest of a call on a completed transaction is not:
it detaches whatever transaction the session has, writes the session back, and a rollback puts the
old content in its place. `inert_iff` says on which states such a call does nothing, and
`single_outcome` that a run whose late calls are all of this kind keeps one outcome for every
transaction.
-/

set_option autoImplicit false

namespace CksRuntime

open Transition Effect

variable {K : Core}

/-! ## What a call leaves of the session's slot -/

/-- From `c` to `c'` the transaction has kept its slot and its status, or it has an outcome and the
slot is empty. -/
def Settled (c c' : Ctx K) : Prop :=
  (c'.session.activeTransaction = c.session.activeTransaction ∧
    c'.transaction.status = c.transaction.status) ∨
  (c'.session.activeTransaction = none ∧ c'.transaction.completed = true)

theorem completed_finish (tx : Transaction K) {outcome : TransactionStatus}
    (h : outcome = .committed ∨ outcome = .rolledBack ∨ outcome = .aborted) :
    (tx.finish outcome).completed = true := by
  unfold Transaction.finish
  split
  · assumption
  · simpa [Transaction.completed] using h

theorem completed_congr {tx tx' : Transaction K} (h : tx'.status = tx.status) :
    tx'.completed = tx.completed := by
  simp [Transaction.completed, h]

theorem Settled.after_executed {registry : OperationRegistry K} {items : List (Item K)}
    {c c₁ c' : Ctx K} (hex : Executed registry items c c₁) (h : Settled c₁ c') : Settled c c' := by
  obtain ⟨⟨ks, ds, hs⟩, ⟨rs, ht⟩, -⟩ := hex
  rw [Settled, hs, ht] at h
  exact h

theorem RolledBack.settled {c c' : Ctx K} (h : RolledBack c c') : Settled c c' := by
  obtain ⟨rs, ht⟩ := h.transaction
  refine .inr ⟨by rw [h.session], ?_⟩
  rw [ht]
  exact completed_finish _ (.inr (.inl rfl))

namespace Pipeline

variable {env : Env K}

theorem commitStage_settled {s₀ : K.Structure} {expected : Option String} {c : Ctx K} :
    Settled c (stateOf (commitStage env s₀ expected c)) := by
  rw [commitStage, bind_run]
  cases hcreate : createVersion env s₀ c with
  | error e c₁ =>
    obtain ⟨-, rfl⟩ | ⟨v, -, rfl⟩ := createVersion_error hcreate
    · exact .inl ⟨rfl, rfl⟩
    · exact .inl ⟨rfl, rfl⟩
  | ok v c₁ =>
    obtain ⟨-, rfl⟩ := createVersion_ok hcreate
    dsimp only
    have hp := persist_state env v expected s₀ (createdCtx env v c)
    rw [bind_run]
    cases hpersist : persist env v expected s₀ (createdCtx env v c) with
    | error e c₂ =>
      rw [hpersist, stateOf_error] at hp
      refine .inl ⟨?_, ?_⟩
      · rw [stateOf_error, hp.session]
        rfl
      · rw [stateOf_error, hp.transaction]
        rfl
    | ok u c₂ =>
      -- past here the transaction is finalized, whatever the event's subscribers do
      dsimp only
      rw [finalize_state]
      exact .inr ⟨rfl, completed_finish _ (.inl rfl)⟩

theorem commit_settled (c : Ctx K) : Settled c (stateOf (commit env c)) := by
  rw [commit, bind_get_run, bind_run]
  cases hstage : executeStage env c with
  | ok u c₁ => exact .after_executed (executeStage_ok hstage) commitStage_settled
  | error e c₁ =>
    obtain ⟨done, x, rest, -, hex, -⟩ | ⟨-, -, rfl⟩ | ⟨done, rest, c₂, -, hex, hrb⟩ :=
      executeStage_error hstage
    · exact .after_executed hex (.inl ⟨rfl, rfl⟩)
    · exact .inl ⟨rfl, rfl⟩
    · exact .after_executed hex hrb.settled

/-- What an abort leaves. -/
theorem abort_state (env : Env K) (c : Ctx K) :
    (stateOf (abort env c)).session = { c.session with activeTransaction := none } ∧
      (stateOf (abort env c)).transaction = c.transaction.finish .aborted ∧
      (stateOf (abort env c)).shared.storage = if env.saveSessionFault.isSome then c.shared.storage
        else c.shared.storage.putSession c.session.sessionId c.session.toRow := by
  rw [abort, finishTransaction, bind_modify_run, store, bind_run, bind_run, raiseIf_run]
  cases env.saveSessionFault with
  | some exc => exact ⟨rfl, rfl, rfl⟩
  | none =>
    dsimp only [Option.elim]
    rw [bind_get_run]
    dsimp only [Storage.saveSession]
    rw [modify_run]
    dsimp only
    rw [bind_get_run, stateOf_publish]
    exact ⟨rfl, rfl, rfl⟩

/-- What a rollback leaves of the store. -/
theorem rollback_storage (env : Env K) (c : Ctx K) :
    (stateOf (rollback env c)).shared.storage = if env.saveSessionFault.isSome then c.shared.storage
      else c.shared.storage.putSession c.session.sessionId
        { c.session with knowledgeStructure := c.transaction.initialState }.toRow := by
  rw [rollback, bind_modify_run, finishTransaction, bind_modify_run, store, bind_run, bind_run,
    raiseIf_run]
  cases env.saveSessionFault with
  | some exc => rfl
  | none =>
    dsimp only [Option.elim]
    rw [bind_get_run]
    dsimp only [Storage.saveSession]
    rw [modify_run]
    dsimp only
    rw [bind_get_run, stateOf_publish]
    rfl

end Pipeline

theorem Finish.settled (f : Finish) (env : Env K) (c : Ctx K) : Settled c (f.run env c) := by
  cases f with
  | commit => exact Pipeline.commit_settled c
  | rollback => exact (Pipeline.rollback_rolledBack env c).settled
  | abort =>
    obtain ⟨hs, ht, -⟩ := Pipeline.abort_state env c
    refine .inr ⟨by rw [Finish.run, hs], ?_⟩
    rw [Finish.run, ht]
    exact completed_finish _ (.inr (.inr rfl))

/-! ## When a call does nothing -/

/-- An abort detaches nothing and writes back the row that is stored, if it writes one. -/
def QuietAbort (env : Env K) (c : Ctx K) : Prop :=
  c.session.activeTransaction = none ∧ (env.saveSessionFault.isSome ∨
    c.shared.storage.sessions c.session.sessionId = some c.session.toRow)

/-- A rollback, besides, restores the content the session has. -/
def QuietRollback (env : Env K) (c : Ctx K) : Prop :=
  c.transaction.initialState = c.session.knowledgeStructure ∧ QuietAbort env c

/-- A commit of a transaction without operations is given up before it has changed anything: Core
raises on the content; or rejects it, with nothing to roll back; or raises while the version is
built, with no clock bumped. -/
def QuietCommit (env : Env K) (c : Ctx K) : Prop :=
  match K.validate c.session.knowledgeStructure none with
  | .error _ => True
  | .ok validation =>
    if validation.valid then
      c.session.metadata.nodeId = none ∧ env.replicaId = none ∧ CreateRaises c.session
    else QuietRollback env c

/-- A late call that finds nothing to change. -/
def Finish.Quiet (env : Env K) (c : Ctx K) : Finish → Prop
  | .commit => c.transaction.items = [] ∧ QuietCommit env c
  | .rollback => QuietRollback env c
  | .abort => QuietAbort env c

theorem Inert.refl (c : Ctx K) : Inert c c := ⟨rfl, rfl, rfl, rfl, rfl, rfl⟩

/-- A row is written where it is stored already, or it is another row. -/
theorem putSession_row_iff {st : Storage K} {sessionId : String} {row : SessionRow K} {b : Bool} :
    (if b then st else st.putSession sessionId row).sessions sessionId = st.sessions sessionId ↔
      b ∨ st.sessions sessionId = some row := by
  cases b with
  | true => simp
  | false => simp [Storage.putSession, eq_comm]

theorem putSession_versions {st : Storage K} {sessionId : String} {row : SessionRow K} {b : Bool} :
    (if b then st else st.putSession sessionId row).versions = st.versions := by
  cases b <;> rfl

theorem abort_inert_iff {env : Env K} {c : Ctx K} :
    Inert c (stateOf (Pipeline.abort env c)) ↔ QuietAbort env c := by
  obtain ⟨hs, -, hst⟩ := Pipeline.abort_state env c
  constructor
  · intro h
    have hactive := h.activeTransaction
    have hrow := h.row
    rw [hs] at hactive
    rw [hst, putSession_row_iff] at hrow
    exact ⟨hactive.symm, hrow⟩
  · intro h
    obtain ⟨hactive, hrow⟩ := h
    refine ⟨by rw [hs], by rw [hs], by rw [hs], by rw [hs]; exact hactive.symm, ?_, ?_⟩
    · rw [hst, putSession_row_iff]
      exact hrow
    · rw [hst, putSession_versions]

theorem rollback_inert_iff {env : Env K} {c : Ctx K} :
    Inert c (stateOf (Pipeline.rollback env c)) ↔ QuietRollback env c := by
  have hs := (Pipeline.rollback_rolledBack env c).session
  have hst := Pipeline.rollback_storage env c
  constructor
  · intro h
    have hks := h.knowledgeStructure
    have hactive := h.activeTransaction
    have hrow := h.row
    rw [hs] at hks hactive
    dsimp only at hks hactive
    rw [hst, putSession_row_iff, hks] at hrow
    exact ⟨hks, hactive.symm, hrow⟩
  · intro h
    obtain ⟨hks, hactive, hrow⟩ := h
    refine ⟨by rw [hs]; exact hks, by rw [hs], by rw [hs], by rw [hs]; exact hactive.symm, ?_, ?_⟩
    · rw [hst, putSession_row_iff, hks]
      exact hrow
    · rw [hst, putSession_versions]

/-- A rejected transaction is rolled back, and the gate raises with nothing else changed. -/
theorem qualityGate_state (env : Env K) (c : Ctx K) :
    ∃ e c', Pipeline.qualityGate env false c = .error e c' ∧
      c'.session = (stateOf (Pipeline.rollback env c)).session ∧
      c'.shared.storage = (stateOf (Pipeline.rollback env c)).shared.storage := by
  rw [Pipeline.qualityGate, if_neg (by decide), bind_run]
  cases Pipeline.rollback env c with
  | error e c₁ => exact ⟨e, c₁, rfl, rfl, rfl⟩
  | ok u c₁ =>
    dsimp only
    rw [bind_get_run, bind_run, Pipeline.publish_run]
    cases env.subscriber _ <;> exact ⟨_, _, rfl, rfl, rfl⟩

theorem Inert.congr {c c' c'' : Ctx K} (hs : c''.session = c'.session)
    (hst : c''.shared.storage = c'.shared.storage) : Inert c c'' ↔ Inert c c' := by
  constructor
  · intro h
    obtain ⟨h1, h2, h3, h4, h5, h6⟩ := h
    rw [hs] at h1 h2 h3 h4
    rw [hst] at h5 h6
    exact ⟨h1, h2, h3, h4, h5, h6⟩
  · intro h
    obtain ⟨h1, h2, h3, h4, h5, h6⟩ := h
    rw [← hs] at h1 h2 h3 h4
    rw [← hst] at h5 h6
    exact ⟨h1, h2, h3, h4, h5, h6⟩

/-- A second half of a commit that is run after no operation. -/
theorem commitStage_inert_iff {env : Env K} {c : Ctx K} :
    Inert c (stateOf (Pipeline.commitStage env c.session.knowledgeStructure
        c.session.latestVersionId c)) ↔
      c.session.metadata.nodeId = none ∧ env.replicaId = none ∧ CreateRaises c.session := by
  have hlonger : ∀ (v : Version K) (history : List (Version K)), history ++ [v] ≠ history := by
    intro v history h
    simpa using congrArg List.length h
  -- once a version is built it is in the history
  have hbuilt : ∀ v, Pipeline.buildVersion env (c.session.bumped env.replicaId)
      c.session.knowledgeStructure = .ok v → ¬CreateRaises c.session := by
    intro v hv hcr
    obtain ⟨e, he⟩ := (buildVersion_error_iff env (s := c.session.bumped env.replicaId)).2 hcr
    rw [show (c.session.bumped env.replicaId).knowledgeStructure = c.session.knowledgeStructure
      from rfl, hv] at he
    cases he
  cases hstage : Pipeline.commitStage env c.session.knowledgeStructure
      c.session.latestVersionId c with
  | ok v c' =>
    obtain ⟨hb, hc⟩ := Pipeline.commitStage_ok hstage
    refine iff_of_false (fun h => ?_) fun h => hbuilt v hb h.2.2
    have hhist := h.versionHistory
    rw [stateOf_ok, hc.session] at hhist
    exact hlonger v _ hhist
  | error e c' =>
    rw [stateOf_error]
    obtain ⟨hb, rfl⟩ | ⟨v, hb, hv⟩ := Pipeline.commitStage_error hstage
    · have hcr : CreateRaises c.session := (buildVersion_error_iff env
        (s := c.session.bumped env.replicaId)).1 ⟨e, hb⟩
      constructor
      · intro h
        have hmeta : Pipeline.bumpMetadata env.replicaId c.session.metadata = c.session.metadata :=
          h.metadata
        -- a component of its own would have been counted up
        have hnot : ¬(c.session.metadata.nodeId.isSome ∨ env.replicaId.isSome) := by
          intro hsome
          have hlt := lt_bumpMetadata hsome
          rw [hmeta] at hlt
          exact lt_irrefl _ hlt
        simp only [not_or, Option.not_isSome_iff_eq_none] at hnot
        exact ⟨hnot.1, hnot.2, hcr⟩
      · intro h
        obtain ⟨hnode, hreplica, -⟩ := h
        refine ⟨rfl, ?_, rfl, rfl, rfl, rfl⟩
        change Pipeline.bumpMetadata env.replicaId c.session.metadata = _
        rw [Pipeline.bumpMetadata, if_neg (by rw [hnode, hreplica]; simp)]
    · refine iff_of_false (fun h => ?_) fun h => hbuilt v hb h.2.2
      obtain ⟨active, -, hs⟩ := hv.session
      have hhist := h.versionHistory
      rw [hs] at hhist
      exact hlonger v _ hhist

theorem commit_inert_iff {env : Env K} {c : Ctx K} (hnil : c.transaction.items = []) :
    Inert c (stateOf (Pipeline.commit env c)) ↔ QuietCommit env c := by
  rw [Pipeline.commit, bind_get_run, Pipeline.executeStage, bind_run, bind_get_run,
    if_pos (Pipeline.items_eq_nil.1 hnil), Pipeline.validate, bind_get_run, QuietCommit]
  cases K.validate c.session.knowledgeStructure none with
  | error exc => exact iff_of_true (Inert.refl c) trivial
  | ok validation =>
    dsimp only
    rw [Pipeline.collectDiagnostics, bind_modify_run]
    set c₁ : Ctx K := { c with shared := { c.shared with
      diagnostics := c.shared.diagnostics ++ validation.diagnostics } }
    have hinert : ∀ c', Inert c c' ↔ Inert c₁ c' := fun c' =>
      ⟨fun h => ⟨h.1, h.2, h.3, h.4, h.5, h.6⟩, fun h => ⟨h.1, h.2, h.3, h.4, h.5, h.6⟩⟩
    cases hvalid : validation.valid with
    | true =>
      rw [Pipeline.qualityGate, if_pos rfl, if_pos rfl, pure_run]
      dsimp only
      rw [hinert]
      exact commitStage_inert_iff (c := c₁)
    | false =>
      obtain ⟨e, c', hgate, hs, hst⟩ := qualityGate_state env c₁
      rw [if_neg (by decide), hgate]
      dsimp only
      rw [stateOf_error, Inert.congr hs hst, hinert]
      exact rollback_inert_iff (c := c₁)

/-- **When a late call does nothing**, but for a commit that has operations to run again. -/
theorem inert_iff {env : Env K} {c : Ctx K} {f : Finish}
    (hnil : f = .commit → c.transaction.items = []) : Inert c (f.run env c) ↔ f.Quiet env c := by
  cases f with
  | commit => rw [Finish.run, commit_inert_iff (hnil rfl), Finish.Quiet, and_iff_right (hnil rfl)]
  | rollback => exact rollback_inert_iff
  | abort => exact abort_inert_iff

theorem Finish.Quiet.inert {env : Env K} {c : Ctx K} {f : Finish} (h : f.Quiet env c) :
    Inert c (f.run env c) := by
  refine (inert_iff fun hf => ?_).2 h
  subst hf
  exact h.1

/-! ## The invariant -/

namespace Ledger

variable {ι : Type} [DecidableEq ι]

/-- A transaction without an outcome is the one its session has attached. -/
structure Sound (w : Ledger K ι) : Prop where
  slot : ∀ i t, w.Active i t → (w.sessions i).activeTransaction = some t
  late : ∀ p ∈ w.late, Inert p.1 p.2

/-- The calls on a transaction that has its outcome do nothing. -/
def Quiet (w : Ledger K ι) : LedgerCall K ι → Prop
  | .finish t f env => ∀ r ∈ w.txs t, r.tx.completed = true → f.Quiet env (w.ctx r)
  | _ => True

omit [DecidableEq ι] in
/-- Filing a transaction changes which ones are active at its own id only. -/
theorem active_update {w w' : Ledger K ι} {t : String} {r : Filed K ι}
    (htxs : w'.txs = Function.update w.txs t (some r)) {i : ι} {t' : String} :
    w'.Active i t' ↔
      (t' = t ∧ r.session = i ∧ r.tx.completed = false) ∨ (t' ≠ t ∧ w.Active i t') := by
  unfold Active
  rw [htxs]
  by_cases h : t' = t
  · subst h
    simp
  · simp [h]

theorem Sound.begin {w : Ledger K ι} (h : w.Sound) {i : ι} {t : String} {tx : Transaction K}
    {s : Session K} {shared : Shared K}
    (hb : TransactionManager.begin t (w.sessions i) = .ok (tx, s)) :
    Sound { w with
      sessions := Function.update w.sessions i s
      shared := shared
      txs := Function.update w.txs t (some ⟨i, tx⟩) } := by
  obtain ⟨hfree, -, rfl⟩ := begin_ok hb
  refine ⟨fun j t' hact => ?_, h.late⟩
  obtain ⟨rfl, rfl, -⟩ | ⟨-, hact⟩ := (active_update rfl).1 hact
  · dsimp only
    rw [Function.update_self]
  · have hslot := h.slot j t' hact
    have hj : j ≠ i := by
      intro he
      rw [he, hfree] at hslot
      cases hslot
    dsimp only
    rw [Function.update_of_ne hj, hslot]

/-- A call on a transaction without an outcome keeps it in its slot or gives it one. -/
theorem Sound.leave_active {w : Ledger K ι} (h : w.Sound) {t : String} {r : Filed K ι} {c : Ctx K}
    (hr : w.txs t = some r) (hopen : r.tx.completed = false) (hset : Settled (w.ctx r) c) :
    (w.leave t r c).Sound := by
  have hslot : (w.sessions r.session).activeTransaction = some t := h.slot _ t ⟨r, hr, rfl, hopen⟩
  refine ⟨fun j t' hact => ?_, ?_⟩
  · change (Function.update w.sessions r.session c.session j).activeTransaction = some t'
    obtain ⟨rfl, rfl, hopen'⟩ | ⟨hne, hact⟩ := (active_update rfl).1 hact
    · rw [Function.update_self]
      obtain ⟨hkept, -⟩ | ⟨-, hdone⟩ := hset
      · rw [hkept]
        exact hslot
      · dsimp only at hopen'
        rw [hdone] at hopen'
        cases hopen'
    · have hslot' := h.slot j t' hact
      have hj : j ≠ r.session := by
        intro he
        rw [he, hslot] at hslot'
        exact hne (Option.some.inj hslot').symm
      rw [Function.update_of_ne hj]
      exact hslot'
  · intro p hp
    refine h.late p ?_
    simpa [leave, hopen] using hp

/-- A call on a transaction with an outcome that does nothing leaves every slot as it is. -/
theorem Sound.leave_late {w : Ledger K ι} (h : w.Sound) {t : String} {r : Filed K ι} {c : Ctx K}
    (hdone : r.tx.completed = true) (hset : Settled (w.ctx r) c) (hin : Inert (w.ctx r) c) :
    (w.leave t r c).Sound := by
  have hstill : c.transaction.completed = true := by
    obtain ⟨-, hkept⟩ | ⟨-, hdone'⟩ := hset
    · rw [completed_congr hkept]
      exact hdone
    · exact hdone'
  refine ⟨fun j t' hact => ?_, ?_⟩
  · change (Function.update w.sessions r.session c.session j).activeTransaction = some t'
    obtain ⟨-, -, hopen⟩ | ⟨-, hact⟩ := (active_update rfl).1 hact
    · dsimp only at hopen
      rw [hstill] at hopen
      cases hopen
    · have hslot := h.slot j t' hact
      by_cases hj : j = r.session
      · rw [hj, Function.update_self, hin.activeTransaction]
        rw [hj] at hslot
        exact hslot
      · rw [Function.update_of_ne hj]
        exact hslot
  · intro p hp
    simp only [leave, hdone, if_true, List.mem_append, List.mem_singleton] at hp
    rcases hp with hp | hp
    · exact h.late p hp
    · rw [hp]
      exact hin

/-- **Every call keeps the invariant**, if the late ones do nothing. -/
theorem sound_step {w w' : Ledger K ι} {l : LedgerCall K ι} (h : w.Sound) (hst : Step w l w')
    (hq : w.Quiet l) : w'.Sound := by
  cases hst with
  | begin _ hb => exact h.begin hb
  | beginRefused => exact h
  | @add t r operations requests hr =>
    refine ⟨fun j t' hact => ?_, h.late⟩
    obtain ⟨rfl, hj, hopen⟩ | ⟨-, hact⟩ := (active_update rfl).1 hact
    · exact h.slot j _ ⟨r, hr, hj, hopen⟩
    · exact h.slot j t' hact
  | @finish t r f env hr =>
    cases hdone : r.tx.completed with
    | false => exact h.leave_active hr hdone (f.settled env _)
    | true => exact h.leave_late hdone (f.settled env _) (hq r hr hdone).inert
  | elsewhere => exact ⟨h.slot, h.late⟩

theorem sound {w : Ledger K ι} (h : ((system K ι).restrict Quiet).Reachable w) : w.Sound := by
  refine h.invariant (fun w hi => ?_) fun w l w' _ hs hst => sound_step hs hst.1 hst.2
  obtain ⟨-, htxs, hlate⟩ := hi
  refine ⟨fun i t hact => ?_, fun p hp => ?_⟩
  · obtain ⟨r, hr, -⟩ := hact
    rw [htxs] at hr
    cases hr
  · rw [hlate] at hp
    cases hp

end Ledger

/-- **Single outcome**, in every run whose late calls do nothing. -/
theorem single_outcome {ι : Type} [DecidableEq ι] {w : Ledger K ι}
    (h : ((Ledger.system K ι).restrict Ledger.Quiet).Reachable w) : w.SingleOutcome := by
  have hs := Ledger.sound h
  refine ⟨fun i t t' ht ht' => ?_, hs.late⟩
  have hslot := hs.slot i t ht
  rw [hs.slot i t' ht'] at hslot
  exact (Option.some.inj hslot).symm

/-! ## A late call on a session at work -/

/-- A session on which nothing is begun. -/
def idleLedger : Ledger Core.register Unit where
  sessions _ := { knowledgeStructure := (1 : Nat), sessionId := "s" }
  shared := {}

/-- What a call meets. -/
def ledgerEnv : Env Core.register := { replicaId := none, versionId := "v" }

theorem idleLedger_init : (Ledger.system Core.register Unit).init idleLedger :=
  ⟨fun _ => rfl, rfl, rfl⟩

/-- An abort after the rollback, with nothing begun in between. -/
theorem single_outcome_idle : ∃ w : Ledger Core.register Unit, w.late.length = 1 ∧
    w.SingleOutcome := by
  have h₀ : ((Ledger.system Core.register Unit).restrict Ledger.Quiet).Reachable idleLedger :=
    .init idleLedger_init
  have begun : Ledger.Step idleLedger (.begin () "a") _ := .begin rfl rfl
  have h₁ := h₀.step ⟨begun, trivial⟩
  have h₂ := h₁.step (l := LedgerCall.finish "a" .rollback ledgerEnv)
    ⟨Ledger.Step.finish .rollback ledgerEnv (by rfl), fun r hr hdone => by cases hr; cases hdone⟩
  have h₃ := h₂.step (l := LedgerCall.finish "a" .abort ledgerEnv)
    ⟨Ledger.Step.finish .abort ledgerEnv (by rfl), fun r hr _ => by
      cases hr
      exact ⟨rfl, .inr rfl⟩⟩
  exact ⟨_, rfl, single_outcome h₃⟩

/-- `a` is begun and rolled back, `b` is begun, and `a` is rolled back again: `b` is detached. -/
theorem late_rollback_detaches : ¬∀ w : Ledger Core.register Unit,
    (Ledger.system Core.register Unit).Reachable w → w.SingleOutcome := by
  intro hall
  have begun : Ledger.Step idleLedger (.begin () "a") _ := .begin rfl rfl
  have h₁ := (System.Reachable.init idleLedger_init).step begun
  have h₂ := h₁.step (l := LedgerCall.finish "a" .rollback ledgerEnv)
    (Ledger.Step.finish .rollback ledgerEnv (by rfl))
  have h₃ := h₂.step (l := LedgerCall.begin () "b") (Ledger.Step.begin (by rfl) (by rfl))
  have h₄ := h₃.step (l := LedgerCall.finish "a" .rollback ledgerEnv)
    (Ledger.Step.finish .rollback ledgerEnv (by rfl))
  have hactive := ((hall _ h₄).late _ (List.mem_singleton.2 rfl)).activeTransaction
  cases hactive

end CksRuntime
