import CksRuntime.Runtime.Desk
import CksRuntime.Session.Proof.Reconstruction

/-!
# The history of a session

`Kept`: the history is a chronicle of contents that ends at the session's own, and a transaction
since whose begin nothing was appended would roll back to that content. Every call keeps it as long
as rollbacks are of such transactions (`kept_step`). Reconstruction of every committed version
(`reconstruct_committed`) and the exact fork point (`forkPoint_exact`) both follow.
-/

set_option autoImplicit false

namespace CksRuntime

open Transition Effect

variable {K : Core}

/-! ## What a commit does to the history -/

/-- The version a commit builds records the session's content after the content before it. -/
theorem records_of_build {env : Env K} {s : Session K} {prev : K.Structure} {v : Version K}
    (h : Pipeline.buildVersion env s prev = .ok v) {p : Option K.Structure}
    (hreplays : Pipeline.RecordsPatch s → K.Replays prev s.knowledgeStructure)
    (hp : s.versionHistory ≠ [] → p = some prev) : Records p v s.knowledgeStructure := by
  obtain ⟨stateHash, hhash, hrec⟩ := Pipeline.buildVersion_ok h
  obtain ⟨rfl, -⟩ | ⟨patch, hdiff, rfl, hrecords⟩ := Pipeline.recordState_ok hrec
  · exact ⟨hhash, .inl rfl⟩
  · refine ⟨hhash, .inr ⟨rfl, prev, ?_, hreplays hrecords, patch, rfl, hdiff⟩⟩
    exact hp fun hnil => hrecords.1 (by rw [hnil]; rfl)

/-- A history that ends at `prev` goes on with the version built on it. -/
theorem chronicle_append {env : Env K} {s : Session K} {prev : K.Structure} {v : Version K}
    {states : List K.Structure} (h : Chronicle Records none s.versionHistory states)
    (hcur : ∀ t ∈ states.getLast?, t = prev) (hb : Pipeline.buildVersion env s prev = .ok v)
    (hreplays : Pipeline.RecordsPatch s → K.Replays prev s.knowledgeStructure) :
    Chronicle Records none (s.versionHistory ++ [v]) (states ++ [s.knowledgeStructure]) := by
  refine h.snoc ?_
  rw [Option.or_none]
  refine records_of_build hb hreplays fun hne => ?_
  have hstates : states ≠ [] := by
    rintro rfl
    exact hne (List.length_eq_zero_iff.1 h.length_eq)
  obtain ⟨t, ht⟩ := Option.ne_none_iff_exists'.1 fun hn => hstates (List.getLast?_eq_none_iff.1 hn)
  rw [ht, hcur t ht]

/-- The id drawn for a version is not in the history yet. -/
theorem nodup_append {history : List (Version K)} {v : Version K}
    (h : (history.map (·.versionId)).Nodup) (hv : ∀ w ∈ history, w.versionId ≠ v.versionId) :
    ((history ++ [v]).map (·.versionId)).Nodup := by
  rw [List.map_append, List.nodup_append]
  refine ⟨h, by simp, fun a ha b hb => ?_⟩
  obtain ⟨w, hw, rfl⟩ := List.mem_map.1 ha
  rw [List.map_singleton, List.mem_singleton] at hb
  rw [hb]
  exact hv w hw

/-- `c'` is where a commit of `c` leaves it once a version is in the history. -/
def Appends (env : Env K) (c c' : Ctx K) : Prop :=
  ∃ s v, s.versionHistory = c.session.versionHistory ∧
    s.snapshotInterval = c.session.snapshotInterval ∧ s.knowledgeStructure = c.written env ∧
    Pipeline.buildVersion env s c.session.knowledgeStructure = .ok v ∧
    c'.session.knowledgeStructure = s.knowledgeStructure ∧
    c'.session.versionHistory = c.session.versionHistory ++ [v]

theorem appends_of_succeeded {env : Env K} {c c' : Ctx K}
    (h : CommitEnds env c .succeeded c') :
    Appends env c c' ∧ c'.session.activeTransaction = none := by
  obtain ⟨v, h⟩ := h
  rw [Pipeline.commit, bind_get_run, bind_eq_ok] at h
  obtain ⟨u, c₁, hstage, h⟩ := h
  obtain ⟨hb, hc⟩ := Pipeline.commitStage_ok h
  obtain ⟨ks, ds, hs⟩ := (Pipeline.executeStage_ok hstage).session
  obtain ⟨hwritten, -⟩ := Pipeline.executeStage_content hstage
  refine ⟨⟨c₁.session.bumped env.replicaId, v, ?_, ?_, hwritten, hb, ?_, ?_⟩, ?_⟩
  · rw [Session.bumped, hs]
  · rw [Session.bumped, hs]
  · rw [hc.session]
    rfl
  · rw [hc.session, Session.versioned, hs]
  · rw [hc.session]

theorem appends_of_rejected {env : Env K} {c c' : Ctx K} (h : CommitEnds env c .rejected c') :
    Appends env c c' := by
  obtain ⟨c₁, v, e, hstage, hb, -, hraise⟩ := h
  obtain ⟨ks, ds, hs⟩ := (Pipeline.executeStage_ok hstage).session
  obtain ⟨hwritten, -⟩ := Pipeline.executeStage_content hstage
  obtain ⟨he, -⟩ | ⟨w, hw, hv⟩ := Pipeline.commitStage_error hraise
  · rw [hb] at he
    cases he
  · obtain ⟨active, -, hses⟩ := hv.session
    refine ⟨c₁.session.bumped env.replicaId, w, ?_, ?_, hwritten, hw, ?_, ?_⟩
    · rw [Session.bumped, hs]
    · rw [Session.bumped, hs]
    · rw [hses]
      rfl
    · rw [hses, Session.versioned, hs]

theorem rolledBack_of_failed {env : Env K} {c c' : Ctx K} (h : CommitEnds env c .failed c') :
    c'.session.knowledgeStructure = c.transaction.initialState ∧
      c'.session.versionHistory = c.session.versionHistory ∧
      c'.session.activeTransaction = none := by
  obtain ⟨done, x, e, hf, hesc⟩ := h
  obtain ⟨c₁, hdone, hx⟩ := hf.ran
  obtain ⟨⟨ks, ds, hs⟩, ⟨rs, ht⟩, -⟩ := Pipeline.forM_items_ok hdone
  obtain ⟨he, -⟩ | ⟨-, hrb⟩ := Item.execute_error hx
  · rw [hesc] at he
    cases he
  · rw [hrb.session, ht]
    exact ⟨rfl, by rw [hs], rfl⟩

/-- An abort leaves the content and the history, whether or not it raises. -/
theorem abort_session (env : Env K) (c : Ctx K) :
    (stateOf (Pipeline.abort env c)).session = { c.session with activeTransaction := none } := by
  rw [Pipeline.abort, Pipeline.finishTransaction, bind_modify_run, bind_run]
  cases hs : Pipeline.store env.saveSessionFault
      (fun c => c.shared.storage.saveSession c.session none) _ with
  | error e c₂ =>
    obtain ⟨rfl, -⟩ := Pipeline.store_error hs
    rfl
  | ok u c₂ =>
    obtain ⟨-, storage, -, rfl⟩ := Pipeline.store_ok hs
    dsimp only
    rw [bind_get_run, Pipeline.stateOf_publish]

/-! ## The transaction a call leaves -/

theorem initialState_finish (tx : Transaction K) (outcome : TransactionStatus) :
    (tx.finish outcome).initialState = tx.initialState := by
  unfold Transaction.finish
  split <;> rfl

theorem abort_initialState (env : Env K) (c : Ctx K) :
    (stateOf (Pipeline.abort env c)).transaction.initialState = c.transaction.initialState := by
  rw [Pipeline.abort, Pipeline.finishTransaction, bind_modify_run, bind_run]
  cases hs : Pipeline.store env.saveSessionFault
      (fun c => c.shared.storage.saveSession c.session none) _ with
  | error e c₂ =>
    obtain ⟨rfl, -⟩ := Pipeline.store_error hs
    exact initialState_finish _ _
  | ok u c₂ =>
    obtain ⟨-, storage, -, rfl⟩ := Pipeline.store_ok hs
    dsimp only
    rw [bind_get_run, Pipeline.stateOf_publish]
    exact initialState_finish _ _

theorem rollback_initialState (env : Env K) (c : Ctx K) :
    (stateOf (Pipeline.rollback env c)).transaction.initialState = c.transaction.initialState := by
  obtain ⟨rs, ht⟩ := (Pipeline.rollback_rolledBack env c).transaction
  rw [ht, initialState_finish]

theorem commitEnds_initialState {env : Env K} {c c' : Ctx K} {o : Outcome}
    (h : CommitEnds env c o c') : c'.transaction.initialState = c.transaction.initialState := by
  cases o with
  | succeeded =>
    obtain ⟨v, h⟩ := h
    obtain ⟨c₁, hex, -, hc⟩ := Pipeline.commit_ok h
    obtain ⟨rs, ht⟩ := hex.transaction
    rw [hc.transaction, initialState_finish, ht]
  | failed =>
    obtain ⟨done, x, e, hf, hesc⟩ := h
    obtain ⟨c₁, hdone, hx⟩ := hf.ran
    obtain ⟨rs, ht⟩ := (Pipeline.forM_items_ok hdone).transaction
    obtain ⟨he, -⟩ | ⟨-, hrb⟩ := Item.execute_error hx
    · rw [hesc] at he
      cases he
    · obtain ⟨rs', ht'⟩ := hrb.transaction
      rw [ht', initialState_finish, ht]
  | rejected =>
    obtain ⟨c₁, v, e, hstage, hb, -, hraise⟩ := h
    obtain ⟨rs, ht⟩ := (Pipeline.executeStage_ok hstage).transaction
    obtain ⟨he, -⟩ | ⟨w, -, hv⟩ := Pipeline.commitStage_error hraise
    · rw [hb] at he
      cases he
    · rcases hv.transaction with ht' | ht'
      · rw [ht', ht]
      · rw [ht', initialState_finish, ht]

/-! ## The invariant -/

namespace Desk

/-- `states` are the contents the versions were created at; the last is the session's own. -/
structure Kept (w : Desk K) (states : List K.Structure) : Prop where
  chronicle : Chronicle Records none w.session.versionHistory states
  ids : (w.session.versionHistory.map (·.versionId)).Nodup
  current : ∀ t ∈ states.getLast?, t = w.session.knowledgeStructure
  committed : ∀ p ∈ w.committed, ∃ (i : Nat) (v : Version K),
    w.session.versionHistory[i]? = some v ∧ v.versionId = p.1 ∧ states[i]? = some p.2
  began : ∀ transactionId, ∀ r ∈ w.txs transactionId,
    r.began ≤ w.session.versionHistory.length
  initial : ∀ transactionId, ∀ r ∈ w.txs transactionId,
    r.began = w.session.versionHistory.length →
      r.tx.initialState = w.session.knowledgeStructure

/-- What is said of every transaction, after one of them has changed. -/
theorem forall_update {P : TxRecord K → Prop} {txs : String → Option (TxRecord K)}
    {transactionId : String} {r' : TxRecord K} (hr' : P r')
    (h : ∀ transactionId, ∀ r ∈ txs transactionId, P r) :
    ∀ t, ∀ r ∈ Function.update txs transactionId (some r') t, P r := by
  intro t r hr
  by_cases ht : t = transactionId
  · subst ht
    rw [Function.update_self] at hr
    cases hr
    exact hr'
  · rw [Function.update_of_ne ht] at hr
    exact h t r hr

/-- A call that leaves content and history as they are keeps the invariant. -/
theorem Kept.leave_same {w : Desk K} {states : List K.Structure} (h : Kept w states)
    {transactionId : String} {r r' : TxRecord K} {c : Ctx K} (hr : w.txs transactionId = some r)
    (hbegan : r'.began = r.began) (hks : c.session.knowledgeStructure = w.session.knowledgeStructure)
    (hhist : c.session.versionHistory = w.session.versionHistory)
    (hinit : c.transaction.initialState = r.tx.initialState) :
    Kept (w.leave transactionId r' c) states where
  chronicle := by
    change Chronicle _ _ c.session.versionHistory _
    rw [hhist]
    exact h.chronicle
  ids := by
    change (c.session.versionHistory.map _).Nodup
    rw [hhist]
    exact h.ids
  current t ht := (h.current t ht).trans hks.symm
  committed p hp := by
    obtain ⟨i, v, hv, hid, hs⟩ := h.committed p hp
    exact ⟨i, v, by rw [← hhist] at hv; exact hv, hid, hs⟩
  began := by
    change ∀ t, ∀ r ∈ Function.update _ _ _ t, _ ≤ c.session.versionHistory.length
    rw [hhist]
    exact forall_update (by rw [hbegan]; exact h.began _ r hr) h.began
  initial := by
    change ∀ t, ∀ r ∈ Function.update _ _ _ t, _ = c.session.versionHistory.length →
      _ = c.session.knowledgeStructure
    rw [hhist, hks]
    refine forall_update ?_ h.initial
    intro hlen
    exact hinit.trans (h.initial _ r hr (hbegan ▸ hlen))

/-- A commit that has appended its version keeps the invariant, with one more content. -/
theorem Kept.append {w : Desk K} {states : List K.Structure} (h : Kept w states)
    {transactionId : String} {r : TxRecord K} (r' : TxRecord K) {env : Env K} {c : Ctx K}
    (hr : w.txs transactionId = some r) (hbegan : r'.began = r.began)
    (hfresh : ∀ v ∈ w.session.versionHistory, v.versionId ≠ env.versionId)
    (hreplays : Pipeline.RecordsPatch w.session →
      K.Replays w.session.knowledgeStructure ((w.ctx r).written env))
    (happ : Appends env (w.ctx r) c) {committed : List (String × K.Structure)}
    (hc : ∀ p ∈ committed, p ∈ w.committed ∨ p = (env.versionId, c.session.knowledgeStructure)) :
    Kept { w.leave transactionId r' c with committed := committed }
      (states ++ [c.session.knowledgeStructure]) := by
  obtain ⟨s, v, hhist, hinterval, hwritten, hb, hks, happend⟩ := happ
  change s.versionHistory = w.session.versionHistory at hhist
  change s.snapshotInterval = w.session.snapshotInterval at hinterval
  change c.session.versionHistory = w.session.versionHistory ++ [v] at happend
  have hid : v.versionId = env.versionId := (Pipeline.versionId_of_build hb).1
  have hlen := h.chronicle.length_eq
  -- no transaction was begun on a history as long as the new one
  have hlonger : ∀ transactionId, ∀ r ∈ w.txs transactionId,
      r.began < (w.session.versionHistory ++ [v]).length := by
    intro t r' hr'
    have := h.began t r' hr'
    rw [List.length_append, List.length_singleton]
    omega
  refine ⟨?_, ?_, ?_, ?_, ?_, ?_⟩
  · change Chronicle _ _ c.session.versionHistory _
    have hchron := h.chronicle
    rw [← hhist] at hchron
    rw [happend, ← hhist, hks]
    -- a delta replays to what is written, a snapshot needs nothing
    refine chronicle_append hchron h.current hb fun hrecords => ?_
    rw [Pipeline.RecordsPatch, hhist, hinterval] at hrecords
    rw [hwritten]
    exact hreplays hrecords
  · change (c.session.versionHistory.map _).Nodup
    rw [happend]
    exact nodup_append h.ids fun u hu => by rw [hid]; exact hfresh u hu
  · intro t ht
    rw [List.getLast?_concat] at ht
    exact (Option.some.inj ht).symm
  · intro p hp
    change ∃ (i : Nat) (u : Version K), c.session.versionHistory[i]? = _ ∧ _ ∧ _
    rw [happend]
    rcases hc p hp with hp | rfl
    · obtain ⟨i, u, hu, huid, hs⟩ := h.committed p hp
      exact ⟨i, u, (List.getElem?_append_left (List.getElem?_eq_some_iff.1 hu).1).trans hu, huid,
        (List.getElem?_append_left (List.getElem?_eq_some_iff.1 hs).1).trans hs⟩
    · exact ⟨w.session.versionHistory.length, v, List.getElem?_concat_length, hid,
        by rw [hlen]; exact List.getElem?_concat_length⟩
  · change ∀ t, ∀ r ∈ Function.update _ _ _ t, _ ≤ c.session.versionHistory.length
    rw [happend]
    refine forall_update (P := fun r => r.began ≤ _) ?_ fun t r' hr' => (hlonger t r' hr').le
    change r'.began ≤ _
    rw [hbegan]
    exact (hlonger _ r hr).le
  · change ∀ t, ∀ r ∈ Function.update _ _ _ t, _ = c.session.versionHistory.length → _
    rw [happend]
    refine forall_update (P := fun r => r.began = _ → r.tx.initialState = _) ?_
      fun t r' hr' he => absurd he (hlonger t r' hr').ne
    intro he
    exact absurd (hbegan.symm.trans he) (hlonger _ r hr).ne

theorem kept_init {w : Desk K} (h : (system K).init w) : Kept w [] := by
  obtain ⟨s, shared, hnil, -, rfl⟩ := h
  refine ⟨?_, ?_, nofun, nofun, fun _ r hr => ?_, fun _ r hr => ?_⟩
  · dsimp only
    rw [hnil]
    exact .nil _
  · dsimp only
    rw [hnil]
    exact List.nodup_nil
  · cases hr
  · cases hr

/-- **Every call keeps the invariant**, if what it rolls back is current and what it records can be
replayed. -/
theorem kept_step {w w' : Desk K} {l : Call K} {states : List K.Structure} (h : Kept w states)
    (hst : Step w l w') (hc : RollsBackCurrent w l) (hreplays : PatchReplays w l) :
    ∃ states', Kept w' states' := by
  cases hst with
  | @begin transactionId tx s hfree hbegin =>
    obtain ⟨-, rfl, rfl⟩ := begin_ok hbegin
    refine ⟨states, h.chronicle, h.ids, h.current, h.committed, ?_, ?_⟩
    · exact forall_update (P := fun r => r.began ≤ _) le_rfl h.began
    · exact forall_update (P := fun r => r.began = _ → r.tx.initialState = _) (fun _ => rfl)
        h.initial
  | @add transactionId r operations requests hr =>
    refine ⟨states, h.chronicle, h.ids, h.current, h.committed, ?_, ?_⟩
    · exact forall_update (P := fun r => r.began ≤ _) (h.began _ r hr) h.began
    · exact forall_update (P := fun r => r.began = _ → r.tx.initialState = _) (h.initial _ r hr)
        h.initial
  | @commit transactionId r env o c hr hfresh hends =>
    cases o with
    | succeeded =>
      refine ⟨_, h.append { r with succeeded := r.succeeded || decide (Outcome.succeeded =
        .succeeded) } hr rfl hfresh (fun hrecords => hreplays hrecords r hr)
        (appends_of_succeeded hends).1 fun p hp => ?_⟩
      simpa using hp
    | failed =>
      obtain ⟨hks, hhist, -⟩ := rolledBack_of_failed hends
      -- the structure goes back to where the transaction began, which is the last version
      have hinit : r.tx.initialState = w.session.knowledgeStructure :=
        h.initial _ r hr (hc r hr)
      exact ⟨states, h.leave_same hr rfl (hks.trans hinit) hhist (commitEnds_initialState hends)⟩
    | rejected =>
      refine ⟨_, h.append { r with succeeded := r.succeeded || decide (Outcome.rejected =
        .succeeded) } hr rfl hfresh (fun hrecords => hreplays hrecords r hr)
        (appends_of_rejected hends) fun p hp => ?_⟩
      exact .inl (by simpa using hp)
  | @rollback transactionId r env hr hs hcl =>
    have hrb := Pipeline.rollback_rolledBack env (w.ctx r)
    have hinit : r.tx.initialState = w.session.knowledgeStructure := h.initial _ r hr (hc r hr)
    refine ⟨states, h.leave_same hr rfl ?_ ?_ (rollback_initialState env _)⟩
    · rw [hrb.session]
      exact hinit
    · rw [hrb.session]
      rfl
  | @abort transactionId r env hr hs hcl =>
    refine ⟨states, h.leave_same hr rfl ?_ ?_ (abort_initialState env _)⟩
    · rw [abort_session]
      rfl
    · rw [abort_session]
      rfl
  | elsewhere => exact ⟨states, h.chronicle, h.ids, h.current, h.committed, h.began, h.initial⟩

theorem reachable_kept {w : Desk K}
    (h : ((system K).restrict fun w l => RollsBackCurrent w l ∧ PatchReplays w l).Reachable w) :
    ∃ states, Kept w states :=
  h.invariant (P := fun w => ∃ states, Kept w states) (fun _ h0 => ⟨[], kept_init h0⟩)
    fun _ _ _ _ ⟨_, hk⟩ hst => kept_step hk hst.1 hst.2.1 hst.2.2

/-- Nothing is asked of the patches of a Core whose recorded patches the filter never changes. -/
theorem patchReplays_of_law (hr : K.ReplayLaw) (w : Desk K) (l : Call K) : PatchReplays w l := by
  cases l with
  | commit transactionId env o =>
    cases o with
    | failed => trivial
    | succeeded | rejected => exact fun _ r _ => hr _ _
  | _ => trivial

/-! ## Transactions that are finished once -/

/-- The active transaction was begun on the history as it is. -/
def ActiveCurrent (w : Desk K) : Prop :=
  ∀ transactionId, w.session.activeTransaction = some transactionId →
    ∃ r, w.txs transactionId = some r ∧ r.began = w.session.versionHistory.length

/-- A call on the active transaction of a run in which each is finished once is current. -/
theorem FinishesOnce.rollsBackCurrent {w : Desk K} {l : Call K} (ha : ActiveCurrent w)
    (h : FinishesOnce w l) : RollsBackCurrent w l := by
  have hcur : ∀ {transactionId : String},
      w.session.activeTransaction = some transactionId →
        ∀ r ∈ w.txs transactionId, r.began = w.session.versionHistory.length := by
    intro transactionId hact r hr
    obtain ⟨r', hr', hb⟩ := ha _ hact
    rw [hr'] at hr
    cases hr
    exact hb
  cases l with
  | commit transactionId env o =>
    cases o with
    | failed => exact hcur h.1
    | _ => trivial
  | rollback transactionId env => exact hcur h
  | _ => trivial

theorem activeCurrent_of_none {w : Desk K} (h : w.session.activeTransaction = none) :
    ActiveCurrent w := by
  intro transactionId hact
  rw [h] at hact
  cases hact

theorem activeCurrent_step {w w' : Desk K} {l : Call K} (h : ActiveCurrent w)
    (hst : Step w l w') (hc : FinishesOnce w l) : ActiveCurrent w' := by
  cases hst with
  | @begin transactionId tx s hfree hbegin =>
    obtain ⟨-, rfl, rfl⟩ := begin_ok hbegin
    intro t hact
    cases hact
    exact ⟨_, Function.update_self _ _ _, rfl⟩
  | @add transactionId r operations requests hr =>
    intro t hact
    obtain ⟨r', hr', hb⟩ := h t hact
    by_cases ht : t = transactionId
    · subst ht
      rw [hr] at hr'
      cases hr'
      exact ⟨_, Function.update_self _ _ _, hb⟩
    · exact ⟨r', (Function.update_of_ne ht _ _).trans hr', hb⟩
  | @commit transactionId r env o c hr hfresh hends =>
    refine activeCurrent_of_none ?_
    cases o with
    | succeeded => exact (appends_of_succeeded hends).2
    | failed => exact (rolledBack_of_failed hends).2.2
    | rejected => exact absurd rfl hc.2
  | @rollback transactionId r env hr hs hcl =>
    refine activeCurrent_of_none ?_
    exact congrArg Session.activeTransaction (Pipeline.rollback_rolledBack env (w.ctx r)).session
  | @abort transactionId r env hr hs hcl =>
    refine activeCurrent_of_none ?_
    exact congrArg Session.activeTransaction (abort_session env (w.ctx r))
  | elsewhere => exact h

theorem reachable_kept_of_finishesOnce (hr : K.ReplayLaw) {w : Desk K}
    (h : ((system K).restrict FinishesOnce).Reachable w) :
    (∃ states, Kept w states) ∧ ActiveCurrent w := by
  refine h.invariant (P := fun w => (∃ states, Kept w states) ∧ ActiveCurrent w) ?_ ?_
  · intro w h0
    refine ⟨⟨[], kept_init h0⟩, ?_⟩
    obtain ⟨s, shared, -, hnone, rfl⟩ := h0
    exact activeCurrent_of_none hnone
  · rintro w l w' - ⟨⟨states, hk⟩, ha⟩ ⟨hst, hc⟩
    exact ⟨kept_step hk hst (hc.rollsBackCurrent ha) (patchReplays_of_law hr w l),
      activeCurrent_step ha hst hc⟩

end Desk

/-! ## Main results -/

/-- **Every committed version reconstructs** to the content the session had right after it. -/
theorem reconstruct_committed (hp : K.PatchLaw) (hr : K.ReplayLaw) {w : Desk K}
    (h : ((Desk.system K).restrict Desk.FinishesOnce).Reachable w) :
    ∀ p ∈ w.committed, w.session.getVersionState p.1 = .ok p.2 := by
  obtain ⟨⟨states, hk⟩, -⟩ := Desk.reachable_kept_of_finishesOnce hr h
  intro p hmem
  obtain ⟨i, v, hv, hid, hs⟩ := hk.committed p hmem
  rw [← hid]
  exact getVersionState_eq hp hk.chronicle hk.ids hv hs

/-- **The fork point is exact** in every run that rolls back only current transactions and records
only patches that the replay filter leaves unchanged. -/
theorem forkPoint_exact (hp : K.PatchLaw) {w : Desk K}
    (h : ((Desk.system K).restrict fun w l =>
      Desk.RollsBackCurrent w l ∧ Desk.PatchReplays w l).Reachable w) :
    ForkPointExact w.session := by
  obtain ⟨states, hk⟩ := Desk.reachable_kept h
  have hlast := getVersionState_last hp hk.chronicle hk.ids hk.current
  intro hnone
  refine ⟨hlast, fun ks forkVersionId hfork => ?_⟩
  simp only [Runtime.forkPoint, Session.hasActiveTransaction, hnone, Session.latestVersionId] at hfork
  cases hfin : w.session.versionHistory.getLast? with
  | none => simp [hfin] at hfork
  | some v =>
    simp [hfin] at hfork
    rw [← hfork.1, ← hfork.2]
    exact hlast v hfin

/-! ## Runs of the register -/

theorem commitEnds_of_returned {env : Env K} {c : Ctx K}
    (h : returned (Pipeline.commit env c) = true) :
    CommitEnds env c .succeeded (stateOf (Pipeline.commit env c)) := by
  cases hc : Pipeline.commit env c with
  | ok v c' => exact ⟨v, hc⟩
  | error e c' =>
    rw [hc] at h
    cases h

namespace Desk

/-- What a commit meets. -/
def runEnv (versionId : String) : Env Core.register :=
  { replicaId := some "r", versionId := versionId }

/-- A session just created, at zero. -/
def start : Desk Core.register where
  session := SessionManager.newSession "s" "n" (0 : Nat)
  shared := {}

/-- One operation, which sets the register. -/
def setTo (v : Nat) : List (Operation Core.register) := [⟨"set", .replaceState (some v)⟩]

/-- The record of a transaction just begun, of these operations. -/
def recordOf (w : Desk Core.register) (transactionId : String)
    (operations : List (Operation Core.register)) : TxRecord Core.register where
  tx := {
    transactionId := transactionId
    operations := operations
    initialState := w.session.knowledgeStructure }
  began := w.session.versionHistory.length

/-- The desk after that transaction is begun. -/
def beginWith (w : Desk Core.register) (transactionId : String)
    (operations : List (Operation Core.register)) : Desk Core.register :=
  { w with
    session := { w.session with activeTransaction := some transactionId }
    txs := Function.update w.txs transactionId (some (w.recordOf transactionId operations)) }

/-- The context of a call on it. -/
def ctxWith (w : Desk Core.register) (transactionId : String)
    (operations : List (Operation Core.register)) : Ctx Core.register :=
  (w.beginWith transactionId operations).ctx (w.recordOf transactionId operations)

/-- The desk after a commit of it that returns. -/
def commitWith (w : Desk Core.register) (transactionId versionId : String)
    (operations : List (Operation Core.register)) : Desk Core.register :=
  let r := w.recordOf transactionId operations
  let c := stateOf (Pipeline.commit (runEnv versionId) (w.ctxWith transactionId operations))
  { (w.beginWith transactionId operations).leave transactionId { r with succeeded := true } c with
    committed := w.committed ++ [(versionId, c.session.knowledgeStructure)] }

theorem txs_beginWith (w : Desk Core.register) (transactionId : String)
    (operations : List (Operation Core.register)) :
    (w.beginWith transactionId operations).txs transactionId =
      some (w.recordOf transactionId operations) := Function.update_self _ _ _

theorem txs_leave (w : Desk Core.register) (transactionId : String) (r : TxRecord Core.register)
    (c : Ctx Core.register) : (w.leave transactionId r c).txs transactionId =
      some { r with tx := c.transaction } := Function.update_self _ _ _

section
variable {C : Desk Core.register → Call Core.register → Prop}
  (hfree : ∀ w transactionId, C w (.begin transactionId) ∧
    ∀ operations requests, C w (.add transactionId operations requests))
  {w : Desk Core.register} (hw : ((system Core.register).restrict C).Reachable w)

include hfree hw

theorem beginWith_reachable (transactionId : String) (operations : List (Operation Core.register))
    (hnew : w.txs transactionId = none) (hnone : w.session.activeTransaction = none) :
    ((system Core.register).restrict C).Reachable (w.beginWith transactionId operations) := by
  have hok : TransactionManager.begin transactionId w.session = .ok
      ({ transactionId := transactionId, initialState := w.session.knowledgeStructure },
        { w.session with activeTransaction := some transactionId }) := by
    simp [TransactionManager.begin, Session.hasActiveTransaction, hnone]
  have h₁ := hw.step ⟨Step.begin hnew hok, (hfree _ _).1⟩
  have h₂ := h₁.step ⟨Step.add operations [] (Function.update_self _ _ _), (hfree _ _).2 _ _⟩
  rwa [Function.update_idem] at h₂

theorem commitWith_reachable (transactionId versionId : String)
    (operations : List (Operation Core.register)) (hnew : w.txs transactionId = none)
    (hnone : w.session.activeTransaction = none)
    (hfresh : ∀ v ∈ w.session.versionHistory, v.versionId ≠ versionId)
    (hret : returned (Pipeline.commit (runEnv versionId) (w.ctxWith transactionId operations)))
    (hcommit : C (w.beginWith transactionId operations)
      (.commit transactionId (runEnv versionId) .succeeded)) :
    ((system Core.register).restrict C).Reachable
      (w.commitWith transactionId versionId operations) := by
  have hstep : Step (w.beginWith transactionId operations)
      (.commit transactionId (runEnv versionId) .succeeded)
      (w.commitWith transactionId versionId operations) :=
    .commit (txs_beginWith _ _ _) hfresh (commitEnds_of_returned hret)
  exact (beginWith_reachable hfree hw transactionId operations hnew hnone).step ⟨hstep, hcommit⟩

end

/-- The desk after two commits, the second recorded as a patch. -/
def twice : Desk Core.register :=
  (start.commitWith "t1" "v1" (setTo 5)).commitWith "t2" "v2" (setTo 7)

theorem twice_reachable {C : Desk Core.register → Call Core.register → Prop}
    (hfree : ∀ w transactionId, C w (.begin transactionId) ∧
      ∀ operations requests, C w (.add transactionId operations requests))
    (hcommit : ∀ w transactionId env, w.session.activeTransaction = some transactionId →
      C w (.commit transactionId env .succeeded)) :
    ((system Core.register).restrict C).Reachable twice := by
  have h₀ : ((system Core.register).restrict C).Reachable start := .init ⟨_, _, rfl, rfl, rfl⟩
  have h₁ := commitWith_reachable hfree h₀ "t1" "v1" (setTo 5) rfl rfl (by decide) (by decide)
    (hcommit _ _ _ rfl)
  exact commitWith_reachable hfree h₁ "t2" "v2" (setTo 7) (by decide) (by decide) (by decide)
    (by decide) (hcommit _ _ _ rfl)

/-! ### Failed and aborted transactions -/

/-- A replace with nothing to replace by fails. -/
def failing : List (Operation Core.register) := [⟨"set", .replaceState none⟩]

/-- After a commit that fails. -/
def failed : Desk Core.register :=
  (twice.beginWith "t3" failing).leave "t3" (twice.recordOf "t3" failing)
    (stateOf (Pipeline.commit (runEnv "v3") (twice.ctxWith "t3" failing)))

theorem commitEnds_failing : CommitEnds (runEnv "v3") (twice.ctxWith "t3" failing) .failed
    (stateOf (Pipeline.commit (runEnv "v3") (twice.ctxWith "t3" failing))) :=
  ⟨[], .operation ⟨"set", .replaceState none⟩, _, .of_ran rfl rfl rfl, rfl⟩

/-- And a transaction aborted after it. -/
def aborted : Desk Core.register :=
  (failed.beginWith "t4" (setTo 9)).leave "t4" { failed.recordOf "t4" (setTo 9) with closed := true }
    (stateOf (Pipeline.abort (runEnv "v4") (failed.ctxWith "t4" (setTo 9))))

theorem aborted_reachable : ((system Core.register).restrict FinishesOnce).Reachable aborted := by
  have hfree : ∀ w transactionId, FinishesOnce (K := Core.register) w (.begin transactionId) ∧
      ∀ operations requests, FinishesOnce w (.add transactionId operations requests) :=
    fun w transactionId => ⟨trivial, fun _ _ => trivial⟩
  have htwice := twice_reachable hfree fun w transactionId env h => ⟨h, by decide⟩
  have hbegun := beginWith_reachable hfree htwice "t3" failing (by decide) (by decide)
  have hstep : Step (twice.beginWith "t3" failing) (.commit "t3" (runEnv "v3") .failed) failed :=
    .commit (txs_beginWith _ _ _) (by decide) commitEnds_failing
  have hfailed := hbegun.step ⟨hstep, rfl, by decide⟩
  have hbegun₄ := beginWith_reachable hfree hfailed "t4" (setTo 9) (by decide) (by decide)
  exact hbegun₄.step ⟨Step.abort (runEnv "v4") (txs_beginWith _ _ _) rfl rfl, rfl⟩

/-! ### Rolled back and rejected transactions -/

/-- After two commits a transaction is rolled back. -/
def undone : Desk Core.register :=
  (twice.beginWith "t3" (setTo 9)).leave "t3" { twice.recordOf "t3" (setTo 9) with closed := true }
    (stateOf (Pipeline.rollback (runEnv "v3") (twice.ctxWith "t3" (setTo 9))))

/-- Another writer has moved the row of the session. -/
def moved : Desk Core.register :=
  { undone with shared := { undone.shared with
    storage := { undone.shared.storage with sessions := fun _ => some {
      knowledgeStructure := (9 : Nat)
      metadata := {}
      snapshotInterval := 10
      interval_pos := defaultInterval_pos
      versionHistoryIds := ["x"]
      parentSessionId := none
      parentVersionId := none
      closed := false
      latestVersionId := some "x" } } } }

/-- The two halves of a commit then. -/
def executedCtx : Ctx Core.register :=
  stateOf (Pipeline.executeStage (runEnv "v4") (moved.ctxWith "t4" (setTo 9)))

/-- What the commit leaves before its error is handled. -/
def rejectedCtx : Ctx Core.register :=
  stateOf (Pipeline.commitStage (runEnv "v4") moved.session.knowledgeStructure
    moved.session.latestVersionId executedCtx)

/-- The desk after it. -/
def rejected : Desk Core.register :=
  (moved.beginWith "t4" (setTo 9)).leave "t4" (moved.recordOf "t4" (setTo 9)) rejectedCtx

theorem commitEnds_rejected :
    CommitEnds (runEnv "v4") (moved.ctxWith "t4" (setTo 9)) .rejected rejectedCtx := by
  refine ⟨executedCtx, _, .concurrentModification "s", rfl, rfl, ?_, rfl⟩
  rintro (h | h)
  · revert h
    decide
  · have hlatest := h _ rfl
    revert hlatest
    decide

theorem rejected_reachable : ((system Core.register).restrict fun w l =>
    RollsBackCurrent w l ∧ PatchReplays w l).Reachable rejected := by
  have hreplays := patchReplays_of_law register_replayLaw
  let C : Desk Core.register → Call Core.register → Prop := fun w l =>
    RollsBackCurrent w l ∧ PatchReplays w l
  have hfree : ∀ w transactionId, C w (.begin transactionId) ∧
      ∀ operations requests, C w (.add transactionId operations requests) :=
    fun w transactionId => ⟨⟨trivial, trivial⟩, fun _ _ => ⟨trivial, trivial⟩⟩
  have htwice : ((system Core.register).restrict C).Reachable twice :=
    twice_reachable hfree fun w transactionId env _ => ⟨trivial, hreplays _ _⟩
  have hbegun := beginWith_reachable hfree htwice "t3" (setTo 9) (by decide) (by decide)
  -- Nothing was appended since the transaction was begun.
  have hundone := hbegun.step ⟨Step.rollback (runEnv "v3") (txs_beginWith _ _ _) rfl rfl,
    fun r hr => by cases hr; rfl, trivial⟩
  have hmoved := hundone.step ⟨Step.elsewhere moved.shared, trivial, trivial⟩
  have hbegun₄ := beginWith_reachable hfree hmoved "t4" (setTo 9) (by decide) (by decide)
  have hstep : Step (moved.beginWith "t4" (setTo 9)) (.commit "t4" (runEnv "v4") .rejected)
      rejected := .commit (txs_beginWith _ _ _) (by decide) commitEnds_rejected
  exact hbegun₄.step ⟨hstep, trivial, hreplays _ _⟩

end Desk

/-- `v2`, recorded as a patch, reconstructs to `7` after a commit that failed and an abort. -/
theorem reconstruct_second_commit :
    ∃ w, ((Desk.system Core.register).restrict Desk.FinishesOnce).Reachable w ∧
      w.session.versionHistory.map (·.knowledgeStructure.isSome) = [true, false] ∧
      ("v2", (7 : Nat)) ∈ w.committed ∧ w.session.getVersionState "v2" = .ok (7 : Nat) := by
  have h := Desk.aborted_reachable
  have hmem : ("v2", (7 : Nat)) ∈ Desk.aborted.committed := by decide
  exact ⟨_, h, by decide, hmem, reconstruct_committed register_patchLaw register_replayLaw h _ hmem⟩

/-- Two commits, a rollback and a rejected commit whose transaction is aborted: the branch starts
from the rejected version. -/
theorem forkPoint_aborted :
    ∃ w, ((Desk.system Core.register).restrict fun w l =>
        Desk.RollsBackCurrent w l ∧ Desk.PatchReplays w l).Reachable w ∧
      w.session.versionHistory.map (·.versionId) = ["v1", "v2", "v4"] ∧
      w.session.activeTransaction = none ∧ ForkPointExact w.session := by
  have h := Desk.rejected_reachable.step
    ⟨Desk.Step.abort (Desk.runEnv "v5") (Desk.txs_leave _ _ _ _) rfl rfl, trivial, trivial⟩
  exact ⟨_, h, by decide, by decide, forkPoint_exact register_patchLaw h⟩

/-- The transaction of the rejected commit is rolled back instead: the content is `7` again, the
last version is the rejected one, of `9`. -/
theorem forkPoint_after_rejection :
    ∃ w, (Desk.system Core.register).Reachable w ∧ ¬ForkPointExact w.session := by
  have h := Desk.rejected_reachable.of_restrict.step
    (Desk.Step.rollback (Desk.runEnv "v5") (Desk.txs_leave _ _ _ _) rfl rfl)
  refine ⟨_, h, fun hexact => ?_⟩
  obtain ⟨hlast, -⟩ := hexact rfl
  have hstate := hlast _ rfl
  have hcheck := congrArg (fun r => r.toOption.map (· == (9 : Nat))) hstate
  revert hcheck
  decide

end CksRuntime
