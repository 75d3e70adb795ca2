import CksRuntime.Lib.Moves
import CksRuntime.Runtime.Proof.Archive

/-!
# What the pipeline saves of a session

While no storage call raises, every call on a session with a transaction leaves it with nothing
stored and the transaction open, or saved as it is (`commit_leaves`).
-/

set_option autoImplicit false

namespace CksRuntime

open Effect

variable {K : Core}

/-! ## Metadata that storage keeps -/

theorem Metadata.Stable.toMetadata {m : Metadata} (h : m.Stable) (v : VersionVector) :
    (v.toMetadata m).Stable := by
  obtain ⟨⟨-, hdumped⟩, hreload⟩ := h
  have hextra : m.extra.map MetadataValue.reload = m.extra := congrArg Metadata.extra hreload
  refine ⟨⟨fun raw hraw => ?_, hdumped⟩, ?_⟩
  · cases hraw
    exact fun e he => absurd he (Multiset.notMem_zero e)
  · rw [VersionVector.toMetadata, Metadata.reload, hextra]
    rfl

theorem Metadata.Stable.metadataAfter {m : Metadata} (h : m.Stable) (op : Operation K) :
    (op.metadataAfter m).Stable := by
  unfold Operation.metadataAfter
  split
  · exact h.toMetadata _
  · exact h

theorem Metadata.Stable.bumpMetadata {m : Metadata} (h : m.Stable) (replicaId : Option String) :
    (Pipeline.bumpMetadata replicaId m).Stable := by
  unfold Pipeline.bumpMetadata
  split
  · exact h.toMetadata _
  · exact h

/-! ## What a call leaves -/

/-- The session has gone on, and nothing has been stored. -/
structure Steady (c c' : Ctx K) : Prop where
  session : ∃ ks m ds, (c.session.metadata.Stable → m.Stable) ∧ c'.session =
    { c.session with knowledgeStructure := ks, metadata := m, diagnostics := ds }
  storage : c'.shared.storage = c.shared.storage

/-- The session's transaction has ended, and the session been saved as it is. -/
structure Ended (c c' : Ctx K) : Prop where
  session : ∃ ks m ds, (c.session.metadata.Stable → m.Stable) ∧ c'.session =
    { c.session with
      knowledgeStructure := ks
      metadata := m
      diagnostics := ds
      activeTransaction := none }
  storage : c'.shared.storage = c.shared.storage.putSession c'.session.sessionId c'.session.toRow

/-- The session has a version more, which is stored with it. -/
structure Extended (env : Env K) (c c' : Ctx K) : Prop where
  version : ∃ v : Version K, v.sessionId = c.session.sessionId ∧ v.createdAt = env.now ∧
    (∃ ks m ds active, (c.session.metadata.Stable → m.Stable) ∧ c'.session =
      { c.session with
        knowledgeStructure := ks
        metadata := m
        diagnostics := ds
        versionHistory := c.session.versionHistory ++ [v]
        activeTransaction := active }) ∧
    c'.shared.storage.versions = c.shared.storage.versions ++ [v]
  sessions : c'.shared.storage.sessions = Function.update c.shared.storage.sessions
    c'.session.sessionId (some c'.session.toRow)

theorem Steady.refl (c : Ctx K) : Steady c c := ⟨⟨_, _, _, id, rfl⟩, rfl⟩

theorem Steady.trans {c c' c'' : Ctx K} (h : Steady c c') (h' : Steady c' c'') : Steady c c'' := by
  obtain ⟨⟨ks, m, ds, hm, hs⟩, hst⟩ := h
  obtain ⟨⟨ks', m', ds', hm', hs'⟩, hst'⟩ := h'
  refine ⟨⟨ks', m', ds', fun h₀ => hm' ?_, ?_⟩, hst'.trans hst⟩
  · rw [hs]
    exact hm h₀
  · rw [hs', hs]

theorem Steady.ended {c c' c'' : Ctx K} (h : Steady c c') (h' : Ended c' c'') : Ended c c'' := by
  obtain ⟨⟨ks, m, ds, hm, hs⟩, hst⟩ := h
  obtain ⟨⟨ks', m', ds', hm', hs'⟩, hst'⟩ := h'
  refine ⟨⟨ks', m', ds', fun h₀ => hm' ?_, ?_⟩, by rw [hst', hst]⟩
  · rw [hs]
    exact hm h₀
  · rw [hs', hs]

theorem stage_flow : Flow Steady fun c c' : Ctx K => Steady c c' ∨ Ended c c' where
  refl := Steady.refl
  trans := Steady.trans
  raise := .inl
  after h h' := h'.imp h.trans h.ended

namespace Pipeline

variable {env : Env K}

/-- A call of the first half: it returns with nothing stored, or raises so or rolled back. -/
abbrev Stages {α : Type} (x : PipelineM K α) : Prop :=
  Moves Steady (fun c c' : Ctx K => Steady c c' ∨ Ended c c') x

theorem applyStateMutation_stages (operation : Option (Operation K)) (result : ExecutionResult K) :
    Stages (applyStateMutation operation result) := by
  unfold applyStateMutation
  split
  · split
    · exact .modify fun _ => ⟨⟨_, _, _, id, rfl⟩, rfl⟩
    · exact .pure stage_flow _
  · exact .pure stage_flow _

section

variable (hfault : env.saveSessionFault = none)

include hfault

theorem saveEnded_run {c : Ctx K} : store env.saveSessionFault
    (fun c => c.shared.storage.saveSession c.session none) c = .ok ()
      { c with shared := { c.shared with
        storage := c.shared.storage.putSession c.session.sessionId c.session.toRow } } := by
  rw [hfault]
  rfl

theorem rollback_ended (c : Ctx K) : Ended c (stateOf (rollback env c)) := by
  rw [rollback, bind_modify_run, finishTransaction, bind_modify_run,
    bind_of_ok (saveEnded_run hfault), bind_get_run, stateOf_publish]
  exact ⟨⟨_, _, _, id, rfl⟩, rfl⟩

theorem abort_ended (c : Ctx K) : Ended c (stateOf (abort env c)) := by
  rw [abort, finishTransaction, bind_modify_run, bind_of_ok (saveEnded_run hfault), bind_get_run,
    stateOf_publish]
  exact ⟨⟨_, _, _, id, rfl⟩, rfl⟩

theorem rollback_throw_stages {α : Type} (e : Err K.Obj) :
    Stages (rollback env >>= fun _ => throw e : PipelineM K α) := by
  refine .of_raises (fun _ _ _ => rollback_throw_ne_ok) fun c => .inr ?_
  rw [stateOf_rollback_throw]
  exact rollback_ended hfault c

theorem handleResult_stages (operationId : String) (result : ExecutionResult K) :
    Stages (handleResult env operationId result) := by
  unfold handleResult
  split
  · exact rollback_throw_stages hfault _
  · exact .bind stage_flow (.modify fun _ => ⟨⟨_, _, _, id, rfl⟩, rfl⟩)
      fun _ => .modify fun _ => ⟨⟨_, _, _, id, rfl⟩, rfl⟩

theorem finishResult_stages (operationId : String) (operation : Option (Operation K))
    (result : ExecutionResult K) : Stages (finishResult env operationId operation result) :=
  .bind stage_flow (.modify fun _ => ⟨⟨_, _, _, id, rfl⟩, rfl⟩) fun _ =>
    .bind stage_flow (handleResult_stages hfault _ _) fun _ =>
      applyStateMutation_stages operation result

theorem item_stages (x : Item K) : Stages (x.execute env) := by
  intro c
  cases ho : x.operation? env.registry with
  | none =>
    obtain ⟨e, -, hx⟩ | ⟨-, operationId, result, -, hx⟩ := Item.execute_of_none ho c
    · rw [hx]
      exact .inl (.refl c)
    · rw [hx]
      exact finishResult_stages hfault operationId none result c
  | some op =>
    obtain ⟨operationId, hx⟩ := Item.execute_of_operation ho c
    rw [hx]
    have hmeta : Steady c { c with session :=
        { c.session with metadata := op.metadataAfter c.session.metadata } } :=
      ⟨⟨_, _, _, fun h => h.metadataAfter op, rfl⟩, rfl⟩
    have hfinish := finishResult_stages hfault operationId (some op)
      (OperationExecutor.execute op c.shared.storage c.session).1
    cases h : finishResult env operationId (some op)
        (OperationExecutor.execute op c.shared.storage c.session).1 _ with
    | ok u c' => exact hmeta.trans (hfinish.of_ok h)
    | error e c' => exact stage_flow.after hmeta (hfinish.of_error h)

theorem qualityGate_stages (valid : Bool) : Stages (qualityGate env valid) := by
  unfold qualityGate
  split
  · exact .pure stage_flow _
  · refine .of_raises (fun c u c' h => ?_) fun c => .inr ?_
    · obtain ⟨_, c₁, -, h⟩ := bind_eq_ok.1 h
      rw [bind_get_run] at h
      obtain ⟨_, c₂, -, h⟩ := bind_eq_ok.1 h
      cases h
    · have hended := rollback_ended hfault c
      rw [bind_run]
      cases hr : rollback env c with
      | error e c₁ =>
        rw [hr] at hended
        exact hended
      | ok u c₁ =>
        rw [hr] at hended
        dsimp only
        rw [bind_get_run]
        -- the event says so afterwards
        rw [bind_run, publish_run]
        cases env.subscriber _ <;> exact ⟨hended.session, hended.storage⟩

theorem validate_stages : Stages (validate env) := by
  refine .get_bind fun c => ?_
  cases hv : K.validate c.session.knowledgeStructure none with
  | error exc => exact .inl (.refl c)
  | ok validation =>
    have hgate : Stages (collectDiagnostics validation.diagnostics >>= fun _ =>
        qualityGate env validation.valid) :=
      .bind stage_flow (.modify fun _ => ⟨⟨_, _, _, id, rfl⟩, rfl⟩)
        fun _ => qualityGate_stages hfault validation.valid
    exact hgate c

theorem executeStage_stages : Stages (executeStage env) := by
  refine .get_bind fun c => ?_
  by_cases hempty : c.transaction.operations.isEmpty ∧ c.transaction.requests.isEmpty
  · rw [if_pos hempty]
    exact validate_stages hfault c
  · rw [if_neg hempty, executeOperations_run]
    exact Moves.forM stage_flow c.transaction.items (fun x _ => item_stages hfault x) c

end

/-! ## The version -/

/-- No storage call of the commit raises, nor does a subscriber on the version, and the stored
version ids are others. -/
structure Saves (env : Env K) (c : Ctx K) : Prop where
  saveVersion : env.saveVersionFault = none
  saveSession : env.saveSessionFault = none
  subscribers : ∀ versionId sessionId transactionId,
    env.subscriber (.versionCreated versionId sessionId transactionId) = none
  fresh : ∀ v ∈ c.shared.storage.versions, v.versionId ≠ env.versionId
  accepts : c.shared.storage.Accepts c.session.sessionId c.session.latestVersionId

theorem store_run {fault : Option (Err K.Obj)} {f : Ctx K → Except (Err K.Obj) (Storage K)}
    {c : Ctx K} {storage : Storage K} (hfault : fault = none) (hf : f c = .ok storage) :
    store fault f c = .ok () { c with shared := { c.shared with storage := storage } } := by
  subst hfault
  rw [store, raiseIf, bind_pure_run, bind_get_run, hf]
  rfl

theorem createVersion_run (hsub : ∀ versionId sessionId transactionId,
      env.subscriber (.versionCreated versionId sessionId transactionId) = none)
    (s₀ : K.Structure) (c : Ctx K) :
    createVersion env s₀ c =
      match buildVersion env (c.session.bumped env.replicaId) s₀ with
      | .error exc => .error exc { c with session := c.session.bumped env.replicaId }
      | .ok v => .ok v (createdCtx env v c) := by
  rw [createVersion, bind_run, create_run]
  cases buildVersion env (c.session.bumped env.replicaId) s₀ with
  | error exc => rfl
  | ok v =>
    dsimp only
    rw [bind_get_run, bind_run, publish_run, hsub]
    rfl

/-- What `_persist` stores when nothing raises, the operation log apart. -/
theorem persist_run {v : Version K} {expected : Option String} (s₀ : K.Structure) {c : Ctx K}
    (hversion : env.saveVersionFault = none) (hsession : env.saveSessionFault = none)
    (hfresh : ∀ w ∈ c.shared.storage.versions, w.versionId ≠ v.versionId)
    (haccepts : c.shared.storage.Accepts c.session.sessionId expected) :
    ∃ log, stateOf (persist env v expected s₀ c) = { c with shared := { c.shared with storage :=
      { c.shared.storage with
        versions := c.shared.storage.versions ++ [v]
        sessions := Function.update c.shared.storage.sessions c.session.sessionId
          (some c.session.toRow)
        operationLog := log } } } := by
  let versioned : Storage K :=
    { c.shared.storage with versions := c.shared.storage.versions ++ [v] }
  have hnew : c.shared.storage.versions.any (·.versionId == v.versionId) = false := by
    rw [List.any_eq_false]
    exact fun w hw he => hfresh w hw (beq_iff_eq.1 he)
  have hsave : store env.saveVersionFault (fun c => c.shared.storage.saveVersion v) c =
      .ok () { c with shared := { c.shared with storage := versioned } } :=
    store_run hversion (by rw [Storage.saveVersion, hnew]; rfl)
  have hrow : versioned.saveSession c.session expected =
      .ok (versioned.putSession c.session.sessionId c.session.toRow) :=
    Storage.saveSession_of_accepts haccepts
  rw [persist, bind_of_ok hsave, bind_of_ok (store_run hsession hrow)]
  obtain ⟨log, hlog⟩ := recordOperations_state env v s₀ { c with shared := { c.shared with
    storage := versioned.putSession c.session.sessionId c.session.toRow } }
  exact ⟨log, hlog⟩

/-- The second half: the version was not made, or it is stored with its session. -/
theorem commitStage_leaves (s₀ : K.Structure) {c : Ctx K} (h : Saves env c)
    {expected : Option String} (hexpected : c.session.latestVersionId = expected) :
    Steady c (stateOf (commitStage env s₀ expected c)) ∨
      Extended env c (stateOf (commitStage env s₀ expected c)) := by
  subst hexpected
  rw [commitStage, bind_run, createVersion_run h.subscribers]
  cases hb : buildVersion env (c.session.bumped env.replicaId) s₀ with
  | error exc => exact .inl ⟨⟨_, _, _, fun h => h.bumpMetadata _, rfl⟩, rfl⟩
  | ok v =>
    right
    obtain ⟨hvid, hvsid⟩ := versionId_of_build hb
    have hnow := createdAt_of_build hb
    have hfresh : ∀ w ∈ (createdCtx env v c).shared.storage.versions,
        w.versionId ≠ v.versionId := by
      rw [hvid]
      exact h.fresh
    obtain ⟨log, hlog⟩ := persist_run s₀ h.saveVersion h.saveSession hfresh h.accepts
    dsimp only
    rw [bind_run]
    cases hp : persist env v c.session.latestVersionId s₀ (createdCtx env v c) with
    | error e c' =>
      rw [hp, stateOf_error] at hlog
      subst hlog
      exact ⟨⟨v, hvsid, hnow, ⟨_, _, _, _, fun h => h.bumpMetadata _, rfl⟩, rfl⟩, rfl⟩
    | ok u c' =>
      rw [hp, stateOf_ok] at hlog
      subst hlog
      dsimp only
      rw [finalize_state]
      exact ⟨⟨v, hvsid, hnow, ⟨_, _, _, _, fun h => h.bumpMetadata _, rfl⟩, rfl⟩, rfl⟩

end Pipeline

theorem Steady.extended {env : Env K} {c c' c'' : Ctx K} (h : Steady c c')
    (h' : Extended env c' c'') : Extended env c c'' := by
  obtain ⟨⟨ks, m, ds, hm, hs⟩, hst⟩ := h
  obtain ⟨⟨v, hv, hnow, ⟨ks', m', ds', active, hm', hs'⟩, hvs⟩, hrow⟩ := h'
  refine ⟨⟨v, by rw [hv, hs], hnow, ⟨ks', m', ds', active, fun h₀ => hm' ?_, ?_⟩,
    by rw [hvs, hst]⟩, ?_⟩
  · rw [hs]
    exact hm h₀
  · rw [hs', hs]
  · rw [hrow, hst]

/-- Every way a commit ends while nothing it calls out to raises. -/
theorem Pipeline.commit_leaves {env : Env K} {c : Ctx K} (h : Saves env c) :
    Steady c (stateOf (commit env c)) ∨ Ended c (stateOf (commit env c)) ∨
      Extended env c (stateOf (commit env c)) := by
  have hstage : Stages (executeStage env) := executeStage_stages h.saveSession
  rw [commit, bind_get_run, bind_run]
  cases hx : executeStage env c with
  | error e c₁ => exact (hstage.of_error hx).imp_right .inl
  | ok u c₁ =>
    have hsteady : Steady c c₁ := hstage.of_ok hx
    obtain ⟨⟨ks, m, ds, -, hs⟩, hst⟩ := id hsteady
    have hlatest : c₁.session.latestVersionId = c.session.latestVersionId := by rw [hs]; rfl
    have hsaves : Saves env c₁ := by
      refine ⟨h.saveVersion, h.saveSession, h.subscribers, ?_, ?_⟩
      · rw [hst]
        exact h.fresh
      · rw [hst, hs]
        exact h.accepts
    exact (commitStage_leaves _ hsaves hlatest).imp hsteady.trans
      fun hext => .inr (hsteady.extended hext)

end CksRuntime
