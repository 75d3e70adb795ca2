import CksRuntime.Pipeline.Proof.Items

/-!
# The second half of a commit

`_create_version`, `_persist`, `_finalize`: a version is built or nothing but the clocks has moved
(`createVersion_error`); from then on every way out, returning or raising, leaves the version in the
history (`Versioned`), and a return leaves it stored and the transaction ended (`Committed`).
-/

set_option autoImplicit false

namespace CksRuntime

open VersionVector Effect

variable {K : Core}

/-! ## The clocks of a commit -/

theorem lt_bumpVector {nodeId replicaId : Option String} (h : nodeId.isSome ∨ replicaId.isSome)
    (v : VersionVector) : v < Pipeline.bumpVector nodeId replicaId v := by
  unfold Pipeline.bumpVector
  cases nodeId <;> cases replicaId
  · simp at h
  · exact lt_bump _ _
  · exact lt_bump _ _
  · exact (lt_bump _ _).trans (lt_bump _ _)

theorem le_bumpVector (nodeId replicaId : Option String) (v : VersionVector) :
    v ≤ Pipeline.bumpVector nodeId replicaId v := by
  unfold Pipeline.bumpVector
  cases nodeId <;> cases replicaId
  · exact le_rfl
  · exact (lt_bump _ _).le
  · exact (lt_bump _ _).le
  · exact (lt_bump _ _).le.trans (lt_bump _ _).le

theorem get_bumpVector (nodeId replicaId : Option String) (v : VersionVector) (k : String) :
    (Pipeline.bumpVector nodeId replicaId v).get k =
      v.get k + (if nodeId = some k then 1 else 0) + (if replicaId = some k then 1 else 0) := by
  unfold Pipeline.bumpVector
  cases nodeId <;> cases replicaId <;> simp [get_bump, eq_comm (b := k)] <;> grind

theorem mem_bumpVector {nodeId replicaId : Option String} {v : VersionVector} {k : String} :
    k ∈ (Pipeline.bumpVector nodeId replicaId v).clocks ↔
      nodeId = some k ∨ replicaId = some k ∨ k ∈ v.clocks := by
  unfold Pipeline.bumpVector
  cases nodeId <;> cases replicaId <;> simp [mem_bump, eq_comm (b := k), or_left_comm]

theorem vector_bumpMetadata (replicaId : Option String) (m : Metadata) :
    fromMetadata (Pipeline.bumpMetadata replicaId m) =
      Pipeline.bumpVector m.nodeId replicaId (fromMetadata m) := by
  unfold Pipeline.bumpMetadata
  split
  · rfl
  · rename_i h
    cases hn : m.nodeId <;> cases replicaId <;> simp_all [Pipeline.bumpVector]

theorem lt_bumpMetadata {m : Metadata} {replicaId : Option String}
    (h : m.nodeId.isSome ∨ replicaId.isSome) :
    fromMetadata m < fromMetadata (Pipeline.bumpMetadata replicaId m) := by
  rw [vector_bumpMetadata]
  exact lt_bumpVector h _

theorem le_bumpMetadata (replicaId : Option String) (m : Metadata) :
    fromMetadata m ≤ fromMetadata (Pipeline.bumpMetadata replicaId m) := by
  rw [vector_bumpMetadata]
  exact le_bumpVector _ _ _

@[simp] theorem nodeId_bumpMetadata (replicaId : Option String) (m : Metadata) :
    (Pipeline.bumpMetadata replicaId m).nodeId = m.nodeId := by
  unfold Pipeline.bumpMetadata
  split <;> rfl

/-- An event that tells how a transaction went. -/
def Event.OfTransaction (transactionId : String) : Event → Prop
  | .versionCreated _ _ t | .transactionCommitted t _ | .transactionRolledBack t _
  | .transactionAborted t _ | .validationFailed t _ _ => t = transactionId
  | _ => False

/-! ## The context through a commit -/

/-- The session `VersionManager.create` builds the version of. -/
def Session.bumped (replicaId : Option String) (s : Session K) : Session K :=
  { s with metadata := Pipeline.bumpMetadata replicaId s.metadata }

/-- The session `VersionManager.create` leaves. -/
def Session.versioned (replicaId : Option String) (v : Version K) (s : Session K) : Session K :=
  { s with
    metadata := Pipeline.bumpMetadata replicaId s.metadata
    versionHistory := s.versionHistory ++ [v] }

/-- The stored head is the expected one, or there is nothing to compare. -/
def Storage.Accepts (st : Storage K) (sessionId : String) (expected : Option String) : Prop :=
  expected = none ∨ ∀ row, st.sessions sessionId = some row → row.latestVersionId = expected

theorem Storage.saveSession_ok {st st' : Storage K} {s : Session K} {expected : Option String}
    (h : st.saveSession s expected = .ok st') :
    st.Accepts s.sessionId expected ∧ st' = st.putSession s.sessionId s.toRow := by
  unfold saveSession at h
  cases expected with
  | none =>
    cases h
    exact ⟨.inl rfl, rfl⟩
  | some v =>
    cases hr : st.sessions s.sessionId with
    | none =>
      rw [hr] at h
      cases h
      exact ⟨.inr fun row hrow => absurd (hr.symm.trans hrow) nofun, rfl⟩
    | some row =>
      rw [hr] at h
      dsimp only at h
      split at h
      · rename_i hl
        cases h
        refine ⟨.inr fun row' hrow => ?_, rfl⟩
        cases hr.symm.trans hrow
        exact hl
      · cases h

theorem Storage.saveVersion_ok {st st' : Storage K} {v : Version K}
    (h : st.saveVersion v = .ok st') :
    (∀ w ∈ st.versions, w.versionId ≠ v.versionId) ∧
      st' = { st with versions := st.versions ++ [v] } := by
  unfold saveVersion at h
  split at h
  · cases h
  · rename_i hn
    cases h
    refine ⟨fun w hw he => hn ?_, rfl⟩
    rw [List.any_eq_true]
    exact ⟨w, hw, beq_iff_eq.2 he⟩

/-- `c'` is past `VersionManager.create` in the commit of `v` from `c`. -/
structure Versioned (env : Env K) (v : Version K) (expected : Option String) (c c' : Ctx K) :
    Prop where
  session : ∃ active, (active = c.session.activeTransaction ∨ active = none) ∧
    c'.session = { c.session.versioned env.replicaId v with activeTransaction := active }
  transaction : c'.transaction = c.transaction ∨ c'.transaction = c.transaction.finish .committed
  versions : c'.shared.storage.versions = c.shared.storage.versions ∨
    c'.shared.storage.versions = c.shared.storage.versions ++ [v]
  sessions : c'.shared.storage.sessions = c.shared.storage.sessions ∨
    c.shared.storage.Accepts c.session.sessionId expected ∧
      c'.shared.storage.sessions = Function.update c.shared.storage.sessions c.session.sessionId
        (some (c.session.versioned env.replicaId v).toRow)
  events : ∃ events, c'.shared.events = c.shared.events ++ events ∧
    ∀ e ∈ events,
      e = .versionCreated v.versionId c.session.sessionId c.transaction.transactionId ∨
        e = .transactionCommitted c.transaction.transactionId c.session.sessionId

/-- `c'` is where the commit of `v` from `c` returns. -/
structure Committed (env : Env K) (v : Version K) (expected : Option String) (c c' : Ctx K) :
    Prop where
  session : c'.session = { c.session.versioned env.replicaId v with activeTransaction := none }
  transaction : c'.transaction = c.transaction.finish .committed
  fresh : ∀ w ∈ c.shared.storage.versions, w.versionId ≠ v.versionId
  versions : c'.shared.storage.versions = c.shared.storage.versions ++ [v]
  accepts : c.shared.storage.Accepts c.session.sessionId expected
  sessions : c'.shared.storage.sessions = Function.update c.shared.storage.sessions
    c.session.sessionId (some (c.session.versioned env.replicaId v).toRow)
  events : c'.shared.events = c.shared.events ++
    [.versionCreated v.versionId c.session.sessionId c.transaction.transactionId,
      .transactionCommitted c.transaction.transactionId c.session.sessionId]

namespace Pipeline

variable {env : Env K}

/-! ## Creating the version -/

/-- The next version of the session is recorded as a patch. -/
def RecordsPatch (s : Session K) : Prop :=
  s.versionHistory.length ≠ 0 ∧ s.versionHistory.length % s.snapshotInterval ≠ 0

/-- A version is a snapshot due at its index, or a delta. -/
theorem recordState_ok {s : Session K} {prev : K.Structure} {v w : Version K}
    (h : recordState s prev v = .ok w) :
    w = { v with knowledgeStructure := some s.knowledgeStructure } ∧
        (s.versionHistory.length = 0 ∨ s.versionHistory.length % s.snapshotInterval = 0) ∨
      ∃ patch, K.diff prev s.knowledgeStructure = .ok patch ∧ w = { v with patch := some patch } ∧
        RecordsPatch s := by
  unfold recordState at h
  dsimp only at h
  split at h
  · rename_i hd
    cases h
    exact .inl ⟨rfl, hd⟩
  · rename_i hd
    cases hdiff : K.diff prev s.knowledgeStructure with
    | error exc => rw [hdiff] at h; cases h
    | ok patch =>
      rw [hdiff] at h
      cases h
      exact .inr ⟨patch, rfl, rfl, not_or.1 hd⟩

theorem recordState_error {s : Session K} {prev : K.Structure} {v : Version K} :
    (∃ e, recordState s prev v = .error e) ↔
      s.versionHistory.length ≠ 0 ∧ s.versionHistory.length % s.snapshotInterval ≠ 0 ∧
        ∃ exc, K.diff prev s.knowledgeStructure = .error exc := by
  unfold recordState
  dsimp only
  split
  · rename_i hd
    refine iff_of_false nofun fun h => ?_
    rcases hd with hd | hd
    · exact h.1 hd
    · exact h.2.1 hd
  · rename_i hd
    push Not at hd
    cases K.diff prev s.knowledgeStructure with
    | ok patch => exact iff_of_false nofun fun h => nomatch h.2.2
    | error exc => exact iff_of_true ⟨exc, rfl⟩ ⟨hd.1, hd.2, exc, rfl⟩

/-- A version has the id drawn for it, and the hash of the content when Core gives one. -/
theorem buildVersion_ok {s : Session K} {prev : K.Structure} {w : Version K}
    (h : buildVersion env s prev = .ok w) :
    ∃ stateHash, (∀ x ∈ stateHash, K.hash s.knowledgeStructure = .ok x) ∧
      recordState s prev (newVersion env s stateHash) = .ok w := by
  unfold buildVersion at h
  cases hh : K.hash s.knowledgeStructure with
  | ok x =>
    rw [hh] at h
    exact ⟨some x, by simp, h⟩
  | error exc =>
    rw [hh] at h
    dsimp only at h
    split at h
    · exact ⟨none, by simp, h⟩
    · cases h

theorem versionId_of_build {s : Session K} {prev : K.Structure} {w : Version K}
    (h : buildVersion env s prev = .ok w) :
    w.versionId = env.versionId ∧ w.sessionId = s.sessionId := by
  obtain ⟨stateHash, -, hrec⟩ := buildVersion_ok h
  obtain ⟨rfl, -⟩ | ⟨patch, -, rfl, -⟩ := recordState_ok hrec <;> exact ⟨rfl, rfl⟩

/-- The context after `_create_version`. -/
def createdCtx (env : Env K) (v : Version K) (c : Ctx K) : Ctx K :=
  { c with
    session := c.session.versioned env.replicaId v
    shared := { c.shared with events := c.shared.events ++
      [.versionCreated v.versionId c.session.sessionId c.transaction.transactionId] } }

theorem create_run (env : Env K) (s₀ : K.Structure) (c : Ctx K) :
    create env s₀ c =
      match buildVersion env (c.session.bumped env.replicaId) s₀ with
      | .error exc => .error exc { c with session := c.session.bumped env.replicaId }
      | .ok v => .ok v { c with session := c.session.versioned env.replicaId v } := by
  rw [create, bind_modify_run, bind_get_run]
  have hs : ({ c.session with metadata := bumpMetadata env.replicaId c.session.metadata } :
      Session K) = c.session.bumped env.replicaId := rfl
  dsimp only
  rw [hs]
  cases buildVersion env (c.session.bumped env.replicaId) s₀ <;> rfl

theorem createVersion_ok {s₀ : K.Structure} {c c' : Ctx K} {v : Version K}
    (h : createVersion env s₀ c = .ok v c') :
    buildVersion env (c.session.bumped env.replicaId) s₀ = .ok v ∧ c' = createdCtx env v c := by
  rw [createVersion, bind_eq_ok] at h
  obtain ⟨w, c₁, hcreate, h⟩ := h
  rw [create_run] at hcreate
  split at hcreate
  · cases hcreate
  · rename_i hb
    cases hcreate
    rw [bind_get_run, bind_eq_ok] at h
    obtain ⟨u, c₂, hpub, h⟩ := h
    have hst := congrArg stateOf hpub
    rw [stateOf_publish] at hst
    cases h
    exact ⟨hb, hst.symm⟩

/-- Before the version is in the history only the clocks have moved. -/
theorem createVersion_error {s₀ : K.Structure} {c c' : Ctx K} {e : Err K.Obj}
    (h : createVersion env s₀ c = .error e c') :
    buildVersion env (c.session.bumped env.replicaId) s₀ = .error e ∧
        c' = { c with session := c.session.bumped env.replicaId } ∨
      ∃ v, buildVersion env (c.session.bumped env.replicaId) s₀ = .ok v ∧
        c' = createdCtx env v c := by
  rw [createVersion, bind_eq_error] at h
  obtain h | ⟨w, c₁, hcreate, h⟩ := h
  · rw [create_run] at h
    split at h
    · rename_i hb
      cases h
      exact .inl ⟨hb, rfl⟩
    · cases h
  · rw [create_run] at hcreate
    split at hcreate
    · cases hcreate
    · rename_i hb
      cases hcreate
      rw [bind_get_run, bind_eq_error] at h
      obtain hpub | ⟨u, c₂, hpub, h⟩ := h
      · have hst := congrArg stateOf hpub
        rw [stateOf_publish] at hst
        exact .inr ⟨w, hb, hst.symm⟩
      · cases h

/-! ## Persisting it -/

/-- `_record_operations` touches the operation log, if anything. -/
theorem recordOperations_state (env : Env K) (v : Version K) (s₀ : K.Structure) (c : Ctx K) :
    ∃ log, stateOf (recordOperations env v s₀ c) =
      { c with shared := { c.shared with
        storage := { c.shared.storage with operationLog := log } } } := by
  rw [recordOperations, bind_get_run]
  cases K.fieldDiff with
  | none => exact ⟨_, rfl⟩
  | some fieldDiff =>
    dsimp only
    split
    · cases fieldDiff s₀ c.session.knowledgeStructure with
      | error exc => exact ⟨_, rfl⟩
      | ok operations =>
        dsimp only
        split
        · exact ⟨_, rfl⟩
        · cases hst : store env.recordOperationsFault (fun c => .ok
            (c.shared.storage.recordOperations c.session.sessionId v.versionId operations)) c with
          | ok u c' =>
            obtain ⟨-, storage, hs, rfl⟩ := store_ok hst
            cases hs
            exact ⟨_, rfl⟩
          | error e c' =>
            obtain ⟨rfl, -⟩ := store_error hst
            exact ⟨_, rfl⟩
    · exact ⟨_, rfl⟩

/-- `c'` is past part of `_persist` from `c`. -/
structure Persisting (v : Version K) (expected : Option String) (c c' : Ctx K) : Prop where
  session : c'.session = c.session
  transaction : c'.transaction = c.transaction
  events : c'.shared.events = c.shared.events
  versions : c'.shared.storage.versions = c.shared.storage.versions ∨
    c'.shared.storage.versions = c.shared.storage.versions ++ [v]
  sessions : c'.shared.storage.sessions = c.shared.storage.sessions ∨
    c.shared.storage.Accepts c.session.sessionId expected ∧
      c'.shared.storage.sessions = Function.update c.shared.storage.sessions c.session.sessionId
        (some c.session.toRow)

theorem persist_state (env : Env K) (v : Version K) (expected : Option String)
    (s₀ : K.Structure) (c : Ctx K) :
    Persisting v expected c (stateOf (persist env v expected s₀ c)) := by
  rw [persist, bind_run]
  cases hv : store env.saveVersionFault (fun c => c.shared.storage.saveVersion v) c with
  | error e c₁ =>
    obtain ⟨rfl, -⟩ := store_error hv
    exact ⟨rfl, rfl, rfl, .inl rfl, .inl rfl⟩
  | ok u c₁ =>
    obtain ⟨-, storage, hsave, rfl⟩ := store_ok hv
    obtain ⟨-, rfl⟩ := Storage.saveVersion_ok hsave
    dsimp only
    rw [bind_run]
    cases hs : store env.saveSessionFault
        (fun c => c.shared.storage.saveSession c.session expected) _ with
    | error e c₂ =>
      obtain ⟨rfl, -⟩ := store_error hs
      exact ⟨rfl, rfl, rfl, .inr rfl, .inl rfl⟩
    | ok u c₂ =>
      obtain ⟨-, storage, hsave, rfl⟩ := store_ok hs
      obtain ⟨hacc, rfl⟩ := Storage.saveSession_ok hsave
      dsimp only
      obtain ⟨log, hlog⟩ := recordOperations_state env v s₀ _
      rw [hlog]
      exact ⟨rfl, rfl, rfl, .inr rfl, .inr ⟨hacc, rfl⟩⟩

theorem persist_ok {v : Version K} {expected : Option String} {s₀ : K.Structure} {c c' : Ctx K}
    {u : Unit} (h : persist env v expected s₀ c = .ok u c') :
    c'.session = c.session ∧ c'.transaction = c.transaction ∧
      c'.shared.events = c.shared.events ∧
      (∀ w ∈ c.shared.storage.versions, w.versionId ≠ v.versionId) ∧
      c'.shared.storage.versions = c.shared.storage.versions ++ [v] ∧
      c.shared.storage.Accepts c.session.sessionId expected ∧
      c'.shared.storage.sessions = Function.update c.shared.storage.sessions c.session.sessionId
        (some c.session.toRow) := by
  rw [persist, bind_eq_ok] at h
  obtain ⟨u₁, c₁, hv, h⟩ := h
  obtain ⟨-, storage, hsave, rfl⟩ := store_ok hv
  obtain ⟨hfresh, rfl⟩ := Storage.saveVersion_ok hsave
  rw [bind_eq_ok] at h
  obtain ⟨u₂, c₂, hs, h⟩ := h
  obtain ⟨-, storage, hsave, rfl⟩ := store_ok hs
  obtain ⟨hacc, rfl⟩ := Storage.saveSession_ok hsave
  obtain ⟨log, hlog⟩ := recordOperations_state env v s₀ _
  rw [h, stateOf_ok] at hlog
  subst hlog
  exact ⟨rfl, rfl, rfl, hfresh, rfl, hacc, rfl⟩

/-! ## The whole second half -/

/-- What has persisted part of the version has it in the history. -/
theorem Persisting.versioned {v : Version K} {expected : Option String} {c c' : Ctx K}
    (h : Persisting v expected (createdCtx env v c) c') : Versioned env v expected c c' where
  session := ⟨_, .inl rfl, h.session⟩
  transaction := .inl h.transaction
  versions := h.versions
  sessions := h.sessions
  events := ⟨_, h.events, fun _ he => .inl (List.mem_singleton.1 he)⟩

/-- The transaction ends before the event that says so. -/
theorem finalize_state (env : Env K) (v : Version K) (c : Ctx K) :
    stateOf ((finishTransaction .committed >>= fun _ => get >>= fun c =>
      publish env (.transactionCommitted c.transaction.transactionId c.session.sessionId) >>=
        fun _ => pure v : PipelineM K (Version K)) c) =
    { session := { c.session with activeTransaction := none }
      transaction := c.transaction.finish .committed
      shared := { c.shared with
        transactions := c.shared.transactions.erase c.transaction.transactionId
        events := c.shared.events ++
          [.transactionCommitted c.transaction.transactionId c.session.sessionId] } } := by
  rw [finishTransaction, bind_modify_run, bind_get_run, bind_run, publish_run]
  dsimp only
  rw [Transaction.transactionId_finish]
  cases env.subscriber (.transactionCommitted c.transaction.transactionId c.session.sessionId) <;>
    rfl

theorem commitStage_ok {s₀ : K.Structure} {expected : Option String} {c c' : Ctx K}
    {v : Version K} (h : commitStage env s₀ expected c = .ok v c') :
    buildVersion env (c.session.bumped env.replicaId) s₀ = .ok v ∧
      Committed env v expected c c' := by
  rw [commitStage, bind_eq_ok] at h
  obtain ⟨w, c₁, hcreate, h⟩ := h
  obtain ⟨hb, rfl⟩ := createVersion_ok hcreate
  rw [bind_eq_ok] at h
  obtain ⟨u, c₂, hpersist, h⟩ := h
  obtain ⟨hs, ht, hev, hfresh, hvs, hacc, hss⟩ := persist_ok hpersist
  have hst := finalize_state env w c₂
  rw [h, stateOf_ok] at hst
  have hvw : w = v := by
    rw [finishTransaction, bind_modify_run, bind_get_run, bind_eq_ok] at h
    obtain ⟨u', c₃, -, h⟩ := h
    cases h
    rfl
  subst hst hvw
  refine ⟨hb, ?_, ?_, hfresh, hvs, hacc, hss, ?_⟩
  · rw [hs]
    rfl
  · rw [ht]
    rfl
  · dsimp only
    rw [hev, ht, hs]
    exact List.append_assoc _ _ _

/-- A second half that raises: before the version was built, or with the version in the history. -/
theorem commitStage_error {s₀ : K.Structure} {expected : Option String} {c c' : Ctx K}
    {e : Err K.Obj} (h : commitStage env s₀ expected c = .error e c') :
    buildVersion env (c.session.bumped env.replicaId) s₀ = .error e ∧
        c' = { c with session := c.session.bumped env.replicaId } ∨
      ∃ v, buildVersion env (c.session.bumped env.replicaId) s₀ = .ok v ∧
        Versioned env v expected c c' := by
  rw [commitStage, bind_eq_error] at h
  obtain h | ⟨w, c₁, hcreate, h⟩ := h
  · obtain h | ⟨v, hb, rfl⟩ := createVersion_error h
    · exact .inl h
    · exact .inr ⟨v, hb, Persisting.versioned ⟨rfl, rfl, rfl, .inl rfl, .inl rfl⟩⟩
  · obtain ⟨hb, rfl⟩ := createVersion_ok hcreate
    refine .inr ⟨w, hb, ?_⟩
    have hp := persist_state env w expected s₀ (createdCtx env w c)
    rw [bind_eq_error] at h
    obtain h | ⟨u, c₂, hpersist, h⟩ := h
    · rw [h] at hp
      exact hp.versioned
    · rw [hpersist, stateOf_ok] at hp
      have hst := finalize_state env w c₂
      rw [h, stateOf_error] at hst
      subst hst
      refine ⟨⟨none, .inr rfl, ?_⟩, .inr ?_, hp.versioned.versions, hp.versioned.sessions, ?_⟩
      · rw [hp.session]
        rfl
      · rw [hp.transaction]
        rfl
      · refine ⟨[.versionCreated w.versionId c.session.sessionId c.transaction.transactionId,
          .transactionCommitted c.transaction.transactionId c.session.sessionId], ?_, by simp⟩
        dsimp only
        rw [hp.events, hp.transaction, hp.session]
        exact List.append_assoc _ _ _

/-! ## The whole commit -/

theorem commit_ok {c c' : Ctx K} {v : Version K} (h : commit env c = .ok v c') :
    ∃ c₁, Executed env.registry c.transaction.items c c₁ ∧
      buildVersion env (c₁.session.bumped env.replicaId) c.session.knowledgeStructure = .ok v ∧
      Committed env v c.session.latestVersionId c₁ c' := by
  rw [commit, bind_get_run, bind_eq_ok] at h
  obtain ⟨u, c₁, hstage, h⟩ := h
  obtain ⟨hb, hc⟩ := commitStage_ok h
  exact ⟨c₁, executeStage_ok hstage, hb, hc⟩

theorem commit_error {c c' : Ctx K} {e : Err K.Obj} (h : commit env c = .error e c') :
    executeStage env c = .error e c' ∨
      ∃ c₁, Executed env.registry c.transaction.items c c₁ ∧
        commitStage env c.session.knowledgeStructure c.session.latestVersionId c₁ =
          .error e c' := by
  rw [commit, bind_get_run, bind_eq_error] at h
  obtain h | ⟨u, c₁, hstage, h⟩ := h
  · exact .inl h
  · exact .inr ⟨c₁, executeStage_ok hstage, h⟩

/-! ## Whatever way a commit ends -/

/-- Some of the items have run; the clocks are bumped, as they are when the commit returns, or not
yet. -/
theorem commit_session (env : Env K) (c : Ctx K) :
    ∃ done, (∀ x ∈ done, x ∈ c.transaction.items) ∧ ∃ ks metadata ds history active,
      (stateOf (commit env c)).session =
        { c.session with
          knowledgeStructure := ks
          metadata := metadata
          diagnostics := ds
          versionHistory := history
          activeTransaction := active } ∧
      (metadata = bumpMetadata env.replicaId (itemsMetadata env.registry done c.session.metadata) ∨
        returned (commit env c) = false ∧
          metadata = itemsMetadata env.registry done c.session.metadata) := by
  cases h : commit env c with
  | ok v c' =>
    obtain ⟨c₁, hex, -, hcom⟩ := commit_ok h
    obtain ⟨ks, ds, hs⟩ := hex.session
    refine ⟨_, fun x hx => hx, ks, _, ds, c.session.versionHistory ++ [v], none, ?_, .inl rfl⟩
    rw [stateOf_ok, hcom.session, Session.versioned, hs]
  | error e c' =>
    rw [stateOf_error]
    obtain hstage | ⟨c₁, hex, hraise⟩ := commit_error h
    · obtain ⟨done, x, rest, hitems, hex, -⟩ | ⟨-, -, rfl⟩ | ⟨done, rest, c₁, hitems, hex, hrb⟩ :=
        executeStage_error hstage
      · obtain ⟨ks, ds, hs⟩ := hex.session
        refine ⟨done, fun y hy => ?_, ks, _, ds, _, _, hs, .inr ⟨rfl, rfl⟩⟩
        rw [hitems]
        exact List.mem_append_left _ hy
      · exact ⟨[], fun y hy => absurd hy List.not_mem_nil, _, _, _, _, _, rfl, .inr ⟨rfl, rfl⟩⟩
      · obtain ⟨ks, ds, hs⟩ := hex.session
        refine ⟨done, fun y hy => ?_, _, _, _, _, _, hrb.session.trans (by rw [hs]),
          .inr ⟨rfl, rfl⟩⟩
        rw [hitems]
        exact List.mem_append_left _ hy
    · obtain ⟨ks, ds, hs⟩ := hex.session
      obtain ⟨-, rfl⟩ | ⟨v, -, hv⟩ := commitStage_error hraise
      · refine ⟨_, fun x hx => hx, ks, _, ds, c.session.versionHistory,
          c.session.activeTransaction, ?_, .inl rfl⟩
        rw [Session.bumped, hs]
      · obtain ⟨active, -, hses⟩ := hv.session
        refine ⟨_, fun x hx => hx, ks, _, ds, c.session.versionHistory ++ [v], active, ?_, .inl rfl⟩
        rw [hses, Session.versioned, hs]

/-- The history grows at most by one version, which is made after the clocks are bumped. -/
theorem commit_history (env : Env K) (c : Ctx K) :
    (stateOf (commit env c)).session.versionHistory = c.session.versionHistory ∨
      ∃ v, v.versionId = env.versionId ∧
        (stateOf (commit env c)).session.versionHistory = c.session.versionHistory ++ [v] ∧
        (stateOf (commit env c)).session.metadata = bumpMetadata env.replicaId
          (itemsMetadata env.registry c.transaction.items c.session.metadata) := by
  cases h : commit env c with
  | ok v c' =>
    obtain ⟨c₁, hex, hb, hcom⟩ := commit_ok h
    obtain ⟨ks, ds, hs⟩ := hex.session
    refine .inr ⟨v, (versionId_of_build hb).1, ?_, ?_⟩ <;>
      rw [stateOf_ok, hcom.session, Session.versioned, hs]
  | error e c' =>
    rw [stateOf_error]
    obtain hstage | ⟨c₁, hex, hraise⟩ := commit_error h
    · obtain ⟨done, x, rest, -, hex, -⟩ | ⟨-, -, rfl⟩ | ⟨done, rest, c₁, -, hex, hrb⟩ :=
        executeStage_error hstage
      · obtain ⟨ks, ds, hs⟩ := hex.session
        exact .inl (by rw [hs])
      · exact .inl rfl
      · obtain ⟨ks, ds, hs⟩ := hex.session
        exact .inl (by rw [hrb.session, hs])
    · obtain ⟨ks, ds, hs⟩ := hex.session
      obtain ⟨-, rfl⟩ | ⟨v, hb, hv⟩ := commitStage_error hraise
      · exact .inl (by rw [Session.bumped, hs])
      · obtain ⟨active, -, hses⟩ := hv.session
        refine .inr ⟨v, (versionId_of_build hb).1, ?_, ?_⟩ <;> rw [hses, Session.versioned, hs]

/-- Its events are about the transaction. -/
theorem commit_events (env : Env K) (c : Ctx K) :
    ∃ events, (stateOf (commit env c)).shared.events = c.shared.events ++ events ∧
      ∀ e ∈ events, e.OfTransaction c.transaction.transactionId := by
  cases h : commit env c with
  | ok v c' =>
    obtain ⟨c₁, hex, -, hcom⟩ := commit_ok h
    obtain ⟨ds, hsh⟩ := hex.shared
    obtain ⟨rs, ht⟩ := hex.transaction
    refine ⟨_, hcom.events.trans (by rw [hsh]), fun e he => ?_⟩
    rw [List.mem_cons, List.mem_singleton, ht] at he
    rcases he with rfl | rfl <;> exact rfl
  | error e c' =>
    rw [stateOf_error]
    obtain hstage | ⟨c₁, hex, hraise⟩ := commit_error h
    · obtain ⟨done, x, rest, -, hex, -⟩ | ⟨-, -, rfl⟩ | ⟨done, rest, c₁, -, hex, hrb⟩ :=
        executeStage_error hstage
      · obtain ⟨ds, hsh⟩ := hex.shared
        exact ⟨[], by rw [hsh, List.append_nil], fun e he => absurd he List.not_mem_nil⟩
      · exact ⟨[], (List.append_nil _).symm, fun e he => absurd he List.not_mem_nil⟩
      · obtain ⟨ds, hsh⟩ := hex.shared
        obtain ⟨rs, ht⟩ := hex.transaction
        obtain ⟨events, hev, hall⟩ := hrb.events
        refine ⟨events, hev.trans (by rw [hsh]), fun e he => ?_⟩
        rw [ht] at hall
        rcases hall e he with rfl | ⟨m, rfl⟩ <;> exact rfl
    · obtain ⟨ds, hsh⟩ := hex.shared
      obtain ⟨rs, ht⟩ := hex.transaction
      obtain ⟨-, rfl⟩ | ⟨v, -, hv⟩ := commitStage_error hraise
      · exact ⟨[], by rw [hsh, List.append_nil], fun e he => absurd he List.not_mem_nil⟩
      · obtain ⟨events, hev, hall⟩ := hv.events
        refine ⟨events, hev.trans (by rw [hsh]), fun e he => ?_⟩
        rw [ht] at hall
        rcases hall e he with rfl | rfl <;> exact rfl

end Pipeline

end CksRuntime
