import CksRuntime.Core.Laws
import CksRuntime.Pipeline.Proof.Commit

/-!
# Which versions are valid

`commit` validates only a transaction without operations and requests. Of any other, the version is
valid exactly when Core accepts what the last of its operations to write a structure writes
(`version_valid_iff`); a `ValidateOperation` of that structure makes sure of it
(`version_valid_of_validated`).
-/

set_option autoImplicit false

namespace CksRuntime

open Effect VersionVector

variable {K : Core}

/-- `validate` succeeds, without extra constraints. -/
def Core.Accepts (K : Core) (s : K.Structure) : Prop :=
  ∃ validation, K.validate s none = .ok validation ∧ validation.valid = true

/-! ## What operations write -/

/-- The structure a result carries. -/
def ExecutionResult.state? (result : ExecutionResult K) : Option K.Structure :=
  match result.payload with
  | some (.state s) => some s
  | _ => none

/-- The structure an operation writes to the session, if it is of a class that writes one. -/
def Operation.written (op : Operation K) (storage : Storage K) (s : Session K) :
    Option K.Structure :=
  match op.kind with
  | .evolve ks evolution => (K.evolve ks evolution).toOption
  | .revertVersion targetVersionId => (s.getVersionState targetVersionId).toOption
  | .merge args => (args.execute op.operationId storage s).1.toOption.bind (·.state?)
  | .replaceState ks => ks
  | _ => none

namespace Item

variable (registry : OperationRegistry K) (storage : Storage K)

/-- What an item makes of the session's content, if it writes it. -/
def written (s : Session K) (x : Item K) : Option K.Structure :=
  (x.operation? registry).bind fun op => op.written storage s

/-- The session after an item that succeeds, its diagnostics aside. -/
def sessionAfter (s : Session K) (x : Item K) : Session K :=
  { s with
    metadata := x.metadataAfter registry s.metadata
    knowledgeStructure := (x.written registry storage s).getD s.knowledgeStructure }

end Item

section
variable (registry : OperationRegistry K) (storage : Storage K)

/-- What the last of the items to write a structure writes. -/
def lastWrite : List (Item K) → Session K → Option K.Structure
  | [], _ => none
  | x :: items, s =>
    (lastWrite items (x.sessionAfter registry storage s)).or (x.written registry storage s)

/-- The session after the items. -/
def itemsSession (items : List (Item K)) (s : Session K) : Session K :=
  items.foldl (Item.sessionAfter registry storage) s

end

theorem itemsSession_knowledgeStructure (registry : OperationRegistry K) (storage : Storage K)
    (items : List (Item K)) (s : Session K) :
    (itemsSession registry storage items s).knowledgeStructure =
      (lastWrite registry storage items s).getD s.knowledgeStructure := by
  induction items generalizing s with
  | nil => rfl
  | cons x items ih =>
    show (itemsSession registry storage items (x.sessionAfter registry storage s)).knowledgeStructure
      = _
    rw [ih, lastWrite]
    cases lastWrite registry storage items (x.sessionAfter registry storage s) <;> rfl

/-- What the items of a transaction write last, else the content there is before them. -/
def Ctx.written (env : Env K) (c : Ctx K) : K.Structure :=
  (lastWrite env.registry c.shared.storage c.transaction.items c.session).getD
    c.session.knowledgeStructure

/-! ## An operation's result -/

/-- What `_apply_state_mutation` takes from a result. -/
def applied (op : Operation K) (result : ExecutionResult K) : Option K.Structure :=
  if result.status = .completed ∧ Pipeline.OperationKind.mutatesState op.kind then result.state?
  else none

theorem threeWay_status {m : MergeArgs K} {operationId : String} {storage : Storage K}
    {source s : Session K} {result : ExecutionResult K}
    (h : m.threeWay operationId storage source s = .ok result) :
    result.status = .failed ∨ result.status = .completed := by
  unfold MergeArgs.threeWay at h
  split at h
  · split at h
    · cases h
      exact .inl rfl
    · cases h
  · split at h
    · cases h
      exact .inr rfl
    · dsimp only at h
      split at h
      · cases h
        exact .inl rfl
      · split at h
        · cases h
          exact .inr rfl
        · cases h
          exact .inl rfl
    · cases h
      exact .inl rfl

theorem merge_status {m : MergeArgs K} {operationId : String} {storage : Storage K}
    {s : Session K} {result : ExecutionResult K}
    (h : (m.execute operationId storage s).1 = .ok result) :
    result.status = .failed ∨ result.status = .completed := by
  cases hs : m.sourceSession with
  | none =>
    simp only [MergeArgs.execute, hs] at h
    cases h
    exact .inl rfl
  | some source =>
    rw [Operation.execute_merge_result hs] at h
    split at h
    · cases h
      exact .inr rfl
    · split at h
      · cases h
        exact .inr rfl
      · exact threeWay_status h

/-- A result that is not a failure is applied as what the operation writes. -/
theorem applied_execute {op : Operation K} {storage : Storage K} {s : Session K}
    (h : (OperationExecutor.execute op storage s).1.status ≠ .failed) :
    applied op (OperationExecutor.execute op storage s).1 = op.written storage s := by
  obtain ⟨operationId, kind⟩ := op
  cases kind with
  | evolve ks evolution =>
    cases he : K.evolve ks evolution with
    | ok evolved => simp [OperationExecutor.execute, Operation.execute, applied,
        Operation.written, he, Except.map, Except.toOption, ExecutionResult.completed,
        ExecutionResult.state?, Pipeline.OperationKind.mutatesState]
    | error exc =>
      simp [OperationExecutor.execute, Operation.execute, he, Except.map] at h
  | revertVersion targetVersionId =>
    cases hv : s.getVersionState targetVersionId with
    | ok target => simp [OperationExecutor.execute, Operation.execute, applied,
        Operation.written, hv, Except.toOption, ExecutionResult.completed,
        ExecutionResult.state?, Pipeline.OperationKind.mutatesState]
    | error exc =>
      cases hval : exc.isValueError <;>
        simp [OperationExecutor.execute, Operation.execute, hv, hval,
          ExecutionResult.failed] at h
  | merge args =>
    cases hr : args.execute operationId storage s with
    | mk r s' =>
      cases r with
      | ok result =>
        simp only [OperationExecutor.execute, Operation.execute, hr] at h ⊢
        -- a merge that returns may have failed: its result says so
        have hstatus := merge_status (m := args) (congrArg Prod.fst hr)
        have hdone : result.status = .completed := hstatus.resolve_left h
        simp [applied, hdone, Operation.written, hr, Except.toOption,
          Pipeline.OperationKind.mutatesState, ExecutionResult.state?]
      | error exc =>
        simp [OperationExecutor.execute, Operation.execute, hr] at h
  | replaceState ks =>
    cases ks with
    | none =>
      simp [OperationExecutor.execute, Operation.execute, ExecutionResult.failed] at h
    | some t => simp [OperationExecutor.execute, Operation.execute, applied,
        Operation.written, ExecutionResult.completed, ExecutionResult.state?,
        Pipeline.OperationKind.mutatesState]
  | _ => simp [applied, Operation.written, Pipeline.OperationKind.mutatesState]

/-! ## Running the items -/

/-- `s` up to the diagnostics collected on it. -/
def SameButDiagnostics (s s' : Session K) : Prop := s' = { s with diagnostics := s'.diagnostics }

theorem written_diagnostics (op : Operation K) (storage : Storage K) (s : Session K)
    (ds : List Diagnostic) :
    op.written storage { s with diagnostics := ds } = op.written storage s := by
  obtain ⟨operationId, kind⟩ := op
  cases kind with
  | merge args =>
    have hrun : (args.execute operationId storage { s with diagnostics := ds }).1 =
        (args.execute operationId storage s).1 := by
      cases hs : args.sourceSession with
      | none => simp [MergeArgs.execute, hs]
      | some source =>
        rw [Operation.execute_merge_result hs, Operation.execute_merge_result hs]
        rfl
    simp only [Operation.written, hrun]
  | _ => rfl

theorem SameButDiagnostics.sessionAfter {s s' : Session K} (h : SameButDiagnostics s s')
    (registry : OperationRegistry K) (storage : Storage K) (x : Item K) :
    SameButDiagnostics (x.sessionAfter registry storage s)
      (x.sessionAfter registry storage s') := by
  have hwritten : x.written registry storage s' = x.written registry storage s := by
    rw [h]
    cases hop : x.operation? registry with
    | none => simp [Item.written, hop]
    | some op => simpa [Item.written, hop] using written_diagnostics op storage s s'.diagnostics
  rw [SameButDiagnostics, Item.sessionAfter, hwritten]
  rw [h]
  rfl

theorem SameButDiagnostics.itemsSession {s s' : Session K} (h : SameButDiagnostics s s')
    (registry : OperationRegistry K) (storage : Storage K) (items : List (Item K)) :
    SameButDiagnostics (itemsSession registry storage items s)
      (itemsSession registry storage items s') := by
  induction items generalizing s s' with
  | nil => exact h
  | cons x items ih => exact ih (h.sessionAfter registry storage x)

namespace Pipeline

variable {env : Env K}

theorem finishResult_content {operationId : String} {op : Operation K}
    {result : ExecutionResult K} {c c' : Ctx K} {u : Unit}
    (h : finishResult env operationId (some op) result c = .ok u c') :
    result.status ≠ .failed ∧ c'.shared.storage = c.shared.storage ∧
      SameButDiagnostics { c.session with
        knowledgeStructure := (applied op result).getD c.session.knowledgeStructure } c'.session := by
  obtain ⟨hstatus, -⟩ := finishResult_ok h
  refine ⟨hstatus, ?_⟩
  rw [finishResult, addResult, bind_modify_run, handleResult, if_neg hstatus,
    collectDiagnostics] at h
  have happly : applyStateMutation (some op) result { c with
      session := { c.session with diagnostics := c.session.diagnostics ++ result.diagnostics }
      transaction := { c.transaction with results := c.transaction.results ++ [result] }
      shared := { c.shared with diagnostics := c.shared.diagnostics ++ result.diagnostics } } =
        .ok u c' := h
  unfold applyStateMutation at happly
  simp only [Option.any_some] at happly
  unfold applied ExecutionResult.state?
  split at happly
  · rename_i hm
    rw [if_pos hm]
    cases hpay : result.payload with
    | none =>
      rw [hpay] at happly
      cases happly
      exact ⟨rfl, rfl⟩
    | some payload =>
      rw [hpay] at happly
      cases payload <;> cases happly <;> exact ⟨rfl, rfl⟩
  · rename_i hm
    rw [if_neg hm]
    cases happly
    exact ⟨rfl, rfl⟩

theorem item_content {x : Item K} {c c' : Ctx K} {u : Unit}
    (h : x.execute env c = .ok u c') :
    c'.shared.storage = c.shared.storage ∧
      SameButDiagnostics (x.sessionAfter env.registry c.shared.storage c.session) c'.session := by
  cases hop : x.operation? env.registry with
  | none =>
    obtain ⟨e, -, hx⟩ | ⟨-, operationId, result, hf, hx⟩ := Item.execute_of_none hop c
    · rw [hx] at h
      cases h
    · rw [hx] at h
      exact absurd hf (finishResult_ok h).1
  | some op =>
    obtain ⟨operationId, hx⟩ := Item.execute_of_operation hop c
    rw [hx] at h
    obtain ⟨hstatus, hstorage, hsession⟩ := finishResult_content h
    refine ⟨hstorage, ?_⟩
    rw [applied_execute hstatus] at hsession
    rw [Item.sessionAfter, Item.written, hop, Item.metadataAfter_of_operation hop]
    exact hsession

theorem forM_items_content {items : List (Item K)} {c c' : Ctx K} {u : PUnit}
    (h : forM items (Item.execute env) c = .ok u c') :
    SameButDiagnostics (itemsSession env.registry c.shared.storage items c.session) c'.session := by
  induction items generalizing c with
  | nil =>
    cases h
    rfl
  | cons x items ih =>
    rw [List.forM_cons, bind_eq_ok] at h
    obtain ⟨v, c₁, hx, hitems⟩ := h
    obtain ⟨hstorage, hsession⟩ := item_content hx
    have hrest := ih hitems
    rw [hstorage] at hrest
    have hsame := hsession.itemsSession env.registry c.shared.storage items
    show c'.session = _
    rw [hrest, hsame]
    rfl

/-! ## Creating a version -/

theorem validate_accepts {c c' : Ctx K} {u : Unit} (h : validate env c = .ok u c') :
    K.Accepts c.session.knowledgeStructure ∧ c'.session = c.session := by
  rw [validate, bind_get_run] at h
  cases hv : K.validate c.session.knowledgeStructure none with
  | error exc => rw [hv] at h; cases h
  | ok validation =>
    rw [hv] at h
    dsimp only at h
    rw [collectDiagnostics, bind_modify_run, qualityGate] at h
    split at h
    · rename_i hvalid
      cases h
      exact ⟨⟨validation, hv, hvalid⟩, rfl⟩
    · rw [bind_eq_ok] at h
      obtain ⟨u₁, c₁, -, h⟩ := h
      rw [bind_get_run, bind_eq_ok] at h
      obtain ⟨u₂, c₂, -, h⟩ := h
      cases h

/-- What the first half of a commit leaves the session with. An empty transaction is validated. -/
theorem executeStage_content {c c' : Ctx K} {u : Unit} (h : executeStage env c = .ok u c') :
    c'.session.knowledgeStructure =
        (lastWrite env.registry c.shared.storage c.transaction.items c.session).getD
          c.session.knowledgeStructure ∧
      (c.transaction.items = [] → K.Accepts c.session.knowledgeStructure) := by
  rw [executeStage, bind_get_run] at h
  split at h
  · rename_i he
    obtain ⟨haccepts, hs⟩ := validate_accepts h
    rw [items_eq_nil.2 he, hs]
    exact ⟨rfl, fun _ => haccepts⟩
  · rename_i he
    rw [executeOperations_run] at h
    have hcontent := congrArg Session.knowledgeStructure (forM_items_content h)
    rw [← itemsSession_knowledgeStructure]
    exact ⟨hcontent, fun hnil => absurd (items_eq_nil.1 hnil) he⟩

theorem executeStage_history (env : Env K) (c : Ctx K) :
    (stateOf (executeStage env c)).session.versionHistory = c.session.versionHistory := by
  have hexecuted : ∀ {items : List (Item K)} {c₁ : Ctx K}, Executed env.registry items c c₁ →
      c₁.session.versionHistory = c.session.versionHistory := by
    intro items c₁ hex
    obtain ⟨ks, ds, hs⟩ := hex.session
    rw [hs]
  cases h : executeStage env c with
  | ok u c₁ => exact hexecuted (executeStage_ok h)
  | error e c₁ =>
    obtain ⟨done, x, rest, -, hex, -⟩ | ⟨-, -, rfl⟩ | ⟨done, rest, c₂, -, hex, hrb⟩ :=
      executeStage_error h
    · exact hexecuted hex
    · rfl
    · rw [stateOf_error, hrb.session]
      exact hexecuted hex

/-- The commit makes the version `v`, whether it then returns or raises. -/
def Creates (env : Env K) (c : Ctx K) (v : Version K) : Prop :=
  (stateOf (commit env c)).session.versionHistory = c.session.versionHistory ++ [v]

theorem creates_of_ok {c c' : Ctx K} {v : Version K} (h : commit env c = .ok v c') :
    Creates env c v := by
  obtain ⟨c₁, hex, -, hc⟩ := commit_ok h
  obtain ⟨ks, ds, hs⟩ := hex.session
  rw [Creates, h, stateOf_ok, hc.session, Session.versioned, hs]

theorem Creates.built {c : Ctx K} {v : Version K} (h : Creates env c v) :
    ∃ c₁, executeStage env c = .ok () c₁ ∧
      buildVersion env (c₁.session.bumped env.replicaId) c.session.knowledgeStructure = .ok v ∧
      (stateOf (commit env c)).session.knowledgeStructure = c₁.session.knowledgeStructure := by
  have hhistory := executeStage_history env c
  unfold Creates at h
  rw [commit, bind_get_run, bind_run] at h ⊢
  cases hstage : executeStage env c with
  | error e c₁ =>
    rw [hstage] at h hhistory
    rw [stateOf_error] at hhistory
    simp [hhistory] at h
  | ok u c₁ =>
    rw [hstage] at h hhistory
    rw [stateOf_ok] at hhistory
    dsimp only at h ⊢
    cases hcommit : commitStage env c.session.knowledgeStructure c.session.latestVersionId c₁ with
    | ok w c' =>
      obtain ⟨hb, hc⟩ := commitStage_ok hcommit
      rw [hcommit, stateOf_ok, hc.session, Session.versioned, hhistory] at h
      obtain rfl : w = v := by simpa using h
      exact ⟨c₁, rfl, hb, by rw [stateOf_ok, hc.session]; rfl⟩
    | error e c' =>
      rw [hcommit, stateOf_error] at h
      obtain ⟨-, rfl⟩ | ⟨w, hb, hv⟩ := commitStage_error hcommit
      · simp [Session.bumped, hhistory] at h
      · obtain ⟨active, -, hs⟩ := hv.session
        rw [hs, Session.versioned, hhistory] at h
        obtain rfl : w = v := by simpa using h
        exact ⟨c₁, rfl, hb, by rw [stateOf_error, hs]; rfl⟩

/-- Core accepts the structure the version stands for: the one the session has, which a snapshot
stores. -/
def ValidVersion (s : Session K) (v : Version K) : Prop :=
  K.Accepts s.knowledgeStructure ∧ ∀ t ∈ v.knowledgeStructure, K.Accepts t

theorem stored_of_build {s : Session K} {prev : K.Structure} {v : Version K}
    (h : buildVersion env s prev = .ok v) : ∀ t ∈ v.knowledgeStructure, t = s.knowledgeStructure := by
  obtain ⟨stateHash, -, hrec⟩ := buildVersion_ok h
  obtain ⟨rfl, -⟩ | ⟨patch, -, rfl, -⟩ := recordState_ok hrec
  · simp
  · simp [newVersion]

/-- A version is valid exactly when the structure it was made from is. -/
theorem Creates.valid_iff {c : Ctx K} {v : Version K} (h : Creates env c v) :
    ValidVersion (stateOf (commit env c)).session v ↔
      K.Accepts ((lastWrite env.registry c.shared.storage c.transaction.items c.session).getD
        c.session.knowledgeStructure) := by
  obtain ⟨c₁, hstage, hb, hks⟩ := h.built
  obtain ⟨hcontent, -⟩ := executeStage_content hstage
  rw [ValidVersion, hks, hcontent]
  refine and_iff_left_of_imp fun haccepts t ht => ?_
  rw [stored_of_build hb t ht]
  show K.Accepts c₁.session.knowledgeStructure
  rwa [hcontent]

/-- **Which versions are valid**: those of transactions without operations and requests, and those
whose last written structure Core accepts. -/
theorem version_valid_iff {c : Ctx K} {v : Version K} (h : Creates env c v) :
    ValidVersion (stateOf (commit env c)).session v ↔
      c.transaction.items = [] ∨
        K.Accepts ((lastWrite env.registry c.shared.storage c.transaction.items c.session).getD
          c.session.knowledgeStructure) := by
  obtain ⟨c₁, hstage, -⟩ := h.built
  obtain ⟨-, hempty⟩ := executeStage_content hstage
  rw [h.valid_iff]
  constructor
  · exact .inr
  · intro hcond
    rcases hcond with hnil | haccepts
    · rw [hnil]
      exact hempty hnil
    · exact haccepts

/-! ## Validating in the transaction -/

theorem item_accepts {x : Item K} {op : Operation K} {ks : K.Structure} {c c' : Ctx K} {u : Unit}
    (h : x.execute env c = .ok u c') (hop : x.operation? env.registry = some op)
    (hkind : op.kind = .validate ks none) : K.Accepts ks := by
  obtain ⟨operationId, hx⟩ := Item.execute_of_operation hop c
  rw [hx] at h
  obtain ⟨hstatus, -⟩ := finishResult_ok h
  cases hv : K.validate ks none with
  | error exc => simp [OperationExecutor.execute, Operation.execute, hkind, hv, Except.map] at hstatus
  | ok validation =>
    refine ⟨validation, hv, ?_⟩
    by_contra hinvalid
    simp [OperationExecutor.execute, Operation.execute, hkind, hv, Except.map, hinvalid] at hstatus

theorem forM_items_accepts {items : List (Item K)} {c c' : Ctx K} {u : PUnit}
    (h : forM items (Item.execute env) c = .ok u c') {x : Item K} (hx : x ∈ items)
    {op : Operation K} {ks : K.Structure} (hop : x.operation? env.registry = some op)
    (hkind : op.kind = .validate ks none) : K.Accepts ks := by
  induction items generalizing c with
  | nil => cases hx
  | cons y items ih =>
    rw [List.forM_cons, bind_eq_ok] at h
    obtain ⟨v, c₁, hy, hitems⟩ := h
    rcases List.mem_cons.1 hx with rfl | hx
    · exact item_accepts hy hop hkind
    · exact ih hitems hx

/-- A transaction that validates what it ends with commits valid versions only. -/
theorem version_valid_of_validated {c : Ctx K} {v : Version K} (h : Creates env c v) {x : Item K}
    (hx : x ∈ c.transaction.items) {op : Operation K} {ks : K.Structure}
    (hop : x.operation? env.registry = some op) (hkind : op.kind = .validate ks none)
    (hlast : (lastWrite env.registry c.shared.storage c.transaction.items c.session).getD
      c.session.knowledgeStructure = ks) :
    ValidVersion (stateOf (commit env c)).session v := by
  obtain ⟨c₁, hstage, -⟩ := h.built
  rw [h.valid_iff, hlast]
  rw [executeStage, bind_get_run] at hstage
  split at hstage
  · rename_i he
    rw [items_eq_nil.2 he] at hx
    cases hx
  · rw [executeOperations_run] at hstage
    exact forM_items_accepts hstage hx hop hkind

end Pipeline

/-! ## A version nobody has validated -/

/-- The register, where 5 and above are invalid. -/
@[reducible] def Core.limited : Core :=
  { Core.register with validate := fun s _ => .ok ⟨decide (s < 5), []⟩ }

/-- A session at 1, and a transaction that evolves it to `value`. -/
def evolveCtx (value : Nat) : Ctx Core.limited where
  session := { knowledgeStructure := (1 : Nat), sessionId := "s" }
  transaction := {
    transactionId := "t"
    operations := [⟨"evolve", .evolve (1 : Nat) [value]⟩]
    initialState := (1 : Nat) }
  shared := {}

/-- What the commit meets. -/
def evolveEnv : Env Core.limited := { replicaId := none, versionId := "v" }

theorem evolveCtx_commits (value : Nat) :
    ∃ v c', Pipeline.commit evolveEnv (evolveCtx value) = .ok v c' := ⟨_, _, rfl⟩

theorem version_valid_evolve : ∃ v, Pipeline.Creates evolveEnv (evolveCtx 3) v ∧
    Pipeline.ValidVersion (stateOf (Pipeline.commit evolveEnv (evolveCtx 3))).session v := by
  obtain ⟨v, c', hcommit⟩ := evolveCtx_commits 3
  have hcreates := Pipeline.creates_of_ok hcommit
  refine ⟨v, hcreates, (Pipeline.version_valid_iff hcreates).2 (.inr ?_)⟩
  exact ⟨⟨true, []⟩, rfl, rfl⟩

/-- Evolved to 7, it is committed all the same. -/
theorem invalid_version_committed :
    ¬∀ (env : Env Core.limited) (c : Ctx Core.limited) (v : Version Core.limited),
      Pipeline.Creates env c v →
        Pipeline.ValidVersion (stateOf (Pipeline.commit env c)).session v := by
  intro h
  obtain ⟨v, c', hcommit⟩ := evolveCtx_commits 7
  have hcreates := Pipeline.creates_of_ok hcommit
  obtain ⟨validation, hvalidate, hvalid⟩ := hcreates.valid_iff.1 (h _ _ _ hcreates)
  obtain rfl := Except.ok.inj hvalidate
  revert hvalid
  decide

end CksRuntime
