import CksRuntime.Storage.SQLite

/-!
# Operations

`operations/operation_types.py`: what each operation computes from the session it runs on. Only a
merge touches the session itself, and only when it fast-forwards.
-/

set_option autoImplicit false

namespace CksRuntime

variable {K : Core}

/-- The version a session starts from. -/
def EMPTY_STATE_VERSION_ID : String := "00000000-0000-0000-0000-000000000000"

/-- The arguments of a `MergeOperation`. The source is another session, as it is when the
operation runs. -/
structure MergeArgs (K : Core) where
  sourceSession : Option (Session K)
  baseVersionId : Option String := none
  baseStructure : Option K.Structure := none
  resolutions : Option (Dict (Resolution K.Obj)) := none

/-- The operations there are, each with its arguments. -/
inductive OperationKind (K : Core)
  | validate (knowledgeStructure : K.Structure) (extraConstraints : Option K.Arg)
  | evolve (knowledgeStructure : K.Structure) (evolution : List K.Operator)
  | serialize (knowledgeStructure : K.Structure)
  | explain (knowledgeStructure : K.Structure)
  | explainInference (knowledgeStructure : K.Structure) (objectId : Option String)
  | querySubgraph (knowledgeStructure : K.Structure) (seedIds : Option K.Arg)
  | listVersions
  | revertVersion (targetVersionId : String)
  | diff (targetVersionId : Option String) (targetStructure : Option K.Structure)
  | merge (args : MergeArgs K)
  | replaceState (knowledgeStructure : Option K.Structure)

/-- An operation of a transaction. -/
structure Operation (K : Core) where
  operationId : String
  kind : OperationKind K

/-- How far an operation has come. -/
inductive OperationStatus
  | pending | running | completed | failed
  deriving DecidableEq, Repr

/-- A result's payload; `data` is what the Runtime only hands back to the caller. -/
inductive Payload (K : Core)
  | state (s : K.Structure)
  | data

/-- What the executor returns of an operation. -/
structure ExecutionResult (K : Core) where
  operationId : String
  status : OperationStatus
  payload : Option (Payload K) := none
  diagnostics : List Diagnostic := []
  error : Option (Err K.Obj) := none
  operation : Option (Operation K) := none

namespace ExecutionResult

/-- The result of an operation that returns. -/
def completed (operationId : String) (payload : Payload K) : ExecutionResult K :=
  { operationId, status := .completed, payload := some payload }

/-- The result of one that raises. -/
def failed (operationId : String) (error : Err K.Obj) : ExecutionResult K :=
  { operationId, status := .failed, error := some error }

end ExecutionResult

/-! ## Merging -/

/-- The base a merge resolves, with the version id it was found under (`none` for an explicit
structure), or the error it reports. -/
def MergeArgs.resolveBase (m : MergeArgs K) (source session : Session K) :
    Except (Err K.Obj) (K.Structure × Option String) :=
  match m.baseStructure with
  | some base => .ok (base, none)
  | none =>
    match m.baseVersionId.or source.parentVersionId with
    | none => .error (.valueError ("MergeOperation could not determine a merge base: pass " ++
        "'base_structure' or 'base_version_id' explicitly, or merge a session whose " ++
        "'parent_version_id' was recorded at branch time."))
    | some baseVersionId =>
      if baseVersionId = EMPTY_STATE_VERSION_ID then
        .ok (K.emptyLike session.knowledgeStructure, some baseVersionId)
      else (session.getVersionState baseVersionId).map (·, some baseVersionId)

/-- `versions_since(rt_session)`. -/
def versionsSince (baseVersionId : String) (s : Session K) : Option (List String) :=
  let versionIds := s.versionHistory.map (·.versionId)
  if baseVersionId ∈ versionIds then
    some (versionIds.drop (versionIds.idxOf baseVersionId + 1))
  else if s.parentVersionId = some baseVersionId then some versionIds
  else none

/-- The logged operations of one side on an object, since the base. -/
def opsSince (storage : Storage K) (s : Session K) (objectId : String) (versions : List String) :
    List (FieldOperation K.Value) :=
  (storage.listOperations s.sessionId objectId).filter fun op =>
    match op.versionId with
    | some v => decide (v ∈ versions)
    | none => false

/-- One round of `_field_level_resolutions`: the synthesized object, when the two sides' logs show
only field edits on disjoint keys. A failed synthesis leaves the conflict as it is. -/
def autoResolution (synthesize : K.Obj → List (FieldOperation K.Value) → Except (Err K.Obj) K.Obj)
    (aOps bOps : List (FieldOperation K.Value)) (conflict : MergeConflict K.Obj) :
    Option (Resolution K.Obj) :=
  match conflict.base with
  | none => none
  | some base =>
    if aOps = [] ∧ bOps = [] then none
    else if (aOps ++ bOps).any fun op => op.opType ≠ .setField ∧ op.opType ≠ .deleteField then none
    else if aOps.any fun a => bOps.any fun b => a.fieldKey = b.fieldKey then none
    else
      match synthesize base (aOps ++ bOps) with
      | .ok obj => some (.object obj)
      | .error _ => none

/-- `_field_level_resolutions`. -/
def fieldLevelResolutions (storage : Storage K) (conflicts : List (MergeConflict K.Obj))
    (session source : Session K) (baseVersionId : Option String) : Dict (Resolution K.Obj) :=
  match baseVersionId, K.synthesizeMerge with
  | some base, some synthesize =>
    if storage.supportsOperationLog then
      match versionsSince base session, versionsSince base source with
      | some aVersions, some bVersions =>
        conflicts.foldl (fun resolutions conflict =>
          match autoResolution synthesize
              (opsSince storage session conflict.objectId aVersions)
              (opsSince storage source conflict.objectId bVersions) conflict with
          | some r => resolutions.insert conflict.objectId r
          | none => resolutions) ∅
      | _, _ => ∅
    else ∅
  | _, _ => ∅

/-- `{**auto, **(resolutions or {})}`: explicit resolutions win. -/
def mergeResolutions (auto : Dict (Resolution K.Obj)) (resolutions : Option (Dict (Resolution K.Obj))) :
    Dict (Resolution K.Obj) :=
  resolutions.getD ∅ ∪ auto

/-- The three-way path of `MergeOperation.execute`: a missing base, a conflict that the logs do not
resolve and any error of the merge itself are FAILED results. -/
def MergeArgs.threeWay (m : MergeArgs K) (operationId : String) (storage : Storage K)
    (source session : Session K) : Except (Err K.Obj) (ExecutionResult K) :=
  match m.resolveBase source session with
  | .error exc => if exc.isValueError then .ok (.failed operationId exc) else .error exc
  | .ok (base, baseVersionId) =>
    match K.merge base session.knowledgeStructure source.knowledgeStructure m.resolutions with
    | .ok merged => .ok (.completed operationId (.state merged))
    | .error (.mergeConflict conflicts) =>
      let auto := fieldLevelResolutions storage conflicts session source baseVersionId
      if auto.keys = ∅ then .ok (.failed operationId (.mergeConflict conflicts))
      else
        match K.merge base session.knowledgeStructure source.knowledgeStructure
            (some (mergeResolutions auto m.resolutions)) with
        | .ok merged => .ok (.completed operationId (.state merged))
        | .error exc => .ok (.failed operationId exc)
    | .error exc => .ok (.failed operationId exc)

/-- `MergeOperation.execute`. The fast-forward absorbs the source's vector into the metadata of the
session it runs on. -/
def MergeArgs.execute (m : MergeArgs K) (operationId : String) (storage : Storage K)
    (session : Session K) : Except (Err K.Obj) (ExecutionResult K) × Session K :=
  match m.sourceSession with
  | none =>
    (.ok (.failed operationId (.valueError ("MergeOperation requires 'source_session' (the " ++
      "branch being merged in)."))), session)
  | some source =>
    if session.vector.dominates source.vector then
      (.ok (.completed operationId (.state session.knowledgeStructure)), session)
    else if source.vector.dominates session.vector then
      (.ok (.completed operationId (.state source.knowledgeStructure)),
        { session with
          metadata := (session.vector.absorb source.vector).toMetadata session.metadata })
    else (m.threeWay operationId storage source session, session)

/-! ## Every operation -/

/-- A Core call whose value only goes back to the caller. -/
def readOnly (operationId : String) (r : Except (Err K.Obj) Unit) : ExecutionResult K :=
  match r with
  | .ok () => .completed operationId .data
  | .error exc => .failed operationId exc

/-- `DiffOperation.execute`. -/
def executeDiff (operationId : String) (targetVersionId : Option String)
    (targetStructure : Option K.Structure) (session : Session K) :
    Except (Err K.Obj) (ExecutionResult K) :=
  let against (target : K.Structure) : Except (Err K.Obj) (ExecutionResult K) :=
    .ok (readOnly operationId ((K.diff session.knowledgeStructure target).map fun _ => ()))
  match targetVersionId, targetStructure with
  | some versionId, _ =>
    match session.getVersionState versionId with
    | .ok target => against target
    | .error exc => if exc.isValueError then .ok (.failed operationId exc) else .error exc
  | none, some target => against target
  | none, none =>
    .ok (.failed operationId (.valueError ("DiffOperation requires either 'target_version_id' " ++
      "or 'target_structure'.")))

/-- `Operation.execute`, for each class: its result or what it raises, and the session after. -/
def Operation.execute (op : Operation K) (storage : Storage K) (session : Session K) :
    Except (Err K.Obj) (ExecutionResult K) × Session K :=
  match op.kind with
  | .validate ks extraConstraints =>
    ((K.validate ks extraConstraints).map fun result =>
      { operationId := op.operationId
        status := if result.valid then .completed else .failed
        payload := some .data
        diagnostics := result.diagnostics
        error := if result.valid then none else some (.runtimeError "Validation failed") }, session)
  | .evolve ks evolution =>
    ((K.evolve ks evolution).map fun evolved => .completed op.operationId (.state evolved), session)
  | .serialize ks => ((K.serialize ks).map fun _ => .completed op.operationId .data, session)
  | .explain ks => ((K.explain ks).map fun _ => .completed op.operationId .data, session)
  | .explainInference ks objectId =>
    (.ok (match objectId.filter (· ≠ "") with
      | none => .failed op.operationId
          (.valueError "ExplainInferenceOperation requires 'object_id'.")
      | some oid => readOnly op.operationId (K.explainInference ks oid)), session)
  | .querySubgraph ks seedIds =>
    (.ok (match seedIds with
      | none => .failed op.operationId (.valueError "QuerySubgraphOperation requires 'seed_ids'.")
      | some query => readOnly op.operationId (K.querySubgraph ks query)), session)
  | .listVersions => (.ok (.completed op.operationId .data), session)
  | .revertVersion targetVersionId =>
    (match session.getVersionState targetVersionId with
      | .ok target => .ok (.completed op.operationId (.state target))
      | .error exc => if exc.isValueError then .ok (.failed op.operationId exc) else .error exc,
      session)
  | .diff targetVersionId targetStructure =>
    (executeDiff op.operationId targetVersionId targetStructure session, session)
  | .merge args => args.execute op.operationId storage session
  | .replaceState ks =>
    (.ok (match ks with
      | none => .failed op.operationId
          (.valueError "ReplaceStateOperation requires 'knowledge_structure'.")
      | some s => .completed op.operationId (.state s)), session)

end CksRuntime
