import CksRuntime.Lib.DeltaIndex
import CksRuntime.Pipeline.Pipeline

/-!
# The embedding index

`projection/outbox_worker.py` and `projection/embedding_projection.py`: every commit of a session
leaves a task for its version, and working a task off writes the version's difference to the one
before it into the embedding index. An embedding is known by the text it was made from, and the
index is that of one session.
-/

set_option autoImplicit false

namespace CksRuntime

open DeltaIndex Transition

variable {K : Core}

/-- What the worker reads of an object. -/
structure EmbeddingView (K : Core) where
  /-- `isinstance(obj, CanonicalRelation)`. -/
  isRelation : K.Obj → Bool
  name : K.Obj → String
  type : K.Obj → String
  description : K.Obj → Option String

namespace EmbeddingView

variable (view : EmbeddingView K)

/-- `_format_for_embedding`. -/
def formatForEmbedding (obj : K.Obj) : String :=
  view.name obj ++ " (" ++ view.type obj ++ "): " ++ (view.description obj).getD ""

/-- What a structure has an embedding made from, under an id: relations are not searched for. -/
def entry (s : K.Structure) (objectId : String) : Option String :=
  ((K.get s objectId).filter fun obj => ¬view.isRelation obj).map view.formatForEmbedding

end EmbeddingView

/-! ## A task -/

/-- A write to `cks_object_embeddings`: the object's id, and the text of its embedding if it is not
deleted. -/
abbrev IndexWrite := String × Option String

/-- `delete_object_embeddings`. -/
def deleteObjectEmbeddings (objectId : String) : IndexWrite := (objectId, none)

/-- `save_object_embeddings`. -/
def saveObjectEmbeddings (objectId text : String) : IndexWrite := (objectId, some text)

/-- `reconstruct_with_retry`: `fresh` is what a reload finds. -/
def reconstructWithRetry (session : Session K) (fresh : Option (Session K)) (versionId : String) :
    Except (Err K.Obj) K.Structure :=
  match session.getVersionState versionId with
  | .ok s => .ok s
  | .error e =>
    if e.isValueError ∧ "does not match its recorded hash".toList <:+: e.message.toList then
      match fresh with
      | none => .error e
      | some fresh => fresh.getVersionState versionId
    else .error e

/-- The version before, by the order of the history, when the task names none. -/
def resolvePrevious (session : Session K) (prevVersionId : Option String) (newVersionId : String) :
    Option String :=
  match prevVersionId with
  | some prev => some prev
  | none =>
    match versionIndex session.versionHistory newVersionId with
    | some (i + 1) => session.versionHistory[i]?.map (·.versionId)
    | _ => none

/-- The objects a patch adds, or all of them where there is none. -/
def objectsToEmbed (view : EmbeddingView K) (newStructure : K.Structure)
    (patch : Option (List K.Operator)) : List K.Obj :=
  (match patch with
    | some patch => patch.filterMap fun op =>
      (K.asAddObject op).bind fun obj => K.get newStructure (K.identityId obj)
    | none => K.objects newStructure).filter fun obj => ¬view.isRelation obj

/-- The ids a patch removes. -/
def idsToRemove (patch : Option (List K.Operator)) : List String :=
  match patch with
  | some patch => patch.filterMap fun op =>
    if (K.asAddObject op).isSome then none else K.asRemoveObject op
  | none => []

/-- What a task writes, in order. -/
def taskWrites (view : EmbeddingView K) (oldStructure : Option K.Structure)
    (newStructure : K.Structure) : Except (Err K.Obj) (List IndexWrite) := do
  let patch ← match oldStructure with
    | some old => some <$> K.diff old newStructure
    | none => pure none
  return (idsToRemove patch).map deleteObjectEmbeddings ++
    (objectsToEmbed view newStructure patch).map fun obj =>
      saveObjectEmbeddings (K.identityId obj) (view.formatForEmbedding obj)

/-- `_execute_task`, up to its writes: `load` is what `load_session` finds. -/
def executeTask (view : EmbeddingView K) (load fresh : Option (Session K)) (sessionId : String)
    (prevVersionId : Option String) (newVersionId : String) :
    Except (Err K.Obj) (List IndexWrite) := do
  match load with
  | none => throw (.valueError ("Session " ++ sessionId ++ " not found"))
  | some session =>
    let newStructure ← reconstructWithRetry session fresh newVersionId
    let oldStructure ← match (resolvePrevious session prevVersionId newVersionId).filter (· ≠ "") with
      | some prev => some <$> reconstructWithRetry session fresh prev
      | none => pure none
    taskWrites view oldStructure newStructure

/-! ## Commits and tasks -/

/-- The session, the tasks of its versions, and the index. -/
structure ProjectionWorld (K : Core) where
  /-- As the store has it. -/
  session : Session K
  /-- The versions whose tasks are not completed. -/
  pending : List String := []
  /-- In the order they were completed. -/
  completed : List String := []
  index : String → Option String := fun _ => none

namespace ProjectionWorld

variable (view : EmbeddingView K) (w : ProjectionWorld K)

/-- What the task of a version writes; `EmbeddingProjection` names no previous version. -/
def work (versionId : String) : Except (Err K.Obj) (List IndexWrite) :=
  executeTask view (some w.session) (some w.session) w.session.sessionId none versionId

/-- What the latest version has an embedding made from. -/
def latestEntry (objectId : String) : Option String :=
  match w.session.latestVersionId.map w.session.getVersionState with
  | some (.ok s) => view.entry s objectId
  | _ => none

/-- The task of the version deletes or saves an embedding of the object. -/
def Touches (versionId objectId : String) : Prop :=
  ∃ writes, w.work view versionId = .ok writes ∧ objectId ∈ keys writes

/-- The task of the version is the last completed one that touches the object. -/
def LastTouch (versionId objectId : String) : Prop :=
  w.Touches view versionId objectId ∧ ∃ before after, w.completed = before ++ versionId :: after ∧
    ∀ versionId' ∈ after, ¬w.Touches view versionId' objectId

end ProjectionWorld

/-- What the worker and the session do. -/
inductive ProjectionLabel
  | commit
  /-- A try that raises after some of its writes. -/
  | fail (versionId : String) (writes : Nat)
  | complete (versionId : String)

namespace ProjectionWorld

/-- A commit makes a version with an id no other has; a task is tried in any order, and again and
again until it is completed. -/
inductive Step (view : EmbeddingView K) :
    ProjectionWorld K → ProjectionLabel → ProjectionWorld K → Prop
  | commit (w : ProjectionWorld K) (env : Env K) (s : Session K) (v : Version K) :
      s.versionHistory = w.session.versionHistory →
      Pipeline.buildVersion env s w.session.knowledgeStructure = .ok v →
      (∀ u ∈ w.session.versionHistory, u.versionId ≠ v.versionId) → v.versionId ≠ "" →
      Step view w .commit { w with
        session := { s with versionHistory := s.versionHistory ++ [v] }
        pending := w.pending ++ [v.versionId] }
  | failEarly (w : ProjectionWorld K) (versionId : String) (e : Err K.Obj) :
      versionId ∈ w.pending → w.work view versionId = .error e →
      Step view w (.fail versionId 0) w
  | fail (w : ProjectionWorld K) (versionId : String) (writes : List IndexWrite) (n : Nat) :
      versionId ∈ w.pending → w.work view versionId = .ok writes →
      Step view w (.fail versionId n) { w with index := apply w.index (writes.take n) }
  | complete (w : ProjectionWorld K) (versionId : String) (writes : List IndexWrite) :
      versionId ∈ w.pending → w.work view versionId = .ok writes →
      Step view w (.complete versionId) { w with
        index := apply w.index writes
        pending := w.pending.erase versionId
        completed := w.completed ++ [versionId] }

/-- From a session without versions. -/
def system (view : EmbeddingView K) : System (ProjectionWorld K) ProjectionLabel where
  init w := w.session.versionHistory = [] ∧ w = { session := w.session }
  step := Step view

end ProjectionWorld

end CksRuntime
