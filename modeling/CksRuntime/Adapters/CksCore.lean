import CksRuntime.Core.Laws
import CksRuntime.Operations.Types
import Mathlib.Data.Finset.Sort
import Mathlib.Data.String.Basic

/-!
# The cks-core adapter

`adapters/cks_core.py`: the two functions with which a conflict of objects is told apart into
fields, `field_diff` and `synthesize_merge`, over what they read of cks-core's objects
(`ObjectView`). Below them, what a merge owes the two sides of a conflict, and what the operation
log says of them.
-/

set_option autoImplicit false

namespace CksRuntime

variable {K : Core}

/-- `ObjectIdentity`. -/
structure ObjectIdentity where
  id : String
  type : String
  name : String
deriving DecidableEq

/-- The text of the operation's type. -/
def OpType.value : OpType → String
  | .addObject => "add_object"
  | .addRelation => "add_relation"
  | .removeObject => "remove_object"
  | .removeRelation => "remove_relation"
  | .setField => "set_field"
  | .deleteField => "delete_field"

/-- What the adapter reads of cks-core's objects. -/
structure ObjectView (K : Core) where
  identity : K.Obj → ObjectIdentity
  /-- `isinstance(obj, CanonicalRelation)`. -/
  isRelation : K.Obj → Bool
  /-- `dict(obj.structure)`. -/
  fields : K.Obj → Dict K.Value
  /-- `None`. -/
  null : K.Value
  valueDecEq : DecidableEq K.Value
  /-- `UpdateObject(object_id, fields, mode="replace")` on the object alone. -/
  updateObject : K.Obj → Dict K.Value → Except (Err K.Obj) K.Obj

namespace ObjectView

variable (view : ObjectView K)

/-! ## `field_diff` -/

/-- The edit of one key, if any. -/
def fieldOp (objectId : String) (source target : Dict K.Value) (key : String) :
    Option (FieldOperation K.Value) :=
  match target.lookup key with
  | none => some { objectId, opType := .deleteField, fieldKey := some key }
  | some value =>
    letI := view.valueDecEq
    if source.lookup key = some value then none
    else some { objectId, opType := .setField, fieldKey := some key, fieldValue := some value }

/-- The edits that take one object's fields to another's, in the order of the keys. -/
def fieldOps (objectId : String) (source target : Dict K.Value) : List (FieldOperation K.Value) :=
  ((source.keys ∪ target.keys).sort (· ≤ ·)).filterMap (view.fieldOp objectId source target)

/-- The operations on an object both structures have. -/
def objectOps (objectId : String) (source target : K.Obj) : List (FieldOperation K.Value) :=
  letI := view.valueDecEq
  if view.fields source = view.fields target then []
  else if view.isRelation source ∨ view.isRelation target then
    [{ objectId, opType := .removeRelation }, { objectId, opType := .addRelation }]
  else view.fieldOps objectId (view.fields source) (view.fields target)

/-- The ids of a structure's objects. -/
def objectIds (s : K.Structure) : Finset String :=
  ((K.objects s).map fun obj => (view.identity obj).id).toFinset

/-- Whether the object under an id is a relation. -/
def isRelationAt (s : K.Structure) (objectId : String) : Bool :=
  (K.get s objectId).any view.isRelation

/-- `field_diff`: removals, additions and updates, each by id. -/
def fieldDiff (source target : K.Structure) : List (FieldOperation K.Value) :=
  let sourceIds := view.objectIds source
  let targetIds := view.objectIds target
  (((sourceIds \ targetIds).sort (· ≤ ·)).map fun oid =>
    { objectId := oid
      opType := if view.isRelationAt source oid then .removeRelation else .removeObject }) ++
  (((targetIds \ sourceIds).sort (· ≤ ·)).map fun oid =>
    { objectId := oid
      opType := if view.isRelationAt target oid then .addRelation else .addObject }) ++
  ((sourceIds ∩ targetIds).sort (· ≤ ·)).flatMap fun oid =>
    match K.get source oid, K.get target oid with
    | some s, some t => view.objectOps oid s t
    | _, _ => []

/-! ## `synthesize_merge` -/

/-- A round of the loop, on the object's fields so far. -/
def applyOp (objectId : String) (fields : Dict K.Value) (op : FieldOperation K.Value) :
    Except (Err K.Obj) (Dict K.Value) :=
  if op.objectId ≠ objectId then
    .error (.valueError ("synthesize_merge got an operation for '" ++ op.objectId ++
      "' while merging '" ++ objectId ++ "'."))
  else
    match op.opType, op.fieldKey with
    | .deleteField, some key => .ok (fields.erase key)
    | .setField, some key => .ok (fields.insert key (op.fieldValue.getD view.null))
    | .deleteField, none => .ok fields
    -- a structure has no key but strings
    | .setField, none => .error (.typeError "field_key is None")
    | opType, _ => .error (.valueError ("synthesize_merge only supports set_field/" ++
        "delete_field operations, got '" ++ opType.value ++ "' for '" ++ objectId ++ "'."))

/-- `synthesize_merge`: the base object with the operations' fields. -/
def synthesizeMerge (base : K.Obj) (operations : List (FieldOperation K.Value)) :
    Except (Err K.Obj) K.Obj := do
  let fields ← operations.foldlM (view.applyOp (view.identity base).id) (view.fields base)
  view.updateObject base fields

/-- cks-core as the adapter attaches it. -/
@[reducible] def attach : Core :=
  { K with
    fieldDiff := some fun source target => .ok (view.fieldDiff source target)
    synthesizeMerge := some view.synthesizeMerge }

/-! ## What a merge owes -/

/-- What one side alone changed is as that side has it, and what neither changed is as it was. -/
def MergesTo {α : Type} (base a b merged : α) : Prop :=
  (b = base → merged = a) ∧ (a = base → merged = b)

/-- The merged object has the changes of both sides: in each part of the identity and each field. -/
structure Carries (base a b merged : K.Obj) : Prop where
  id : MergesTo (view.identity base).id (view.identity a).id (view.identity b).id
    (view.identity merged).id
  type : MergesTo (view.identity base).type (view.identity a).type (view.identity b).type
    (view.identity merged).type
  name : MergesTo (view.identity base).name (view.identity a).name (view.identity b).name
    (view.identity merged).name
  fields : ∀ key, MergesTo ((view.fields base).lookup key) ((view.fields a).lookup key)
    ((view.fields b).lookup key) ((view.fields merged).lookup key)

/-- The same of an object under its id in four structures. A side that has removed the object is not
carried by an object that is there. -/
def CarriesBoth (base a b merged : K.Structure) (objectId : String) : Prop :=
  ∃ obj ∈ K.get base objectId, ∃ objA ∈ K.get a objectId, ∃ objB ∈ K.get b objectId,
    ∃ objM ∈ K.get merged objectId, view.Carries obj objA objB objM

/-! ## What the log says -/

/-- What an operation leaves of its field. -/
def written (op : FieldOperation K.Value) : Option K.Value :=
  if op.opType = .deleteField then none else some (op.fieldValue.getD view.null)

/-- Each part of the identity was changed by both sides or by neither. -/
def IdentityAlike (base a b : ObjectIdentity) : Prop :=
  (a.id = base.id ↔ b.id = base.id) ∧ (a.type = base.type ↔ b.type = base.type) ∧
    (a.name = base.name ↔ b.name = base.name)

/-- The version comes after the base in the session's history, or is in the history of a session
that was branched off at the base. -/
def AfterBase (s : Session K) (baseVersionId versionId : String) : Prop :=
  (∃ before after, s.versionHistory.map (·.versionId) = before ++ baseVersionId :: after ∧
      baseVersionId ∉ before ∧ versionId ∈ after) ∨
    baseVersionId ∉ s.versionHistory.map (·.versionId) ∧ s.parentVersionId = some baseVersionId ∧
      versionId ∈ s.versionHistory.map (·.versionId)

/-- A row of the operation log that is of a side's own change of the field, since the base. -/
structure Edits (s : Session K) (baseVersionId objectId key : String) (row : LoggedOperation K) :
    Prop where
  session : row.sessionId = s.sessionId
  object : row.operation.objectId = objectId
  field : row.operation.fieldKey = some key
  version : ∃ versionId ∈ row.operation.versionId, AfterBase s baseVersionId versionId

/-- The last such row of the log leaves `value`. -/
def LastEdit (storage : Storage K) (s : Session K) (baseVersionId objectId key : String)
    (value : Option K.Value) : Prop :=
  ∃ before row after, storage.operationLog = before ++ row :: after ∧
    Edits s baseVersionId objectId key row ∧
    (∀ row' ∈ after, ¬Edits s baseVersionId objectId key row') ∧
    view.written row.operation = value

/-- Of a field that is `base` in the base and `a` and `b` on the sides: where a side has rows of it
in the log, the last one leaves what the side has that alone changed it (what the base has, if
neither did); and where no side has one, it was changed by both sides or by neither. -/
def FieldTold (storage : Storage K) (session source : Session K)
    (baseVersionId objectId key : String) (base a b : Option K.Value) : Prop :=
  (∀ value, view.LastEdit storage session baseVersionId objectId key value ∨
      view.LastEdit storage source baseVersionId objectId key value → MergesTo base a b value) ∧
    ((∀ row ∈ storage.operationLog, ¬Edits session baseVersionId objectId key row ∧
      ¬Edits source baseVersionId objectId key row) → (a = base ↔ b = base))

/-- Both sides have the object, its identity aside from what both changed is the base's, and the log
tells of every field. -/
def LogTells (storage : Storage K) (session source : Session K) (base : K.Structure)
    (baseVersionId objectId : String) : Prop :=
  ∃ obj ∈ K.get base objectId, ∃ objA ∈ K.get session.knowledgeStructure objectId,
    ∃ objB ∈ K.get source.knowledgeStructure objectId,
      IdentityAlike (view.identity obj) (view.identity objA) (view.identity objB) ∧
      ∀ key, view.FieldTold storage session source baseVersionId objectId key
        ((view.fields obj).lookup key) ((view.fields objA).lookup key)
        ((view.fields objB).lookup key)

/-! ## What is relied on of cks-core -/

/-- What the three views of an object have to do with each other. -/
structure Lawful : Prop where
  identityId : ∀ obj, K.identityId obj = (view.identity obj).id
  /-- An update leaves the identity and takes the fields as they are given. -/
  updateObject : ∀ obj fields obj', view.updateObject obj fields = .ok obj' →
    view.identity obj' = view.identity obj ∧ view.fields obj' = fields

end ObjectView

/-- A conflict is reported with the object each side has, and is resolved by the object given. -/
structure Core.ConflictLaw (K : Core) : Prop where
  reported : ∀ base a b resolutions conflicts,
    K.merge base a b resolutions = .error (.mergeConflict conflicts) → ∀ c ∈ conflicts,
    c.base = K.get base c.objectId ∧ c.branchA = K.get a c.objectId ∧
      c.branchB = K.get b c.objectId
  resolved : ∀ base a b resolutions conflicts resolutions' merged,
    K.merge base a b resolutions = .error (.mergeConflict conflicts) →
    K.merge base a b (some resolutions') = .ok merged → ∀ c ∈ conflicts, ∀ obj,
    resolutions'.lookup c.objectId = some (.object obj) → K.identityId obj = c.objectId →
    K.get merged c.objectId = some obj

end CksRuntime
