import CksRuntime.Core.Laws

/-!
# The operators of a patch

What is relied on of cks-core's four operators when a patch is replayed: each acts on the objects of
a structure by id, relations among them, one after the other. And when the replay filter of
`get_version_state` leaves such a patch as it is.
-/

set_option autoImplicit false

namespace CksRuntime

variable {K : Core}

/-- The operators of cks-core, by what they do. -/
inductive EvolveOperator (Obj : Type)
  | addObject (obj : Obj)
  | removeObject (objectId : String)
  | addRelation (relation : Obj)
  | removeRelation (relationId : String)

namespace EvolveOperator

variable {Obj : Type}

/-- The object it adds, be it a relation. -/
def added : EvolveOperator Obj → Option Obj
  | .addObject obj | .addRelation obj => some obj
  | .removeObject _ | .removeRelation _ => none

/-- The id it removes. -/
def removed : EvolveOperator Obj → Option String
  | .removeObject objectId | .removeRelation objectId => some objectId
  | .addObject _ | .addRelation _ => none

end EvolveOperator

/-- The operators of a Core as `cks.evolution` has them; one that cannot be applied raises. -/
structure Core.Evolution (K : Core) where
  operator : K.Operator → EvolveOperator K.Obj
  apply : K.Structure → K.Operator → Except (Err K.Obj) K.Structure

namespace Core.Evolution

/-- What `evolve` does with them. -/
structure Lawful (ev : K.Evolution) : Prop where
  evolve : ∀ s patch, K.evolve s patch = patch.foldlM ev.apply s
  /-- `isinstance(op, AddObject)`, and its object. -/
  asAddObject : ∀ op, K.asAddObject op =
    match ev.operator op with
    | .addObject obj => some obj
    | _ => none
  /-- `isinstance(op, RemoveObject)`, and its id. -/
  asRemoveObject : ∀ op, K.asRemoveObject op =
    match ev.operator op with
    | .removeObject objectId => some objectId
    | _ => none
  /-- What is added was not there. -/
  added : ∀ s op s' obj, (ev.operator op).added = some obj → ev.apply s op = .ok s' →
    K.get s (K.identityId obj) = none ∧
      ∀ k, K.get s' k = if k = K.identityId obj then some obj else K.get s k
  removed : ∀ s op s' objectId, (ev.operator op).removed = some objectId →
    ev.apply s op = .ok s' → ∀ k, K.get s' k = if k = objectId then none else K.get s k

variable (ev : K.Evolution)

/-- The removal of what is not there raises. -/
def Strict : Prop :=
  ∀ s op s' objectId, (ev.operator op).removed = some objectId → ev.apply s op = .ok s' →
    K.get s objectId ≠ none

/-- The operator adds an object with the id. -/
def AddsObject (op : K.Operator) (objectId : String) : Prop :=
  ∃ obj, ev.operator op = .addObject obj ∧ K.identityId obj = objectId

/-- An object of the state, or one that the operators add, is removed by a `RemoveRelation`, and no
`RemoveObject` of its id comes after it. -/
def RemovedAsRelation (s : K.Structure) (ops : List K.Operator) (objectId : String) : Prop :=
  ∃ before after, ops = before ++ after ∧
    (before = [] ∧ K.get s objectId ≠ none ∨
      ∃ ops' op, before = ops' ++ [op] ∧ ev.AddsObject op objectId) ∧
    (∀ op ∈ after, ev.operator op ≠ .removeObject objectId) ∧
    ∃ op ∈ after, ev.operator op = .removeRelation objectId

/-- No `AddObject` comes after a `RemoveRelation` of its id that makes it look like a replay. -/
def Replayable (s : K.Structure) (patch : List K.Operator) : Prop :=
  ∀ before op after objectId, patch = before ++ op :: after → ev.AddsObject op objectId →
    ¬ev.RemovedAsRelation s before objectId

end Core.Evolution

/-! ## The shelf -/

/-- An object or a relation, by its id. -/
structure ShelfItem where
  id : String
  isRelation : Bool
  deriving DecidableEq

/-- An item is added, unless its id is there. -/
def shelfAdd (s : List ShelfItem) (item : ShelfItem) : Except (Err ShelfItem) (List ShelfItem) :=
  if item.id ∈ s.map (·.id) then .error (.valueError ("Object '" ++ item.id ++ "' already exists."))
  else .ok (s ++ [item])

/-- The item with the id is removed, if there is one. -/
def shelfRemove (s : List ShelfItem) (objectId : String) : Except (Err ShelfItem) (List ShelfItem) :=
  if objectId ∈ s.map (·.id) then .ok (s.filter (·.id ≠ objectId)) else .error (.keyError objectId)

/-- An operator on the items. -/
def shelfStep (s : List ShelfItem) : EvolveOperator ShelfItem → Except (Err ShelfItem) (List ShelfItem)
  | .addObject item | .addRelation item => shelfAdd s item
  | .removeObject objectId | .removeRelation objectId => shelfRemove s objectId

/-- A Core whose structures are lists of objects, with the four operators. -/
@[reducible] def Core.shelf : Core where
  Structure := List ShelfItem
  Operator := EvolveOperator ShelfItem
  Obj := ShelfItem
  Value := Unit
  Hash := Unit
  Arg := Unit
  hashDecEq := inferInstance
  reprHash _ := "()"
  validate _ _ := .ok ⟨true, []⟩
  evolve s patch := patch.foldlM shelfStep s
  diff _ _ := .error .notImplementedError
  hash _ := .ok ()
  merge _ _ _ _ := .error .notImplementedError
  structurallyEquivalent s t := decide (s = t)
  emptyLike _ := []
  serialize _ := .ok ()
  explain _ := .ok ()
  explainInference _ _ := .ok ()
  querySubgraph _ _ := .ok ()
  fieldDiff := none
  synthesizeMerge := none
  objects s := s
  identityId item := item.id
  asAddObject
    | .addObject item => some item
    | _ => none
  asRemoveObject
    | .removeObject objectId => some objectId
    | _ => none

/-- The shelf's operators are cks-core's. -/
def Core.shelf.evolution : Core.shelf.Evolution where
  operator op := op
  apply := shelfStep

end CksRuntime
