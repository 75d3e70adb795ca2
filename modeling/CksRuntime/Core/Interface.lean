import Mathlib.Data.Finmap

/-!
# The boundary to CKS Core

`Core` is what `CoreBridge` gives the Runtime of the attached cks-core: its value types, which the
Runtime never looks inside, and its functions, any of which may raise. The Runtime's own code is
everything else in this development; what a result relies on of Core is a hypothesis of its
theorem (`Core.PatchLaw`, `Core.MergeLaw`, …).
-/

set_option autoImplicit false

namespace CksRuntime

/-- A `str`-keyed Python dict whose iteration order nothing reads. -/
abbrev Dict (V : Type) := Finmap (fun _ : String => V)

/-! ## Runtime-native models that cross the boundary -/

/-- Who reports. -/
inductive DiagnosticSource
  | core | runtime
  deriving DecidableEq, Repr

/-- How bad it is. -/
inductive DiagnosticSeverity
  | info | warning | error
  deriving DecidableEq, Repr

/-- `Diagnostic`, without the id and time it is stamped with. -/
structure Diagnostic where
  message : String
  source : DiagnosticSource
  severity : DiagnosticSeverity
  code : Option String := none
  deriving DecidableEq, Repr

/-- `RuntimeValidationResult`. -/
structure ValidationResult where
  valid : Bool
  diagnostics : List Diagnostic
  deriving DecidableEq, Repr

/-- `RuntimeMergeConflict`: `none` where the identity is absent. -/
structure MergeConflict (Obj : Type) where
  objectId : String
  base : Option Obj
  branchA : Option Obj
  branchB : Option Obj

/-- How a conflict is resolved: a side by name, removal (`None`), or a replacement object. -/
inductive Resolution (Obj : Type)
  | branchA
  | branchB
  | absent
  | object (obj : Obj)

/-- What a field operation does. -/
inductive OpType
  | addObject | addRelation | removeObject | removeRelation | setField | deleteField
  deriving DecidableEq, Repr

/-- `RuntimeFieldOperation`. -/
structure FieldOperation (Value : Type) where
  objectId : String
  opType : OpType
  fieldKey : Option String := none
  fieldValue : Option Value := none
  versionId : Option String := none

/-! ## Exceptions -/

/-- The exceptions the modelled code raises or tells apart. `other` is any further class. -/
inductive Err (Obj : Type)
  | runtimeError (message : String)
  | notImplementedError
  | valueError (message : String)
  | typeError (message : String)
  | keyError (message : String)
  | lookupError (message : String)
  | mergeConflict (conflicts : List (MergeConflict Obj))
  | concurrentModification (sessionId : String)
  | other (message : String)

namespace Err

variable {Obj : Type}

/-- `str(exc)`. -/
def message : Err Obj → String
  | runtimeError m => m
  | notImplementedError => ""
  | valueError m => m
  | typeError m => m
  | keyError m => m
  | lookupError m => m
  | mergeConflict cs =>
    "Merge conflict on identities: " ++ ", ".intercalate (cs.map (·.objectId))
  | concurrentModification sid =>
    "Session '" ++ sid ++ "' was modified concurrently; reload and retry."
  | other m => m

/-- Caught by `except (NotImplementedError, RuntimeError)`. -/
def isRuntimeError : Err Obj → Bool
  | runtimeError _ | notImplementedError | concurrentModification _ => true
  | _ => false

/-- Caught by `except ValueError`; `RuntimeMergeConflictError` is a subclass. -/
def isValueError : Err Obj → Bool
  | valueError _ | mergeConflict _ => true
  | _ => false

end Err

/-! ## Core -/

/-- The attached Core, as `CoreBridge` delegates to it. -/
structure Core where
  Structure : Type
  Operator : Type
  Obj : Type
  Value : Type
  Hash : Type
  /-- A keyword argument of a dispatch request, or an argument the Runtime only passes on. -/
  Arg : Type
  hashDecEq : DecidableEq Hash
  /-- `repr(hash)`. -/
  reprHash : Hash → String
  validate : Structure → Option Arg → Except (Err Obj) ValidationResult
  evolve : Structure → List Operator → Except (Err Obj) Structure
  diff : Structure → Structure → Except (Err Obj) (List Operator)
  hash : Structure → Except (Err Obj) Hash
  merge : Structure → Structure → Structure → Option (Dict (Resolution Obj)) →
    Except (Err Obj) Structure
  structurallyEquivalent : Structure → Structure → Bool
  /-- `type(structure)([])`: the empty structure of the same type. -/
  emptyLike : Structure → Structure
  serialize : Structure → Except (Err Obj) Unit
  explain : Structure → Except (Err Obj) Unit
  explainInference : Structure → String → Except (Err Obj) Unit
  querySubgraph : Structure → Arg → Except (Err Obj) Unit
  /-- `none` when the attached Core does not override `field_diff`. -/
  fieldDiff : Option (Structure → Structure → Except (Err Obj) (List (FieldOperation Value)))
  /-- `none` when the attached Core does not override `synthesize_merge`. -/
  synthesizeMerge : Option (Obj → List (FieldOperation Value) → Except (Err Obj) Obj)
  /-- `structure.objects`. -/
  objects : Structure → List Obj
  /-- `obj.identity.id`. -/
  identityId : Obj → String
  /-- The object of an `AddObject` operator. -/
  asAddObject : Operator → Option Obj
  /-- The id of a `RemoveObject` operator. -/
  asRemoveObject : Operator → Option String

instance (K : Core) : DecidableEq K.Hash := K.hashDecEq

/-- `structure.get(object_id)`. -/
def Core.get (K : Core) (s : K.Structure) (objectId : String) : Option K.Obj :=
  (K.objects s).find? (K.identityId · = objectId)

end CksRuntime
