import CksRuntime.Lib.JsonRead

/-!
# The patch codec

`storage/patch_codec.py`: the operators of a version's patch as dicts that `json.dumps` takes
(`serialize_operators`), and back (`deserialize_operators`). `cks-core` keeps the values of a
structure in frozen containers, which `json.dumps` does not take; `_thaw` replaces them. What its
constructors accept is a parameter (`CoreClasses`): of the parts of an object they make the same
object, whatever containers these are in.
-/

set_option autoImplicit false

namespace CksRuntime

open JsonText

namespace PatchCodec

/-- A text, by its characters. -/
abbrev Text := List Char

/-! ## Values -/

/-- A value of a structure. A frozen list is a tuple, a frozen dict a `MappingProxyType`. -/
inductive Value
  | atom (a : Atom)
  | string (s : Text)
  | list (frozen : Bool) (elements : List Value)
  | dict (frozen : Bool) (items : List (Text × Value))

/-- What the codec, `json` and the constructors raise. -/
inductive PatchErr
  | typeError (message : Text)
  | keyError (key : String)
  | jsonDecodeError
  /-- ValueError: "Unknown operator type: …" -/
  | unknownOperatorType (opType : Value)
  | other

namespace Value

mutual

/-- `_thaw` -/
def thaw : Value → Value
  | .atom a => .atom a
  | .string s => .string s
  | .list _ xs => .list false (thawElements xs)
  | .dict _ items => .dict false (thawItems items)

/-- The elements, each. -/
def thawElements : List Value → List Value
  | [] => []
  | x :: xs => thaw x :: thawElements xs

/-- The values of the items, each. -/
def thawItems : List (Text × Value) → List (Text × Value)
  | [] => []
  | (k, x) :: items => (k, thaw x) :: thawItems items

end

mutual

/-- What `json.dumps` writes: a tuple as a list, but no frozen dict. -/
def toJson : Value → Except PatchErr Json
  | .atom a => .ok (.atom a)
  | .string s => .ok (.string s)
  | .list _ xs => do
    let xs ← toElements xs
    return .array xs
  | .dict true _ =>
    .error (.typeError "Object of type mappingproxy is not JSON serializable".toList)
  | .dict false items => do
    let items ← toMembers items
    return .object items

/-- The elements, each. -/
def toElements : List Value → Except PatchErr (List Json)
  | [] => .ok []
  | x :: xs => do
    let x ← toJson x
    let xs ← toElements xs
    return x :: xs

/-- The values of the items, each. -/
def toMembers : List (Text × Value) → Except PatchErr (List (Text × Json))
  | [] => .ok []
  | (k, x) :: items => do
    let x ← toJson x
    let items ← toMembers items
    return (k, x) :: items

end

/-- `json.dumps`. -/
def dumps (v : Value) : Except PatchErr Text := do
  let x ← v.toJson
  return write x

mutual

/-- A JSON value as Python has it, or as `cks-core` keeps it. -/
def ofJson (frozen : Bool) : Json → Value
  | .atom a => .atom a
  | .string s => .string s
  | .array xs => .list frozen (ofElements frozen xs)
  | .object ms => .dict frozen (ofMembers frozen ms)

/-- The elements, each. -/
def ofElements (frozen : Bool) : List Json → List Value
  | [] => []
  | x :: xs => ofJson frozen x :: ofElements frozen xs

/-- The values of the members, each. -/
def ofMembers (frozen : Bool) : List (Text × Json) → List (Text × Value)
  | [] => []
  | (k, x) :: ms => (k, ofJson frozen x) :: ofMembers frozen ms

end

/-- `json.loads` -/
def ofText (t : Text) : Except PatchErr Value :=
  match loads t with
  | some x => .ok (ofJson false x)
  | none => .error .jsonDecodeError

mutual

/-- A value, whatever its containers are. -/
def content : Value → Json
  | .atom a => .atom a
  | .string s => .string s
  | .list _ xs => .array (contentElements xs)
  | .dict _ items => .object (contentItems items)

/-- The elements, each. -/
def contentElements : List Value → List Json
  | [] => []
  | x :: xs => content x :: contentElements xs

/-- The values of the items, each. -/
def contentItems : List (Text × Value) → List (Text × Json)
  | [] => []
  | (k, x) :: items => (k, content x) :: contentItems items

end

mutual

/-- No dict has a key twice. -/
def DistinctKeys : Value → Prop
  | .atom _ => True
  | .string _ => True
  | .list _ xs => DistinctKeysElements xs
  | .dict _ items => (items.map Prod.fst).Nodup ∧ DistinctKeysItems items

/-- Of every dict in the elements. -/
def DistinctKeysElements : List Value → Prop
  | [] => True
  | x :: xs => DistinctKeys x ∧ DistinctKeysElements xs

/-- Of every dict in the values. -/
def DistinctKeysItems : List (Text × Value) → Prop
  | [] => True
  | (_, x) :: items => DistinctKeys x ∧ DistinctKeysItems items

end

/-- `v[key]` -/
def index (v : Value) (key : String) : Except PatchErr Value :=
  match v with
  | .dict _ items =>
    match items.lookup key.toList with
    | some x => .ok x
    | none => .error (.keyError key)
  | _ => .error (.typeError "indices must be integers".toList)

/-- `v.get(key, default)`, of a dict. -/
def getD (v : Value) (key : String) (default : Value) : Value :=
  match v with
  | .dict _ items => (items.lookup key.toList).getD default
  | _ => default

/-- `v == text` -/
def isText (v : Value) (text : String) : Bool :=
  match v with
  | .string s => s == text.toList
  | _ => false

/-- The keyword arguments of a call with `**v`. -/
def keywordsOf (v : Value) : Except PatchErr (List (Text × Value)) :=
  match v with
  | .dict _ items => .ok items
  | _ => .error (.typeError "argument after ** must be a mapping".toList)

/-- A text, or `None`. -/
def ofOption : Option Text → Value
  | none => .atom .null
  | some s => .string s

end Value

/-! ## The classes of cks-core -/

/-- The identity of an object. -/
structure ObjectIdentity where
  id : Text
  type : Text
  name : Option Text

/-- An object of cks-core. -/
structure KnowledgeObject where
  identity : ObjectIdentity
  «structure» : Value

/-- A relation of cks-core. -/
structure CanonicalRelation where
  identity : ObjectIdentity
  participants : List Text
  relationType : Text
  «structure» : Value

/-- An operator of a patch. -/
inductive Operator
  | addObject (obj : KnowledgeObject)
  | removeObject (objectId : Text)
  | addRelation (relation : CanonicalRelation)
  | removeRelation (relationId : Text)
  /-- An operator of another class. -/
  | other (type : Text)

/-- The dict of an identity, and its keyword arguments. -/
def ObjectIdentity.keywords (identity : ObjectIdentity) : List (Text × Value) :=
  [("id".toList, .string identity.id), ("type".toList, .string identity.type),
    ("name".toList, .ofOption identity.name)]

/-- The constructors of `cks-core`, with what they accept. -/
structure CoreClasses where
  Identity : ObjectIdentity → Prop
  Object : KnowledgeObject → Prop
  Relation : CanonicalRelation → Prop
  objectIdentity : List (Text × Value) → Except PatchErr ObjectIdentity
  knowledgeObject : ObjectIdentity → Value → Except PatchErr KnowledgeObject
  canonicalRelation : ObjectIdentity → Value → Value → Value → Except PatchErr CanonicalRelation
  removeObject : Value → Except PatchErr Text
  removeRelation : Value → Except PatchErr Text
  objectIdentity_keywords : ∀ {identity}, Identity identity →
    objectIdentity identity.keywords = .ok identity
  /-- The structure is frozen. -/
  knowledgeObject_parts : ∀ {obj v}, Object obj → v.content = obj.structure.content →
    ∃ frozen : Value, frozen.content = obj.structure.content ∧
      knowledgeObject obj.identity v = .ok { obj with «structure» := frozen }
  canonicalRelation_parts : ∀ {relation participants v}, Relation relation →
    participants.content = .array (relation.participants.map .string) →
    v.content = relation.structure.content →
    ∃ frozen : Value, frozen.content = relation.structure.content ∧
      canonicalRelation relation.identity participants (.string relation.relationType) v =
        .ok { relation with «structure» := frozen }
  removeObject_string : ∀ id, removeObject (.string id) = .ok id
  removeRelation_string : ∀ id, removeRelation (.string id) = .ok id

/-! ## The codec -/

/-- The dict of one operator; the frozen containers in it are thawed. -/
def serializeOperator : Operator → Except PatchErr Value
  | .addObject obj => .ok (.dict false
      [("type".toList, .string "add_object".toList),
        ("identity".toList, .dict false obj.identity.keywords),
        ("structure".toList, obj.structure.thaw)])
  | .addRelation relation => .ok (.dict false
      [("type".toList, .string "add_relation".toList),
        ("identity".toList, .dict false relation.identity.keywords),
        ("participants".toList, .list false (relation.participants.map .string)),
        ("relation_type".toList, .string relation.relationType),
        ("structure".toList, relation.structure.thaw)])
  | .removeObject objectId => .ok (.dict false
      [("type".toList, .string "remove_object".toList), ("object_id".toList, .string objectId)])
  | .removeRelation relationId => .ok (.dict false
      [("type".toList, .string "remove_relation".toList),
        ("relation_id".toList, .string relationId)])
  | .other type => .error (.typeError ("Unknown operator type: ".toList ++ type))

/-- `serialize_operators`. -/
def serializeOperators (operators : List Operator) : Except PatchErr (List Value) :=
  operators.mapM serializeOperator

variable (core : CoreClasses)

/-- The operator of one dict. -/
def deserializeOperator (item : Value) : Except PatchErr Operator := do
  let opType ← item.index "type"
  if opType.isText "add_object" then
    let keywords ← (← item.index "identity").keywordsOf
    let identity ← core.objectIdentity keywords
    let obj ← core.knowledgeObject identity (item.getD "structure" (.dict false []))
    return .addObject obj
  else if opType.isText "add_relation" then
    let keywords ← (← item.index "identity").keywordsOf
    let identity ← core.objectIdentity keywords
    let participants ← item.index "participants"
    let relationType ← item.index "relation_type"
    let relation ← core.canonicalRelation identity participants relationType
      (item.getD "structure" (.dict false []))
    return .addRelation relation
  else if opType.isText "remove_object" then
    let objectId ← core.removeObject (← item.index "object_id")
    return .removeObject objectId
  else if opType.isText "remove_relation" then
    let relationId ← core.removeRelation (← item.index "relation_id")
    return .removeRelation relationId
  else .error (.unknownOperatorType opType)

/-- `deserialize_operators`. -/
def deserializeOperators (data : List Value) : Except PatchErr (List Operator) :=
  data.mapM (deserializeOperator core)

/-- A patch, written and read back. -/
def roundTrip (operators : List Operator) : Except PatchErr (List Operator) := do
  let items ← serializeOperators operators
  let text ← (Value.list false items).dumps
  match ← Value.ofText text with
  | .list _ data => deserializeOperators core data
  | _ => .error (.typeError "not a list".toList)

end PatchCodec

end CksRuntime
