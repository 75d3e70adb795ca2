import CksRuntime.Lib.Effect
import CksRuntime.Storage.PatchCodec
import Mathlib.Data.List.Nodup

/-!
# A patch that is written and read back

A thawed value is one that `json.dumps` takes (`toJson_thaw`), no key of it is lost
(`collapse_content`) and what is read back has the same content (`content_ofJson`). So the dict of
an operator (`wire`) is written, is loaded as it was and is read back as an equal operator, one
lemma for each step by cases on the operator; `roundTrip_equal` is the result for a patch.
-/

set_option autoImplicit false

namespace CksRuntime

open JsonText

namespace PatchCodec

namespace Value

/-! ## Values -/

mutual

/-- Thawed, a value can be written. -/
theorem toJson_thaw : ∀ v : Value, v.thaw.toJson = .ok v.content
  | .atom _ => rfl
  | .string _ => rfl
  | .list _ xs => by
    rw [thaw, toJson, toElements_thaw xs]
    rfl
  | .dict _ items => by
    rw [thaw, toJson, toMembers_thaw items]
    rfl

theorem toElements_thaw : ∀ xs : List Value, toElements (thawElements xs) = .ok (contentElements xs)
  | [] => rfl
  | x :: xs => by
    rw [thawElements, toElements, toJson_thaw x, toElements_thaw xs]
    rfl

theorem toMembers_thaw : ∀ items : List (Text × Value),
    toMembers (thawItems items) = .ok (contentItems items)
  | [] => rfl
  | (k, x) :: items => by
    rw [thawItems, toMembers, toJson_thaw x, toMembers_thaw items]
    rfl

end

mutual

theorem content_ofJson (frozen : Bool) : ∀ x : Json, (ofJson frozen x).content = x
  | .atom _ => rfl
  | .string _ => rfl
  | .array xs => congrArg Json.array (content_ofElements frozen xs)
  | .object ms => congrArg Json.object (content_ofMembers frozen ms)

theorem content_ofElements (frozen : Bool) : ∀ xs : List Json,
    contentElements (ofElements frozen xs) = xs
  | [] => rfl
  | x :: xs => by
    rw [ofElements, contentElements, content_ofJson frozen x, content_ofElements frozen xs]

theorem content_ofMembers (frozen : Bool) : ∀ ms : List (Text × Json),
    contentItems (ofMembers frozen ms) = ms
  | [] => rfl
  | (k, x) :: ms => by
    rw [ofMembers, contentItems, content_ofJson frozen x, content_ofMembers frozen ms]

end

theorem keys_contentItems (items : List (Text × Value)) :
    (contentItems items).map Prod.fst = items.map Prod.fst := by
  induction items with
  | nil => rfl
  | cons m items ih => rw [contentItems, List.map_cons, List.map_cons, ih]

mutual

/-- No member is lost. -/
theorem collapse_content : ∀ v : Value, v.DistinctKeys → collapse v.content = v.content
  | .atom _, _ => rfl
  | .string _, _ => rfl
  | .list _ xs, h => congrArg Json.array (collapse_contentElements xs h)
  | .dict _ items, h => by
    have hnodup : ((contentItems items).map Prod.fst).Nodup := (keys_contentItems items).symm ▸ h.1
    exact collapse_object hnodup (collapse_contentItems items h.2)

theorem collapse_contentElements : ∀ xs : List Value, DistinctKeysElements xs →
    collapseElements (contentElements xs) = contentElements xs
  | [], _ => rfl
  | x :: xs, h => by
    rw [contentElements, collapseElements, collapse_content x h.1, collapse_contentElements xs h.2]

theorem collapse_contentItems : ∀ items : List (Text × Value), DistinctKeysItems items →
    collapseMembers (contentItems items) = contentItems items
  | [], _ => rfl
  | (k, x) :: items, h => by
    rw [contentItems, collapseMembers, collapse_content x h.1, collapse_contentItems items h.2]

end

theorem toMembers_cons {k : Text} {v : Value} {x : Json} {items : List (Text × Value)}
    {ms : List (Text × Json)} (hx : v.toJson = .ok x) (hms : toMembers items = .ok ms) :
    toMembers ((k, v) :: items) = .ok ((k, x) :: ms) := by
  rw [toMembers, hx, hms]
  rfl

theorem toJson_dict {items : List (Text × Value)} {ms : List (Text × Json)}
    (h : toMembers items = .ok ms) : (dict false items).toJson = .ok (.object ms) := by
  rw [toJson, h]
  rfl

theorem toJson_list {frozen : Bool} {elements : List Value} {xs : List Json}
    (h : toElements elements = .ok xs) : (list frozen elements).toJson = .ok (.array xs) := by
  rw [toJson, h]
  rfl

theorem toElements_strings (ids : List Text) :
    toElements (ids.map .string) = .ok (ids.map .string) := by
  induction ids with
  | nil => rfl
  | cons id ids ih =>
    rw [List.map_cons, toElements, ih]
    rfl

end Value

/-! ## Operators -/

/-- Equality up to the containers of a structure. -/
inductive Operator.Equal : Operator → Operator → Prop
  | addObject {obj obj' : KnowledgeObject} : obj'.identity = obj.identity →
      obj'.structure.content = obj.structure.content → Equal (.addObject obj) (.addObject obj')
  | addRelation {relation relation' : CanonicalRelation} : relation'.identity = relation.identity →
      relation'.participants = relation.participants →
      relation'.relationType = relation.relationType →
      relation'.structure.content = relation.structure.content →
      Equal (.addRelation relation) (.addRelation relation')
  | removeObject (objectId : Text) : Equal (.removeObject objectId) (.removeObject objectId)
  | removeRelation (relationId : Text) :
      Equal (.removeRelation relationId) (.removeRelation relationId)

variable (core : CoreClasses)

/-- An operator of one of the four classes, its parts made by the constructors. -/
def Operator.IsCore : Operator → Prop
  | .addObject obj => core.Identity obj.identity ∧ core.Object obj ∧ obj.structure.DistinctKeys
  | .addRelation relation => core.Identity relation.identity ∧ core.Relation relation ∧
      relation.structure.DistinctKeys
  | .removeObject _ | .removeRelation _ => True
  | .other _ => False

/-- The dict of an identity. -/
def identityJson (identity : ObjectIdentity) : Json :=
  .object [("id".toList, .string identity.id), ("type".toList, .string identity.type),
    ("name".toList, (Value.ofOption identity.name).content)]

theorem toJson_identity (identity : ObjectIdentity) :
    (Value.dict false identity.keywords).toJson = .ok (identityJson identity) := by
  unfold ObjectIdentity.keywords identityJson
  cases identity.name <;> rfl

theorem collapse_identity (identity : ObjectIdentity) :
    collapse (identityJson identity) = identityJson identity := by
  refine collapse_object (by simp only [List.map_cons, List.map_nil]; decide) ?_
  cases identity.name <;> rfl

theorem ofJson_identity (identity : ObjectIdentity) :
    Value.ofJson false (identityJson identity) = .dict false identity.keywords := by
  unfold ObjectIdentity.keywords identityJson
  cases identity.name <;> rfl

theorem ofElements_strings (ids : List Text) :
    Value.ofElements false (ids.map .string) = ids.map .string := by
  induction ids with
  | nil => rfl
  | cons id ids ih => rw [List.map_cons, List.map_cons, Value.ofElements, ih, Value.ofJson]

/-- The dict of an operator, as it is written. -/
def wire : Operator → Json
  | .addObject obj => .object
      [("type".toList, .string "add_object".toList), ("identity".toList, identityJson obj.identity),
        ("structure".toList, obj.structure.content)]
  | .addRelation relation => .object
      [("type".toList, .string "add_relation".toList),
        ("identity".toList, identityJson relation.identity),
        ("participants".toList, .array (relation.participants.map .string)),
        ("relation_type".toList, .string relation.relationType),
        ("structure".toList, relation.structure.content)]
  | .removeObject objectId => .object
      [("type".toList, .string "remove_object".toList), ("object_id".toList, .string objectId)]
  | .removeRelation relationId => .object
      [("type".toList, .string "remove_relation".toList),
        ("relation_id".toList, .string relationId)]
  | .other _ => .atom .null

section

variable {core} {op : Operator} (h : op.IsCore core)
include h

theorem serializeOperator_wire :
    ∃ item, serializeOperator op = .ok item ∧ item.toJson = .ok (wire op) := by
  cases op with
  | addObject obj =>
    refine ⟨_, rfl, Value.toJson_dict ?_⟩
    exact Value.toMembers_cons rfl (Value.toMembers_cons (toJson_identity _)
      (Value.toMembers_cons (Value.toJson_thaw _) rfl))
  | addRelation relation =>
    refine ⟨_, rfl, Value.toJson_dict ?_⟩
    have hparticipants : (Value.list false (relation.participants.map .string)).toJson =
        .ok (.array (relation.participants.map .string)) :=
      Value.toJson_list (Value.toElements_strings relation.participants)
    exact Value.toMembers_cons rfl (Value.toMembers_cons (toJson_identity _)
      (Value.toMembers_cons hparticipants (Value.toMembers_cons rfl
        (Value.toMembers_cons (Value.toJson_thaw _) rfl))))
  | removeObject objectId => exact ⟨_, rfl, rfl⟩
  | removeRelation relationId => exact ⟨_, rfl, rfl⟩
  | other type => exact absurd h not_false

theorem collapse_wire : collapse (wire op) = wire op := by
  cases op with
  | addObject obj =>
    refine collapse_object (by simp only [List.map_cons, List.map_nil]; decide) ?_
    simp only [collapseMembers, collapse_identity, Value.collapse_content _ h.2.2]
    rfl
  | addRelation relation =>
    refine collapse_object (by simp only [List.map_cons, List.map_nil]; decide) ?_
    simp only [collapseMembers, collapse_identity, collapse, collapseElements_strings,
      Value.collapse_content _ h.2.2]
  | removeObject objectId =>
    exact collapse_object (by simp only [List.map_cons, List.map_nil]; decide) rfl
  | removeRelation relationId =>
    exact collapse_object (by simp only [List.map_cons, List.map_nil]; decide) rfl
  | other type => rfl

omit h

theorem deserialize_addObject (obj : KnowledgeObject) :
    deserializeOperator core (Value.ofJson false (wire (.addObject obj))) = (do
      let identity ← core.objectIdentity obj.identity.keywords
      let obj' ← core.knowledgeObject identity (Value.ofJson false obj.structure.content)
      return .addObject obj') := by
  have hitem : Value.ofJson false (wire (.addObject obj)) =
      .dict false [("type".toList, .string "add_object".toList),
        ("identity".toList, .dict false obj.identity.keywords),
        ("structure".toList, Value.ofJson false obj.structure.content)] := by
    rw [← ofJson_identity]
    rfl
  rw [hitem]
  rfl

theorem deserialize_addRelation (relation : CanonicalRelation) :
    deserializeOperator core (Value.ofJson false (wire (.addRelation relation))) = (do
      let identity ← core.objectIdentity relation.identity.keywords
      let relation' ← core.canonicalRelation identity
        (.list false (relation.participants.map .string)) (.string relation.relationType)
        (Value.ofJson false relation.structure.content)
      return .addRelation relation') := by
  have hitem : Value.ofJson false (wire (.addRelation relation)) =
      .dict false [("type".toList, .string "add_relation".toList),
        ("identity".toList, .dict false relation.identity.keywords),
        ("participants".toList, .list false (relation.participants.map .string)),
        ("relation_type".toList, .string relation.relationType),
        ("structure".toList, Value.ofJson false relation.structure.content)] := by
    rw [← ofJson_identity, ← ofElements_strings]
    rfl
  rw [hitem]
  rfl

include h

/-- What is read back is made of the same parts. -/
theorem deserializeOperator_wire :
    ∃ op', deserializeOperator core (Value.ofJson false (wire op)) = .ok op' ∧ op.Equal op' := by
  cases op with
  | addObject obj =>
    obtain ⟨hidentity, hobj, -⟩ := h
    obtain ⟨frozen, hfrozen, hbuilt⟩ := core.knowledgeObject_parts hobj
      (Value.content_ofJson false obj.structure.content)
    refine ⟨.addObject { obj with «structure» := frozen }, ?_, .addObject rfl hfrozen⟩
    rw [deserialize_addObject, core.objectIdentity_keywords hidentity]
    exact congrArg (Except.map Operator.addObject) hbuilt
  | addRelation relation =>
    obtain ⟨hidentity, hrelation, -⟩ := h
    have hparticipants : (Value.list false (relation.participants.map .string)).content =
        .array (relation.participants.map .string) := by
      rw [← ofElements_strings, Value.content, Value.content_ofElements]
    obtain ⟨frozen, hfrozen, hbuilt⟩ := core.canonicalRelation_parts hrelation hparticipants
      (Value.content_ofJson false relation.structure.content)
    refine ⟨.addRelation { relation with «structure» := frozen }, ?_,
      .addRelation rfl rfl rfl hfrozen⟩
    rw [deserialize_addRelation, core.objectIdentity_keywords hidentity]
    exact congrArg (Except.map Operator.addRelation) hbuilt
  | removeObject objectId =>
    refine ⟨_, ?_, .removeObject objectId⟩
    exact congrArg (Except.map Operator.removeObject) (core.removeObject_string objectId)
  | removeRelation relationId =>
    refine ⟨_, ?_, .removeRelation relationId⟩
    exact congrArg (Except.map Operator.removeRelation) (core.removeRelation_string relationId)
  | other type => exact absurd h not_false

end

/-! ## Patches -/

section

variable {core} {operators : List Operator} (h : ∀ op ∈ operators, op.IsCore core)
include h

theorem serializeOperators_wire :
    ∃ items, serializeOperators operators = .ok items ∧
      Value.toElements items = .ok (operators.map wire) := by
  induction operators with
  | nil => exact ⟨[], rfl, rfl⟩
  | cons op operators ih =>
    obtain ⟨item, hitem, hwire⟩ := serializeOperator_wire (h op List.mem_cons_self)
    obtain ⟨items, hitems, hwires⟩ := ih fun op hop => h op (List.mem_cons_of_mem _ hop)
    rw [serializeOperators] at hitems ⊢
    refine ⟨item :: items, ?_, ?_⟩
    · rw [List.mapM_cons, hitem, hitems]
      rfl
    · rw [Value.toElements, hwire, hwires]
      rfl

theorem collapseElements_wire : collapseElements (operators.map wire) = operators.map wire := by
  induction operators with
  | nil => rfl
  | cons op operators ih =>
    rw [List.map_cons, collapseElements, collapse_wire (h op List.mem_cons_self),
      ih fun op hop => h op (List.mem_cons_of_mem _ hop)]

theorem deserializeOperators_wire :
    ∃ operators', deserializeOperators core (Value.ofElements false (operators.map wire)) =
      .ok operators' ∧ List.Forall₂ Operator.Equal operators operators' := by
  induction operators with
  | nil => exact ⟨[], rfl, .nil⟩
  | cons op operators ih =>
    obtain ⟨op', hop', hequal⟩ := deserializeOperator_wire (h op List.mem_cons_self)
    obtain ⟨operators', hoperators', hequals⟩ := ih fun op hop => h op (List.mem_cons_of_mem _ hop)
    rw [deserializeOperators] at hoperators' ⊢
    refine ⟨op' :: operators', ?_, .cons hequal hequals⟩
    rw [List.map_cons, Value.ofElements, List.mapM_cons, hop', hoperators']
    rfl

theorem roundTrip_isCore :
    ∃ operators', roundTrip core operators = .ok operators' ∧
      List.Forall₂ Operator.Equal operators operators' := by
  obtain ⟨items, hitems, hwire⟩ := serializeOperators_wire h
  obtain ⟨operators', hoperators', hequal⟩ := deserializeOperators_wire h
  have hdumps : (Value.list false items).dumps = .ok (write (.array (operators.map wire))) := by
    rw [Value.dumps, Value.toJson_list hwire]
    rfl
  have hloads : Value.ofText (write (.array (operators.map wire))) =
      .ok (.list false (Value.ofElements false (operators.map wire))) := by
    rw [Value.ofText, loads_write, collapse, collapseElements_wire h]
    rfl
  refine ⟨operators', ?_, hequal⟩
  rw [roundTrip, hitems]
  change (Value.list false items).dumps >>= _ = _
  rw [hdumps]
  change Value.ofText _ >>= _ = _
  rw [hloads]
  exact hoperators'

end

/-- Only an operator of another class is not serialized. -/
theorem serializeOperator_eq_error {op : Operator} {e : PatchErr}
    (h : serializeOperator op = .error e) :
    ∃ type, op = .other type ∧ e = .typeError ("Unknown operator type: ".toList ++ type) := by
  cases op with
  | other type =>
    cases h
    exact ⟨type, rfl, rfl⟩
  | addObject | addRelation | removeObject | removeRelation => cases h

/-- A patch of the four operators is read back as one that is equal up to the containers of the
structures, and a patch with any other operator is not written. -/
theorem roundTrip_equal (operators : List Operator) :
    ((∀ op ∈ operators, op.IsCore core) → ∃ operators', roundTrip core operators = .ok operators' ∧
      List.Forall₂ Operator.Equal operators operators') ∧
    ((∃ type, Operator.other type ∈ operators) → ∃ type, Operator.other type ∈ operators ∧
      serializeOperators operators =
        .error (.typeError ("Unknown operator type: ".toList ++ type))) := by
  refine ⟨fun h => roundTrip_isCore h, ?_⟩
  rintro ⟨type, hmem⟩
  cases hrun : serializeOperators operators with
  | ok items =>
    obtain ⟨item, hitem⟩ := Effect.ok_of_mapM_eq_ok hrun _ hmem
    cases hitem
  | error e =>
    obtain ⟨op, hop, herror⟩ := Effect.error_of_mapM_eq_error hrun
    obtain ⟨type', rfl, rfl⟩ := serializeOperator_eq_error herror
    exact ⟨type', hop, rfl⟩

/-! ## A nested structure -/

/-- The strings of a JSON array. -/
def stringsOf (xs : List Json) : List Text :=
  xs.filterMap fun
    | .string s => some s
    | _ => none

theorem stringsOf_map (ids : List Text) : stringsOf (ids.map .string) = ids := by
  induction ids with
  | nil => rfl
  | cons id ids ih => exact congrArg (id :: ·) ih

/-- Classes that check the types of their fields and freeze the containers. -/
def demoClasses : CoreClasses where
  Identity _ := True
  Object _ := True
  Relation _ := True
  objectIdentity keywords :=
    match keywords.lookup "id".toList, keywords.lookup "type".toList,
      keywords.lookup "name".toList with
    | some (.string id), some (.string type), some (.string name) => .ok ⟨id, type, some name⟩
    | some (.string id), some (.string type), some (.atom .null) => .ok ⟨id, type, none⟩
    | _, _, _ => .error .other
  knowledgeObject identity v := .ok ⟨identity, .ofJson true v.content⟩
  canonicalRelation identity participants relationType v :=
    match participants.content, relationType with
    | .array xs, .string type => .ok ⟨identity, stringsOf xs, type, .ofJson true v.content⟩
    | _, _ => .error .other
  removeObject v :=
    match v with
    | .string id => .ok id
    | _ => .error .other
  removeRelation v :=
    match v with
    | .string id => .ok id
    | _ => .error .other
  objectIdentity_keywords := by
    intro identity _
    cases identity with
    | mk id type name => cases name <;> rfl
  knowledgeObject_parts := by
    intro obj v _ hv
    exact ⟨_, (Value.content_ofJson true v.content).trans hv, rfl⟩
  canonicalRelation_parts := by
    intro relation participants v _ hparticipants hv
    refine ⟨.ofJson true v.content, (Value.content_ofJson true v.content).trans hv, ?_⟩
    rw [hparticipants]
    dsimp only
    rw [stringsOf_map]
  removeObject_string _ := rfl
  removeRelation_string _ := rfl

/-- A dict in a tuple in a dict, all frozen. -/
def nested : Value :=
  .dict true [("log".toList, .list true [.dict true [("from".toList, .string "a".toList)]])]

theorem roundTrip_nested :
    (∃ operators', roundTrip demoClasses [.addObject ⟨⟨['x'], ['T'], none⟩, nested⟩] =
        .ok operators' ∧
      List.Forall₂ Operator.Equal [.addObject ⟨⟨['x'], ['T'], none⟩, nested⟩] operators') ∧
    ∃ type, Operator.other type ∈ [Operator.removeObject ['x'], .other "Rename".toList] ∧
      serializeOperators [.removeObject ['x'], .other "Rename".toList] =
        .error (.typeError ("Unknown operator type: ".toList ++ type)) := by
  have hdistinct : nested.DistinctKeys :=
    ⟨List.nodup_singleton _, ⟨⟨List.nodup_singleton _, trivial, trivial⟩, trivial⟩, trivial⟩
  refine ⟨(roundTrip_equal demoClasses _).1 ?_,
    (roundTrip_equal demoClasses _).2 ⟨"Rename".toList, ?_⟩⟩
  · rintro op hop
    rw [List.mem_singleton.1 hop]
    exact ⟨trivial, trivial, hdistinct⟩
  · exact List.mem_cons_of_mem _ (List.mem_singleton_self _)

end PatchCodec

end CksRuntime
