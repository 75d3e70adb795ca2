import CksRuntime.Session.Session

/-!
# What is relied on of Core

The laws of the attached Core that results about the Runtime assume, each where it needs it, and
the smallest Cores that have them: a single register, written whole by every operator, whose merge
conflicts when both sides have changed it; and a slot, which holds one object or none.
-/

set_option autoImplicit false

namespace CksRuntime

/-- `evolve(s, diff(s, t)) = t`. -/
def Core.PatchLaw (K : Core) : Prop :=
  ∀ s t patch, K.diff s t = .ok patch → K.evolve s patch = .ok t

/-- The replay filter leaves the patch from `s` to `t` unchanged on `s`. -/
def Core.Replays (K : Core) (s t : K.Structure) : Prop :=
  ∀ patch, K.diff s t = .ok patch → dedupeReplayedAddObjects s patch = patch

/-- The replay filter leaves a patch unchanged on the state it was recorded against. -/
def Core.ReplayLaw (K : Core) : Prop :=
  ∀ s t patch, K.diff s t = .ok patch → dedupeReplayedAddObjects s patch = patch

/-- `structurally_equivalent` is an equivalence relation. -/
def Core.EquivalenceLaw (K : Core) : Prop :=
  Equivalence fun s t => K.structurallyEquivalent s t = true

/-- A structure holds one object under each id. -/
def Core.IdentityLaw (K : Core) : Prop := ∀ s, ((K.objects s).map K.identityId).Nodup

theorem mem_of_get {K : Core} {s : K.Structure} {objectId : String} {obj : K.Obj}
    (h : K.get s objectId = some obj) : obj ∈ K.objects s ∧ K.identityId obj = objectId := by
  exact ⟨List.mem_of_find?_eq_some h, by simpa using List.find?_some h⟩

theorem get_of_mem {K : Core} (hids : K.IdentityLaw) {s : K.Structure} {obj : K.Obj}
    (h : obj ∈ K.objects s) : K.get s (K.identityId obj) = some obj := by
  cases hget : K.get s (K.identityId obj) with
  | none => simpa using List.find?_eq_none.1 hget obj h
  | some other =>
    obtain ⟨hmem, hid⟩ := mem_of_get hget
    rw [List.inj_on_of_nodup_map (hids s) hmem h hid]

/-- `diff` reports a change of an object as its removal and the addition of the new one. Relations
may be reported by other operators. -/
structure Core.DiffLaw (K : Core) (isRelation : K.Obj → Bool) : Prop where
  added : ∀ s t patch, K.diff s t = .ok patch → ∀ objectId obj, K.get t objectId = some obj →
    isRelation obj = false → K.get s objectId ≠ some obj →
    ∃ op ∈ patch, ∃ o, K.asAddObject op = some o ∧ K.identityId o = objectId
  removed : ∀ s t patch, K.diff s t = .ok patch → ∀ objectId obj, K.get s objectId = some obj →
    isRelation obj = false → K.get t objectId ≠ some obj →
    ∃ op ∈ patch, K.asAddObject op = none ∧ K.asRemoveObject op = some objectId
  only_removed : ∀ s t patch, K.diff s t = .ok patch → ∀ op ∈ patch, ∀ objectId,
    K.asRemoveObject op = some objectId → K.get s objectId ≠ K.get t objectId

/-! ## The register -/

/-- How a conflicting merge of the register is resolved. -/
def registerResolve (t s : Nat) : Resolution Nat → Nat
  | .branchA => t
  | .branchB => s
  | .absent => 0
  | .object v => v

/-- A number that a patch replaces. -/
@[reducible] def Core.register : Core where
  Structure := Nat
  Operator := Nat
  Obj := Nat
  Value := Unit
  Hash := Nat
  Arg := Unit
  hashDecEq := inferInstance
  reprHash h := toString h
  validate _ _ := .ok ⟨true, []⟩
  evolve s ops := .ok (ops.getLastD s)
  diff _ t := .ok [t]
  hash s := .ok s
  merge b t s resolutions :=
    if s = b then .ok t
    else if t = b then .ok s
    else if t = s then .ok t
    else
      match resolutions.bind (·.lookup "register") with
      | some r => .ok (registerResolve t s r)
      | none => .error (.mergeConflict [⟨"register", some b, some t, some s⟩])
  structurallyEquivalent s t := decide (s = t)
  emptyLike _ := 0
  serialize _ := .ok ()
  explain _ := .ok ()
  explainInference _ _ := .ok ()
  querySubgraph _ _ := .ok ()
  fieldDiff := none
  synthesizeMerge := none
  objects s := [s]
  identityId _ := "register"
  asAddObject _ := none
  asRemoveObject _ := none

theorem register_patchLaw : Core.register.PatchLaw := by
  intro s t patch h
  cases h
  rfl

theorem register_replayLaw : Core.register.ReplayLaw := by
  intro s t patch h
  cases h
  rfl

theorem register_equivalenceLaw : Core.register.EquivalenceLaw where
  refl s := by simp
  symm h := by simpa [eq_comm] using h
  trans h h' := by simp_all

/-! ## The slot -/

/-- What a patch does to a slot. -/
inductive SlotOperator
  | add (obj : String)
  | remove
deriving DecidableEq

/-- An operator on a slot, which holds one object or none. -/
def slotStep (s : Option String) : SlotOperator → Except (Err String) (Option String)
  | .add obj => if s.isSome then .error (.valueError "Object 'x' already exists.") else .ok (some obj)
  | .remove => if s.isSome then .ok none else .error (.keyError "x")

/-- Out with the one, in with the other. -/
def slotDiff (s t : Option String) : List SlotOperator :=
  if s = t then [] else (if s.isSome then [.remove] else []) ++ (t.map SlotOperator.add).toList

/-- A slot for one object: what is in it has to be removed before another is added. -/
@[reducible] def Core.slot : Core where
  Structure := Option String
  Operator := SlotOperator
  Obj := String
  Value := Unit
  Hash := Unit
  Arg := Unit
  hashDecEq := inferInstance
  reprHash _ := "()"
  validate _ _ := .ok ⟨true, []⟩
  evolve s ops := ops.foldlM slotStep s
  diff s t := .ok (slotDiff s t)
  hash _ := .ok ()
  merge b t s _ := if s = b then .ok t else if t = b then .ok s else .error (.mergeConflict [])
  structurallyEquivalent s t := decide (s = t)
  emptyLike _ := none
  serialize _ := .ok ()
  explain _ := .ok ()
  explainInference _ _ := .ok ()
  querySubgraph _ _ := .ok ()
  fieldDiff := none
  synthesizeMerge := none
  objects s := s.toList
  identityId _ := "x"
  asAddObject
    | .add obj => some obj
    | .remove => none
  asRemoveObject
    | .add _ => none
    | .remove => some "x"

theorem slot_patchLaw : Core.slot.PatchLaw := by
  intro s t patch h
  obtain rfl := Except.ok.inj h
  cases s with
  | none => cases t <;> rfl
  | some a =>
    cases t with
    | none => rfl
    | some b =>
      by_cases hab : a = b
      · subst hab
        simp [slotDiff]
        rfl
      · simp [slotDiff, hab]
        rfl

theorem slot_replayLaw : Core.slot.ReplayLaw := by
  intro s t patch h
  obtain rfl := Except.ok.inj h
  cases s with
  | none => cases t <;> rfl
  | some a =>
    cases t with
    | none => rfl
    | some b =>
      by_cases hab : a = b
      · subst hab
        simp [slotDiff, dedupeReplayedAddObjects]
      · simp [slotDiff, hab, dedupeReplayedAddObjects, dedupeLoop]

theorem slot_identityLaw : Core.slot.IdentityLaw := by
  intro s
  cases s <;> simp

theorem slot_get_some {s : Option String} {objectId obj : String}
    (h : Core.slot.get s objectId = some obj) : objectId = "x" ∧ s = some obj := by
  cases s with
  | none => cases h
  | some a =>
    simp only [Core.get, Option.toList_some, List.find?_singleton] at h
    split at h
    · rename_i hx
      exact ⟨(of_decide_eq_true hx).symm, h⟩
    · cases h

theorem slot_diffLaw : Core.slot.DiffLaw (fun _ => false) where
  added s t patch hdiff objectId obj ht _ hs := by
    obtain rfl := Except.ok.inj hdiff
    obtain ⟨rfl, rfl⟩ := slot_get_some ht
    have hne : s ≠ some obj := by
      rintro rfl
      exact hs ht
    exact ⟨.add obj, by simp [slotDiff, hne], obj, rfl, rfl⟩
  removed s t patch hdiff objectId obj hs _ ht := by
    obtain rfl := Except.ok.inj hdiff
    obtain ⟨rfl, rfl⟩ := slot_get_some hs
    have hne : some obj ≠ t := by
      rintro rfl
      exact ht hs
    exact ⟨.remove, by simp [slotDiff, hne], rfl, rfl⟩
  only_removed s t patch hdiff op hop objectId hid := by
    obtain rfl := Except.ok.inj hdiff
    cases op with
    | add obj => cases hid
    | remove =>
      obtain rfl := Option.some.inj hid
      unfold slotDiff at hop
      split at hop
      · simp at hop
      · rename_i hne
        cases s with
        | none => cases t <;> simp at hop
        | some a =>
          cases t with
          | none => simp [Core.get]
          | some b => simpa [Core.get] using hne

end CksRuntime
