import CksRuntime.Adapters.CksCore

/-!
# What an automatic resolution keeps

The synthesized object is the base with the logged operations applied, so a field is what the last
operation on it says (`synthesizeMerge_ok`, `fieldTold_iff`) and the identity is the base's. The log
says what it should where it has the whole way from the base to each side (`mergesTo_of_complete`),
which is what `field_diff` logs of the changes of fields that a side's commits make
(`complete_commitsLog`).
-/

set_option autoImplicit false

namespace CksRuntime

variable {K : Core}

namespace ObjectView

variable {view : ObjectView K}

/-! ## The synthesized object -/

/-- A field after the logged operations, the last one on it deciding. -/
def loggedValue (view : ObjectView K) (ops : List (FieldOperation K.Value)) (key : String)
    (old : Option K.Value) : Option K.Value :=
  ops.foldl (fun value op => if op.fieldKey = some key then view.written op else value) old

theorem applyOp_ok {objectId : String} {fields fields' : Dict K.Value}
    {op : FieldOperation K.Value} (h : view.applyOp objectId fields op = .ok fields')
    (key : String) : fields'.lookup key = view.loggedValue [op] key (fields.lookup key) := by
  unfold applyOp at h
  split at h
  · cases h
  · split at h
    · rename_i key' htype hkey
      obtain rfl := Except.ok.inj h
      by_cases heq : key' = key
      · subst heq
        simp [loggedValue, written, htype, hkey]
      · rw [Finmap.lookup_erase_ne (Ne.symm heq)]
        simp [loggedValue, hkey, heq]
    · rename_i key' htype hkey
      obtain rfl := Except.ok.inj h
      by_cases heq : key' = key
      · subst heq
        simp [loggedValue, written, htype, hkey]
      · rw [Finmap.lookup_insert_of_ne _ (Ne.symm heq)]
        simp [loggedValue, hkey, heq]
    · rename_i hkey
      obtain rfl := Except.ok.inj h
      simp [loggedValue, hkey]
    · cases h
    · cases h

theorem loggedValue_append (ops ops' : List (FieldOperation K.Value)) (key : String)
    (old : Option K.Value) : view.loggedValue (ops ++ ops') key old =
      view.loggedValue ops' key (view.loggedValue ops key old) := List.foldl_append

theorem applyOps_ok {objectId : String} {ops : List (FieldOperation K.Value)}
    {fields fields' : Dict K.Value} (h : ops.foldlM (view.applyOp objectId) fields = .ok fields')
    (key : String) : fields'.lookup key = view.loggedValue ops key (fields.lookup key) := by
  induction ops generalizing fields with
  | nil =>
    obtain rfl := Except.ok.inj h
    rfl
  | cons op ops ih =>
    rw [List.foldlM_cons] at h
    cases hop : view.applyOp objectId fields op with
    | error e =>
      rw [hop] at h
      cases h
    | ok fields₁ =>
      rw [hop] at h
      rw [ih h, applyOp_ok hop, ← loggedValue_append]
      rfl

theorem synthesizeMerge_ok (hview : view.Lawful) {base obj : K.Obj}
    {ops : List (FieldOperation K.Value)} (h : view.synthesizeMerge base ops = .ok obj) :
    view.identity obj = view.identity base ∧ ∀ key, (view.fields obj).lookup key =
      view.loggedValue ops key ((view.fields base).lookup key) := by
  unfold synthesizeMerge at h
  cases hops : ops.foldlM (view.applyOp (view.identity base).id) (view.fields base) with
  | error e =>
    rw [hops] at h
    cases h
  | ok fields =>
    rw [hops] at h
    obtain ⟨hid, hfields⟩ := hview.updateObject base fields obj h
    exact ⟨hid, fun key => by rw [hfields, applyOps_ok hops]⟩

/-! ## Automatic resolutions -/

/-- What a loop of insertions leaves under a key was there before or was inserted in a round. -/
theorem lookup_foldl {α β : Type} {step : Dict β → α → Dict β} {P : α → String → β → Prop}
    (hstep : ∀ acc x k b, (step acc x).lookup k = some b → acc.lookup k = some b ∨ P x k b)
    (l : List α) (acc : Dict β) {k : String} {b : β} (h : (l.foldl step acc).lookup k = some b) :
    acc.lookup k = some b ∨ ∃ x ∈ l, P x k b := by
  induction l generalizing acc with
  | nil => exact .inl h
  | cons x l ih =>
    obtain hacc | ⟨y, hy, hP⟩ := ih _ h
    · obtain hacc | hP := hstep acc x k b hacc
      · exact .inl hacc
      · exact .inr ⟨x, List.mem_cons_self, hP⟩
    · exact .inr ⟨y, List.mem_cons_of_mem _ hy, hP⟩

theorem autoResolution_eq_some {synthesize : K.Obj → List (FieldOperation K.Value) →
      Except (Err K.Obj) K.Obj} {aOps bOps : List (FieldOperation K.Value)}
    {conflict : MergeConflict K.Obj} {r : Resolution K.Obj}
    (h : autoResolution synthesize aOps bOps conflict = some r) : ∃ base obj,
      conflict.base = some base ∧ synthesize base (aOps ++ bOps) = .ok obj ∧ r = .object obj ∧
        ∀ op ∈ aOps, ∀ op' ∈ bOps, op.fieldKey ≠ op'.fieldKey := by
  unfold autoResolution at h
  split at h
  · cases h
  · rename_i base hbase
    split at h
    · cases h
    · split at h
      · cases h
      · split at h
        · cases h
        · rename_i hdisjoint
          split at h
          · rename_i obj hobj
            refine ⟨base, obj, hbase, hobj, (Option.some.inj h).symm, fun op hop op' hop' hsame => ?_⟩
            exact hdisjoint (List.any_eq_true.2 ⟨op, hop, List.any_eq_true.2 ⟨op', hop', by simpa⟩⟩)
          · cases h

/-- What is resolved automatically is synthesized from the base by both sides' logged operations,
which have no field in common. -/
theorem fieldLevelResolutions_ok {storage : Storage K} {conflicts : List (MergeConflict K.Obj)}
    {session source : Session K} {baseVersionId : Option String} {objectId : String}
    {r : Resolution K.Obj} (hsynth : K.synthesizeMerge = some view.synthesizeMerge)
    (h : (fieldLevelResolutions storage conflicts session source baseVersionId).lookup objectId =
      some r) : ∃ versionId ∈ baseVersionId, ∃ conflict ∈ conflicts, conflict.objectId = objectId ∧
      ∃ base obj, conflict.base = some base ∧ r = .object obj ∧
        ∃ aVersions ∈ versionsSince versionId session, ∃ bVersions ∈ versionsSince versionId source,
          view.synthesizeMerge base (opsSince storage session objectId aVersions ++
            opsSince storage source objectId bVersions) = .ok obj ∧
          ∀ op ∈ opsSince storage session objectId aVersions,
            ∀ op' ∈ opsSince storage source objectId bVersions, op.fieldKey ≠ op'.fieldKey := by
  unfold fieldLevelResolutions at h
  rw [hsynth] at h
  split at h
  · rename_i versionId synthesize heq
    obtain rfl := Option.some.inj heq
    split at h
    · split at h
      · rename_i aVersions bVersions ha hb
        -- an id is in the result of the loop because some conflict put it there
        obtain hnone | ⟨conflict, hmem, hid, hauto⟩ := lookup_foldl
          (P := fun c k r => c.objectId = k ∧ autoResolution view.synthesizeMerge
            (opsSince storage session c.objectId aVersions)
            (opsSince storage source c.objectId bVersions) c = some r) (by
            intro acc c k r hr
            split at hr
            · rename_i r' hauto
              by_cases hk : c.objectId = k
              · subst hk
                rw [Finmap.lookup_insert] at hr
                exact .inr ⟨rfl, hauto.trans hr⟩
              · rw [Finmap.lookup_insert_of_ne _ (Ne.symm hk)] at hr
                exact .inl hr
            · exact .inl hr) conflicts ∅ h
        · simp at hnone
        · obtain ⟨base, obj, hbase, hobj, hr, hdisjoint⟩ := autoResolution_eq_some hauto
          subst hid
          exact ⟨versionId, rfl, conflict, hmem, rfl, base, obj, hbase, hr, aVersions, ha,
            bVersions, hb, hobj, hdisjoint⟩
      · simp at h
    · simp at h
  · simp at h

/-! ## What the log has to say -/

/-- The log has the whole way from the base's fields to a side's. -/
def Complete (view : ObjectView K) (ops : List (FieldOperation K.Value))
    (base side : Dict K.Value) : Prop :=
  ∀ key, view.loggedValue ops key (base.lookup key) = side.lookup key

theorem Complete.append {ops ops' : List (FieldOperation K.Value)} {f g h : Dict K.Value}
    (hops : view.Complete ops f g) (hops' : view.Complete ops' g h) :
    view.Complete (ops ++ ops') f h := by
  intro key
  rw [loggedValue_append, hops, hops']

theorem loggedValue_of_forall {ops : List (FieldOperation K.Value)} {key : String}
    (h : ∀ op ∈ ops, op.fieldKey ≠ some key) (old : Option K.Value) :
    view.loggedValue ops key old = old := by
  induction ops with
  | nil => rfl
  | cons op ops ih =>
    have hop := h op List.mem_cons_self
    rw [loggedValue, List.foldl_cons, if_neg hop]
    exact ih fun op' hop' => h op' (List.mem_cons_of_mem _ hop')

/-- Logs that have the whole way to each side, without a field in common, tell what both changed. -/
theorem mergesTo_of_complete {aOps bOps : List (FieldOperation K.Value)}
    {base a b : Dict K.Value} (ha : view.Complete aOps base a) (hb : view.Complete bOps base b)
    (hdisjoint : ∀ op ∈ aOps, ∀ op' ∈ bOps, op.fieldKey ≠ op'.fieldKey) (key : String) :
    MergesTo (base.lookup key) (a.lookup key) (b.lookup key)
      (view.loggedValue (aOps ++ bOps) key (base.lookup key)) := by
  rw [loggedValue_append]
  by_cases hkey : ∃ op ∈ bOps, op.fieldKey = some key
  · obtain ⟨op, hop, hkey⟩ := hkey
    have hnot : ∀ op' ∈ aOps, op'.fieldKey ≠ some key := fun op' hop' heq =>
      hdisjoint op' hop' op hop (heq.trans hkey.symm)
    have hsame : a.lookup key = base.lookup key := by
      rw [← ha key, loggedValue_of_forall hnot]
    rw [loggedValue_of_forall hnot, hb key]
    exact ⟨fun h => h.trans hsame.symm, fun _ => rfl⟩
  · have hnot : ∀ op ∈ bOps, op.fieldKey ≠ some key := by simpa using hkey
    have hsame : b.lookup key = base.lookup key := by
      rw [← hb key, loggedValue_of_forall hnot]
    rw [loggedValue_of_forall hnot, ha key]
    exact ⟨fun _ => rfl, fun h => h.trans hsame.symm⟩

theorem fieldOp_key {objectId : String} {source target : Dict K.Value} {key : String}
    {op : FieldOperation K.Value} (h : view.fieldOp objectId source target key = some op) :
    op.fieldKey = some key := by
  unfold fieldOp at h
  cases htarget : target.lookup key with
  | none =>
    simp only [htarget, Option.some.injEq] at h
    rw [← h]
  | some value =>
    simp only [htarget, Option.ite_none_left_eq_some, Option.some.injEq] at h
    rw [← h.2]

section
variable {f : String → Option (FieldOperation K.Value)}
  (hf : ∀ key op, f key = some op → op.fieldKey = some key)
include hf

theorem fieldKey_ne_of_notMem {keys : List String} {key : String} (h : key ∉ keys) :
    ∀ op ∈ keys.filterMap f, op.fieldKey ≠ some key := by
  intro op hop heq
  obtain ⟨key', hmem, hop⟩ := List.mem_filterMap.1 hop
  have hkey := (hf key' op hop).symm.trans heq
  exact h (Option.some.inj hkey ▸ hmem)

/-- Of one edit for each key, that of the key decides. -/
theorem loggedValue_filterMap {keys : List String} (hnd : keys.Nodup) {key : String}
    (hkey : key ∈ keys) (old : Option K.Value) :
    view.loggedValue (keys.filterMap f) key old = view.loggedValue (f key).toList key old := by
  induction keys generalizing old with
  | nil => simp at hkey
  | cons x keys ih =>
    obtain ⟨hx, hnd⟩ := List.nodup_cons.1 hnd
    have hcons : (x :: keys).filterMap f = [x].filterMap f ++ keys.filterMap f := by
      rw [← List.filterMap_append]
      rfl
    rw [hcons, loggedValue_append]
    obtain rfl | hkey := List.mem_cons.1 hkey
    · rw [loggedValue_of_forall (fieldKey_ne_of_notMem hf hx)]
      cases hkey : f key <;> simp [hkey]
    · have hne : key ∉ [x] := by
        intro hmem
        exact hx (List.mem_singleton.1 hmem ▸ hkey)
      rw [loggedValue_of_forall (fieldKey_ne_of_notMem hf hne)]
      exact ih hnd hkey old

end

/-- `field_diff` logs the whole way from one object's fields to another's. -/
theorem complete_fieldOps (objectId : String) (source target : Dict K.Value) :
    view.Complete (view.fieldOps objectId source target) source target := by
  intro key
  have hkeys : ∀ key, key ∈ (source.keys ∪ target.keys).sort (· ≤ ·) ↔
      key ∈ source ∨ key ∈ target := by simp [Finmap.mem_keys]
  by_cases hkey : key ∈ source ∨ key ∈ target
  · rw [fieldOps, loggedValue_filterMap (fun _ _ => fieldOp_key) (Finset.sort_nodup _ _)
      ((hkeys key).2 hkey)]
    unfold fieldOp
    cases htarget : target.lookup key with
    | none => simp [loggedValue, written]
    | some value =>
      by_cases hsource : source.lookup key = some value
      · simp [loggedValue, hsource]
      · simp [loggedValue, written, hsource]
  · have hnot : ∀ op ∈ view.fieldOps objectId source target, op.fieldKey ≠ some key :=
      fieldKey_ne_of_notMem (fun _ _ => fieldOp_key) fun hmem => hkey ((hkeys key).1 hmem)
    rw [not_or] at hkey
    rw [loggedValue_of_forall hnot, Finmap.lookup_eq_none.2 hkey.1, Finmap.lookup_eq_none.2 hkey.2]

/-- What the commits log that take an object's fields through `states`. -/
def commitsLog (view : ObjectView K) (objectId : String) :
    Dict K.Value → List (Dict K.Value) → List (FieldOperation K.Value)
  | _, [] => []
  | fields, fields' :: states =>
    view.fieldOps objectId fields fields' ++ commitsLog view objectId fields' states

/-- However many commits a side has made, the log has the whole way. -/
theorem complete_commitsLog (objectId : String) (states : List (Dict K.Value)) :
    ∀ fields, view.Complete (view.commitsLog objectId fields states) fields
      (states.getLastD fields) := by
  induction states with
  | nil => exact fun fields key => rfl
  | cons fields' states ih =>
    intro fields
    rw [List.getLastD_cons]
    exact (complete_fieldOps objectId fields fields').append (ih fields')

/-! ## The merge -/

theorem mergesTo_base {α : Type} {base a b : α} :
    MergesTo base a b base ↔ (a = base ↔ b = base) := by
  constructor
  · intro ⟨hb, ha⟩
    exact ⟨fun h => (ha h).symm, fun h => (hb h).symm⟩
  · intro h
    exact ⟨fun hb => (h.2 hb).symm, fun ha => (h.1 ha).symm⟩

/-! ### The rows of the log -/

theorem drop_idxOf {ids before after : List String} {baseVersionId : String}
    (h : ids = before ++ baseVersionId :: after) (hnot : baseVersionId ∉ before) :
    ids.drop (ids.idxOf baseVersionId + 1) = after := by
  subst h
  rw [List.idxOf_append_of_notMem hnot, List.idxOf_cons_self, Nat.add_zero]
  simp

/-- `versions_since` gives the versions after the base. -/
theorem mem_versionsSince {s : Session K} {baseVersionId : String} {versions : List String}
    (h : versionsSince baseVersionId s = some versions) (versionId : String) :
    versionId ∈ versions ↔ AfterBase s baseVersionId versionId := by
  unfold versionsSince at h
  dsimp only at h
  split at h
  · rename_i hmem
    obtain rfl := Option.some.inj h
    constructor
    · intro hv
      obtain ⟨before, after, hids, hnot⟩ := List.eq_append_cons_of_mem hmem
      rw [drop_idxOf hids hnot] at hv
      exact .inl ⟨before, after, hids, hnot, hv⟩
    · rintro (⟨before, after, hids, hnot, hv⟩ | ⟨hnot, -⟩)
      · rwa [drop_idxOf hids hnot]
      · exact absurd hmem hnot
  · rename_i hnot
    split at h
    · rename_i hparent
      obtain rfl := Option.some.inj h
      constructor
      · exact fun hv => .inr ⟨hnot, hparent, hv⟩
      · rintro (⟨before, after, hids, -, -⟩ | ⟨-, -, hv⟩)
        · exact absurd (hids ▸ List.mem_append_right _ List.mem_cons_self) hnot
        · exact hv
    · cases h

section

variable {storage : Storage K} {s : Session K} {baseVersionId objectId key : String}
  {versions : List String}

/-- A row that `opsSince` takes. -/
def taken (s : Session K) (objectId : String) (versions : List String)
    (row : LoggedOperation K) : Bool :=
  row.sessionId == s.sessionId && row.operation.objectId == objectId &&
    row.operation.versionId.any (· ∈ versions)

theorem opsSince_eq : opsSince storage s objectId versions =
    (storage.operationLog.filter (taken s objectId versions)).map (·.operation) := by
  rw [opsSince, Storage.listOperations, List.filter_map, List.filter_filter]
  refine congrArg (List.map _) (List.filter_congr fun row _ => ?_)
  unfold taken
  cases hv : row.operation.versionId <;> simp [hv, Bool.and_comm]

theorem edits_iff (h : versionsSince baseVersionId s = some versions) {row : LoggedOperation K} :
    Edits s baseVersionId objectId key row ↔
      taken s objectId versions row = true ∧ row.operation.fieldKey = some key := by
  simp only [taken, Bool.and_eq_true, beq_iff_eq, Option.any_eq_true, decide_eq_true_eq,
    mem_versionsSince h]
  constructor
  · intro ⟨hsession, hobject, hfield, hversion⟩
    exact ⟨⟨⟨hsession, hobject⟩, hversion⟩, hfield⟩
  · intro ⟨⟨⟨hsession, hobject⟩, hversion⟩, hfield⟩
    exact ⟨hsession, hobject, hfield, hversion⟩

/-- The last row decides what the operations leave of the field. -/
theorem LastEdit.logged (h : versionsSince baseVersionId s = some versions)
    {value : Option K.Value} (hlast : view.LastEdit storage s baseVersionId objectId key value) :
    (∀ old, view.loggedValue (opsSince storage s objectId versions) key old = value) ∧
      ∃ op ∈ opsSince storage s objectId versions, op.fieldKey = some key := by
  obtain ⟨before, row, after, hlog, hedits, hafter, hvalue⟩ := hlast
  obtain ⟨htaken, hkey⟩ := (edits_iff h).1 hedits
  have hops : opsSince storage s objectId versions =
      (before.filter (taken s objectId versions)).map (·.operation) ++
        row.operation :: (after.filter (taken s objectId versions)).map (·.operation) := by
    rw [opsSince_eq, hlog, List.filter_append, List.filter_cons_of_pos htaken, List.map_append,
      List.map_cons]
  refine ⟨fun old => ?_, row.operation, by rw [hops]; simp, hkey⟩
  have hnot : ∀ op ∈ (after.filter (taken s objectId versions)).map (·.operation),
      op.fieldKey ≠ some key := by
    intro op hop heq
    obtain ⟨row', hrow', rfl⟩ := List.mem_map.1 hop
    obtain ⟨hmem, htaken'⟩ := List.mem_filter.1 hrow'
    exact hafter row' hmem ((edits_iff h).2 ⟨htaken', heq⟩)
  have hone : view.loggedValue [row.operation] key
      (view.loggedValue ((before.filter (taken s objectId versions)).map (·.operation)) key old) =
        value := by
    rw [← hvalue]
    exact if_pos hkey
  rw [hops, loggedValue_append, ← List.singleton_append, loggedValue_append, hone,
    loggedValue_of_forall hnot]

/-- Of a list that has such an entry there is a last one. -/
theorem exists_last {α : Type} {p : α → Prop} {l : List α} (h : ∃ x ∈ l, p x) :
    ∃ before x after, l = before ++ x :: after ∧ p x ∧ ∀ y ∈ after, ¬p y := by
  induction l with
  | nil => simp at h
  | cons x l ih =>
    by_cases hrest : ∃ y ∈ l, p y
    · obtain ⟨before, y, after, rfl, hy, hafter⟩ := ih hrest
      exact ⟨x :: before, y, after, rfl, hy, hafter⟩
    · have hx : p x := by simpa [hrest] using h
      exact ⟨[], x, l, rfl, hx, fun y hy hp => hrest ⟨y, hy, hp⟩⟩

theorem exists_lastEdit (view : ObjectView K) (storage : Storage K) (objectId key : String)
    (h : versionsSince baseVersionId s = some versions) :
    (∃ value, view.LastEdit storage s baseVersionId objectId key value) ∨
      (∀ row ∈ storage.operationLog, ¬Edits s baseVersionId objectId key row) ∧
        ∀ op ∈ opsSince storage s objectId versions, op.fieldKey ≠ some key := by
  by_cases hex : ∃ row ∈ storage.operationLog, Edits s baseVersionId objectId key row
  · obtain ⟨before, row, after, hlog, hedits, hafter⟩ := exists_last hex
    exact .inl ⟨_, before, row, after, hlog, hedits, hafter, rfl⟩
  · refine .inr ⟨fun row hrow hedits => hex ⟨row, hrow, hedits⟩, fun op hop heq => hex ?_⟩
    rw [opsSince_eq] at hop
    obtain ⟨row, hrow, rfl⟩ := List.mem_map.1 hop
    obtain ⟨hmem, htaken⟩ := List.mem_filter.1 hrow
    exact ⟨row, hmem, (edits_iff h).2 ⟨htaken, heq⟩⟩

theorem LastEdit.mem {value : Option K.Value}
    (h : view.LastEdit storage s baseVersionId objectId key value) :
    ∃ row ∈ storage.operationLog, Edits s baseVersionId objectId key row := by
  obtain ⟨before, row, after, hlog, hedits, -⟩ := h
  exact ⟨row, by rw [hlog]; simp, hedits⟩

end

/-- The operations of both sides, with no field in common, leave of a field what it should be
exactly where the log tells. -/
theorem fieldTold_iff {storage : Storage K} {session source : Session K}
    {baseVersionId objectId key : String} {aVersions bVersions : List String}
    (ha : versionsSince baseVersionId session = some aVersions)
    (hb : versionsSince baseVersionId source = some bVersions)
    (hdisjoint : ∀ op ∈ opsSince storage session objectId aVersions,
      ∀ op' ∈ opsSince storage source objectId bVersions, op.fieldKey ≠ op'.fieldKey)
    {base a b : Option K.Value} :
    MergesTo base a b (view.loggedValue (opsSince storage session objectId aVersions ++
        opsSince storage source objectId bVersions) key base) ↔
      view.FieldTold storage session source baseVersionId objectId key base a b := by
  rw [loggedValue_append, FieldTold]
  obtain ⟨value, hlast⟩ | ⟨hrows, hnot⟩ := exists_lastEdit view storage objectId key ha
  · -- the target's log has the field, so the source's has not
    obtain ⟨hlogged, op, hop, hkey⟩ := hlast.logged ha
    have hnot : ∀ op' ∈ opsSince storage source objectId bVersions, op'.fieldKey ≠ some key :=
      fun op' hop' heq => hdisjoint op hop op' hop' (hkey.trans heq.symm)
    rw [hlogged, loggedValue_of_forall hnot]
    constructor
    · intro hmerges
      refine ⟨fun value' hvalue' => ?_, fun hnone => ?_⟩
      · rcases hvalue' with hl | hl
        · rwa [← (hl.logged ha).1 base, hlogged]
        · obtain ⟨-, op', hop', hkey'⟩ := hl.logged hb
          exact absurd hkey' (hnot op' hop')
      · obtain ⟨row, hrow, hedits⟩ := hlast.mem
        exact absurd hedits (hnone row hrow).1
    · exact fun htold => htold.1 value (.inl hlast)
  · rw [loggedValue_of_forall hnot]
    obtain ⟨value, hlast⟩ | ⟨hrows', hnot'⟩ := exists_lastEdit view storage objectId key hb
    · obtain ⟨hlogged, -⟩ := hlast.logged hb
      rw [hlogged]
      constructor
      · intro hmerges
        refine ⟨fun value' hvalue' => ?_, fun hnone => ?_⟩
        · rcases hvalue' with hl | hl
          · obtain ⟨row, hrow, hedits⟩ := hl.mem
            exact absurd hedits (hrows row hrow)
          · rwa [← (hl.logged hb).1 base, hlogged]
        · obtain ⟨row, hrow, hedits⟩ := hlast.mem
          exact absurd hedits (hnone row hrow).2
      · exact fun htold => htold.1 value (.inr hlast)
    · rw [loggedValue_of_forall hnot', mergesTo_base]
      constructor
      · intro hsame
        refine ⟨fun value hvalue => ?_, fun _ => hsame⟩
        rcases hvalue with hl | hl
        · obtain ⟨row, hrow, hedits⟩ := hl.mem
          exact absurd hedits (hrows row hrow)
        · obtain ⟨row, hrow, hedits⟩ := hl.mem
          exact absurd hedits (hrows' row hrow)
      · exact fun htold => htold.2 fun row hrow => ⟨hrows row hrow, hrows' row hrow⟩

/-! ### The resolution -/

/-- The resolution that was found is what the second merge is given. -/
theorem lookup_mergeResolutions {auto : Dict (Resolution K.Obj)}
    {resolutions : Option (Dict (Resolution K.Obj))} {objectId : String} {r : Resolution K.Obj}
    (h : auto.lookup objectId = some r) (hexplicit : objectId ∉ resolutions.getD ∅) :
    (mergeResolutions auto resolutions).lookup objectId = some r := by
  rw [mergeResolutions, Finmap.lookup_union_right hexplicit, h]

/-- An object with the base's identity and the fields the log says of it carries both sides where
the log tells what they changed. -/
theorem carries_iff {base objA objB obj : K.Obj} {ops : List (FieldOperation K.Value)}
    (hident : view.identity obj = view.identity base)
    (hfields : ∀ key, (view.fields obj).lookup key =
      view.loggedValue ops key ((view.fields base).lookup key)) :
    view.Carries base objA objB obj ↔
      IdentityAlike (view.identity base) (view.identity objA) (view.identity objB) ∧
        ∀ key, MergesTo ((view.fields base).lookup key) ((view.fields objA).lookup key)
          ((view.fields objB).lookup key)
          (view.loggedValue ops key ((view.fields base).lookup key)) := by
  constructor
  · intro h
    refine ⟨⟨?_, ?_, ?_⟩, fun key => ?_⟩
    · exact mergesTo_base.1 (hident ▸ h.id)
    · exact mergesTo_base.1 (hident ▸ h.type)
    · exact mergesTo_base.1 (hident ▸ h.name)
    · rw [← hfields]
      exact h.fields key
  · intro ⟨⟨hid, htype, hname⟩, hkeys⟩
    refine ⟨?_, ?_, ?_, fun key => ?_⟩
    · rw [hident]
      exact mergesTo_base.2 hid
    · rw [hident]
      exact mergesTo_base.2 htype
    · rw [hident]
      exact mergesTo_base.2 hname
    · rw [hfields]
      exact hkeys key

/-- A merge that completes after a conflict has the object it was resolved to. -/
theorem get_of_threeWay (hlaw : K.ConflictLaw) {m : MergeArgs K} {storage : Storage K}
    {source session : Session K} {operationId : String} {base merged : K.Structure}
    {versionId : String} {conflicts : List (MergeConflict K.Obj)} {conflict : MergeConflict K.Obj}
    {obj : K.Obj} (hbase : m.resolveBase source session = .ok (base, some versionId))
    (hconflict : K.merge base session.knowledgeStructure source.knowledgeStructure m.resolutions =
      .error (.mergeConflict conflicts)) (hmem : conflict ∈ conflicts)
    (hauto : (fieldLevelResolutions storage conflicts session source (some versionId)).lookup
      conflict.objectId = some (.object obj))
    (hexplicit : conflict.objectId ∉ m.resolutions.getD ∅)
    (hid : K.identityId obj = conflict.objectId)
    (hdone : m.threeWay operationId storage source session =
      .ok (.completed operationId (.state merged))) :
    K.get merged conflict.objectId = some obj := by
  have hkeys : (fieldLevelResolutions storage conflicts session source
      (some versionId)).keys ≠ ∅ := by
    intro hempty
    have hmem : conflict.objectId ∈ (∅ : Finset String) := by
      rw [← hempty, Finmap.mem_keys]
      exact Finmap.mem_of_lookup_eq_some hauto
    simp at hmem
  simp only [MergeArgs.threeWay, hbase, hconflict, if_neg hkeys] at hdone
  split at hdone
  · rename_i merged' hsecond
    obtain rfl : merged' = merged := by
      simpa [ExecutionResult.completed] using hdone
    exact hlaw.resolved _ _ _ _ _ _ _ hconflict hsecond conflict hmem obj
      (lookup_mergeResolutions hauto hexplicit) hid
  · simp [ExecutionResult.completed, ExecutionResult.failed] at hdone

/-- An automatic resolution keeps what both sides changed if and only if the log tells. -/
theorem auto_merge_carries_iff {view : ObjectView K} (hview : view.Lawful)
    (hlaw : K.ConflictLaw) (hsynth : K.synthesizeMerge = some view.synthesizeMerge)
    {m : MergeArgs K} {storage : Storage K} {source session : Session K} {operationId : String}
    {base merged : K.Structure} {versionId : String} {conflicts : List (MergeConflict K.Obj)}
    {conflict : MergeConflict K.Obj} {r : Resolution K.Obj}
    (hbase : m.resolveBase source session = .ok (base, some versionId))
    (hconflict : K.merge base session.knowledgeStructure source.knowledgeStructure m.resolutions =
      .error (.mergeConflict conflicts)) (hmem : conflict ∈ conflicts)
    (hauto : (fieldLevelResolutions storage conflicts session source (some versionId)).lookup
      conflict.objectId = some r)
    (hexplicit : conflict.objectId ∉ m.resolutions.getD ∅)
    (hdone : m.threeWay operationId storage source session =
      .ok (.completed operationId (.state merged))) :
    view.CarriesBoth base session.knowledgeStructure source.knowledgeStructure merged
        conflict.objectId ↔
      view.LogTells storage session source base versionId conflict.objectId := by
  obtain ⟨_, hversion, conflict', hmem', hid', baseObj, obj, hbaseObj, hr, aVersions, ha, bVersions,
    hb, hobj, hdisjoint⟩ := fieldLevelResolutions_ok hsynth hauto
  obtain rfl := Option.some.inj hversion
  have hget : K.get base conflict.objectId = some baseObj := by
    rw [← hid', ← (hlaw.reported _ _ _ _ _ hconflict conflict' hmem').1, hbaseObj]
  obtain ⟨hident, hfields⟩ := synthesizeMerge_ok hview hobj
  have hid : K.identityId obj = conflict.objectId := by
    rw [hview.identityId, hident, ← hview.identityId, (mem_of_get hget).2]
  -- the second merge has the synthesized object
  have hmerged : K.get merged conflict.objectId = some obj :=
    get_of_threeWay hlaw hbase hconflict hmem (hr ▸ hauto) hexplicit hid hdone
  constructor
  · intro ⟨obj₀, h₀, objA, hA, objB, hB, objM, hM, hcarries⟩
    obtain rfl := Option.some.inj (hget.symm.trans h₀)
    obtain rfl := Option.some.inj (hmerged.symm.trans hM)
    obtain ⟨halike, hkeys⟩ := (carries_iff hident hfields).1 hcarries
    exact ⟨baseObj, hget, objA, hA, objB, hB, halike,
      fun key => (fieldTold_iff ha hb hdisjoint).1 (hkeys key)⟩
  · intro ⟨obj₀, h₀, objA, hA, objB, hB, halike, hkeys⟩
    obtain rfl := Option.some.inj (hget.symm.trans h₀)
    exact ⟨baseObj, hget, objA, hA, objB, hB, obj, hmerged, (carries_iff hident hfields).2
      ⟨halike, fun key => (fieldTold_iff ha hb hdisjoint).2 (hkeys key)⟩⟩

end ObjectView

/-! ## An edit that is not in the log -/

/-- The one object of a structure, `"x"`. -/
structure Card where
  type : String := "Concept"
  name : String := "n"
  fields : Dict Nat
deriving DecidableEq

/-- A Core of one object, whose fields are its structure. -/
@[reducible] def Core.cards : Core where
  Structure := Card
  Operator := Card
  Obj := Card
  Value := Nat
  Hash := Unit
  Arg := Unit
  hashDecEq := inferInstance
  reprHash _ := "()"
  validate _ _ := .ok ⟨true, []⟩
  evolve s ops := .ok (ops.getLastD s)
  diff _ t := .ok [t]
  hash _ := .ok ()
  merge b t s resolutions :=
    if s = b then .ok t
    else if t = b then .ok s
    else
      match resolutions.bind (·.lookup "x") with
      | some (.object c) => .ok c
      | some .branchB => .ok s
      | some _ => .ok t
      | none => .error (.mergeConflict [⟨"x", some b, some t, some s⟩])
  structurallyEquivalent s t := decide (s = t)
  emptyLike s := s
  serialize _ := .ok ()
  explain _ := .ok ()
  explainInference _ _ := .ok ()
  querySubgraph _ _ := .ok ()
  fieldDiff := none
  synthesizeMerge := none
  objects s := [s]
  identityId _ := "x"
  asAddObject _ := none
  asRemoveObject _ := none

/-- The object, as the adapter looks at it. -/
def cardsView : ObjectView Core.cards where
  identity c := ⟨"x", c.type, c.name⟩
  isRelation _ := false
  fields c := c.fields
  null := (0 : Nat)
  valueDecEq := inferInstanceAs (DecidableEq Nat)
  updateObject c fields := .ok { c with fields := fields }

/-- The Core with the adapter's operations. -/
abbrev CardsCore : Core := cardsView.attach

/-- The same view, over the Core with the adapter. -/
def cardView : ObjectView CardsCore where
  identity c := ⟨"x", c.type, c.name⟩
  isRelation _ := false
  fields c := c.fields
  null := (0 : Nat)
  valueDecEq := inferInstanceAs (DecidableEq Nat)
  updateObject c fields := .ok { c with fields := fields }

theorem cards_get (c : Card) : CardsCore.get c "x" = some c := by
  simp [Core.get]

theorem cards_conflictLaw : CardsCore.ConflictLaw where
  reported b t s resolutions conflicts h c hc := by
    simp only at h
    split at h
    · cases h
    · split at h
      · cases h
      · split at h
        · cases h
        · cases h
        · cases h
        · obtain rfl := Err.mergeConflict.inj (Except.error.inj h)
          rw [List.mem_singleton.1 hc]
          exact ⟨(cards_get b).symm, (cards_get t).symm, (cards_get s).symm⟩
  resolved b t s resolutions conflicts resolutions' merged h h' c hc obj hobj _ := by
    simp only at h h'
    split at h
    · cases h
    · split at h
      · cases h
      · rename_i hsource htarget
        have hid : c.objectId = "x" := by
          split at h
          · cases h
          · cases h
          · cases h
          · obtain rfl := Err.mergeConflict.inj (Except.error.inj h)
            rw [List.mem_singleton.1 hc]
        rw [hid] at hobj ⊢
        rw [if_neg hsource, if_neg htarget] at h'
        simp only [Option.bind_some, hobj] at h'
        rw [← Except.ok.inj h']
        exact cards_get obj

theorem cardView_lawful : cardView.Lawful where
  identityId _ := rfl
  updateObject c fields c' h := by
    obtain rfl := Except.ok.inj h
    exact ⟨rfl, rfl⟩

/-- A card with one field. -/
def oneField (key : String) : Card where
  fields := Finmap.insert key 1 ∅

/-- A version of `s` with nothing but its content and its patch. -/
def cardVersion (versionId : String) (content : Option Card) (patch : Option (List Card)) :
    Version CardsCore where
  versionId := versionId
  sessionId := "s"
  transactionId := "t"
  knowledgeStructure := content
  metadata := {}
  stateHash := none
  patch := patch
  createdAt := 0

/-- It has set `"p"` since the base. -/
def cardTarget : Session CardsCore where
  knowledgeStructure := oneField "p"
  sessionId := "s"
  versionHistory := [cardVersion "v0" (some { fields := ∅ }) none,
    cardVersion "v1" none (some [oneField "p"])]

/-- It has set `"q"` since the base. -/
def cardSource (sessionId : String) (versionHistory : List (Version CardsCore)) :
    Session CardsCore where
  knowledgeStructure := oneField "q"
  sessionId := sessionId
  versionHistory := versionHistory
  parentVersionId := some "v0"

/-- A logged write of one field. -/
def setOne (versionId key : String) : FieldOperation Nat where
  objectId := "x"
  opType := .setField
  fieldKey := some key
  fieldValue := some 1
  versionId := some versionId

/-- The log of a write to `p` in `s` and of one to `q` in `b`. -/
def cardStorage : Storage CardsCore where
  operationLog := [⟨"s", setOne "v1" "p"⟩, ⟨"b", setOne "w1" "q"⟩]

/-- A branch with its history, and a snapshot as a peer sends it, without. -/
def cardBranch : Session CardsCore := cardSource "b" [cardVersion "w1" (some (oneField "q")) none]

/-- The session merged from. -/
def cardSnapshot : Session CardsCore := cardSource "s" []

/-- The conflict over it: a `p` on one side, a `q` on the other. -/
def cardConflict : MergeConflict Card :=
  ⟨"x", some { fields := ∅ }, some (oneField "p"), some (oneField "q")⟩

theorem card_resolveBase (source : Session CardsCore) (h : source.parentVersionId = some "v0") :
    MergeArgs.resolveBase { sourceSession := some source } source cardTarget =
      .ok (({ fields := ∅ } : Card), some "v0") := by
  simp only [MergeArgs.resolveBase, h]
  rfl

theorem card_merge : CardsCore.merge ({ fields := ∅ } : Card) (oneField "p") (oneField "q") none =
    .error (.mergeConflict [cardConflict]) := by
  rfl

/-- Both fields, as a merge that drops no write has them. -/
def bothFields : Card where
  fields := Finmap.insert "q" 1 (oneField "p").fields

theorem branch_auto : (fieldLevelResolutions cardStorage [cardConflict] cardTarget cardBranch
    (some "v0")).lookup "x" = some (.object bothFields) := by
  rfl

theorem branch_merges : MergeArgs.threeWay { sourceSession := some cardBranch } "op" cardStorage
    cardBranch cardTarget = .ok (.completed "op" (.state bothFields)) := by
  rfl

theorem snapshot_auto : (fieldLevelResolutions cardStorage [cardConflict] cardTarget cardSnapshot
    (some "v0")).lookup "x" = some (.object (oneField "p")) := by
  rfl

theorem snapshot_merges : MergeArgs.threeWay { sourceSession := some cardSnapshot } "op" cardStorage
    cardSnapshot cardTarget = .ok (.completed "op" (.state (oneField "p"))) := by
  rfl

theorem card_complete (versionId key : String) :
    cardView.Complete [setOne versionId key] ∅ (oneField key).fields := by
  intro key'
  by_cases h : key = key'
  · subst h
    simp [ObjectView.loggedValue, ObjectView.written, setOne, oneField]
  · simp [ObjectView.loggedValue, setOne, oneField, h, Finmap.lookup_insert_of_ne, Ne.symm h]

/-- Both sides' logs are there, and both fields come through. -/
theorem auto_merge_carries_branch : cardView.CarriesBoth ({ fields := ∅ } : Card) (oneField "p")
    (oneField "q") bothFields "x" := by
  apply (ObjectView.auto_merge_carries_iff cardView_lawful cards_conflictLaw rfl
    (card_resolveBase cardBranch rfl) card_merge (List.mem_singleton_self cardConflict) branch_auto
    Finmap.notMem_empty branch_merges).2
  have hsince : versionsSince "v0" cardTarget = some ["v1"] := rfl
  have hsince' : versionsSince "v0" cardBranch = some ["w1"] := rfl
  have hdisjoint : ∀ op ∈ opsSince cardStorage cardTarget "x" ["v1"],
      ∀ op' ∈ opsSince cardStorage cardBranch "x" ["w1"], op.fieldKey ≠ op'.fieldKey := by
    change ∀ op ∈ [setOne "v1" "p"], ∀ op' ∈ [setOne "w1" "q"], op.fieldKey ≠ op'.fieldKey
    simp [setOne]
  have htold := fun key => (ObjectView.fieldTold_iff hsince hsince' hdisjoint).1
    (ObjectView.mergesTo_of_complete (card_complete "v1" "p") (card_complete "w1" "q")
      hdisjoint key)
  exact ⟨_, cards_get _, _, cards_get _, _, cards_get _, ⟨Iff.rfl, Iff.rfl, Iff.rfl⟩, htold⟩

/-- The snapshot brings no history, so its edit is dropped without a conflict. -/
theorem snapshot_edit_dropped : ¬∀ (m : MergeArgs CardsCore) (storage : Storage CardsCore)
    (source session : Session CardsCore) (operationId : String) (base merged : Card)
    (versionId : String) (conflicts : List (MergeConflict Card)) (conflict : MergeConflict Card)
    (r : Resolution Card),
    m.resolveBase source session = .ok (base, some versionId) →
    CardsCore.merge base session.knowledgeStructure source.knowledgeStructure m.resolutions =
      .error (.mergeConflict conflicts) → conflict ∈ conflicts →
    (fieldLevelResolutions storage conflicts session source (some versionId)).lookup
      conflict.objectId = some r →
    conflict.objectId ∉ m.resolutions.getD ∅ →
    m.threeWay operationId storage source session =
      .ok (.completed operationId (.state merged)) →
    cardView.CarriesBoth base session.knowledgeStructure source.knowledgeStructure merged
      conflict.objectId := by
  intro hclaim
  obtain ⟨obj, hobj, objA, hA, objB, hB, objM, hM, hcarries⟩ := hclaim _ _ _ _ _ _ _ _ _ _ _
    (card_resolveBase cardSnapshot rfl) card_merge (List.mem_singleton_self cardConflict)
    snapshot_auto Finmap.notMem_empty snapshot_merges
  obtain rfl := Option.some.inj ((cards_get _).symm.trans hobj)
  obtain rfl := Option.some.inj ((cards_get _).symm.trans hA)
  obtain rfl := Option.some.inj ((cards_get _).symm.trans hB)
  obtain rfl := Option.some.inj ((cards_get _).symm.trans hM)
  have hq := (hcarries.fields "q").2 rfl
  cases hq

end CksRuntime
