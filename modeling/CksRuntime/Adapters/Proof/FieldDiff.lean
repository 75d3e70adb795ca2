import CksRuntime.Adapters.Proof.AutoMerge

/-!
# From a difference back to the object

`roundTrips_iff`: the operations that `field_diff` reports for a plain object take the one side's
object to the other's through `synthesize_merge`, exactly when the two have the same type and name:
the identity is not compared, and the update keeps it. Values are taken up to Python's `==`, which
is what `field_diff` compares them with.
-/

set_option autoImplicit false

namespace CksRuntime

variable {K : Core}

namespace ObjectView

variable {view : ObjectView K}

/-- `UpdateObject` takes any fields for an object that is not a relation. -/
def UpdatesObjects (view : ObjectView K) : Prop :=
  ∀ obj fields, view.isRelation obj = false → ∃ obj', view.updateObject obj fields = .ok obj'

/-- The operations of a difference on one object. -/
def opsOn (view : ObjectView K) (source target : K.Structure) (objectId : String) :
    List (FieldOperation K.Value) :=
  (view.fieldDiff source target).filter (·.objectId = objectId)

/-- Applied to the one object they give the other. -/
def RoundTrips (view : ObjectView K) (source target : K.Structure) (objectId : String)
    (obj obj' : K.Obj) : Prop :=
  ∃ merged, view.synthesizeMerge obj (view.opsOn source target objectId) = .ok merged ∧
    view.identity merged = view.identity obj' ∧ view.fields merged = view.fields obj'

/-! ## The operations on one object -/

theorem objectId_of_mem_objectOps {objectId : String} {source target : K.Obj}
    {op : FieldOperation K.Value} (h : op ∈ view.objectOps objectId source target) :
    op.objectId = objectId := by
  unfold objectOps at h
  split at h
  · cases h
  · split at h
    · rcases List.mem_cons.1 h with rfl | h
      · rfl
      · rw [List.mem_singleton.1 h]
    · obtain ⟨key, -, hop⟩ := List.mem_filterMap.1 h
      unfold fieldOp at hop
      cases htarget : (view.fields target).lookup key with
      | none =>
        simp only [htarget, Option.some.injEq] at hop
        rw [← hop]
      | some value =>
        simp only [htarget, Option.ite_none_left_eq_some, Option.some.injEq] at hop
        rw [← hop.2]

/-- Of what is listed key by key, what is listed for one of them. -/
theorem filter_flatMap {α : Type} {f : String → List α} {id : α → String} {key : String} :
    ∀ {keys : List String}, keys.Nodup → key ∈ keys → (∀ k, ∀ a ∈ f k, id a = k) →
      (keys.flatMap f).filter (id · = key) = f key
  | k :: keys, hnd, hmem, hf => by
    obtain ⟨hk, hnd⟩ := List.nodup_cons.1 hnd
    rw [List.flatMap_cons, List.filter_append]
    by_cases heq : k = key
    · subst heq
      have hself : (f k).filter (id · = k) = f k :=
        List.filter_eq_self.2 fun a ha => decide_eq_true (hf k a ha)
      have hrest : (keys.flatMap f).filter (id · = k) = [] := by
        refine List.filter_eq_nil_iff.2 fun a ha hid => hk ?_
        obtain ⟨k', hk', ha'⟩ := List.mem_flatMap.1 ha
        rw [← of_decide_eq_true hid, hf k' a ha']
        exact hk'
      rw [hself, hrest, List.append_nil]
    · have hself : (f k).filter (id · = key) = [] := by
        refine List.filter_eq_nil_iff.2 fun a ha hid => heq ?_
        rw [← of_decide_eq_true hid, hf k a ha]
      rw [hself, List.nil_append]
      exact filter_flatMap hnd ((List.mem_cons.1 hmem).resolve_left (Ne.symm heq)) hf

theorem mem_objectIds (hview : view.Lawful) {s : K.Structure} {objectId : String} {obj : K.Obj}
    (h : K.get s objectId = some obj) : objectId ∈ view.objectIds s := by
  obtain ⟨hmem, hid⟩ := mem_of_get h
  rw [objectIds, List.mem_toFinset, List.mem_map]
  exact ⟨obj, hmem, (hview.identityId obj).symm.trans hid⟩

theorem opsOn_eq (hview : view.Lawful) {s t : K.Structure} {objectId : String} {obj obj' : K.Obj}
    (hs : K.get s objectId = some obj) (ht : K.get t objectId = some obj') :
    view.opsOn s t objectId = view.objectOps objectId obj obj' := by
  have hsource := mem_objectIds hview hs
  have htarget := mem_objectIds hview ht
  have hnone : ∀ (ids : Finset String) (g : String → FieldOperation K.Value),
      (∀ oid, (g oid).objectId = oid) → objectId ∉ ids →
        ((ids.sort (· ≤ ·)).map g).filter (·.objectId = objectId) = [] := by
    intro ids g hg hnot
    refine List.filter_eq_nil_iff.2 fun op hop hid => hnot ?_
    obtain ⟨oid, hoid, rfl⟩ := List.mem_map.1 hop
    rw [← of_decide_eq_true hid, hg]
    exact (Finset.mem_sort (· ≤ ·)).1 hoid
  have hboth : objectId ∈ (view.objectIds s ∩ view.objectIds t).sort (· ≤ ·) :=
    (Finset.mem_sort (· ≤ ·)).2 (Finset.mem_inter.2 ⟨hsource, htarget⟩)
  rw [opsOn, fieldDiff, List.filter_append, List.filter_append,
    hnone _ _ (fun _ => rfl) (by simp [htarget]), hnone _ _ (fun _ => rfl) (by simp [hsource]),
    List.nil_append, List.nil_append, filter_flatMap (Finset.sort_nodup _ _) hboth]
  · rw [hs, ht]
  · intro oid op hop
    split at hop
    · exact objectId_of_mem_objectOps hop
    · cases hop

/-! ## Applying them -/

/-- The edits of fields are applied without an exception. -/
theorem applyOp_fieldOp {objectId key : String} {source target : Dict K.Value}
    {op : FieldOperation K.Value} (h : view.fieldOp objectId source target key = some op)
    (fields : Dict K.Value) : ∃ fields', view.applyOp objectId fields op = .ok fields' := by
  unfold fieldOp at h
  cases htarget : target.lookup key with
  | none =>
    simp only [htarget, Option.some.injEq] at h
    subst h
    exact ⟨fields.erase key, by simp [applyOp]⟩
  | some value =>
    simp only [htarget, Option.ite_none_left_eq_some, Option.some.injEq] at h
    obtain ⟨-, rfl⟩ := h
    exact ⟨fields.insert key value, by simp [applyOp]⟩

theorem applyOps_fieldOps {objectId : String} {source target : Dict K.Value} :
    ∀ {ops : List (FieldOperation K.Value)},
    (∀ op ∈ ops, op ∈ view.fieldOps objectId source target) →
      ∀ fields, ∃ fields', ops.foldlM (view.applyOp objectId) fields = .ok fields'
  | [], _, fields => ⟨fields, rfl⟩
  | op :: ops, h, fields => by
    obtain ⟨key, -, hop⟩ := List.mem_filterMap.1 (h op List.mem_cons_self)
    obtain ⟨fields₁, h₁⟩ := applyOp_fieldOp hop fields
    obtain ⟨fields', h'⟩ :=
      applyOps_fieldOps (fun op' hop' => h op' (List.mem_cons_of_mem _ hop')) fields₁
    exact ⟨fields', by rw [List.foldlM_cons, h₁]; exact h'⟩

/-- The operations on a plain object have the whole way to the other's fields, and are all edits of
fields. -/
theorem objectOps_plain (objectId : String) {obj obj' : K.Obj}
    (hobj : view.isRelation obj = false) (hobj' : view.isRelation obj' = false) :
    view.Complete (view.objectOps objectId obj obj') (view.fields obj) (view.fields obj') ∧
      ∀ op ∈ view.objectOps objectId obj obj',
        op ∈ view.fieldOps objectId (view.fields obj) (view.fields obj') := by
  unfold objectOps
  split
  · rename_i hsame
    rw [hsame]
    exact ⟨fun key => rfl, fun op hop => (List.not_mem_nil hop).elim⟩
  · rw [if_neg (by simp [hobj, hobj'])]
    exact ⟨complete_fieldOps objectId _ _, fun op hop => hop⟩

/-- Whatever the operations are, the identity stays. -/
theorem RoundTrips.identity (hview : view.Lawful) {s t : K.Structure} {objectId : String}
    {obj obj' : K.Obj} (h : view.RoundTrips s t objectId obj obj') :
    view.identity obj = view.identity obj' := by
  obtain ⟨merged, hok, hident, -⟩ := h
  rw [← hident, (synthesizeMerge_ok hview hok).1]

/-- **A difference leads back to the object** it was made from, exactly when the identity is the
same. -/
theorem roundTrips_iff (hview : view.Lawful) (hupdates : view.UpdatesObjects) {s t : K.Structure}
    {objectId : String} {obj obj' : K.Obj} (hs : K.get s objectId = some obj)
    (ht : K.get t objectId = some obj') (hobj : view.isRelation obj = false)
    (hobj' : view.isRelation obj' = false) :
    view.RoundTrips s t objectId obj obj' ↔
      (view.identity obj).type = (view.identity obj').type ∧
        (view.identity obj).name = (view.identity obj').name := by
  obtain ⟨hcomplete, hfields⟩ := objectOps_plain objectId hobj hobj'
  have hid : (view.identity obj).id = objectId :=
    (hview.identityId obj).symm.trans (mem_of_get hs).2
  have hid' : (view.identity obj').id = objectId :=
    (hview.identityId obj').symm.trans (mem_of_get ht).2
  obtain ⟨fields, happlied⟩ := applyOps_fieldOps hfields (view.fields obj)
  obtain ⟨merged, hmerged⟩ := hupdates obj fields hobj
  have hok : view.synthesizeMerge obj (view.opsOn s t objectId) = .ok merged := by
    rw [opsOn_eq hview hs ht, synthesizeMerge, hid, happlied]
    exact hmerged
  obtain ⟨hident, hlookup⟩ := synthesizeMerge_ok hview hok
  rw [opsOn_eq hview hs ht] at hlookup
  have hsame : view.fields merged = view.fields obj' :=
    Finmap.ext_lookup fun key => (hlookup key).trans (hcomplete key)
  constructor
  · intro h
    rw [h.identity hview]
    exact ⟨rfl, rfl⟩
  · intro h
    refine ⟨merged, hok, hident.trans ?_, hsame⟩
    have heta : ∀ i : ObjectIdentity, i = ⟨i.id, i.type, i.name⟩ := fun i => rfl
    rw [heta (view.identity obj), heta (view.identity obj'), h.1, h.2, hid, hid']

end ObjectView

/-! ## Cards -/

theorem cardView_updatesObjects : cardView.UpdatesObjects := fun _ _ _ => ⟨_, rfl⟩

theorem roundTrips_card : cardView.RoundTrips (oneField "p") (oneField "q") "x" (oneField "p")
    (oneField "q") :=
  (ObjectView.roundTrips_iff cardView_lawful cardView_updatesObjects (cards_get _) (cards_get _) rfl
    rfl).2 ⟨rfl, rfl⟩

/-- A card that was given another name is reported as unchanged. -/
theorem renamed_card_lost : ¬∀ s t : Card, cardView.RoundTrips s t "x" s t := by
  intro h
  have hrenamed := h { fields := ∅ } { name := "m", fields := ∅ }
  exact absurd (hrenamed.identity cardView_lawful) (by decide)

end CksRuntime
