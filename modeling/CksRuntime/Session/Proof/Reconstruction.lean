import CksRuntime.Core.Laws
import CksRuntime.Lib.Chronicle

/-!
# Reconstruction returns what was recorded

A history is a chronicle of the contents its versions were created at (`Records`): each version is
a snapshot of its content, or the patch to it from the content before. A patch is recorded
as far as the replay filter leaves it unchanged on the content it was made against.
`getVersionState_eq`: over such a history, and if Core's patches lead where they were made to,
`get_version_state` never raises and returns the content.
-/

set_option autoImplicit false

namespace CksRuntime

variable {K : Core}

/-- The version `v` was created at the content `s`, after a version created at `prev`. -/
def Records (prev : Option K.Structure) (v : Version K) (s : K.Structure) : Prop :=
  (∀ x ∈ v.stateHash, K.hash s = .ok x) ∧
    (v.knowledgeStructure = some s ∨ v.knowledgeStructure = none ∧
      ∃ t ∈ prev, K.Replays t s ∧ ∃ patch, v.patch = some patch ∧ K.diff t s = .ok patch)

/-- `verify_checkpoint` accepts the content a version was created at. -/
theorem Records.verifyCheckpoint {prev : Option K.Structure} {v : Version K} {s : K.Structure}
    (h : Records prev v s) : verifyCheckpoint v s = .ok () := by
  unfold CksRuntime.verifyCheckpoint
  cases hx : v.stateHash with
  | none => rfl
  | some x => simp [h.1 x hx]

/-- Replaying a delta on the content it was recorded against gives the content it was created at. -/
theorem Records.replayVersion (hp : K.PatchLaw) {t s : K.Structure}
    {v : Version K} (h : Records (some t) v s) (hd : v.knowledgeStructure = none) :
    replayVersion t v = .ok s := by
  obtain hs | ⟨-, t', ht, hreplays, patch, hpatch, hdiff⟩ := h.2
  · rw [hs] at hd
    cases hd
  · cases ht
    unfold CksRuntime.replayVersion
    simp only [hpatch, hreplays patch hdiff, hp t s patch hdiff, bind, Except.bind,
      h.verifyCheckpoint]
    rfl

/-! ## The nearest snapshot -/

theorem snapshotAt_eq_some {history : List (Version K)} {i : Nat} {v : Version K}
    {s : K.Structure} :
    snapshotAt history i = some (v, s) ↔ history[i]? = some v ∧ v.knowledgeStructure = some s := by
  unfold snapshotAt
  cases history[i]? with
  | none => simp
  | some w =>
    cases hk : w.knowledgeStructure with
    | none =>
      simp only [Option.bind_some, hk, Option.map_none, reduceCtorEq, Option.some.injEq, false_iff]
      rintro ⟨rfl, hv⟩
      rw [hk] at hv
      cases hv
    | some t =>
      simp only [Option.bind_some, hk, Option.map_some, Option.some.injEq, Prod.mk.injEq]
      constructor
      · rintro ⟨rfl, rfl⟩
        exact ⟨rfl, hk⟩
      · rintro ⟨rfl, hv⟩
        exact ⟨rfl, Option.some.inj (hk.symm.trans hv)⟩

theorem snapshotAt_eq_none {history : List (Version K)} {i : Nat} {v : Version K}
    (hv : history[i]? = some v) : snapshotAt history i = none ↔ v.knowledgeStructure = none := by
  simp [snapshotAt, hv]

/-- What `nearestSnapshot` finds is a snapshot, and nothing after it is one. -/
theorem nearestSnapshot_some {history : List (Version K)} {index i : Nat} {v : Version K}
    {s : K.Structure} (h : nearestSnapshot history index = some (i, v, s)) :
    i ≤ index ∧ history[i]? = some v ∧ v.knowledgeStructure = some s ∧
      ∀ j w, i < j → j ≤ index → history[j]? = some w → w.knowledgeStructure = none := by
  induction index with
  | zero =>
    unfold nearestSnapshot at h
    obtain ⟨⟨v', s'⟩, hsnap, he⟩ := Option.map_eq_some_iff.1 h
    cases he
    obtain ⟨hv, hs⟩ := snapshotAt_eq_some.1 hsnap
    exact ⟨le_rfl, hv, hs, fun j w hij hj => by omega⟩
  | succ index ih =>
    unfold nearestSnapshot at h
    split at h
    · rename_i found hsnap
      cases h
      obtain ⟨hv, hs⟩ := snapshotAt_eq_some.1 hsnap
      exact ⟨le_rfl, hv, hs, fun j w hij hj => by omega⟩
    · rename_i hnone
      obtain ⟨hi, hv, hs, hafter⟩ := ih h
      refine ⟨by omega, hv, hs, fun j w hij hj hw => ?_⟩
      rcases Nat.lt_or_ge index j with hlt | hle
      · obtain rfl : j = index + 1 := by omega
        exact (snapshotAt_eq_none hw).1 hnone
      · exact hafter j w hij hle hw

/-- There is a snapshot to find: the first version is one. -/
theorem nearestSnapshot_ne_none {history : List (Version K)} {states : List K.Structure}
    (h : Chronicle Records none history states) (hne : history ≠ []) (index : Nat) :
    nearestSnapshot history index ≠ none := by
  have hfirst : snapshotAt history 0 ≠ none := by
    cases h with
    | nil => exact absurd rfl hne
    | @cons _ v s vs ss hv _ =>
      obtain hs | ⟨-, t, ht, -⟩ := hv.2
      · simp [snapshotAt, hs]
      · cases ht
  induction index with
  | zero => simpa [nearestSnapshot] using hfirst
  | succ index ih =>
    unfold nearestSnapshot
    split
    · simp
    · exact ih

/-! ## Reconstruction -/

theorem stateAt_eq (hp : K.PatchLaw) {history : List (Version K)}
    {states : List K.Structure} (h : Chronicle Records none history states) {index : Nat}
    {s : K.Structure} (hs : states[index]? = some s) (versionId : String) :
    stateAt history versionId index = .ok s := by
  have hlt : index < history.length := by
    rw [h.length_eq]
    exact (List.getElem?_eq_some_iff.1 hs).1
  have hne : history ≠ [] := by
    rintro rfl
    simp at hlt
  cases hn : nearestSnapshot history index with
  | none => exact absurd hn (nearestSnapshot_ne_none h hne index)
  | some found =>
    obtain ⟨i, v, t⟩ := found
    obtain ⟨hi, hv, ht, hafter⟩ := nearestSnapshot_some hn
    -- the chronicle cut after the target, read from the snapshot on
    have hcut := h.take (index + 1)
    have hv' : (history.take (index + 1))[i]? = some v := by
      rw [List.getElem?_take_of_lt (by omega), hv]
    obtain ⟨t', p, ht', hrec, hrest⟩ := hcut.getElem hv'
    obtain rfl : t = t' := by
      obtain hs' | ⟨hs', -⟩ := hrec.2
      · exact Option.some.inj (ht.symm.trans hs')
      · rw [ht] at hs'
        cases hs'
    have hfold := hrest.foldlM_eq replayVersion fun w hw t₁ t₂ hrec' => by
      obtain ⟨j, hj⟩ := List.mem_iff_getElem?.1 hw
      rw [List.getElem?_drop, List.getElem?_take] at hj
      split at hj
      · exact hrec'.replayVersion hp (hafter (i + 1 + j) w (by omega) (by omega) hj)
      · cases hj
    have hlast : ((states.take (index + 1)).drop (i + 1)).getLastD t = s := by
      have hlen := (List.getElem?_eq_some_iff.1 hs).1
      rw [List.getLastD_eq_getLast?, List.getLast?_drop]
      split
      · rename_i hle
        rw [List.length_take] at hle
        obtain rfl : i = index := by omega
        rw [List.getElem?_take_of_lt (by omega), hs] at ht'
        exact (Option.some.inj ht').symm
      · rw [List.getLast?_take]
        simp [hs]
    unfold stateAt
    simp only [hn, hrec.verifyCheckpoint, bind, Except.bind, hfold, hlast]

/-! ## Versions by id -/

theorem versionIndex_eq {history : List (Version K)} (hnd : (history.map (·.versionId)).Nodup)
    {i : Nat} {v : Version K} (hv : history[i]? = some v) :
    versionIndex history v.versionId = some i := by
  unfold versionIndex
  obtain ⟨hi, rfl⟩ := List.getElem?_eq_some_iff.1 hv
  rw [List.findIdx?_eq_some_iff_getElem]
  refine ⟨hi, beq_self_eq_true _, fun j hj => ?_⟩
  simp only [beq_iff_eq]
  intro he
  have hi' : i < (history.map (·.versionId)).length := by rwa [List.length_map]
  have hj' : j < (history.map (·.versionId)).length := by omega
  have heq : (history.map (·.versionId))[j] = (history.map (·.versionId))[i] := by
    rw [List.getElem_map, List.getElem_map]
    exact he
  have hij := hnd.getElem_inj_iff.1 heq
  omega

/-- **Reconstruction is exact**: the version created at the `i`-th content gives it back. -/
theorem getVersionState_eq (hp : K.PatchLaw) {s : Session K}
    {states : List K.Structure} (h : Chronicle Records none s.versionHistory states)
    (hnd : (s.versionHistory.map (·.versionId)).Nodup) {i : Nat} {v : Version K}
    {t : K.Structure} (hv : s.versionHistory[i]? = some v) (ht : states[i]? = some t) :
    s.getVersionState v.versionId = .ok t := by
  unfold Session.getVersionState
  rw [versionIndex_eq hnd hv]
  exact stateAt_eq hp h ht _

/-- The last version gives back the content the history ends at. -/
theorem getVersionState_last (hp : K.PatchLaw) {s : Session K}
    {states : List K.Structure} (h : Chronicle Records none s.versionHistory states)
    (hnd : (s.versionHistory.map (·.versionId)).Nodup)
    (hcur : ∀ t ∈ states.getLast?, t = s.knowledgeStructure) :
    ∀ v ∈ s.versionHistory.getLast?, s.getVersionState v.versionId = .ok s.knowledgeStructure := by
  intro v hv
  rw [List.getLast?_eq_getElem?] at hv
  have hlt := (List.getElem?_eq_some_iff.1 hv).1
  rw [h.length_eq] at hv hlt
  obtain ⟨t, ht⟩ : ∃ t, states[states.length - 1]? = some t :=
    ⟨_, List.getElem?_eq_getElem hlt⟩
  rw [hcur t (by rw [List.getLast?_eq_getElem?]; exact ht)] at ht
  exact getVersionState_eq hp h hnd hv ht

/-! ## Histories only grow -/

theorem nearestSnapshot_append {history more : List (Version K)} {index : Nat}
    (h : index < history.length) :
    nearestSnapshot (history ++ more) index = nearestSnapshot history index := by
  have hsnap : ∀ i, i < history.length →
      snapshotAt (history ++ more) i = snapshotAt history i := by
    intro i hi
    rw [snapshotAt, snapshotAt, List.getElem?_append_left hi]
  induction index with
  | zero => rw [nearestSnapshot, nearestSnapshot, hsnap 0 h]
  | succ index ih => rw [nearestSnapshot, nearestSnapshot, hsnap _ h, ih (by omega)]

theorem stateAt_append {history more : List (Version K)} {index : Nat} (h : index < history.length)
    (versionId : String) :
    stateAt (history ++ more) versionId index = stateAt history versionId index := by
  rw [stateAt, stateAt, nearestSnapshot_append h, List.take_append_of_le_length (by omega)]

/-- A version keeps its state when the history grows. -/
theorem getVersionState_append {s s' : Session K} {more : List (Version K)}
    (h : s'.versionHistory = s.versionHistory ++ more) {versionId : String} {t : K.Structure}
    (hs : s.getVersionState versionId = .ok t) : s'.getVersionState versionId = .ok t := by
  unfold Session.getVersionState at hs ⊢
  cases hi : versionIndex s.versionHistory versionId with
  | none => rw [hi] at hs; cases hs
  | some index =>
    rw [hi] at hs
    have hlt : index < s.versionHistory.length :=
      (List.findIdx?_eq_some_iff_getElem.1 hi).1
    have hi' : versionIndex s'.versionHistory versionId = some index := by
      rw [h, versionIndex, List.findIdx?_append]
      change (versionIndex s.versionHistory versionId).or _ = _
      rw [hi]
      rfl
    rw [hi']
    dsimp only at hs ⊢
    rw [h, stateAt_append hlt, hs]

end CksRuntime
