import CksRuntime.Crdt.Proof.Causality
import CksRuntime.Crdt.Register
import CksRuntime.Lib.MultiValue

/-!
# The register as a multi-value register

By id and clock, `update_pointer` on a bucket is the `write` of a multi-value register
(`clockOf_update`), whichever the backend. So the clocks of a bucket are an antichain, the delivery
of a set of writes converges exactly when the set is settled, and a resolution lasts exactly when
everything it discarded is dominated.
-/

set_option autoImplicit false

namespace CksRuntime.Crdt

open MultiValue

variable {backend : Backend} {bucket : Bucket} {new : Pointer} {x : Text} {c : VersionVector}

namespace Bucket

/-! ## What a bucket holds -/

theorem clockOf_eq_some : bucket.clockOf x = some c ↔
    ∃ p ∈ bucket.pointers, p.objectId = x ∧ p.vectorClock = c := by
  rw [clockOf, Option.map_eq_some_iff]
  constructor
  · rintro ⟨p, hp, rfl⟩
    exact ⟨p, List.mem_of_find?_eq_some hp, by simpa using List.find?_some hp, rfl⟩
  · rintro ⟨p, hp, rfl, rfl⟩
    refine ⟨p, ?_, rfl⟩
    -- one pointer for an id
    have hone : ∀ q ∈ bucket.pointers, q.objectId = p.objectId → q = p := fun q hq he =>
      List.inj_on_of_nodup_map bucket.nodup hq hp he
    obtain ⟨q, hq⟩ : ∃ q, bucket.pointers.find? (·.objectId = p.objectId) = some q := by
      rw [← Option.isSome_iff_exists, List.find?_isSome]
      exact ⟨p, hp, by simp⟩
    rw [hq, hone q (List.mem_of_find?_eq_some hq) (by simpa using List.find?_some hq)]

theorem clockOf_of_mem {p : Pointer} (hp : p ∈ bucket.pointers) :
    bucket.clockOf p.objectId = some p.vectorClock := clockOf_eq_some.2 ⟨p, hp, rfl, rfl⟩

theorem mem_ids : x ∈ bucket.pointers.map (·.objectId) ↔ ∃ c, bucket.clockOf x = some c := by
  rw [List.mem_map]
  constructor
  · rintro ⟨p, hp, rfl⟩
    exact ⟨_, clockOf_of_mem hp⟩
  · rintro ⟨c, hc⟩
    obtain ⟨p, hp, hx, -⟩ := clockOf_eq_some.1 hc
    exact ⟨p, hp, hx⟩

/-- The ids of a bucket are those that have a clock, so a bucket of one clock has one id. -/
theorem ids_of_solo (h : bucket.clockOf = solo x c) : bucket.pointers.map (·.objectId) = [x] := by
  have hmem : ∀ y, y ∈ bucket.pointers.map (·.objectId) ↔ y = x := by
    intro y
    rw [mem_ids, h]
    by_cases hy : y = x
    · subst hy
      exact iff_of_true ⟨c, Function.update_self _ _ _⟩ rfl
    · refine iff_of_false ?_ hy
      rintro ⟨d, hd⟩
      rw [solo, Function.update_of_ne hy] at hd
      cases hd
  exact List.perm_singleton.1 ((List.perm_ext_iff_of_nodup bucket.nodup
    (List.nodup_singleton x)).2 fun y => by rw [hmem, List.mem_singleton])

theorem solo_of_ids (h : bucket.pointers.map (·.objectId) = [x]) :
    ∃ c, bucket.clockOf = solo x c := by
  obtain ⟨c, hc⟩ := mem_ids.1 (h ▸ List.mem_singleton.2 rfl : x ∈ _)
  refine ⟨c, funext fun y => ?_⟩
  by_cases hy : y = x
  · subst hy
    rw [hc, solo, Function.update_self]
  · rw [solo, Function.update_of_ne hy, Option.eq_none_iff_forall_ne_some]
    intro d hd
    exact hy (List.mem_singleton.1 (h ▸ mem_ids.2 ⟨d, hd⟩))

/-! ## What the operations do to it -/

theorem clockOf_delete {ids : List Text} :
    (bucket.delete ids).clockOf x = some c ↔ bucket.clockOf x = some c ∧ x ∉ ids := by
  rw [clockOf_eq_some, clockOf_eq_some]
  simp only [delete, List.mem_filter, decide_eq_true_eq]
  constructor
  · rintro ⟨p, ⟨hp, hnot⟩, rfl, rfl⟩
    exact ⟨⟨p, hp, rfl, rfl⟩, hnot⟩
  · rintro ⟨⟨p, hp, rfl, rfl⟩, hnot⟩
    exact ⟨p, ⟨hp, hnot⟩, rfl, rfl⟩

theorem overwrite_vectorClock (old new : Pointer) :
    (backend.overwrite old new).vectorClock = new.vectorClock := by
  cases backend <;> rfl

theorem clockOf_put (x : Text) : (bucket.put backend new).clockOf x =
    if x = new.objectId then some new.vectorClock else bucket.clockOf x := by
  ext c
  rw [clockOf_eq_some, put]
  split
  -- `new` replaces the pointer that has its id
  · rename_i hin
    obtain ⟨old, hold, hid⟩ := List.mem_map.1 hin
    simp only [List.mem_map, exists_exists_and_eq_and]
    split
    · rename_i hx
      subst hx
      constructor
      · rintro ⟨p, hp, he, rfl⟩
        rw [if_pos (by_contra fun hne => hne (by rwa [if_neg hne] at he)), overwrite_vectorClock]
      · intro hc
        refine ⟨old, hold, ?_⟩
        rw [if_pos hid, overwrite_objectId, overwrite_vectorClock]
        exact ⟨rfl, Option.some.inj hc⟩
    · rename_i hx
      rw [clockOf_eq_some]
      constructor
      · rintro ⟨p, hp, he, rfl⟩
        by_cases hpn : p.objectId = new.objectId
        · rw [if_pos hpn, overwrite_objectId] at he
          exact absurd he.symm hx
        · rw [if_neg hpn] at he ⊢
          exact ⟨p, hp, he, rfl⟩
      · rintro ⟨p, hp, rfl, rfl⟩
        exact ⟨p, hp, by rw [if_neg hx], by rw [if_neg hx]⟩
  -- or it is added at the end
  · rename_i hnot
    simp only [List.mem_append, List.mem_singleton]
    split
    · rename_i hx
      subst hx
      constructor
      · rintro ⟨p, hp | rfl, he, rfl⟩
        · exact absurd (List.mem_map.2 ⟨p, hp, he⟩) hnot
        · rfl
      · exact fun hc => ⟨new, .inr rfl, rfl, Option.some.inj hc⟩
    · rename_i hx
      rw [clockOf_eq_some]
      constructor
      · rintro ⟨p, hp | rfl, rfl, rfl⟩
        · exact ⟨p, hp, rfl, rfl⟩
        · exact absurd rfl hx
      · rintro ⟨p, hp, he, hc⟩
        exact ⟨p, .inl hp, he, hc⟩

end Bucket

/-- The loop returns early when a pointer of another id dominates the write, and else deletes those
of other ids that it does not leave concurrent. -/
theorem toDelete_spec (new : Pointer) : ∀ pointers : List Pointer,
    (∃ p ∈ pointers, p.objectId ≠ new.objectId ∧ new.vectorClock < p.vectorClock) ∧
        toDelete new pointers = none ∨
      (∀ p ∈ pointers, p.objectId ≠ new.objectId → ¬new.vectorClock < p.vectorClock) ∧
        ∃ ids, toDelete new pointers = some ids ∧ ∀ x, x ∈ ids ↔
          ∃ p ∈ pointers, p.objectId = x ∧ x ≠ new.objectId ∧ p.vectorClock ≤ new.vectorClock
  | [] => .inr ⟨fun _ h => absurd h List.not_mem_nil, [], rfl, by simp⟩
  | existing :: rest => by
    by_cases hdom : causalityCheck new.vectorClock existing.vectorClock = .dominated ∧
        existing.objectId ≠ new.objectId
    · refine .inl ⟨⟨existing, List.mem_cons_self, hdom.2, causalityCheck_dominated.1 hdom.1⟩, ?_⟩
      rw [toDelete, if_pos hdom]
    have hfree : existing.objectId ≠ new.objectId → ¬new.vectorClock < existing.vectorClock :=
      fun hne hlt => hdom ⟨causalityCheck_dominated.2 hlt, hne⟩
    rcases toDelete_spec new rest with ⟨⟨p, hp, hne, hlt⟩, hnone⟩ | ⟨hrest, ids, hids, hmem⟩
    · refine .inl ⟨⟨p, List.mem_cons_of_mem _ hp, hne, hlt⟩, ?_⟩
      rw [toDelete, if_neg hdom, hnone]
      split <;> rfl
    · right
      refine ⟨?_, ?_⟩
      · intro p hp hne
        rcases List.mem_cons.1 hp with rfl | hp
        · exact hfree hne
        · exact hrest p hp hne
      · rw [toDelete, if_neg hdom, hids]
        by_cases hdel : causalityCheck new.vectorClock existing.vectorClock ≠ .concurrent ∧
            existing.objectId ≠ new.objectId
        · refine ⟨existing.objectId :: ids, if_pos hdel, fun x => ?_⟩
          have hle := (causalityCheck_ne_concurrent (hfree hdel.2)).1 hdel.1
          rw [List.mem_cons, hmem]
          simp only [List.mem_cons, exists_eq_or_imp]
          refine or_congr ⟨?_, fun h => h.1.symm⟩ Iff.rfl
          rintro rfl
          exact ⟨rfl, hdel.2, hle⟩
        · refine ⟨ids, if_neg hdel, fun x => ?_⟩
          rw [hmem]
          simp only [List.mem_cons, exists_eq_or_imp]
          refine (or_iff_right ?_).symm
          rintro ⟨rfl, hne, hle⟩
          exact hdel ⟨(causalityCheck_ne_concurrent (hfree hne)).2 hle, hne⟩

namespace Bucket

theorem blocked_iff : Blocked bucket.clockOf new.objectId new.vectorClock ↔
    ∃ p ∈ bucket.pointers, p.objectId ≠ new.objectId ∧ new.vectorClock < p.vectorClock := by
  constructor
  · rintro ⟨y, d, hne, hy, hlt⟩
    obtain ⟨p, hp, rfl, rfl⟩ := clockOf_eq_some.1 hy
    exact ⟨p, hp, hne, hlt⟩
  · rintro ⟨p, hp, hne, hlt⟩
    exact ⟨p.objectId, p.vectorClock, hne, clockOf_of_mem hp, hlt⟩

/-- An update that is refused, and one that is applied. -/
theorem update_spec (backend : Backend) (bucket : Bucket) (new : Pointer) :
    Blocked bucket.clockOf new.objectId new.vectorClock ∧
        bucket.update backend new = (false, bucket) ∨
      ¬Blocked bucket.clockOf new.objectId new.vectorClock ∧
        (bucket.update backend new).1 = true ∧
        (bucket.update backend new).2.clockOf =
          write bucket.clockOf new.objectId new.vectorClock := by
  rw [blocked_iff]
  rcases toDelete_spec new bucket.pointers with ⟨hdom, hnone⟩ | ⟨hfree, ids, hids, hmem⟩
  · exact .inl ⟨hdom, by rw [update, hnone]⟩
  · have hb : ¬∃ p ∈ bucket.pointers, p.objectId ≠ new.objectId ∧
        new.vectorClock < p.vectorClock := fun ⟨p, hp, hne, hlt⟩ => hfree p hp hne hlt
    refine .inr ⟨hb, by rw [update, hids], ?_⟩
    rw [← blocked_iff] at hb
    funext x
    rw [update, hids]
    dsimp only
    rw [clockOf_put]
    by_cases hx : x = new.objectId
    · rw [if_pos hx, hx, write_self hb]
    · rw [if_neg hx]
      ext d
      rw [clockOf_delete, write_of_ne hb hx, hmem]
      refine and_congr_right fun hd => not_congr ?_
      obtain ⟨p, hp, rfl, rfl⟩ := clockOf_eq_some.1 hd
      constructor
      · rintro ⟨q, hq, he, -, hle⟩
        have := List.inj_on_of_nodup_map bucket.nodup hq hp he
        exact this ▸ hle
      · exact fun hle => ⟨p, hp, rfl, hx, hle⟩

theorem clockOf_update (backend : Backend) (bucket : Bucket) (new : Pointer) :
    (bucket.update backend new).2.clockOf =
      write bucket.clockOf new.objectId new.vectorClock := by
  rcases update_spec backend bucket new with ⟨hb, h⟩ | ⟨-, -, h⟩
  · rw [h, write_of_blocked hb]
  · exact h

/-- A resolution that succeeds leaves the winner, under the clock it has. -/
theorem resolve_spec (bucket : Bucket) (winner : Text) :
    (bucket.resolve winner).1 = false ∧ (bucket.resolve winner).2 = bucket ∨
      (bucket.resolve winner).1 = true ∧ ∃ c, bucket.clockOf winner = some c ∧
        (bucket.resolve winner).2.clockOf = solo winner c := by
  unfold resolve
  split
  · rename_i hin
    obtain ⟨c, hc⟩ := mem_ids.1 hin
    refine .inr ⟨rfl, c, hc, funext fun x => ?_⟩
    ext d
    rw [clockOf_eq_some]
    simp only [List.mem_filter, decide_eq_true_eq]
    by_cases hx : x = winner
    · subst hx
      rw [solo, Function.update_self, ← hc, clockOf_eq_some]
      constructor
      · rintro ⟨p, hp, h⟩
        exact ⟨p, hp.1, h⟩
      · rintro ⟨p, hp, hid, h⟩
        exact ⟨p, ⟨hp, hid⟩, hid, h⟩
    · rw [solo, Function.update_of_ne hx]
      constructor
      · rintro ⟨p, ⟨-, hw⟩, rfl, -⟩
        exact absurd hw hx
      · rintro ⟨⟩
  · exact .inl ⟨rfl, rfl⟩

theorem concurrent_of_antichain (h : Antichain bucket.clockOf) :
    ∀ p ∈ bucket.pointers, ∀ q ∈ bucket.pointers, p.objectId ≠ q.objectId →
      causalityCheck p.vectorClock q.vectorClock = .concurrent := by
  intro p hp q hq hne
  have hp := clockOf_of_mem hp
  have hq := clockOf_of_mem hq
  exact causalityCheck_concurrent.2 ⟨h hne hp hq, h hne.symm hq hp⟩

end Bucket

/-! ## Calls -/

variable {register : MVRegister} {pointerKey : Text}

theorem updatePointer_apply (backend : Backend) (register : MVRegister) (pointerKey key : Text)
    (new : Pointer) : (updatePointer backend register pointerKey new).2 key =
      if key = pointerKey then ((register pointerKey).update backend new).2 else register key :=
  Function.update_apply _ _ _ _

theorem resolvePointer_apply (register : MVRegister) (pointerKey winner key : Text) :
    (resolvePointer register pointerKey winner).2 key =
      if key = pointerKey then ((register pointerKey).resolve winner).2 else register key :=
  Function.update_apply _ _ _ _

/-- A call on a key leaves every other bucket as it was. -/
theorem run_antichain (backend : Backend) (call : PointerCall)
    (h : ∀ key, Antichain (register key).clockOf) :
    ∀ key, Antichain ((call.run backend register).2 key).clockOf := by
  intro key
  cases call with
  | update pointerKey new =>
    rw [PointerCall.run, updatePointer_apply]
    split
    · rw [Bucket.clockOf_update]
      exact (h pointerKey).write
    · exact h key
  | resolve pointerKey winner =>
    rw [PointerCall.run, resolvePointer_apply]
    split
    · rcases (register pointerKey).resolve_spec winner with ⟨-, hb⟩ | ⟨-, c, -, hb⟩
      · rw [hb]
        exact h pointerKey
      · rw [hb]
        exact antichain_solo
    · exact h key

theorem runCalls_antichain (backend : Backend) (calls : List PointerCall)
    (h : ∀ key, Antichain (register key).clockOf) :
    ∀ key, Antichain (runCalls backend register calls key).clockOf := by
  induction calls generalizing register with
  | nil => exact h
  | cons call calls ih => exact ih (run_antichain backend call h)

theorem updatePointer_of_false (backend : Backend) {new : Pointer}
    (h : (updatePointer backend register pointerKey new).1 = false) :
    (updatePointer backend register pointerKey new).2 = register := by
  funext key
  rw [updatePointer_apply]
  split
  · rename_i hk
    subst hk
    rcases Bucket.update_spec backend (register key) new with ⟨-, hb⟩ | ⟨-, hdone, -⟩
    · rw [hb]
    · exact absurd (h.symm.trans hdone) (by decide)
  · rfl

/-- After any calls the clocks of a bucket are concurrent, and an update that is not applied changes
nothing. -/
theorem pointers_concurrent (backend : Backend) (calls : List PointerCall) (pointerKey : Text) :
    (∀ p ∈ (runCalls backend .empty calls pointerKey).pointers,
      ∀ q ∈ (runCalls backend .empty calls pointerKey).pointers, p.objectId ≠ q.objectId →
        causalityCheck p.vectorClock q.vectorClock = .concurrent) ∧
    ∀ new, (updatePointer backend (runCalls backend .empty calls) pointerKey new).1 = false →
      (updatePointer backend (runCalls backend .empty calls) pointerKey new).2 =
        runCalls backend .empty calls := by
  have hempty : ∀ key, Antichain (MVRegister.empty key).clockOf := fun _ => antichain_empty
  exact ⟨Bucket.concurrent_of_antichain (runCalls_antichain backend calls hempty pointerKey),
    fun _ => updatePointer_of_false backend⟩

/-- A clock, and a write under it. -/
def seen (nodeId : String) (clock : Int) : VersionVector := ⟨Finmap.singleton nodeId clock⟩

/-- A pointer that `n1` wrote. -/
def written (objectId : String) (v : VersionVector) : Pointer := ⟨objectId.toList, v, "n1", 0⟩

theorem pointers_concurrent_stale :
    let register := runCalls .sqlite .empty
      [.update "head".toList (written "a" (seen "n1" 2)),
        .update "head".toList (written "b" (seen "n2" 1))]
    (updatePointer .sqlite register "head".toList (written "c" (seen "n1" 1))).2 = register :=
  (pointers_concurrent .sqlite _ "head".toList).2 _ (by decide)

/-! ## Deliveries -/

theorem convergent_iff (writes : Finset (Text × VersionVector)) :
    Convergent writes ↔ Settled (writes : Set (Text × VersionVector)) := by
  have htop : ∀ w ∈ writes, (∀ v ∈ writes, v.1 ≠ w.1 → causalityCheck w.2 v.2 ≠ .dominated) ↔
      Top (writes : Set (Text × VersionVector)) w := by
    intro w hw
    simp only [Ne, causalityCheck_dominated]
    exact ⟨fun h => ⟨hw, h⟩, fun h => h.2⟩
  have hval : ∀ v w : Text × VersionVector,
      (if v.1 = w.1 then v.2 = w.2 else causalityCheck w.2 v.2 ≠ .equal) ↔
        (v.1 = w.1 → v.2 = w.2) ∧ (v.1 ≠ w.1 → ¬(w.2 ≤ v.2 ∧ v.2 ≤ w.2)) := by
    intro v w
    rw [Ne, causalityCheck_equal]
    split <;> rename_i hid <;> simp [hid]
  constructor
  · exact fun h w hw v hv => (hval v w).1 (h w hw.1 ((htop w hw.1).2 hw) v hv)
  · exact fun h w hw hdom v hv => (hval v w).2 (h w ((htop w hw).1 hdom) v hv)

theorem clockOf_deliver (backend : Backend) (register : MVRegister) (pointerKey : Text)
    (ws : List Pointer) : (deliver backend register pointerKey ws pointerKey).clockOf =
      (ws.map Pointer.write).foldl (fun r w => write r w.1 w.2) (register pointerKey).clockOf := by
  induction ws generalizing register with
  | nil => rfl
  | cons new ws ih =>
    have hstep : ((updatePointer backend register pointerKey new).2 pointerKey).clockOf =
        write (register pointerKey).clockOf new.objectId new.vectorClock := by
      rw [updatePointer_apply, if_pos rfl, Bucket.clockOf_update]
    rw [List.map_cons, List.foldl_cons, Pointer.write, ← hstep]
    exact ih _

/-- Deliveries of a set of writes, in any order and with any repetition, end with the same map from
ids to clocks exactly when the set is convergent. -/
theorem registers_converge_iff (backend backend' : Backend) (pointerKey : Text)
    (writes : Finset (Text × VersionVector)) :
    (∀ ws ws' : List Pointer, (∀ w, w ∈ ws.map Pointer.write ↔ w ∈ writes) →
      (∀ w, w ∈ ws'.map Pointer.write ↔ w ∈ writes) → ∀ x,
        (deliver backend .empty pointerKey ws pointerKey).clockOf x =
          (deliver backend' .empty pointerKey ws' pointerKey).clockOf x) ↔
      Convergent writes := by
  rw [convergent_iff]
  simp only [clockOf_deliver]
  constructor
  · intro h
    refine settled_of_deliver_eq writes.finite_toSet fun ws ws' hws hws' x => ?_
    have hmap : ∀ ws : List (Text × VersionVector),
        (ws.map fun w => (⟨w.1, w.2, "", 0⟩ : Pointer)).map Pointer.write = ws := by
      intro ws
      rw [List.map_map]
      exact List.map_id _
    have := h (ws.map fun w => ⟨w.1, w.2, "", 0⟩) (ws'.map fun w => ⟨w.1, w.2, "", 0⟩)
      (by rw [hmap]; exact hws) (by rw [hmap]; exact hws') x
    rwa [hmap, hmap] at this
  · intro h ws ws' hws hws' x
    ext c
    have hleft := deliver_eq_some_iff h hws (x := x) (c := c)
    have hright := deliver_eq_some_iff h hws' (x := x) (c := c)
    exact hleft.trans hright.symm

/-- A stale replay of an id overwrites its clock. -/
theorem registers_diverge :
    let new := written "a" (seen "n1" 2)
    let stale := written "a" (seen "n1" 1)
    (deliver .inMemory .empty "head".toList [stale, new] "head".toList).clockOf "a".toList =
        some (seen "n1" 2) ∧
      (deliver .inMemory .empty "head".toList [new, stale] "head".toList).clockOf "a".toList =
        some (seen "n1" 1) := by
  decide

/-! ## Resolutions -/

/-- What a bucket holds after a call, it held before or the call has applied. -/
theorem run_holds (backend : Backend) (register : MVRegister) (call : PointerCall)
    (h : ((call.run backend register).2 pointerKey).clockOf x = some c) :
    (register pointerKey).clockOf x = some c ∨
      ∃ new, call = .update pointerKey new ∧ (call.run backend register).1 = true ∧
        new.write = (x, c) := by
  cases call with
  | update key new =>
    rw [PointerCall.run, updatePointer_apply] at h
    split at h
    · rename_i hk
      subst hk
      rcases Bucket.update_spec backend (register pointerKey) new with ⟨-, hb⟩ | ⟨-, hdone, hb⟩
      · rw [hb] at h
        exact .inl h
      · rw [hb] at h
        rcases eq_or_of_write h with h | ⟨rfl, rfl⟩
        · exact .inl h
        · exact .inr ⟨new, rfl, hdone, rfl⟩
    · exact .inl h
  | resolve key winner =>
    rw [PointerCall.run, resolvePointer_apply] at h
    split at h
    · rename_i hk
      subst hk
      rcases (register pointerKey).resolve_spec winner with ⟨-, hb⟩ | ⟨-, d, hd, hb⟩
      · rw [hb] at h
        exact .inl h
      · rw [hb] at h
        by_cases hx : x = winner
        · subst hx
          rw [solo, Function.update_self] at h
          exact .inl (hd.trans h)
        · rw [solo, Function.update_of_ne hx] at h
          cases h
    · exact .inl h

theorem runCalls_holds (backend : Backend) (calls : List PointerCall)
    (h : (runCalls backend register calls pointerKey).clockOf x = some c) :
    (register pointerKey).clockOf x = some c ∨
      (x, c) ∈ applied backend pointerKey register calls := by
  induction calls generalizing register with
  | nil => exact .inl h
  | cons call calls ih =>
    rcases ih h with hstep | hlater
    · rcases run_holds backend register call hstep with hold | ⟨new, rfl, hdone, hw⟩
      · exact .inl hold
      · right
        rw [applied]
        dsimp only
        rw [if_pos ⟨rfl, hdone⟩, hw]
        exact List.mem_cons_self
    · right
      rw [applied]
      cases call with
      | resolve => exact hlater
      | update key new =>
        dsimp only
        split
        · exact List.mem_cons_of_mem _ hlater
        · exact hlater

/-- After a resolution every replay of writes applied before it leaves the winner alone, exactly
when every such write of another id is dominated by every such write of the winner. -/
theorem resolved_stays_iff (backend : Backend) (calls : List PointerCall) (pointerKey winner : Text)
    (hres : (resolvePointer (runCalls backend .empty calls) pointerKey winner).1 = true) :
    (∀ replays : List Pointer,
      (∀ w ∈ replays, w.write ∈ applied backend pointerKey .empty calls) →
      (deliver backend (resolvePointer (runCalls backend .empty calls) pointerKey winner).2
        pointerKey replays pointerKey).pointers.map (·.objectId) = [winner]) ↔
    ∀ v ∈ applied backend pointerKey .empty calls, v.1 ≠ winner →
      ∀ w ∈ applied backend pointerKey .empty calls, w.1 = winner →
        causalityCheck v.2 w.2 = .dominated := by
  obtain ⟨c, hc, hsolo⟩ : ∃ c, (runCalls backend .empty calls pointerKey).clockOf winner = some c ∧
      ((resolvePointer (runCalls backend .empty calls) pointerKey winner).2 pointerKey).clockOf =
        solo winner c := by
    rw [resolvePointer_apply, if_pos rfl]
    rcases (runCalls backend .empty calls pointerKey).resolve_spec winner with ⟨hno, -⟩ | ⟨-, h⟩
    · exact absurd (hres.symm.trans hno) (by decide)
    · exact h
  -- the winner is one of the writes that were applied
  have hwinner : (winner, c) ∈ applied backend pointerKey .empty calls :=
    (runCalls_holds backend calls hc).resolve_left fun h => by cases h
  simp only [causalityCheck_dominated]
  refine Iff.trans ?_ (replay_iff {w | w ∈ applied backend pointerKey .empty calls} hwinner)
  constructor
  · intro h ws hws
    obtain ⟨c', hc'⟩ := Bucket.solo_of_ids (h (ws.map fun w => ⟨w.1, w.2, "", 0⟩) (by
      intro p hp
      obtain ⟨w, hw, rfl⟩ := List.mem_map.1 hp
      exact hws w hw))
    rw [clockOf_deliver, hsolo, List.map_map] at hc'
    exact ⟨c', by rw [← hc']; congr 1; exact (List.map_id _).symm⟩
  · intro h replays hreplays
    obtain ⟨c', hc'⟩ := h (replays.map Pointer.write) (by
      intro w hw
      obtain ⟨p, hp, rfl⟩ := List.mem_map.1 hw
      exact hreplays p hp)
    refine Bucket.ids_of_solo (c := c') ?_
    rw [clockOf_deliver, hsolo, hc']

theorem resolved_stays_after_succession :
    let calls := [.update "head".toList (written "a" (seen "n1" 1)),
      .update "head".toList (written "b" (seen "n1" 2))]
    ∀ replays : List Pointer,
      (∀ w ∈ replays, w.write ∈ applied .sqlite "head".toList .empty calls) →
      (deliver .sqlite (resolvePointer (runCalls .sqlite .empty calls) "head".toList "b".toList).2
        "head".toList replays "head".toList).pointers.map (·.objectId) = ["b".toList] :=
  (resolved_stays_iff .sqlite _ "head".toList "b".toList (by decide)).2 (by decide)

/-- The discarded side of a fork comes back with its own write. -/
theorem resolved_fork_reopens :
    let calls := [.update "head".toList (written "a" (seen "n1" 1)),
      .update "head".toList (written "b" (seen "n2" 1))]
    let resolved := resolvePointer (runCalls .sqlite .empty calls) "head".toList "a".toList
    resolved.1 = true ∧
      (written "b" (seen "n2" 1)).write ∈ applied .sqlite "head".toList .empty calls ∧
      (deliver .sqlite resolved.2 "head".toList [written "b" (seen "n2" 1)]
        "head".toList).pointers.map (·.objectId) = ["a".toList, "b".toList] := by
  decide

end CksRuntime.Crdt
