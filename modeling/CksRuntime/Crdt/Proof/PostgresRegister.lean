import CksRuntime.Crdt.PostgresRegister
import CksRuntime.Crdt.Proof.Register

/-!
# Concurrent updates of a register

What a transaction decides on its SELECT holds of the rows of that moment: every row of another id
is to be deleted or incomparable with the write (`Inv.decided`). Its own statements keep that; the
commit of another transaction keeps it when the two are apart. A transaction that commits has
nothing left to delete, so it adds an incomparable row.
-/

set_option autoImplicit false

namespace CksRuntime.Crdt.PgRegister

open ReadCommitted Transition

variable {new : Nat → Pointer} {s s' : PgRegister} {t : Nat}

/-- The committed bucket has no dominated pointer, and nor has what a transaction that has read it
will leave. -/
structure Inv (new : Nat → Pointer) (s : PgRegister) : Prop where
  undominated : Undominated s.db.rows
  keyed : ∀ x row, s.db.rows x = some row → row.pointer.objectId = x
  /-- The only row a transaction writes is its own. -/
  own : ∀ t x row, s.db.changes t x = some (some row) → x = (new t).objectId ∧
    row.pointer.objectId = x ∧ row.pointer.vectorClock = (new t).vectorClock
  decided : ∀ t, (s.phase t).Decided → ∀ y row, y ≠ (new t).objectId → s.db.rows y = some row →
    s.db.changes t y = some none ∨ (s.phase t).WillDelete y row ∨ Incomparable row.pointer (new t)

/-- A statement of one transaction that commits nothing. -/
theorem Inv.local_step (h : Inv new s) (hrows : s'.db.rows = s.db.rows)
    (hphase : ∀ t' ≠ t, s'.phase t' = s.phase t')
    (hchanges : ∀ t' ≠ t, s'.db.changes t' = s.db.changes t')
    (hown : ∀ x row, s'.db.changes t x = some (some row) → x = (new t).objectId ∧
      row.pointer.objectId = x ∧ row.pointer.vectorClock = (new t).vectorClock)
    (hdecided : (s'.phase t).Decided → ∀ y row, y ≠ (new t).objectId → s.db.rows y = some row →
      s'.db.changes t y = some none ∨ (s'.phase t).WillDelete y row ∨
        Incomparable row.pointer (new t)) : Inv new s' where
  undominated := by
    rw [hrows]
    exact h.undominated
  keyed := by
    rw [hrows]
    exact h.keyed
  own t' x row hx := by
    by_cases ht : t' = t
    · subst ht
      exact hown x row hx
    · rw [hchanges t' ht] at hx
      exact h.own t' x row hx
  decided t' hdec y row hy hrow := by
    rw [hrows] at hrow
    by_cases ht : t' = t
    · subst ht
      exact hdecided hdec y row hy hrow
    · rw [hphase t' ht] at hdec ⊢
      rw [hchanges t' ht]
      exact h.decided t' hdec y row hy hrow

theorem setPhase_self (phase : TxPhase) : (s.setPhase t phase).phase t = phase :=
  Function.update_self _ _ _

theorem setPhase_other {t' : Nat} (phase : TxPhase) (h : t' ≠ t) :
    (s.setPhase t phase).phase t' = s.phase t' := Function.update_of_ne h _ _

/-! ## The statements -/

/-- What the loop leaves over the rows of the SELECT. -/
theorem Inv.select (h : Inv new s) {existing : List Pointer} {ids : List Text}
    (hlists : s.Lists existing) (hids : toDelete (new t) existing = some ids) :
    Inv new (s.setPhase t (.deleting ids)) := by
  refine h.local_step rfl (fun _ => setPhase_other _) (fun _ _ => rfl) (h.own t) ?_
  intro _ y row hy hrow
  rw [setPhase_self]
  have hkey := h.keyed y row hrow
  have hmem : row.pointer ∈ existing := (hlists _).2 ⟨row, by rw [hkey]; exact hrow, rfl⟩
  rcases toDelete_spec (new t) existing with ⟨-, hnone⟩ | ⟨hfree, ids', hids', hin⟩
  · rw [hids] at hnone
    cases hnone
  · obtain rfl : ids = ids' := Option.some.inj (hids.symm.trans hids')
    by_cases hle : row.pointer.vectorClock ≤ (new t).vectorClock
    · exact .inr (.inl ((hin y).2 ⟨row.pointer, hmem, hkey, hy, hle⟩))
    · refine .inr (.inr ⟨fun hdom => hle (causalityCheck_dominated.1 hdom).le, fun hdom => ?_⟩)
      exact hfree _ hmem (hkey.symm ▸ hy) (causalityCheck_dominated.1 hdom)

theorem Inv.delete (h : Inv new s) {objectId : Text} {seen : Option Nat} {pending : List Text}
    (hphase : s.phase t = .waiting objectId seen pending) :
    Inv new ({ s with db := s.db.write t objectId none }.setPhase t (.deleting pending)) := by
  refine h.local_step rfl (fun _ => setPhase_other _) (fun _ => DB.write_changes_other) ?_ ?_
  · intro x row hx
    by_cases hxo : x = objectId
    · subst hxo
      cases DB.write_changes_self.symm.trans hx
    · exact h.own t x row ((DB.write_changes_of_ne hxo).symm.trans hx)
  · intro _ y row hy hrow
    rw [setPhase_self]
    by_cases hyo : y = objectId
    · subst hyo
      exact .inl DB.write_changes_self
    · have hold := h.decided t (by rw [hphase]; trivial) y row hy hrow
      rw [hphase] at hold
      refine hold.imp ((DB.write_changes_of_ne hyo).trans ·) (Or.imp_left fun hwill => ?_)
      exact hwill.resolve_right fun heq => hyo heq.1

theorem Inv.deleteNone (h : Inv new s) {objectId : Text} {seen : Option Nat} {pending : List Text}
    (hphase : s.phase t = .waiting objectId seen pending)
    (hnot : ∀ row, s.db.rows objectId = some row → seen ≠ some row.rowId) :
    Inv new (s.setPhase t (.deleting pending)) := by
  refine h.local_step rfl (fun _ => setPhase_other _) (fun _ _ => rfl) (h.own t) ?_
  intro _ y row hy hrow
  rw [setPhase_self]
  have hold := h.decided t (by rw [hphase]; trivial) y row hy hrow
  rw [hphase] at hold
  refine hold.imp_right (Or.imp_left fun hwill => ?_)
  -- the row it waits for is gone, or another one by now
  exact hwill.resolve_right fun ⟨heq, hseen⟩ => hnot row (heq ▸ hrow) hseen

theorem Inv.beginDelete (h : Inv new s) {objectId : Text} {pending : List Text}
    (hphase : s.phase t = .deleting (objectId :: pending)) :
    Inv new (s.setPhase t
      (.waiting objectId ((s.db.rows objectId).map (·.rowId)) pending)) := by
  refine h.local_step rfl (fun _ => setPhase_other _) (fun _ _ => rfl) (h.own t) ?_
  intro _ y row hy hrow
  rw [setPhase_self]
  have hold := h.decided t (by rw [hphase]; trivial) y row hy hrow
  rw [hphase] at hold
  refine hold.imp_right (Or.imp_left fun hwill => ?_)
  rcases List.mem_cons.1 hwill with rfl | hin
  · exact .inr ⟨rfl, by rw [hrow]; rfl⟩
  · exact .inl hin

theorem insertedRow_spec (s : PgRegister) (t : Nat) (p : Pointer) :
    (s.insertedRow t p).pointer.objectId = p.objectId ∧
      (s.insertedRow t p).pointer.vectorClock = p.vectorClock := by
  unfold insertedRow
  split <;> exact ⟨rfl, rfl⟩

theorem Inv.insert (h : Inv new s) (hphase : s.phase t = .deleting []) :
    Inv new ({ s with
      db := s.db.write t (new t).objectId (some (s.insertedRow t (new t)))
      nextRowId := s.nextRowId + 1 }.setPhase t .inserted) := by
  refine h.local_step rfl (fun _ => setPhase_other _) (fun _ => DB.write_changes_other) ?_ ?_
  · intro x row hx
    by_cases hxo : x = (new t).objectId
    · subst hxo
      cases DB.write_changes_self.symm.trans hx
      obtain ⟨hid, hclock⟩ := insertedRow_spec s t (new t)
      exact ⟨rfl, hid, hclock⟩
    · exact h.own t x row ((DB.write_changes_of_ne hxo).symm.trans hx)
  · intro _ y row hy hrow
    have hold := h.decided t (by rw [hphase]; trivial) y row hy hrow
    rw [hphase] at hold
    rcases hold with hdel | hwill | hinc
    · exact .inl ((DB.write_changes_of_ne hy).trans hdel)
    · exact absurd hwill List.not_mem_nil
    · exact .inr (.inr hinc)

theorem Inv.abort (h : Inv new s) :
    Inv new ({ s with db := s.db.abort t }.setPhase t .start) := by
  refine h.local_step rfl (fun _ => setPhase_other _) (fun _ => DB.abort_changes_other) ?_ ?_
  · intro x row hx
    cases DB.abort_changes_self.symm.trans hx
  · intro hdec
    rw [setPhase_self] at hdec
    exact hdec.elim

/-- A row in the view of a transaction is committed and untouched by it, or its own. -/
theorem view_cases (h : Inv new s) {x : Text} {row : PgRow} (hx : s.db.view t x = some row) :
    s.db.changes t x = none ∧ s.db.rows x = some row ∨
      x = (new t).objectId ∧ row.pointer.objectId = x ∧
        row.pointer.vectorClock = (new t).vectorClock := by
  cases hc : s.db.changes t x with
  | none => exact .inl ⟨rfl, (DB.view_of_unchanged hc).symm.trans hx⟩
  | some r =>
    rw [DB.view_of_changed hc] at hx
    subst hx
    exact .inr (h.own t x row hc)

theorem Inv.commit (h : Inv new s) (hphase : s.phase t = .inserted)
    (hapart : CommitsApart new s (.commit t)) :
    Inv new ({ s with db := s.db.commit t }.setPhase t .committed) := by
  -- what it leaves of other ids is incomparable with its own row
  have hleft : ∀ y row, y ≠ (new t).objectId → s.db.changes t y = none →
      s.db.rows y = some row → Incomparable row.pointer (new t) := by
    intro y row hy hun hrow
    have hold := h.decided t (by rw [hphase]; trivial) y row hy hrow
    rw [hphase, hun] at hold
    rcases hold with hdel | hwill | hinc
    · cases hdel
    · exact hwill.elim
    · exact hinc
  refine ⟨?_, ?_, ?_, ?_⟩
  · intro x y p q hx hy hne
    rcases view_cases h hx with ⟨hux, hx⟩ | ⟨hxid, -, hp⟩ <;>
      rcases view_cases h hy with ⟨huy, hy⟩ | ⟨hyid, -, hq⟩
    · exact h.undominated x y p q hx hy hne
    · rw [hq]
      exact (hleft x p (hyid ▸ hne) hux hx).1
    · rw [hp]
      exact (hleft y q (fun he => hne (hxid.trans he.symm)) huy hy).2
    · exact absurd (hxid.trans hyid.symm) hne
  · intro x row hx
    rcases view_cases h hx with ⟨-, hx⟩ | ⟨-, hid, -⟩
    · exact h.keyed x row hx
    · exact hid
  · intro t' x row hx
    by_cases ht : t' = t
    · subst ht
      cases DB.commit_changes_self.symm.trans hx
    · exact h.own t' x row ((congrFun (DB.commit_changes_other ht) x).symm.trans hx)
  · intro t' hdec y row hy hrow
    by_cases ht : t' = t
    · subst ht
      rw [setPhase_self] at hdec
      exact hdec.elim
    · rw [setPhase_other _ ht] at hdec ⊢
      have hsame : (s.db.commit t).changes t' y = s.db.changes t' y :=
        congrFun (DB.commit_changes_other ht) y
      change (s.db.commit t).changes t' y = _ ∨ _
      rw [hsame]
      rcases view_cases h hrow with ⟨-, hrow⟩ | ⟨rfl, -, hclock⟩
      · exact h.decided t' hdec y row hy hrow
      · right
        rcases hapart t' ht hdec hy.symm with hinc | hwill
        · right
          rw [Incomparable, hclock]
          exact hinc
        · exact .inl (hwill row hrow)

theorem inv_step {l : PgStatement} (h : Inv new s) (hapart : CommitsApart new s l)
    (hs : Step new s l s') : Inv new s' := by
  cases hs with
  | select _ hlists hids => exact h.select hlists hids
  | refuse =>
    refine h.local_step rfl (fun _ => setPhase_other _) (fun _ _ => rfl) (h.own _) fun hdec => ?_
    rw [setPhase_self] at hdec
    exact hdec.elim
  | beginDelete hphase => exact h.beginDelete hphase
  | delete hphase => exact h.delete hphase
  | deleteNone hphase _ hnot => exact h.deleteNone hphase hnot
  | insert hphase => exact h.insert hphase
  | commit hphase => exact h.commit hphase hapart
  | abort => exact h.abort

/-- In every run whose commits are apart no stored pointer is dominated by another. -/
theorem concurrent_updates_undominated (new : Nat → Pointer)
    (h : ((system new).restrict (CommitsApart new)).Reachable s) : Undominated s.db.rows := by
  have hinv : Inv new s := by
    refine h.invariant (P := Inv new) ?_ fun _ _ _ _ hs hst => inv_step hs hst.2 hst.1
    rintro s ⟨hdom, hstart, hkeyed, hnone⟩
    refine ⟨hdom, fun x row hx => (hkeyed x row hx).1, fun t x row hx => ?_, fun t hdec => ?_⟩
    · cases (hnone t x).symm.trans hx
    · rw [hstart t] at hdec
      exact hdec.elim
  exact hinv.undominated

/-! ## Two writers -/

/-- Two transactions, the first to write `a` and the others to write `b`. -/
def twoWrites (v w : VersionVector) (t : Nat) : Pointer :=
  if t = 0 then written "a" v else written "b" w

/-- Nothing stored, and no transaction open. -/
def noRows : PgRegister := { db := ⟨fun _ => none, fun _ _ => none⟩ }

theorem noRows_init (new : Nat → Pointer) : (system new).init noRows := by
  refine ⟨?_, fun _ => rfl, ?_, fun _ _ => rfl⟩
  · rintro x y p q ⟨⟩
  · rintro x row ⟨⟩

theorem lists_noRows {s : PgRegister} (h : s.db.rows = fun _ => none) : s.Lists [] := by
  intro p
  rw [h]
  simp

/-- Both transactions select before either commits, in the system restricted to what holds of the
statements made. -/
theorem overlapping_run (v w : VersionVector) (C : PgRegister → PgStatement → Prop)
    (hC : ∀ s l, (∀ t, l ≠ .commit t) → C s l)
    (hfirst : ∀ s, (∀ t > 1, s.phase t = .start) → C s (.commit 0))
    (hsecond : ∀ s, s.phase 0 = .committed → (∀ t > 1, s.phase t = .start) → C s (.commit 1)) :
    ∃ s, ((system (twoWrites v w)).restrict C).Reachable s ∧
      s.phase 0 = .committed ∧ s.phase 1 = .committed ∧ (∀ t > 1, s.phase t = .start) ∧
      ∃ p q, s.db.rows "a".toList = some p ∧ s.db.rows "b".toList = some q ∧
        p.pointer.vectorClock = v ∧ q.pointer.vectorClock = w := by
  have hinserted : ∃ s, ((system (twoWrites v w)).restrict C).Reachable s ∧
      s.phase 0 = .inserted ∧ s.phase 1 = .inserted ∧ (∀ t > 1, s.phase t = .start) ∧
      (∀ x, s.db.rows x = none) ∧
      ∃ p q, s.db.changes 0 "a".toList = some (some p) ∧ s.db.changes 0 "b".toList = none ∧
        s.db.changes 1 "b".toList = some (some q) ∧ s.db.changes 1 "a".toList = none ∧
        p.pointer.vectorClock = v ∧ q.pointer.vectorClock = w := by
    refine ⟨_, .step (l := .insert 1) (.step (l := .insert 0) (.step (l := .select 1 [])
      (.step (l := .select 0 []) (.init (noRows_init (twoWrites v w)))
        ⟨.select rfl (lists_noRows rfl) rfl, hC _ _ (by simp)⟩)
      ⟨.select rfl (lists_noRows rfl) rfl, hC _ _ (by simp)⟩)
      ⟨.insert rfl fun _ _ => rfl, hC _ _ (by simp)⟩)
      ⟨.insert rfl ?_, hC _ _ (by simp)⟩, rfl, rfl, ?_, fun _ => rfl,
      _, _, rfl, rfl, rfl, rfl, rfl, rfl⟩
    · -- the first transaction holds another row
      intro t ht
      by_cases h0 : t = 0
      · subst h0
        rfl
      · exact congrFun (DB.write_changes_other h0) _
    · intro t ht
      have h0 : t ≠ 0 := by omega
      have h1 : t ≠ 1 := by omega
      simp only [setPhase_other _ h0, setPhase_other _ h1]
      rfl
  obtain ⟨s, hreach, h0, h1, hstart, hrows, p, q, hp, hpb, hq, hqa, hv, hw⟩ := hinserted
  have hstart' : ∀ t > 1, ({ s with db := s.db.commit 0 }.setPhase 0 .committed).phase t = .start :=
    fun t ht => (setPhase_other _ (by omega)).trans (hstart t ht)
  refine ⟨_, .step (l := .commit 1) (.step (l := .commit 0) hreach ⟨.commit h0, hfirst s hstart⟩)
    ⟨.commit h1, hsecond _ (setPhase_self _) hstart'⟩, rfl, rfl, ?_, p, q, ?_, ?_, hv, hw⟩
  · exact fun t ht => (setPhase_other _ (by omega)).trans (hstart' t ht)
  · refine (DB.view_commit_other (by decide) hqa).trans ?_
    exact DB.view_of_changed hp
  · exact DB.view_of_changed ((congrFun (DB.commit_changes_other (by decide)) _).trans hq)

theorem concurrent_updates_undominated_fork :
    ∃ s : PgRegister, s.phase 0 = .committed ∧ s.phase 1 = .committed ∧
      (s.db.rows "a".toList).isSome ∧ (s.db.rows "b".toList).isSome ∧ Undominated s.db.rows := by
  have hother : ∀ s l, (∀ t, l ≠ .commit t) →
      CommitsApart (twoWrites (seen "n1" 1) (seen "n2" 1)) s l := by
    intro s l hl
    cases l
    case commit t => exact absurd rfl (hl t)
    all_goals trivial
  -- the one transaction the first commit meets has a concurrent clock, and the second meets none
  have hfirst : ∀ s : PgRegister, (∀ t > 1, s.phase t = .start) →
      CommitsApart (twoWrites (seen "n1" 1) (seen "n2" 1)) s (.commit 0) := by
    intro s hstart t ht hdec _
    by_cases h1 : t = 1
    · subst h1
      exact .inl (by decide)
    · rw [hstart t (by omega)] at hdec
      exact hdec.elim
  have hsecond : ∀ s : PgRegister, s.phase 0 = .committed → (∀ t > 1, s.phase t = .start) →
      CommitsApart (twoWrites (seen "n1" 1) (seen "n2" 1)) s (.commit 1) := by
    intro s h0 hstart t ht hdec _
    by_cases ht0 : t = 0
    · subst ht0
      rw [h0] at hdec
      exact hdec.elim
    · rw [hstart t (by omega)] at hdec
      exact hdec.elim
  obtain ⟨s, hreach, h0, h1, -, p, q, hp, hq, -, -⟩ :=
    overlapping_run (seen "n1" 1) (seen "n2" 1) _ hother hfirst hsecond
  exact ⟨s, h0, h1, by rw [hp]; rfl, by rw [hq]; rfl, concurrent_updates_undominated _ hreach⟩

/-- Two writers whose selects come before either's commit leave a pointer and one that dominates
it. -/
theorem concurrent_updates_dominated :
    ∃ s, (system (twoWrites (seen "n1" 1) (seen "n1" 2))).Reachable s ∧
      s.phase 0 = .committed ∧ s.phase 1 = .committed ∧ (∀ t > 1, s.phase t = .start) ∧
      ¬Undominated s.db.rows := by
  obtain ⟨s, hreach, h0, h1, hstart, p, q, hp, hq, hv, hw⟩ :=
    overlapping_run (seen "n1" 1) (seen "n1" 2) (fun _ _ => True) (fun _ _ _ => trivial)
      (fun _ _ => trivial) (fun _ _ _ => trivial)
  refine ⟨s, hreach.of_restrict, h0, h1, hstart, fun h => h _ _ p q hp hq (by decide) ?_⟩
  rw [hv, hw]
  decide

end CksRuntime.Crdt.PgRegister
