import CksRuntime.Storage.Outbox

/-!
# The life of an outbox task

Each call that finds a task moves its row as `Life.next` moves a life, as long as no failure is
reported of a task that is dead-lettered (`Alive.event` for the task, `Alive.frame` for the others).
So what happened to a task is the history of a life, and `Lease.exclusive_of_life` tells what can
stand between two hand-outs.
-/

set_option autoImplicit false

namespace CksRuntime

open Lease Transition

/-! ## The table -/

namespace Outbox

variable {o : Outbox} {taskId : Nat} {which : OutboxRow → Bool} {f : OutboxRow → OutboxRow}

theorem update_of_row {r : OutboxRow} (h : o.rows taskId = some r) (hw : which r) :
    o.update taskId which f =
      (true, { o with rows := Function.update o.rows taskId (some (f r)) }) := by
  simp [update, h, hw]

theorem update_of_not (h : ∀ r ∈ o.rows taskId, ¬which r) : o.update taskId which f = (false, o) := by
  unfold update
  cases hr : o.rows taskId with
  | none => rfl
  | some r => simp [h r hr]

@[simp] theorem update_lastId : (o.update taskId which f).2.lastId = o.lastId := by
  unfold update
  cases o.rows taskId with
  | none => rfl
  | some r =>
    dsimp only
    split <;> rfl

theorem update_rows_ne {taskId' : Nat} (h : taskId' ≠ taskId) :
    (o.update taskId which f).2.rows taskId' = o.rows taskId' := by
  unfold update
  cases o.rows taskId with
  | none => rfl
  | some r =>
    dsimp only
    split
    · exact Function.update_of_ne h _ _
    · rfl

end Outbox

namespace OutboxWorld

section
variable {ω : Type} {datetime : Nat → Text} {w w' : OutboxWorld ω} {taskId : Nat}

/-- The row reads as the life does. -/
inductive Reads (o : Outbox) (now taskId : Nat) : Life → Prop
  | absent : ¬o.Given taskId → o.rows taskId = none → Reads o now taskId .absent
  | waiting {r : OutboxRow} : o.Given taskId → o.rows taskId = some r → r.status = .pending →
      Reads o now taskId .waiting
  | held {r : OutboxRow} {since : Nat} : o.Given taskId → o.rows taskId = some r →
      r.status = .inProgress → r.claimedAt = some since → since ≤ now →
      Reads o now taskId (.held since)
  | dead {r : OutboxRow} : o.Given taskId → o.rows taskId = some r → r.status = .dead →
      Reads o now taskId .dead
  | gone : o.Given taskId → o.rows taskId = none → Reads o now taskId .gone

/-- What a row that is there reads as. -/
inductive ReadsRow (r : OutboxRow) (now : Nat) : Life → Prop
  | waiting : r.status = .pending → ReadsRow r now .waiting
  | held {since : Nat} : r.status = .inProgress → r.claimedAt = some since → since ≤ now →
      ReadsRow r now (.held since)
  | dead : r.status = .dead → ReadsRow r now .dead

theorem Reads.row {o : Outbox} {now : Nat} {r : OutboxRow} {life : Life}
    (h : Reads o now taskId life) (hr : o.rows taskId = some r) :
    o.Given taskId ∧ ReadsRow r now life := by
  cases h with
  | absent _ hnone => cases hr.symm.trans hnone
  | gone _ hnone => cases hr.symm.trans hnone
  | waiting hgiven hr' hs =>
    obtain rfl := Option.some.inj (hr.symm.trans hr')
    exact ⟨hgiven, .waiting hs⟩
  | held hgiven hr' hs hc ht =>
    obtain rfl := Option.some.inj (hr.symm.trans hr')
    exact ⟨hgiven, .held hs hc ht⟩
  | dead hgiven hr' hs =>
    obtain rfl := Option.some.inj (hr.symm.trans hr')
    exact ⟨hgiven, .dead hs⟩

/-- The row is as its history says. -/
def Alive (w : OutboxWorld ω) (taskId : Nat) : Prop :=
  ∃ life, Life.absent.after OUTBOX_LEASE_TIMEOUT (w.history taskId) = some life ∧
    Reads w.outbox w.now taskId life

/-- Nothing happened to the task. -/
theorem Alive.frame (h : w.Alive taskId) (hhistory : w'.history taskId = w.history taskId)
    (hrow : w'.outbox.rows taskId = w.outbox.rows taskId)
    (hid : w'.outbox.Given taskId ↔ w.outbox.Given taskId) (hnow : w.now ≤ w'.now) :
    w'.Alive taskId := by
  obtain ⟨life, hlife, hreads⟩ := h
  refine ⟨life, by rw [hhistory, hlife], ?_⟩
  cases hreads with
  | absent hnot hr => exact .absent (fun h => hnot (hid.1 h)) (by rw [hrow, hr])
  | waiting hgiven hr hs => exact .waiting (hid.2 hgiven) (by rw [hrow, hr]) hs
  | held hgiven hr hs hc ht => exact .held (hid.2 hgiven) (by rw [hrow, hr]) hs hc (by omega)
  | dead hgiven hr hs => exact .dead (hid.2 hgiven) (by rw [hrow, hr]) hs
  | gone hgiven hr => exact .gone (hid.2 hgiven) (by rw [hrow, hr])

/-- Something happened to the task that can happen in its life. -/
theorem Alive.event {e : Event} (h : w.Alive taskId)
    (hhistory : w'.history taskId = w.history taskId ++ [(e, w.now)])
    (hstep : ∀ life, Reads w.outbox w.now taskId life →
      ∃ life', life.next OUTBOX_LEASE_TIMEOUT (e, w.now) = some life' ∧
        Reads w'.outbox w'.now taskId life') : w'.Alive taskId := by
  obtain ⟨life, hlife, hreads⟩ := h
  obtain ⟨life', hnext, hreads'⟩ := hstep life hreads
  refine ⟨life', ?_, hreads'⟩
  rw [hhistory, after_append, hlife]
  simp [Life.after, hnext]

theorem record_same {e : Option Event} :
    w.record taskId e taskId = w.history taskId ++ e.toList.map (·, w.now) := by
  simp [record]

theorem record_ne {taskId' : Nat} {e : Option Event} (h : taskId' ≠ taskId) :
    w.record taskId e taskId' = w.history taskId' := Function.update_of_ne h _ _

/-! ## The calls -/

theorem alive_enqueue {taskType sessionId payload : String} (h : ∀ taskId, w.Alive taskId) :
    ∀ taskId, (w.enqueue datetime taskType sessionId payload).Alive taskId := by
  intro taskId
  by_cases heq : taskId = w.outbox.lastId + 1
  · subst heq
    apply (h _).event (e := .create)
    · exact record_same
    · intro life hreads
      have hnot : ¬w.outbox.Given (w.outbox.lastId + 1) := by
        simp [Outbox.Given]
      refine ⟨.waiting, ?_, .waiting ⟨Nat.succ_pos _, Nat.le_refl _⟩
        (Function.update_self ..) rfl⟩
      cases hreads with
      | absent => rfl
      | waiting hgiven => exact absurd hgiven hnot
      | held hgiven => exact absurd hgiven hnot
      | dead hgiven => exact absurd hgiven hnot
      | gone hgiven => exact absurd hgiven hnot
  · apply (h taskId).frame
    · exact record_ne heq
    · exact Function.update_of_ne heq _ _
    · show 0 < taskId ∧ taskId ≤ w.outbox.lastId + 1 ↔ 0 < taskId ∧ taskId ≤ w.outbox.lastId
      omega
    · exact Nat.le_refl _

theorem alive_retryDeadLetter (h : ∀ taskId, w.Alive taskId) :
    ∀ taskId', (w.retryDeadLetter datetime taskId).Alive taskId' := by
  intro taskId'
  by_cases heq : taskId' = taskId
  · subst heq
    by_cases hdead : ∃ r ∈ w.outbox.rows taskId', r.status = .dead
    · obtain ⟨r, hmem, hs⟩ := hdead
      have hr : w.outbox.rows taskId' = some r := hmem
      have hupdate : w.outbox.retryDeadLetterTask datetime w.now taskId' =
          (true, { w.outbox with
            rows := Function.update w.outbox.rows taskId' (some (r.retried (datetime w.now))) }) :=
        Outbox.update_of_row hr (by simpa using hs)
      apply (h taskId').event (e := .revive)
      · simp [retryDeadLetter, hupdate, record]
      · intro life hreads
        obtain ⟨hgiven, hrow⟩ := hreads.row hr
        refine ⟨.waiting, ?_, .waiting (r := r.retried (datetime w.now)) ?_ ?_ rfl⟩
        · cases hrow with
          | dead => rfl
          | waiting hpending => cases hs.symm.trans hpending
          | held hprogress => cases hs.symm.trans hprogress
        · rw [retryDeadLetter, hupdate]
          exact hgiven
        · simp [retryDeadLetter, hupdate]
    · have hupdate : w.outbox.retryDeadLetterTask datetime w.now taskId' = (false, w.outbox) :=
        Outbox.update_of_not (by simpa using hdead)
      apply (h taskId').frame
      · simp [retryDeadLetter, hupdate, record]
      · simp [retryDeadLetter, hupdate]
      · simp [retryDeadLetter, hupdate]
      · exact Nat.le_refl _
  · apply (h taskId').frame
    · exact record_ne heq
    · exact Outbox.update_rows_ne heq
    · show _ ∧ _ ≤ (w.outbox.update taskId _ _).2.lastId ↔ _
      rw [Outbox.update_lastId]
      exact Iff.rfl
    · exact Nat.le_refl _

theorem alive_drain {taskType : String} {sessionId : Option String} (h : ∀ taskId, w.Alive taskId) :
    ∀ taskId, (w.drain taskType sessionId).Alive taskId := by
  intro taskId
  by_cases hlisted : (w.outbox.rows taskId).any (Outbox.listed taskType sessionId)
  · obtain ⟨r, hr, hl⟩ := (Option.any_eq_true _ _).1 hlisted
    apply (h taskId).event (e := .drain)
    · simp [drain, hlisted]
    · intro life hreads
      obtain ⟨hgiven, hrow⟩ := hreads.row hr
      have hnone : (w.drain taskType sessionId).outbox.rows taskId = none := by
        show (w.outbox.rows taskId).filter _ = none
        simp [hr, hl]
      refine ⟨.gone, ?_, .gone hgiven hnone⟩
      cases hrow with
      | waiting => rfl
      | held hs => simp [hs, Outbox.listed] at hl
      | dead hs => simp [hs, Outbox.listed] at hl
  · apply (h taskId).frame
    · simp [drain, hlisted]
    · show (w.outbox.rows taskId).filter _ = _
      cases hr : w.outbox.rows taskId with
      | none => rfl
      | some r =>
        rw [hr] at hlisted
        simpa using hlisted
    · exact Iff.rfl
    · exact Nat.le_refl _

variable [DecidableEq ω]

theorem alive_dequeue {worker : ω} {taskType : Option String} (h : ∀ taskId, w.Alive taskId)
    (hnext : w.outbox.IsNext datetime w.now taskType taskId) :
    ∀ taskId', (w.dequeue worker taskId).Alive taskId' := by
  obtain ⟨r, hmem, helig, -⟩ := hnext
  have hr : w.outbox.rows taskId = some r := hmem
  have hupdate : (w.dequeue worker taskId).outbox =
      { w.outbox with rows := Function.update w.outbox.rows taskId (some (r.claimed w.now)) } := by
    show (w.outbox.update taskId (fun _ => true) (·.claimed w.now)).2 = _
    rw [Outbox.update_of_row hr rfl]
  intro taskId'
  by_cases heq : taskId' = taskId
  · subst heq
    apply (h taskId').event (e := .handOut)
    · exact record_same
    · intro life hreads
      rw [hupdate]
      simp only [OutboxRow.eligible, Bool.decide_and, Bool.decide_or, Bool.and_eq_true,
        Bool.or_eq_true, decide_eq_true_eq] at helig
      obtain ⟨hgiven, hrow⟩ := hreads.row hr
      refine ⟨.held w.now, ?_, .held hgiven (Function.update_self ..) rfl rfl (Nat.le_refl _)⟩
      cases hrow with
      | waiting => rfl
      | held hs hc => exact if_pos (by simpa [hs, hc] using helig.2)
      | dead hs => simp [hs] at helig
  · apply (h taskId').frame
    · exact record_ne heq
    · rw [hupdate]
      exact Function.update_of_ne heq _ _
    · rw [hupdate]
      exact Iff.rfl
    · exact Nat.le_refl _

theorem run_lastId (now : Nat) (o : Outbox) (c : HolderCall) :
    (c.run now taskId o).2.lastId = o.lastId := by
  cases c with
  | touch => exact Outbox.update_lastId
  | complete => rfl
  | fail => exact Outbox.update_lastId
  | deadLetter => exact Outbox.update_lastId

theorem run_rows_ne {taskId' : Nat} (now : Nat) (o : Outbox) (c : HolderCall)
    (h : taskId' ≠ taskId) : (c.run now taskId o).2.rows taskId' = o.rows taskId' := by
  cases c with
  | touch => exact Outbox.update_rows_ne h
  | complete => exact Function.update_of_ne h _ _
  | fail => exact Outbox.update_rows_ne h
  | deadLetter => exact Outbox.update_rows_ne h

/-- A call that finds no row makes none. -/
theorem run_rows_none {now : Nat} {o : Outbox} (c : HolderCall) (h : o.rows taskId = none) :
    (c.run now taskId o).2.rows taskId = none := by
  have hnot : ∀ which f, o.update taskId which f = (false, o) := fun which f =>
    Outbox.update_of_not (by simp [h])
  cases c with
  | touch => simpa [HolderCall.run, Outbox.touchOutboxTask, hnot] using h
  | complete => exact Function.update_self ..
  | fail => simpa [HolderCall.run, Outbox.failOutboxTask, hnot] using h
  | deadLetter => simpa [HolderCall.run, Outbox.deadLetterOutboxTask, hnot] using h

/-- What a call writes over the row of a task it finds. -/
def written (r : OutboxRow) (now : Nat) : HolderCall → Option OutboxRow
  | .touch => some (if r.status = .inProgress then r.touched now else r)
  | .complete => none
  | .fail retryCount error nextRetryAt => some (r.failed retryCount error nextRetryAt)
  | .deadLetter error => some (r.deadLettered error)

theorem run_rows_some {now : Nat} {o : Outbox} {r : OutboxRow} (c : HolderCall)
    (h : o.rows taskId = some r) : (c.run now taskId o).2.rows taskId = written r now c := by
  cases c with
  | touch =>
    by_cases hs : r.status = .inProgress
    · simp [HolderCall.run, Outbox.touchOutboxTask, Outbox.update_of_row h, hs, written]
    · simp [HolderCall.run, Outbox.touchOutboxTask, Outbox.update, h, hs, written]
  | complete => exact Function.update_self ..
  | fail => simp [HolderCall.run, Outbox.failOutboxTask, Outbox.update_of_row h, written]
  | deadLetter => simp [HolderCall.run, Outbox.deadLetterOutboxTask, Outbox.update_of_row h, written]

/-- The row a call leaves reads as the life does after it. -/
theorem reads_written {o o' : Outbox} {now : Nat} {r : OutboxRow} {c : HolderCall} {e : Event}
    {life : Life} (hreads : Reads o now taskId life) (hr : o.rows taskId = some r)
    (hid : o'.Given taskId ↔ o.Given taskId) (hr' : o'.rows taskId = written r now c)
    (he : c.event r = some e) (hspares : e = .fail → r.status ≠ .dead) :
    ∃ life', life.next OUTBOX_LEASE_TIMEOUT (e, now) = some life' ∧ Reads o' now taskId life' := by
  obtain ⟨hbefore, hrow⟩ := hreads.row hr
  have hgiven := hid.2 hbefore
  cases c with
  | touch =>
    simp only [HolderCall.event, Option.ite_none_right_eq_some, Option.some.injEq] at he
    obtain ⟨hs, rfl⟩ := he
    have hheld : Reads o' now taskId (.held now) :=
      .held (r := r.touched now) hgiven (by rw [hr', written, if_pos hs]) hs rfl (Nat.le_refl _)
    refine ⟨.held now, ?_, hheld⟩
    cases hrow with
    | held _ _ hle => exact if_pos hle
    | waiting hpending => cases hs.symm.trans hpending
    | dead hdead => cases hs.symm.trans hdead
  | complete =>
    obtain rfl := Option.some.inj he
    refine ⟨.gone, ?_, .gone hgiven hr'⟩
    cases hrow <;> rfl
  | fail =>
    obtain rfl := Option.some.inj he
    refine ⟨.waiting, ?_, .waiting hgiven hr' rfl⟩
    cases hrow with
    | dead hdead => exact absurd hdead (hspares rfl)
    | _ => rfl
  | deadLetter =>
    obtain rfl := Option.some.inj he
    refine ⟨.dead, ?_, .dead hgiven hr' rfl⟩
    cases hrow <;> rfl

theorem alive_call {worker : ω} {c : HolderCall} (h : ∀ taskId, w.Alive taskId)
    (hspares : w.SparesDead (.call worker taskId c)) :
    ∀ taskId', (w.call worker taskId c).Alive taskId' := by
  intro taskId'
  have hid : (w.call worker taskId c).outbox.Given taskId' ↔ w.outbox.Given taskId' := by
    show _ ∧ _ ≤ (c.run w.now taskId w.outbox).2.lastId ↔ _
    rw [run_lastId]
    exact Iff.rfl
  by_cases heq : taskId' = taskId
  · subst heq
    cases hr : w.outbox.rows taskId' with
    | none =>
      apply (h taskId').frame
      · simp [call, record, hr]
      · rw [hr]
        exact run_rows_none c hr
      · exact hid
      · exact Nat.le_refl _
    | some r =>
      cases he : c.event r with
      | none =>
        apply (h taskId').frame
        · simp [call, record, hr, he]
        · show (c.run w.now taskId' w.outbox).2.rows taskId' = _
          rw [run_rows_some c hr, hr]
          cases c <;> simp_all [HolderCall.event, written]
        · exact hid
        · exact Nat.le_refl _
      | some e =>
        apply (h taskId').event (e := e)
        · simp [call, record, hr, he]
        · intro life hreads
          refine reads_written hreads hr hid (run_rows_some c hr) he ?_
          rintro rfl
          cases c with
          -- a fail of a dead row would bring it back
          | fail => exact hspares _ _ _ _ _ rfl r hr
          | touch => simp [HolderCall.event] at he
          | complete => simp [HolderCall.event] at he
          | deadLetter => simp [HolderCall.event] at he
  · apply (h taskId').frame
    · exact record_ne heq
    · exact run_rows_ne w.now _ c heq
    · exact hid
    · exact Nat.le_refl _

/-! ## Runs -/

theorem alive_of_reachable (h : ((system ω datetime).restrict SparesDead).Reachable w) :
    ∀ taskId, w.Alive taskId := by
  refine h.invariant (P := fun w => ∀ taskId, w.Alive taskId) ?_ ?_
  · intro w hinit taskId
    rw [show w = { now := w.now } from hinit]
    exact ⟨.absent, rfl, .absent (fun h => by simp [Outbox.Given] at h; omega) rfl⟩
  · intro w l w' _ halive hstep taskId
    obtain ⟨hstep, hspares⟩ := hstep
    cases hstep with
    | enqueue => exact alive_enqueue halive taskId
    | dequeue _ _ _ hnext => exact alive_dequeue halive hnext taskId
    | dequeueNone => exact halive taskId
    | call => exact alive_call halive hspares taskId
    | retryDeadLetter => exact alive_retryDeadLetter halive taskId
    | drain => exact alive_drain halive taskId
    | advance seconds =>
      exact (halive taskId).frame rfl rfl Iff.rfl (Nat.le_add_right _ _)

/-- Nothing is handed out that is not free to be, in a run that fails no dead-lettered task. -/
theorem handOuts_exclusive (h : ((system ω datetime).restrict SparesDead).Reachable w)
    (taskId : Nat) : Exclusive OUTBOX_LEASE_TIMEOUT (w.history taskId) := by
  obtain ⟨life, hlife, -⟩ := alive_of_reachable h taskId
  exact exclusive_of_life hlife

end

/-! ## A task that comes back from the dead -/

/-- What SQLite writes in the first hour of a day. -/
def firstHour (seconds : Nat) : Text :=
  let digits n := [Nat.digitChar (n / 10), Nat.digitChar (n % 10)]
  "2026-01-01 00:".toList ++ digits (seconds / 60) ++ ':' :: digits (seconds % 60)

theorem isNext_of_only {o : Outbox} {datetime : Nat → Text} {now taskId : Nat}
    {taskType : Option String} (helig : (o.rows taskId).any (·.eligible datetime now taskType))
    (honly : ∀ taskId' ≠ taskId, o.rows taskId' = none) :
    o.IsNext datetime now taskType taskId := by
  cases hr : o.rows taskId with
  | none => simp [hr] at helig
  | some r =>
    refine ⟨r, hr, by simpa [hr] using helig, ?_⟩
    intro taskId' r' hr' _
    by_cases heq : taskId' = taskId
    · subst heq
      obtain rfl := Option.some.inj (hr.symm.trans hr')
      exact Nat.le_refl _
    · rw [honly taskId' heq] at hr'
      cases hr'

/-- One task, handed to a worker. -/
def handed : OutboxWorld Bool :=
  (enqueue {} firstHour "projection" "s" "p").dequeue false 1

/-- The worker's lease has run out and the task is with another. -/
def handedOn : OutboxWorld Bool := { handed with now := 300 }.dequeue true 1

theorem handed_reachable : ((system Bool firstHour).restrict SparesDead).Reachable handed := by
  have hnext : (enqueue (ω := Bool) {} firstHour "projection" "s" "p").outbox.IsNext firstHour 0
      none 1 := by
    apply isNext_of_only
    · decide
    · intro taskId hne
      exact Function.update_of_ne hne _ _
  have hempty : ((system Bool firstHour).restrict SparesDead).Reachable {} := .init rfl
  exact .step (.step hempty ⟨.enqueue .., nofun⟩) ⟨.dequeue _ _ _ _ hnext, nofun⟩

theorem handedOn_reachable : ((system Bool firstHour).restrict SparesDead).Reachable handedOn := by
  have hnext : handed.outbox.IsNext firstHour 300 none 1 := by
    apply isNext_of_only
    · decide
    · intro taskId hne
      exact (Outbox.update_rows_ne hne).trans (Function.update_of_ne hne _ _)
  exact .step (.step handed_reachable ⟨.advance _ 300, nofun⟩) ⟨.dequeue _ _ _ _ hnext, nofun⟩

/-- The worker that was overtaken fails the task after the other gave it up. -/
def raised : OutboxWorld Bool :=
  ((handedOn.call true 1 (.deadLetter "e")).call false 1 (.fail 1 "e" (firstHour 0))).dequeue true 1

theorem handOuts_exclusive_handedOn : Exclusive OUTBOX_LEASE_TIMEOUT (handedOn.history 1) :=
  handOuts_exclusive handedOn_reachable 1

/-- A dead-lettered task is handed out though nobody retried it. -/
theorem dead_task_handed_out : ¬∀ w, (system Bool firstHour).Reachable w →
    ∀ taskId, Exclusive OUTBOX_LEASE_TIMEOUT (w.history taskId) := by
  intro hclaim
  have hnext : ((handedOn.call true 1 (.deadLetter "e")).call false 1
      (.fail 1 "e" (firstHour 0))).outbox.IsNext firstHour 300 none 1 := by
    apply isNext_of_only
    · decide
    · intro taskId hne
      calc
        _ = _ := Outbox.update_rows_ne hne
        _ = _ := Outbox.update_rows_ne hne
        _ = _ := Outbox.update_rows_ne hne
        _ = _ := Outbox.update_rows_ne hne
        _ = none := Function.update_of_ne hne _ _
  have hraised : (system Bool firstHour).Reachable raised :=
    .step (.step (.step handedOn_reachable.of_restrict (.call _ true 1 (.deadLetter "e")))
      (.call _ false 1 (.fail 1 "e" (firstHour 0)))) (.dequeue _ true none 1 hnext)
  have hexclusive := hclaim raised hraised 1
  obtain ⟨x, hx, hrevive⟩ := hexclusive.dead [(.create, 0), (.handOut, 0), (.handOut, 300)]
    [(.fail, 300)] [] 300 .handOut 300 rfl (.inl rfl)
  rw [List.mem_singleton.1 hx] at hrevive
  cases hrevive

end OutboxWorld

end CksRuntime
