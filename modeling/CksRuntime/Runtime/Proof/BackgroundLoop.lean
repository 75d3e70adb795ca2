import CksRuntime.Runtime.BackgroundLoop
import Mathlib.Data.List.Basic

/-!
# Which loops run

Under the lock one loop runs at most, it is the recorded one, and none runs once a `stop` has
returned (`sweeper_controlled`). Without it a loop is lost exactly when a `stop` or a discovering
`start` goes on after another `start` has recorded its own (`orphan_of_clobbers`).
-/

set_option autoImplicit false

namespace CksRuntime.BackgroundLoop

open Transition

variable {w : BackgroundLoop} {c : LoopControl} {supports : Capability → Bool} {t t' : Nat}

/-! ## What a step does -/

@[simp] theorem live_createTask : w.createTask.Live t ↔ w.Live t ∨ t = w.tasks.length := by
  unfold Live createTask
  rw [List.getElem?_append]
  split
  · constructor
    · exact .inl
    · rintro (h | rfl)
      · exact h
      · omega
  · rename_i hlt
    constructor
    · rintro ⟨b, hb⟩
      have := (List.getElem?_eq_some_iff.1 hb).1
      rw [List.length_singleton] at this
      exact .inr (by omega)
    · rintro (⟨b, hb⟩ | rfl)
      · exact absurd (List.getElem?_eq_some_iff.1 hb).1 hlt
      · exact ⟨false, by simp⟩

theorem Live.lt_length (h : w.Live t) : t < w.tasks.length := by
  obtain ⟨b, hb⟩ := h
  exact (List.getElem?_eq_some_iff.1 hb).1

theorem start_cases (c : LoopControl) (supports : Capability → Bool) (w : BackgroundLoop) :
    w.start c supports = w ∨ w.running = false ∧
      (c.discovers = true ∧
        w.start c supports = { w with running := true, discovering := w.discovering + 1 } ∨
      c.discovers = false ∧ w.start c supports = { w with running := true }.createTask) := by
  unfold start
  split
  · exact .inl rfl
  · rename_i hrun
    have hrun : w.running = false := by simpa using hrun
    split
    · exact .inl rfl
    · split
      · rename_i hd
        exact .inr ⟨hrun, .inl ⟨hd, rfl⟩⟩
      · rename_i hd
        exact .inr ⟨hrun, .inr ⟨by simpa using hd, rfl⟩⟩

/-- `stop` waits for the recorded task if it runs. -/
theorem stop_cases (w : BackgroundLoop) :
    (w.task = none ∧ w.stop = { w with running := false }) ∨ ∃ t, w.task = some t ∧
      (w.Live t ∧ w.stop = { w with
        running := false
        tasks := w.tasks.set t (.live true)
        stopping := t :: w.stopping } ∨
      ¬w.Live t ∧ w.stop = { w with running := false }.awaited t) := by
  unfold stop
  cases htask : w.task with
  | none => exact .inl ⟨rfl, rfl⟩
  | some t =>
    refine .inr ⟨t, rfl, ?_⟩
    dsimp only
    split
    · rename_i b hb
      exact .inl ⟨⟨b, hb⟩, rfl⟩
    · rename_i hno
      refine .inr ⟨?_, rfl⟩
      rintro ⟨b, hb⟩
      exact hno b hb

/-- A task of the list after one of it is changed. -/
theorem tasks_set {x y : LoopTask} (h : (w.tasks.set t x)[t']? = some y) :
    t' = t ∧ y = x ∨ t' ≠ t ∧ w.tasks[t']? = some y := by
  by_cases ht : t' = t
  · subst ht
    have hlt := (List.getElem?_eq_some_iff.1 h).1
    rw [List.length_set] at hlt
    rw [List.getElem?_set_self hlt] at h
    exact .inl ⟨rfl, (Option.some.inj h).symm⟩
  · rw [List.getElem?_set_ne (Ne.symm ht)] at h
    exact .inr ⟨ht, h⟩

theorem live_finish {x : LoopTask} (hx : ∀ b, x ≠ .live b) (h : (w.finish t x).Live t') :
    t' ≠ t ∧ w.Live t' := by
  obtain ⟨b, hb⟩ := h
  rcases tasks_set hb with ⟨-, h⟩ | ⟨hne, h⟩
  · exact absurd h.symm (hx b)
  · exact ⟨hne, b, h⟩

/-- Neither the tasks nor the calls that wait. -/
theorem awaited_same (w : BackgroundLoop) (t : Nat) :
    (w.awaited t).tasks = w.tasks ∧ (w.awaited t).stopping = w.stopping ∧
      (w.awaited t).running = w.running ∧ (w.awaited t).discovering = w.discovering := by
  unfold awaited
  split <;> exact ⟨rfl, rfl, rfl, rfl⟩

/-! ## Under the lock -/

/-- The task that runs is the one recorded, and a cancelled one is awaited. -/
structure Controlled (w : BackgroundLoop) : Prop where
  quiet : w.discovering = 0
  recorded : ∀ t, w.Live t → w.task = some t
  cancelled : ∀ t, w.tasks[t]? = some (.live true) → t ∈ w.stopping
  held : w.stopping = [] ∨ ∃ t, w.stopping = [t] ∧ w.task = some t ∧ w.running = false
  runs : w.stopping = [] → ∀ t, w.Live t → w.running = true
  loops : w.running = true → ∃ t, w.task = some t ∧ (w.Live t ∨ w.tasks[t]? = some .raised)

namespace Controlled

theorem of_dead (hquiet : w.discovering = 0) (hdead : ∀ t, ¬w.Live t)
    (hheld : w.stopping = [] ∨ ∃ t, w.stopping = [t] ∧ w.task = some t ∧ w.running = false)
    (hloops : w.running = true → ∃ t, w.task = some t ∧ w.tasks[t]? = some .raised) :
    Controlled w where
  quiet := hquiet
  recorded t ht := absurd ht (hdead t)
  cancelled t ht := absurd ⟨true, ht⟩ (hdead t)
  held := hheld
  runs _ t ht := absurd ht (hdead t)
  loops hrun := by
    obtain ⟨t, htask, hraised⟩ := hloops hrun
    exact ⟨t, htask, .inr hraised⟩

/-- The one loop has come to its end. -/
theorem dead (h : Controlled w) (ht : w.Live t) {x : LoopTask} (hx : ∀ b, x ≠ .live b) :
    ∀ t', ¬(w.finish t x).Live t' := by
  intro t' ht'
  obtain ⟨hne, hlive⟩ := live_finish hx ht'
  exact hne (Option.some.inj ((h.recorded t' hlive).symm.trans (h.recorded t ht)))

theorem start (h : Controlled w) (hfree : w.stopping = []) (hc : c.discovers = false) :
    Controlled (w.start c supports) := by
  rcases start_cases c supports w with hs | ⟨hrun, ⟨hd, -⟩ | ⟨-, hs⟩⟩
  · rw [hs]
    exact h
  · rw [hc] at hd
    cases hd
  · have hdead : ∀ t, ¬w.Live t := by
      intro t ht
      rw [h.runs hfree t ht] at hrun
      cases hrun
    have hnew : ∀ t, (BackgroundLoop.createTask { w with running := true }).Live t →
        t = w.tasks.length := by
      intro t ht
      exact (live_createTask.1 ht).resolve_left (hdead t)
    rw [hs]
    refine ⟨h.quiet, fun t ht => ?_, fun t ht => ?_, .inl hfree, fun _ _ _ => rfl, fun _ => ?_⟩
    · rw [hnew t ht]
      rfl
    · have hlast := hnew t ⟨true, ht⟩
      subst hlast
      simp [createTask] at ht
    · exact ⟨w.tasks.length, rfl, .inl (live_createTask.2 (.inr rfl))⟩

theorem stop (h : Controlled w) (hfree : w.stopping = []) : Controlled w.stop := by
  rcases stop_cases w with ⟨htask, hs⟩ | ⟨t, htask, ⟨hlive, hs⟩ | ⟨hdead, hs⟩⟩
  · rw [hs]
    refine of_dead h.quiet (fun t ht => ?_) (.inl hfree) fun hrun => by cases hrun
    have hrec := h.recorded t ht
    rw [htask] at hrec
    cases hrec
  · rw [hs]
    have hold : ∀ t' b, (w.tasks.set t (.live true))[t']? = some (.live b) → t' = t := by
      intro t' b hb
      rcases tasks_set hb with ⟨ht, -⟩ | ⟨-, hb⟩
      · exact ht
      · exact Option.some.inj ((h.recorded t' ⟨b, hb⟩).symm.trans htask)
    refine ⟨h.quiet, fun t' ht' => ?_, fun t' ht' => ?_, .inr ⟨t, ?_, htask, rfl⟩,
      fun hempty => ?_, fun hrun => by cases hrun⟩
    · obtain ⟨b, hb⟩ := ht'
      rw [hold t' b hb]
      exact htask
    · rw [hold t' true ht']
      exact List.mem_cons_self
    · rw [hfree]
    · cases hempty
  · rw [hs]
    obtain ⟨htasks, hstop, hrun, hq⟩ := awaited_same { w with running := false } t
    refine of_dead (hq.trans h.quiet) (fun t' ht' => ?_) (.inl (hstop.trans hfree)) fun hr => ?_
    · obtain ⟨b, hb⟩ := ht'
      rw [htasks] at hb
      have hrec := h.recorded t' ⟨b, hb⟩
      rw [htask] at hrec
      cases hrec
      exact hdead ⟨b, hb⟩
    · rw [hrun] at hr
      cases hr

theorem stopped (h : Controlled w) (ht : t ∈ w.stopping) (hdead : ¬w.Live t) :
    Controlled (w.stopped t) := by
  obtain hnil | ⟨t', hstopping, htask, hoff⟩ := h.held
  · rw [hnil] at ht
    cases ht
  · rw [hstopping] at ht
    cases List.mem_singleton.1 ht
    obtain ⟨htasks, hstop, hrun, hq⟩ := awaited_same { w with stopping := w.stopping.erase t } t
    refine of_dead (hq.trans h.quiet) (fun t' ht' => ?_) (.inl (hstop.trans ?_)) fun hr => ?_
    · obtain ⟨b, hb⟩ := ht'
      rw [BackgroundLoop.stopped, htasks] at hb
      have hrec := h.recorded t' ⟨b, hb⟩
      rw [htask] at hrec
      cases hrec
      exact hdead ⟨b, hb⟩
    · simp [hstopping]
    · rw [BackgroundLoop.stopped, hrun] at hr
      rw [show w.running = true from hr] at hoff
      cases hoff

theorem step (h : Controlled w) (hlock : c.locked = true) (hc : c.discovers = false)
    {call : LoopCall} {w' : BackgroundLoop} (hst : Step c supports w call w') : Controlled w' := by
  cases hst with
  | start hfree => exact h.start (hfree hlock).1 hc
  | discovered hpos => exact absurd h.quiet (Nat.ne_of_gt hpos)
  | discoveryRaises hpos => exact absurd h.quiet (Nat.ne_of_gt hpos)
  | stop hfree => exact h.stop (hfree hlock).1
  | stopped t ht hdead => exact h.stopped ht hdead
  | ends t ht hoff =>
    refine of_dead h.quiet (h.dead ht (by simp)) h.held fun hrun => ?_
    rw [show w.running = true from hrun] at hoff
    cases hoff
  | turnedOff t ht _ =>
    refine of_dead h.quiet (h.dead ht (by simp)) ?_ fun hrun => by cases hrun
    rcases h.held with hnil | ⟨t', hstopping, htask, -⟩
    · exact .inl hnil
    · exact .inr ⟨t', hstopping, htask, rfl⟩
  | interrupted t ht =>
    have hmem := h.cancelled t ht
    refine of_dead h.quiet (h.dead ⟨true, ht⟩ (by simp)) h.held fun hrun => ?_
    -- only a `stop` cancels it, which has switched it off
    rcases h.held with hnil | ⟨t', -, -, hoff⟩
    · rw [hnil] at hmem
      cases hmem
    · rw [show w.running = true from hrun] at hoff
      cases hoff
  | raises t ht _ =>
    refine of_dead h.quiet (h.dead ht (by simp)) h.held fun _ => ⟨t, h.recorded t ht, ?_⟩
    exact List.getElem?_set_self ht.lt_length

end Controlled

/-- **One loop.** However `start`, `stop` and the loop of a sweeper interleave, the loop that runs
is the recorded one, and `_running` says so unless a `stop` is waiting for it. While `_running`, the
recorded loop runs or has raised. -/
theorem sweeper_controlled {requires : List Capability}
    (hw : (system (.sweeper requires) supports).Reachable w) :
    (∀ t, w.Live t → w.task = some t ∧ (w.running = true ∨ w.stopping = [t])) ∧
      (w.running = true → ∃ t, w.task = some t ∧ (w.Live t ∨ w.tasks[t]? = some .raised)) := by
  have h : Controlled w := by
    refine hw.invariant (fun w hi => ?_) fun w l w' _ h hst => h.step rfl rfl hst
    subst hi
    refine .of_dead rfl (fun t ht => ?_) (.inl rfl) fun hrun => by cases hrun
    obtain ⟨b, hb⟩ := ht
    cases hb
  refine ⟨fun t ht => ⟨h.recorded t ht, ?_⟩, h.loops⟩
  rcases h.held with hnil | ⟨t', hstopping, htask, -⟩
  · exact .inl (h.runs hnil t ht)
  · rw [h.recorded t ht] at htask
    cases htask
    exact .inr hstopping

/-- A `stop` waits for the first loop. -/
theorem sweeper_controlled_stopping :
    let w : BackgroundLoop := ⟨false, some 0, [.live true], [0], 0⟩
    (∀ t, w.Live t → w.task = some t ∧ (w.running = true ∨ w.stopping = [t])) ∧
      (w.running = true → ∃ t, w.task = some t ∧ (w.Live t ∨ w.tasks[t]? = some .raised)) := by
  have hstart : (system (.sweeper [.outbox]) fun _ => true).Reachable
      ⟨true, some 0, [.live false], [], 0⟩ := .step (.init rfl) (.start fun _ => ⟨rfl, rfl⟩)
  exact sweeper_controlled (hstart.step (.stop fun _ => ⟨rfl, rfl⟩))

/-! ## Without it -/

/-- What holds of every kind of loop that is not under the lock and does not raise. -/
structure Sound (c : LoopControl) (w : BackgroundLoop) : Prop where
  recorded : ∀ t, w.task = some t → t < w.tasks.length
  unraised : ∀ t : Nat, w.tasks[t]? ≠ some .raised
  cancelled : ∀ t, w.tasks[t]? = some (.live true) → t ∈ w.stopping
  quiet : c.discovers = false → w.discovering = 0
  idle : c.discovers = false → w.running = false → ∀ t, w.task = some t → w.Live t →
    t ∈ w.stopping

namespace Sound

theorem awaited_eq (h : Sound c w) (t : Nat) : w.awaited t = { w with task := none } := by
  rw [awaited, if_neg (h.unraised t)]

theorem forgets (h : Sound c w) : Sound c { w with task := none } where
  recorded t ht := by cases ht
  unraised := h.unraised
  cancelled := h.cancelled
  quiet := h.quiet
  idle _ _ t ht := by cases ht

theorem createTask (h : Sound c w) (hrun : c.discovers = false → w.running = true) :
    Sound c w.createTask where
  recorded t ht := by
    cases ht
    simp [BackgroundLoop.createTask]
  unraised t ht := by
    unfold BackgroundLoop.createTask at ht
    rw [List.getElem?_append] at ht
    split at ht
    · exact h.unraised t ht
    · cases List.mem_singleton.1 (List.mem_of_getElem? ht)
  cancelled t ht := by
    unfold BackgroundLoop.createTask at ht
    rw [List.getElem?_append] at ht
    split at ht
    · exact h.cancelled t ht
    · cases List.mem_singleton.1 (List.mem_of_getElem? ht)
  quiet := h.quiet
  idle hc hoff := by
    rw [show w.createTask.running = w.running from rfl, hrun hc] at hoff
    cases hoff

/-- A task comes to its end. -/
theorem finish (h : Sound c w) (t : Nat) {x : LoopTask} (hx : ∀ b, x ≠ .live b)
    (hraised : x ≠ .raised) : Sound c (w.finish t x) where
  recorded t' ht' := by
    rw [BackgroundLoop.finish, List.length_set]
    exact h.recorded t' ht'
  unraised t' ht' := by
    rcases tasks_set ht' with ⟨-, hx'⟩ | ⟨-, hold⟩
    · exact hraised hx'.symm
    · exact h.unraised t' hold
  cancelled t' ht' := by
    rcases tasks_set ht' with ⟨-, hx'⟩ | ⟨-, hold⟩
    · exact absurd hx'.symm (hx true)
    · exact h.cancelled t' hold
  quiet := h.quiet
  idle hc hoff t' ht' hlive := h.idle hc hoff t' ht' (live_finish hx hlive).2

theorem stop (h : Sound c w) : Sound c w.stop := by
  have hoff : ∀ (hdead : ∀ t, w.task = some t → ¬w.Live t), Sound c { w with running := false } :=
    fun hdead => ⟨h.recorded, h.unraised, h.cancelled, h.quiet,
      fun _ _ t ht hlive => absurd hlive (hdead t ht)⟩
  rcases stop_cases w with ⟨htask, hs⟩ | ⟨t, htask, ⟨hlive, hs⟩ | ⟨hdead, hs⟩⟩
  · rw [hs]
    refine hoff fun t ht => ?_
    rw [htask] at ht
    cases ht
  · rw [hs]
    refine ⟨fun t' ht' => ?_, fun t' ht' => ?_, fun t' ht' => ?_, h.quiet, fun _ _ t' ht' _ => ?_⟩
    · rw [List.length_set]
      exact h.recorded t' ht'
    · rcases tasks_set ht' with ⟨-, hx⟩ | ⟨-, hold⟩
      · cases hx
      · exact h.unraised t' hold
    · rcases tasks_set ht' with ⟨rfl, -⟩ | ⟨-, hold⟩
      · exact List.mem_cons_self
      · exact List.mem_cons_of_mem _ (h.cancelled t' hold)
    · cases htask.symm.trans ht'
      exact List.mem_cons_self
  · rw [hs, (hoff fun t' ht' => by cases htask.symm.trans ht'; exact hdead).awaited_eq]
    exact forgets (hoff fun t' ht' => by cases htask.symm.trans ht'; exact hdead)

theorem stopped_eq (h : Sound c w) (t : Nat) :
    w.stopped t = { w with stopping := w.stopping.erase t, task := none } := by
  rw [BackgroundLoop.stopped, awaited, if_neg (h.unraised t)]

theorem start (h : Sound c w) : Sound c (w.start c supports) := by
  rcases start_cases c supports w with hs | ⟨-, ⟨hd, hs⟩ | ⟨-, hs⟩⟩
  · rw [hs]
    exact h
  · rw [hs]
    refine ⟨h.recorded, h.unraised, h.cancelled, fun hc => ?_, fun _ hoff => by cases hoff⟩
    rw [hd] at hc
    cases hc
  · rw [hs]
    refine createTask ?_ fun _ => rfl
    exact ⟨h.recorded, h.unraised, h.cancelled, h.quiet, fun _ hoff => by cases hoff⟩

/-- Of a discovering `start` only. -/
theorem with_discovering (h : Sound c w) (hpos : 0 < w.discovering) (n : Nat) :
    Sound c { w with discovering := n } := by
  have hc : c.discovers ≠ false := fun hc => absurd (h.quiet hc) (Nat.ne_of_gt hpos)
  exact ⟨h.recorded, h.unraised, h.cancelled, fun h' => absurd h' hc, fun h' => absurd h' hc⟩

theorem step (h : Sound c w) (hc : c.readsDesired = false) {call : LoopCall} {w' : BackgroundLoop}
    (hst : Step c supports w call w') : Sound c w' := by
  cases hst with
  | start _ => exact h.start
  | discovered hpos =>
    refine (h.with_discovering hpos _).createTask fun hd => ?_
    exact absurd (h.quiet hd) (Nat.ne_of_gt hpos)
  | discoveryRaises hpos => exact h.with_discovering hpos _
  | stop _ => exact h.stop
  | stopped t ht hdead =>
    rw [h.stopped_eq]
    refine ⟨fun t' ht' => (by cases ht'), h.unraised, fun t' ht' => ?_, h.quiet,
      fun _ _ t' ht' => (by cases ht')⟩
    have hne : t' ≠ t := by
      rintro rfl
      exact hdead ⟨true, ht'⟩
    exact (List.mem_erase_of_ne hne).2 (h.cancelled t' ht')
  | ends t _ _ => exact h.finish t (by simp) (by simp)
  | turnedOff t _ hreads =>
    rw [hc] at hreads
    cases hreads
  | interrupted t _ => exact h.finish t (by simp) (by simp)
  | raises t _ hreads =>
    rw [hc] at hreads
    cases hreads

end Sound

/-- A call goes on after another has recorded a loop that still runs and is not waited for. -/
def Clobbers (w : BackgroundLoop) (call : LoopCall) : Prop :=
  (call = .discovered ∨ ∃ t, call = .stopped t) ∧ ∃ t, w.task = some t ∧ w.Live t ∧ t ∉ w.stopping

namespace Orphan

/-- A step that is no such call loses nothing. -/
theorem of_step (hsound : Sound c w) (hno : ∀ t, ¬Orphan w t) {call : LoopCall}
    {w' : BackgroundLoop} (hst : Step c supports w call w') (hclobbers : ¬Clobbers w call) :
    ∀ t, ¬Orphan w' t := by
  rintro t ⟨hlive, hrec, hstopping⟩
  -- a loop that was there is the recorded one, or waited for
  have hold : w.Live t → t ∉ w.stopping → w.task = some t := fun h h' =>
    by_contra fun hne => hno t ⟨h, hne, h'⟩
  cases hst with
  | start _ =>
    rcases start_cases c supports w with hs | ⟨hoff, ⟨-, hs⟩ | ⟨hd, hs⟩⟩
    · rw [hs] at hlive hrec hstopping
      exact hno t ⟨hlive, hrec, hstopping⟩
    · rw [hs] at hlive hrec hstopping
      exact hno t ⟨hlive, hrec, hstopping⟩
    · rw [hs] at hlive hrec hstopping
      rcases live_createTask.1 hlive with h | rfl
      · exact hstopping (hsound.idle hd hoff t (hold h hstopping) h)
      · exact hrec rfl
  | discovered hpos =>
    rcases live_createTask.1 hlive with h | rfl
    · exact hclobbers ⟨.inl rfl, t, hold h hstopping, h, hstopping⟩
    · exact hrec rfl
  | discoveryRaises hpos => exact hno t ⟨hlive, hrec, hstopping⟩
  | stop _ =>
    rcases stop_cases w with ⟨-, hs⟩ | ⟨t', htask, ⟨hlive', hs⟩ | ⟨hdead, hs⟩⟩
    · rw [hs] at hlive hrec hstopping
      exact hno t ⟨hlive, hrec, hstopping⟩
    · rw [hs] at hlive hrec hstopping
      refine hno t ⟨?_, hrec, fun hmem => hstopping (List.mem_cons_of_mem _ hmem)⟩
      obtain ⟨b, hb⟩ := hlive
      rcases tasks_set hb with ⟨rfl, -⟩ | ⟨-, hb⟩
      · exact hlive'
      · exact ⟨b, hb⟩
    · obtain ⟨htasks, hstop, -, -⟩ := awaited_same { w with running := false } t'
      rw [hs, hstop] at hstopping
      rw [hs, Live, htasks] at hlive
      cases htask.symm.trans (hold hlive hstopping)
      exact hdead hlive
  | stopped t' ht hdead =>
    rw [hsound.stopped_eq] at hlive hrec hstopping
    have hne : t ≠ t' := by
      rintro rfl
      exact hdead hlive
    have hnot : t ∉ w.stopping := fun h => hstopping ((List.mem_erase_of_ne hne).2 h)
    exact hclobbers ⟨.inr ⟨t', rfl⟩, t, hold hlive hnot, hlive, hnot⟩
  | ends t' _ _ => exact hno t ⟨(live_finish (by simp) hlive).2, hrec, hstopping⟩
  | turnedOff t' _ _ => exact hno t ⟨(live_finish (by simp) hlive).2, hrec, hstopping⟩
  | interrupted t' _ => exact hno t ⟨(live_finish (by simp) hlive).2, hrec, hstopping⟩
  | raises t' _ _ => exact hno t ⟨(live_finish (by simp) hlive).2, hrec, hstopping⟩

theorem of_clobbers (hsound : Sound c w) {call : LoopCall} {w' : BackgroundLoop}
    (hst : Step c supports w call w') (hclobbers : Clobbers w call) : ∃ t, Orphan w' t := by
  obtain ⟨rfl | ⟨t', rfl⟩, t, htask, hlive, hstopping⟩ := hclobbers
  · cases hst
    refine ⟨t, live_createTask.2 (.inl hlive), fun heq => ?_, hstopping⟩
    cases heq
    exact Nat.lt_irrefl _ (hsound.recorded _ htask)
  · cases hst
    rw [hsound.stopped_eq]
    exact ⟨t, hlive, fun heq => (by cases heq), fun h => hstopping (List.mem_of_mem_erase h)⟩

/-- No `stop` finds it. -/
theorem step (hsound : Sound c w) (hc : c.readsDesired = false) (h : Orphan w t) {call : LoopCall}
    {w' : BackgroundLoop} (hst : Step c supports w call w') (hends : call ≠ .ends t) :
    Orphan w' t := by
  obtain ⟨hlive, hrec, hstopping⟩ := h
  have hcreate : ∀ {v : BackgroundLoop}, v.tasks = w.tasks → v.stopping = w.stopping →
      Orphan v.createTask t := by
    intro v htasks hstop
    refine ⟨live_createTask.2 (.inl ?_), fun heq => ?_, ?_⟩
    · rw [Live, htasks]
      exact hlive
    · have hlt := hlive.lt_length
      rw [← htasks] at hlt
      exact Nat.ne_of_gt hlt (Option.some.inj heq)
    · rw [show v.createTask.stopping = v.stopping from rfl, hstop]
      exact hstopping
  have hfinish : ∀ t' x, t ≠ t' → Orphan (w.finish t' x) t := by
    intro t' x hne
    obtain ⟨b, hb⟩ := hlive
    exact ⟨⟨b, (List.getElem?_set_ne (Ne.symm hne)).trans hb⟩, hrec, hstopping⟩
  cases hst with
  | start _ =>
    rcases start_cases c supports w with hs | ⟨-, ⟨-, hs⟩ | ⟨-, hs⟩⟩
    · rw [hs]
      exact ⟨hlive, hrec, hstopping⟩
    · rw [hs]
      exact ⟨hlive, hrec, hstopping⟩
    · rw [hs]
      exact hcreate rfl rfl
  | discovered hpos => exact hcreate rfl rfl
  | discoveryRaises hpos => exact ⟨hlive, hrec, hstopping⟩
  | stop _ =>
    rcases stop_cases w with ⟨-, hs⟩ | ⟨t', htask, ⟨-, hs⟩ | ⟨hdead, hs⟩⟩
    · rw [hs]
      exact ⟨hlive, hrec, hstopping⟩
    · have hne : t ≠ t' := by
        rintro rfl
        exact hrec htask
      rw [hs]
      obtain ⟨b, hb⟩ := hlive
      refine ⟨⟨b, (List.getElem?_set_ne (Ne.symm hne)).trans hb⟩, hrec, fun hmem => ?_⟩
      exact (List.mem_cons.1 hmem).elim hne hstopping
    · rw [hs, awaited, if_neg (hsound.unraised t')]
      exact ⟨hlive, fun heq => (by cases heq), hstopping⟩
  | stopped t' ht hdead =>
    rw [hsound.stopped_eq]
    exact ⟨hlive, fun heq => (by cases heq), fun h => hstopping (List.mem_of_mem_erase h)⟩
  | ends t' _ _ => exact hfinish t' _ fun heq => hends (by rw [heq])
  | turnedOff t' _ hreads =>
    rw [hc] at hreads
    cases hreads
  | interrupted t' ht' =>
    refine hfinish t' _ ?_
    rintro rfl
    exact hstopping (hsound.cancelled t ht')
  | raises t' _ hreads =>
    rw [hc] at hreads
    cases hreads

end Orphan

theorem Sound.reachable (hc : c.readsDesired = false) (hw : (system c supports).Reachable w) :
    Sound c w := by
  refine hw.invariant (fun w hi => ?_) fun w l w' _ h hst => h.step hc hst
  subst hi
  exact ⟨fun t ht => (by cases ht), fun t ht => (by cases ht), fun t ht => (by cases ht),
    fun _ => rfl, fun _ _ t ht => (by cases ht)⟩

/-- **A lost loop.** Without the lock, runs without such a call lose no loop. Each such call loses
one for good: no later `stop` waits for it, and it ends only when it finds `_running` off itself. -/
theorem orphan_of_clobbers (hc : c.readsDesired = false) :
    (∀ w, ((system c supports).restrict fun w call => ¬Clobbers w call).Reachable w →
      ∀ t, ¬Orphan w t) ∧
    ∀ w call w', (system c supports).Reachable w → Step c supports w call w' →
      Clobbers w call → ∃ t, Orphan w' t ∧ ∀ calls w'',
        (system c supports).Path w' calls w'' → .ends t ∉ calls → Orphan w'' t := by
  refine ⟨fun w hw => ?_, fun w call w' hw hst hclobbers => ?_⟩
  · refine hw.invariant (P := fun w => ∀ t, ¬Orphan w t) (fun w hi t ho => ?_)
      fun w l w' hr hno hst => ?_
    · subst hi
      obtain ⟨b, hb⟩ := ho.1
      cases hb
    · exact Orphan.of_step (.reachable hc hr.of_restrict) hno hst.1 hst.2
  · obtain ⟨t, ht⟩ := Orphan.of_clobbers (.reachable hc hw) hst hclobbers
    refine ⟨t, ht, fun calls w'' hpath hends => ?_⟩
    refine hpath.invariant (P := fun v => Orphan v t) (hw.step hst) ht
      fun v l v' hl hr ho hst' => ?_
    exact Orphan.step (.reachable hc hr) hc ho hst' fun heq => hends (by rwa [← heq])

/-- A collector is started again before its `stop` is through. -/
theorem orphan_of_clobbers_collector :
    ∃ w t, (system .garbageCollector fun _ => true).Reachable w ∧ Orphan w t ∧ w.task = none := by
  have hfree : ∀ v : BackgroundLoop, v.Unlocked .garbageCollector := fun v h => by cases h
  have h₁ : (system .garbageCollector fun _ => true).Reachable
      ⟨true, some 0, [.live false], [], 0⟩ := .step (.init rfl) (.start (hfree _))
  have h₂ := h₁.step (.stop (hfree _))
  have h₃ := h₂.step (.start (hfree _))
  have h₄ : (system .garbageCollector fun _ => true).Reachable
      ⟨true, some 1, [.interrupted, .live false], [0], 0⟩ := h₃.step (.interrupted 0 rfl)
  have hst : Step .garbageCollector (fun _ => true)
      ⟨true, some 1, [.interrupted, .live false], [0], 0⟩ (.stopped 0)
      ⟨true, none, [.interrupted, .live false], [], 0⟩ := by
    refine .stopped 0 List.mem_cons_self ?_
    rintro ⟨b, hb⟩
    cases hb
  obtain ⟨t, ht, -⟩ := (orphan_of_clobbers rfl).2 _ _ _ h₄ hst
    ⟨.inr ⟨0, rfl⟩, 1, rfl, ⟨false, rfl⟩, by decide⟩
  exact ⟨_, t, h₄.step hst, ht, rfl⟩

end CksRuntime.BackgroundLoop
