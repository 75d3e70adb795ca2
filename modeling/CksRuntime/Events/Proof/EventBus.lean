import CksRuntime.Events.EventBus
import CksRuntime.Lib.LiveList
import Mathlib.Data.List.Induction
import Mathlib.Data.List.Nodup

/-!
# What a handler is called with

A `publish` calls a handler that stays subscribed once for each list it is in, with one exception:
when a handler it has already called is unsubscribed meanwhile, the next one moves behind it and is
left out (`called_iff`).
-/

set_option autoImplicit false

namespace CksRuntime.EventBus

open LiveList

variable {E T H : Type} {bus : EventBus E T H} {i : Nat} {e : E} {g : Bool} {k : Nat} {h : H}

theorem publishing_setPublishing (i j : Nat) (p : Option (Publishing E)) :
    (bus.setPublishing i p).publishing j = if j = i then p else bus.publishing j := by
  by_cases hj : j = i
  · subst hj
    simp [setPublishing]
  · simp [setPublishing, hj]

/-- A number is that of one call, which has called nothing of the lists before it. -/
structure Numbered (bus : EventBus E T H) : Prop where
  publishing : ∀ i p, bus.publishing i = some p → i < bus.published
  called : ∀ i g h, (i, g, h) ∈ bus.called → i < bus.published
  ahead : ∀ i p h, bus.publishing i = some p →
    (p.index = 0 → (i, p.onGlobal, h) ∉ bus.called) ∧
      (p.onGlobal = false → (i, true, h) ∉ bus.called)

theorem Numbered.of_same {bus' : EventBus E T H} (hn : Numbered bus)
    (hpub : bus'.publishing = bus.publishing) (hpubd : bus'.published = bus.published)
    (hcalled : bus'.called = bus.called) : Numbered bus' where
  publishing i p hp := by
    rw [hpub] at hp
    rw [hpubd]
    exact hn.publishing i p hp
  called i g h hmem := by
    rw [hcalled] at hmem
    rw [hpubd]
    exact hn.called i g h hmem
  ahead i p h hp := by
    rw [hpub] at hp
    rw [hcalled]
    exact hn.ahead i p h hp

variable {types : EventTypes E T}

theorem resume_run {p : Publishing E} (hp : bus.publishing i = some p) :
    resume types i bus = match (bus.subscribers (listed types p.event p.onGlobal))[p.index]? with
      | some handler => { bus.setPublishing i (some { p with index := p.index + 1 }) with
          called := bus.called ++ [(i, p.onGlobal, handler)] }
      | none => bus.setPublishing i
          (if p.onGlobal then none else some { p with onGlobal := true, index := 0 }) := by
  unfold resume
  generalize bus.publishing i = x at hp ⊢
  subst hp
  rfl

theorem Numbered.goes_on (hn : Numbered bus) {p : Publishing E} (hp : bus.publishing i = some p)
    (x : H) : Numbered { bus.setPublishing i (some { p with index := p.index + 1 }) with
      called := bus.called ++ [(i, p.onGlobal, x)] } where
  publishing j q hq := by
    replace hq := (publishing_setPublishing i j _).symm.trans hq
    split at hq
    · rename_i hj
      rw [hj]
      exact hn.publishing i p hp
    · exact hn.publishing j q hq
  called j g' h' hmem := by
    rcases List.mem_append.1 hmem with hmem | hmem
    · exact hn.called j g' h' hmem
    · cases List.mem_singleton.1 hmem
      exact hn.publishing i p hp
  ahead j q h' hq := by
    replace hq := (publishing_setPublishing i j _).symm.trans hq
    split at hq
    · rename_i hj
      subst hj
      cases hq
      refine ⟨fun h0 => absurd h0 (Nat.succ_ne_zero _), fun hglobal hmem => ?_⟩
      rcases List.mem_append.1 hmem with hmem | hmem
      · exact (hn.ahead j p h' hp).2 hglobal hmem
      · have htrue : true = p.onGlobal := congrArg (·.2.1) (List.mem_singleton.1 hmem)
        have hfalse : p.onGlobal = false := hglobal
        rw [hfalse] at htrue
        cases htrue
    · rename_i hj
      have hold := hn.ahead j q h' hq
      have hother : ∀ g', (j, g', h') ∉ [(i, p.onGlobal, x)] := fun g' hmem => by
        cases List.mem_singleton.1 hmem
        exact hj rfl
      refine ⟨fun h0 hmem => ?_, fun hglobal hmem => ?_⟩
      · rcases List.mem_append.1 hmem with hmem | hmem
        · exact hold.1 h0 hmem
        · exact hother _ hmem
      · rcases List.mem_append.1 hmem with hmem | hmem
        · exact hold.2 hglobal hmem
        · exact hother _ hmem

theorem Numbered.goes_over (hn : Numbered bus) {p : Publishing E}
    (hp : bus.publishing i = some p) : Numbered (bus.setPublishing i
      (if p.onGlobal then none else some { p with onGlobal := true, index := 0 })) where
  publishing j q hq := by
    rw [publishing_setPublishing] at hq
    split at hq
    · rename_i hj
      rw [hj]
      exact hn.publishing i p hp
    · exact hn.publishing j q hq
  called := hn.called
  ahead j q h' hq := by
    rw [publishing_setPublishing] at hq
    split at hq
    · rename_i hj
      subst hj
      split at hq
      · cases hq
      · rename_i hglobal
        cases hq
        exact ⟨fun _ => (hn.ahead j p h' hp).2 (by simpa using hglobal), fun h => by cases h⟩
    · exact hn.ahead j q h' hq

section

variable [DecidableEq H]

theorem callsOf_append_ne {bus' : EventBus E T H} {j : Nat} {g' : Bool} {x : H}
    (hcalled : bus'.called = bus.called ++ [(j, g', x)]) (hne : (j, g', x) ≠ (i, g, h)) :
    bus'.callsOf i g h = bus.callsOf i g h := by
  rw [callsOf, callsOf, hcalled, List.count_append, List.count_singleton,
    if_neg (by simpa using hne)]
  rfl

theorem callsOf_append_self {bus' : EventBus E T H}
    (hcalled : bus'.called = bus.called ++ [(i, g, h)]) :
    bus'.callsOf i g h = bus.callsOf i g h + 1 := by
  rw [callsOf, callsOf, hcalled, List.count_append, List.count_singleton, if_pos (by simp)]

end

variable [DecidableEq T]

theorem subscribers_onType (bus : EventBus E T H) (t t' : T) (f : List H → List H) :
    (bus.onType t f).subscribers t' =
      if t' = t then f (bus.subscribers t) else bus.subscribers t' := by
  by_cases ht : t' = t
  · subst ht
    simp [onType]
  · simp [onType, ht]

variable [DecidableEq H]

/-! ## The subscribers -/

/-- A handler is in a list at most once. -/
def Distinct (bus : EventBus E T H) : Prop := ∀ t, (bus.subscribers t).Nodup

/-- What a step does to a list: nothing, or one handler more or less. -/
theorem subscribers_step (types : EventTypes E T) (bus : EventBus E T H) (t : T) (call : BusCall E T H) :
    ((∀ h', call = .unsubscribe t h' → h' ∉ bus.subscribers t) ∧
      (step types bus call).subscribers t = bus.subscribers t) ∨
    (∃ h', call = .subscribe t h' ∧ h' ∉ bus.subscribers t ∧
      (step types bus call).subscribers t = bus.subscribers t ++ [h']) ∨
    ∃ h', call = .unsubscribe t h' ∧ h' ∈ bus.subscribers t ∧
      (step types bus call).subscribers t = (bus.subscribers t).erase h' := by
  cases call with
  | subscribe t' h' =>
    have hsub := subscribers_onType bus t' t fun handlers =>
      if h' ∉ handlers then handlers ++ [h'] else handlers
    by_cases ht : t = t'
    · subst ht
      rw [if_pos rfl] at hsub
      -- a handler that is there is not added again
      by_cases hmem : h' ∈ bus.subscribers t
      · rw [if_neg (not_not.2 hmem)] at hsub
        exact .inl ⟨by simp, hsub⟩
      · rw [if_pos hmem] at hsub
        exact .inr (.inl ⟨h', rfl, hmem, hsub⟩)
    · rw [if_neg ht] at hsub
      exact .inl ⟨by simp, hsub⟩
  | unsubscribe t' h' =>
    have hsub := subscribers_onType bus t' t fun handlers =>
      if h' ∈ handlers then handlers.erase h' else handlers
    by_cases ht : t = t'
    · subst ht
      rw [if_pos rfl] at hsub
      by_cases hmem : h' ∈ bus.subscribers t
      · rw [if_pos hmem] at hsub
        exact .inr (.inr ⟨h', rfl, hmem, hsub⟩)
      · rw [if_neg hmem] at hsub
        refine .inl ⟨fun x hx => ?_, hsub⟩
        cases hx
        exact hmem
    · rw [if_neg ht] at hsub
      refine .inl ⟨fun x hx => ?_, hsub⟩
      cases hx
      exact absurd rfl ht
  | clear => exact .inl ⟨by simp, rfl⟩
  | publish e => exact .inl ⟨by simp, rfl⟩
  | resume i =>
    refine .inl ⟨by simp, ?_⟩
    cases hp : bus.publishing i with
    | none => rw [step, resume, hp]
    | some p =>
      rw [step, resume_run hp]
      cases (bus.subscribers (listed types p.event p.onGlobal))[p.index]? <;> rfl
  | raises i => exact .inl ⟨by simp, rfl⟩

theorem Distinct.step (hd : Distinct bus) (call : BusCall E T H) :
    Distinct (step types bus call) := by
  intro t
  rcases subscribers_step types bus t call with
    ⟨-, hs⟩ | ⟨h', -, hnew, hs⟩ | ⟨h', -, -, hs⟩
  · rw [hs]
    exact hd t
  · rw [hs]
    exact List.Nodup.append (hd t) (List.nodup_singleton h') fun a ha hb =>
      hnew (by rw [← List.mem_singleton.1 hb]; exact ha)
  · rw [hs]
    exact (hd t).erase h'

/-! ## The calls of `publish` -/

theorem Numbered.step (hn : Numbered bus) (call : BusCall E T H) :
    Numbered (step types bus call) := by
  cases call with
  | subscribe t h => exact hn.of_same rfl rfl rfl
  | unsubscribe t h => exact hn.of_same rfl rfl rfl
  | clear => exact hn.of_same rfl rfl rfl
  | publish e =>
    refine ⟨fun j p hp => ?_, fun j g h hmem => Nat.lt_succ_of_lt (hn.called j g h hmem),
      fun j p h hp => ?_⟩
    · by_cases hj : j = bus.published
      · rw [hj]
        exact Nat.lt_succ_self _
      · refine Nat.lt_succ_of_lt (hn.publishing j p ?_)
        rw [← hp]
        exact (Function.update_of_ne hj _ _).symm
    · by_cases hj : j = bus.published
      -- a number just given has called nobody
      · have hnew : ∀ g, (j, g, h) ∉ bus.called := fun g hmem =>
          absurd (hn.called j g h hmem) (by omega)
        exact ⟨fun _ => hnew _, fun _ => hnew _⟩
      · refine hn.ahead j p h ?_
        rw [← hp]
        exact (Function.update_of_ne hj _ _).symm
  | resume i =>
    cases hp : bus.publishing i with
    | none =>
      rw [EventBus.step, resume, hp]
      exact hn
    | some p =>
      rw [EventBus.step, resume_run hp]
      cases hx : (bus.subscribers (listed types p.event p.onGlobal))[p.index]? with
      | some x => exact hn.goes_on hp x
      | none => exact hn.goes_over hp
  | raises i =>
    have hkept : ∀ j p, (bus.setPublishing i none).publishing j = some p →
        bus.publishing j = some p := by
      intro j p hp
      rw [publishing_setPublishing] at hp
      split at hp
      · cases hp
      · exact hp
    exact ⟨fun j p hp => hn.publishing j p (hkept j p hp), hn.called,
      fun j p h hp => hn.ahead j p h (hkept j p hp)⟩

/-! ## A handler that stays -/

/-- The handlers of the list that `publish` is at. -/
def handlers (types : EventTypes E T) (bus : EventBus E T H) (e : E) (g : Bool) : List H :=
  bus.subscribers (listed types e g)

/-- A step at the list: `publish` calls the next handler, or the list may change. -/
theorem step_at (hn : Numbered bus) {call : BusCall E T H} {k' : Nat} (hat : bus.At i e g k)
    (hat' : (step types bus call).At i e g k') :
    (∃ x, (handlers types bus e g)[k]? = some x ∧ k' = k + 1 ∧
      handlers types (step types bus call) e g = handlers types bus e g ∧
      (step types bus call).called = bus.called ++ [(i, g, x)]) ∨
    (k' = k ∧ ∀ h, (step types bus call).callsOf i g h = bus.callsOf i g h) := by
  have hsame : ∀ {bus' : EventBus E T H}, bus'.publishing i = bus.publishing i →
      bus'.At i e g k' → k' = k := by
    intro bus' hpub h
    rw [At, hpub, hat] at h
    cases h
    rfl
  cases call with
  | subscribe t h' => exact .inr ⟨hsame rfl hat', fun _ => rfl⟩
  | unsubscribe t h' => exact .inr ⟨hsame rfl hat', fun _ => rfl⟩
  | clear => exact .inr ⟨hsame rfl hat', fun _ => rfl⟩
  | publish e' =>
    have hi : i ≠ bus.published := Nat.ne_of_lt (hn.publishing i _ hat)
    exact .inr ⟨hsame (Function.update_of_ne hi _ _) hat', fun _ => rfl⟩
  | raises j =>
    have hj : i ≠ j := by
      rintro rfl
      have hnone := hat'.symm.trans (publishing_setPublishing i i none)
      rw [if_pos rfl] at hnone
      cases hnone
    exact .inr ⟨hsame (Function.update_of_ne hj _ _) hat', fun _ => rfl⟩
  | resume j =>
    cases hp : bus.publishing j with
    | none =>
      rw [step, resume, hp] at hat' ⊢
      exact .inr ⟨hsame rfl hat', fun _ => rfl⟩
    | some p =>
      rw [step, resume_run hp] at hat' ⊢
      by_cases hj : i = j
      · subst hj
        have heq := hp.symm.trans hat
        cases heq
        dsimp only at hat' ⊢
        cases hx : (bus.subscribers (listed types e g))[k]? with
        | some x =>
          rw [hx] at hat'
          have hk := hat'.symm.trans (Function.update_self i _ _)
          cases hk
          exact .inl ⟨x, hx, rfl, rfl, rfl⟩
        | none =>
          rw [hx] at hat'
          -- it has gone over to the other list, or returned
          have hk := hat'.symm.trans (Function.update_self i _ _)
          cases g <;> cases hk
      · cases hx : (bus.subscribers (listed types p.event p.onGlobal))[p.index]? with
        | some x =>
          rw [hx] at hat'
          refine .inr ⟨hsame (Function.update_of_ne hj _ _) hat', fun h => ?_⟩
          exact callsOf_append_ne rfl fun heq => hj (congrArg Prod.fst heq).symm
        | none =>
          rw [hx] at hat'
          exact .inr ⟨hsame (Function.update_of_ne hj _ _) hat', fun _ => rfl⟩

/-- What has become of the handler so far. -/
structure Waits (types : EventTypes E T) (bus : EventBus E T H) (i : Nat) (e : E) (g : Bool)
    (k : Nat) (h : H) : Prop where
  ahead : h ∈ (handlers types bus e g).drop k
  calls : bus.callsOf i g h = 0

/-- It is behind, called so often. -/
structure Behind (types : EventTypes E T) (bus : EventBus E T H) (i : Nat) (e : E) (g : Bool)
    (k : Nat) (h : H) (n : Nat) : Prop where
  behind : h ∈ (handlers types bus e g).take k
  calls : bus.callsOf i g h = n

/-- A handler that `publish` has passed is unsubscribed, and this one is next. -/
def Skips (types : EventTypes E T) (bus : EventBus E T H) (e : E) (g : Bool) (k : Nat) (h : H)
    (call : BusCall E T H) : Prop :=
  ∃ h', call = .unsubscribe (listed types e g) h' ∧ h' ∈ (handlers types bus e g).take k ∧
    ((handlers types bus e g).drop k).head? = some h

/-- Where a handler that is not unsubscribed ends up. -/
theorem mem_handlers_step {call : BusCall E T H} (k : Nat)
    (hstays : call ≠ .unsubscribe (listed types e g) h) :
    (h ∈ (handlers types bus e g).take k → h ∈ (handlers types (step types bus call) e g).take k) ∧
    (h ∈ (handlers types bus e g).drop k →
      (Skips types bus e g k h call → h ∈ (handlers types (step types bus call) e g).take k) ∧
      (¬Skips types bus e g k h call → h ∈ (handlers types (step types bus call) e g).drop k)) := by
  rcases subscribers_step types bus (listed types e g) call with
    ⟨hnone, hs⟩ | ⟨h', rfl, hnew, hs⟩ | ⟨h', rfl, hmem, hs⟩
  · rw [handlers, handlers, hs]
    refine ⟨id, fun hahead => ⟨fun hskip => ?_, fun _ => hahead⟩⟩
    obtain ⟨h', hcall, hmem, -⟩ := hskip
    exact absurd (List.mem_of_mem_take hmem) (hnone h' hcall)
  · rw [handlers, handlers, hs]
    refine ⟨fun hbehind => mem_take_append hbehind _, fun hahead => ⟨fun hskip => ?_, fun _ =>
      mem_drop_append hahead _⟩⟩
    obtain ⟨h', hcall, -⟩ := hskip
    cases hcall
  · have hne : h ≠ h' := fun heq => hstays (by rw [heq])
    rw [handlers, handlers, hs]
    -- the one that leaves is behind the index, and all behind it move up, or ahead
    by_cases hpassed : h' ∈ (bus.subscribers (listed types e g)).take k
    · rw [take_erase_passed hpassed, drop_erase_passed hpassed]
      refine ⟨fun hbehind => List.mem_append_left _ ((List.mem_erase_of_ne hne).2 hbehind),
        fun hahead => ?_⟩
      cases hrest : (bus.subscribers (listed types e g)).drop k with
      | nil =>
        rw [hrest] at hahead
        cases hahead
      | cons x rest =>
        have hhead : ((handlers types bus e g).drop k).head? = some x := by
          rw [handlers, hrest]
          rfl
        rw [hrest] at hahead
        refine ⟨?_, fun hno => ?_⟩
        · rintro ⟨-, -, -, hnext⟩
          cases hhead.symm.trans hnext
          exact List.mem_append_right _ (by simp)
        · rcases List.mem_cons.1 hahead with rfl | hmore
          · exact absurd ⟨h', rfl, hpassed, hhead⟩ hno
          · exact hmore
    · rw [take_erase_ahead hpassed, drop_erase_ahead hpassed]
      refine ⟨id, fun hahead => ⟨fun hskip => ?_, fun _ => (List.mem_erase_of_ne hne).2 hahead⟩⟩
      obtain ⟨x, hcall, hx, -⟩ := hskip
      cases hcall
      exact absurd hx hpassed

/-! ## One step of it -/

section

variable {call : BusCall E T H} {k' : Nat} (hn : Numbered bus) (hd : Distinct bus)
  (hat : bus.At i e g k) (hat' : (step types bus call).At i e g k')
  (hstays : call ≠ .unsubscribe (listed types e g) h)

include hn hd hat hat' hstays

theorem Behind.step {n : Nat} (hb : Behind types bus i e g k h n) :
    Behind types (step types bus call) i e g k' h n := by
  rcases step_at hn hat hat' with ⟨x, hx, rfl, hhandlers, hcalled⟩ | ⟨rfl, hcalls⟩
  · have hne : x ≠ h := by
      rintro rfl
      refine disjoint (hd _) hb.behind ?_
      rw [handlers] at hx
      rw [drop_of_getElem? hx]
      exact List.mem_cons_self
    refine ⟨?_, ?_⟩
    · rw [hhandlers, take_of_getElem? hx]
      exact List.mem_append_left _ hb.behind
    · rw [callsOf_append_ne hcalled (by simpa using hne)]
      exact hb.calls
  · exact ⟨(mem_handlers_step k' hstays).1 hb.behind, (hcalls h).trans hb.calls⟩

theorem Waits.step (hw : Waits types bus i e g k h) :
    (Skips types bus e g k h call → Behind types (step types bus call) i e g k' h 0) ∧
    (¬Skips types bus e g k h call → Waits types (step types bus call) i e g k' h ∨
      Behind types (step types bus call) i e g k' h 1) := by
  rcases step_at hn hat hat' with ⟨x, hx, rfl, hhandlers, hcalled⟩ | ⟨rfl, hcalls⟩
  · refine ⟨fun hskip => ?_, fun _ => ?_⟩
    · -- a step that removes a handler calls none
      obtain ⟨h', rfl, -⟩ := hskip
      have hlen := congrArg List.length hcalled
      rw [List.length_append] at hlen
      exact absurd hlen (by change bus.called.length ≠ _; simp)
    · have hahead := hw.ahead
      rw [drop_of_getElem? hx] at hahead
      rcases List.mem_cons.1 hahead with rfl | hmore
      · refine .inr ⟨?_, ?_⟩
        · rw [hhandlers, take_of_getElem? hx]
          exact List.mem_append_right _ List.mem_cons_self
        · rw [callsOf_append_self hcalled, hw.calls]
      · have hne : x ≠ h := by
          rintro rfl
          have hnodup := List.Nodup.sublist (List.drop_sublist k _) (hd (listed types e g))
          rw [show (bus.subscribers (listed types e g)).drop k = _ from drop_of_getElem? hx] at hnodup
          exact (List.nodup_cons.1 hnodup).1 hmore
        refine .inl ⟨?_, ?_⟩
        · rw [hhandlers]
          exact hmore
        · rw [callsOf_append_ne hcalled (by simpa using hne)]
          exact hw.calls
  · have hmem := (mem_handlers_step k' hstays).2 hw.ahead
    exact ⟨fun hskip => ⟨hmem.1 hskip, (hcalls h).trans hw.calls⟩,
      fun hno => .inl ⟨hmem.2 hno, (hcalls h).trans hw.calls⟩⟩

end

/-! ## A whole run -/

theorem run_append (calls : List (BusCall E T H)) (call : BusCall E T H) :
    run types (calls ++ [call]) = step types (run types calls) call := by
  simp [run]

theorem run_sound (types : EventTypes E T) (calls : List (BusCall E T H)) :
    Numbered (run types calls) ∧ Distinct (run types calls) := by
  induction calls using List.reverseRecOn with
  | nil =>
    refine ⟨⟨fun i p hp => ?_, fun i g h hmem => ?_, fun i p h hp => ?_⟩, fun t => List.nodup_nil⟩
    · cases hp
    · cases hmem
    · cases hp
  | append_singleton calls call ih =>
    rw [run_append]
    exact ⟨ih.1.step call, ih.2.step call⟩

/-- The next handler was moved behind the `publish` at a step of `calls`. -/
def Skipped (types : EventTypes E T) (before calls : List (BusCall E T H)) (i : Nat) (e : E)
    (g : Bool) (h : H) : Prop :=
  ∃ m k call, calls[m]? = some call ∧ (run types (before ++ calls.take m)).At i e g k ∧
    Skips types (run types (before ++ calls.take m)) e g k h call

variable {before calls : List (BusCall E T H)}

theorem skipped_append (call : BusCall E T H) :
    Skipped types before (calls ++ [call]) i e g h ↔
      Skipped types before calls i e g h ∨
        ∃ k, (run types (before ++ calls)).At i e g k ∧
          Skips types (run types (before ++ calls)) e g k h call := by
  constructor
  · rintro ⟨m, k, c, hc, hat, hskip⟩
    by_cases hm : m < calls.length
    · rw [List.take_append_of_le_length (Nat.le_of_lt hm)] at hat hskip
      rw [List.getElem?_append_left hm] at hc
      exact .inl ⟨m, k, c, hc, hat, hskip⟩
    · have hlt := (List.getElem?_eq_some_iff.1 hc).1
      rw [List.length_append] at hlt
      have hm' : m = calls.length := by
        change m < calls.length + 1 at hlt
        omega
      subst hm'
      rw [List.getElem?_append_right (Nat.le_refl _), Nat.sub_self] at hc
      cases hc
      rw [List.take_left] at hat hskip
      exact .inr ⟨k, hat, hskip⟩
  · rintro (⟨m, k, c, hc, hat, hskip⟩ | ⟨k, hat, hskip⟩)
    · have hm := (List.getElem?_eq_some_iff.1 hc).1
      refine ⟨m, k, c, ?_, ?_, ?_⟩
      · rw [List.getElem?_append_left hm]
        exact hc
      · rw [List.take_append_of_le_length (Nat.le_of_lt hm)]
        exact hat
      · rw [List.take_append_of_le_length (Nat.le_of_lt hm)]
        exact hskip
    · refine ⟨calls.length, k, call, ?_, ?_, ?_⟩
      · rw [List.getElem?_append_right (Nat.le_refl _), Nat.sub_self]
        rfl
      · rw [List.take_left]
        exact hat
      · rw [List.take_left]
        exact hskip

omit [DecidableEq T] in
theorem Behind.not_skips {n : Nat} {call : BusCall E T H} (hd : Distinct bus)
    (hb : Behind types bus i e g k h n) : ¬Skips types bus e g k h call := by
  rintro ⟨-, -, -, hhead⟩
  exact disjoint (hd _) hb.behind (List.mem_of_mem_head? hhead)

/-- What has become of the handler, and why. -/
theorem run_handler (hat : (run types before).At i e g 0)
    (hsub : h ∈ handlers types (run types before) e g)
    (hstays : ∀ call ∈ calls, call ≠ .unsubscribe (listed types e g) h)
    (hthere : ∀ m ≤ calls.length, ∃ k, (run types (before ++ calls.take m)).At i e g k) :
    ∃ k, (run types (before ++ calls)).At i e g k ∧
      (¬Skipped types before calls i e g h ∧
          (Waits types (run types (before ++ calls)) i e g k h ∨
            Behind types (run types (before ++ calls)) i e g k h 1) ∨
        Skipped types before calls i e g h ∧
          Behind types (run types (before ++ calls)) i e g k h 0) := by
  induction calls using List.reverseRecOn with
  | nil =>
    rw [List.append_nil]
    refine ⟨0, hat, .inl ⟨?_, .inl ⟨hsub, ?_⟩⟩⟩
    · rintro ⟨m, k, call, hcall, -⟩
      cases hcall
    · exact List.count_eq_zero.2 (((run_sound types before).1.ahead i _ h hat).1 rfl)
  | append_singleton calls call ih =>
    obtain ⟨k, hk, hstatus⟩ := ih (fun c hc => hstays c (List.mem_append_left _ hc))
      fun m hm => by
        have h := hthere m (by rw [List.length_append]; omega)
        rwa [List.take_append_of_le_length hm] at h
    obtain ⟨k', hk'⟩ := hthere (calls ++ [call]).length (Nat.le_refl _)
    rw [List.take_length, ← List.append_assoc, run_append] at hk'
    have hcall := hstays call (List.mem_append_right _ List.mem_cons_self)
    obtain ⟨hn, hd⟩ := run_sound types (before ++ calls)
    rw [skipped_append, ← List.append_assoc, run_append]
    refine ⟨k', hk', ?_⟩
    -- still waiting, called already, or skipped
    rcases hstatus with ⟨hno, hw | hb⟩ | ⟨hskipped, hb⟩
    · have hstep := hw.step hn hd hk hk' hcall
      by_cases hskip : Skips types (run types (before ++ calls)) e g k h call
      · exact .inr ⟨.inr ⟨k, hk, hskip⟩, hstep.1 hskip⟩
      · refine .inl ⟨?_, hstep.2 hskip⟩
        rintro (hold | ⟨k'', hk'', hnow⟩)
        · exact hno hold
        · cases hk.symm.trans hk''
          exact hskip hnow
    · refine .inl ⟨?_, .inr (hb.step hn hd hk hk' hcall)⟩
      rintro (hold | ⟨k'', hk'', hnow⟩)
      · exact hno hold
      · cases hk.symm.trans hk''
        exact hb.not_skips hd hnow
    · exact .inr ⟨.inl hskipped, hb.step hn hd hk hk' hcall⟩

/-- A handler in the list when `publish` comes to it, and not unsubscribed while `publish` is at
it, is called from it once by the time the list is at its end, or never. It is never called when
a handler that has been called is unsubscribed while this one is the next. -/
theorem called_iff (hat : (run types before).At i e g 0)
    (hsub : h ∈ handlers types (run types before) e g)
    (hstays : ∀ call ∈ calls, call ≠ .unsubscribe (listed types e g) h)
    (hthere : ∀ m ≤ calls.length, ∃ k, (run types (before ++ calls.take m)).At i e g k)
    (hdone : ∀ k, (run types (before ++ calls)).At i e g k →
      (handlers types (run types (before ++ calls)) e g)[k]? = none) :
    (run types (before ++ calls)).callsOf i g h ≤ 1 ∧
      ((run types (before ++ calls)).callsOf i g h = 0 ↔ Skipped types before calls i e g h) := by
  obtain ⟨k, hk, hstatus⟩ := run_handler hat hsub hstays hthere
  rcases hstatus with ⟨hno, hw | hb⟩ | ⟨hskipped, hb⟩
  · -- there is nothing left to wait for
    have hlen := List.getElem?_eq_none_iff.1 (hdone k hk)
    have hahead := hw.ahead
    rw [List.drop_of_length_le hlen] at hahead
    cases hahead
  · rw [hb.calls]
    exact ⟨Nat.le_refl 1, ⟨fun h => absurd h (by decide), fun h => absurd h hno⟩⟩
  · rw [hb.calls]
    exact ⟨Nat.zero_le 1, fun _ => hskipped, fun _ => rfl⟩

/-- Two handlers of one type: the first is unsubscribed once it has been called. -/
theorem called_iff_first_leaves :
    let types : EventTypes Unit Bool := ⟨fun _ => false, true⟩
    let before : List (BusCall Unit Bool Nat) :=
      [.subscribe false 1, .subscribe false 2, .publish ()]
    let calls : List (BusCall Unit Bool Nat) := [.resume 0, .unsubscribe false 1]
    (run types (before ++ calls)).callsOf 0 false 2 ≤ 1 ∧
      ((run types (before ++ calls)).callsOf 0 false 2 = 0 ↔
        Skipped types before calls 0 () false 2) := by
  refine called_iff rfl (by decide) (by simp) (fun m hm => ?_) fun k hk => ?_
  · rcases m with _ | _ | _ | m
    · exact ⟨0, rfl⟩
    · exact ⟨1, rfl⟩
    · exact ⟨1, rfl⟩
    · exact absurd hm (by simp)
  · cases hk
    rfl

end CksRuntime.EventBus
