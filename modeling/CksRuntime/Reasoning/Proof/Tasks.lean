import CksRuntime.Reasoning.Proof.Expiry

/-!
# Payloads and their tasks

`tasks_backed_iff`: throughout a run of either sweeper each payload returned and each id known has its
task in the outbox, exactly when the storage writes as it is called, or no sweep finds anything in a
session it goes through.
-/

set_option autoImplicit false

namespace CksRuntime

open Effect GrowingPage Lockstep StalenessConfig

variable {P : Type} {c : StalenessConfig} {w : StalenessWatch P} {now : Int}

/-! ## What a task is for -/

namespace StalenessState

/-- A task with the payload was written. -/
def Paid (w : StalenessWatch P) (s : StalenessState P) (p : P) : Prop :=
  ∃ t ∈ s.enqueued, t.payload = p ∧ t.taskType = w.taskType

/-- A task of the session and the id was written. -/
def Filed (w : StalenessWatch P) (s : StalenessState P) (sessionId id : String) : Prop :=
  ∃ t ∈ s.enqueued, t.sessionId = sessionId ∧ w.idOf t.payload = id

/-- Every id known was filed. -/
def Covers (w : StalenessWatch P) (s : StalenessState P) : Prop :=
  ∀ sessionId ids, s.knownStale.lookup sessionId = some ids →
    ∀ id ∈ ids, s.Filed w sessionId id

variable {s s' : StalenessState P}

theorem Paid.mono {p : P} (h : s.Paid w p) (hsub : s.enqueued ⊆ s'.enqueued) : s'.Paid w p := by
  obtain ⟨t, ht, hp⟩ := h
  exact ⟨t, hsub ht, hp⟩

theorem Filed.mono {sessionId id : String} (h : s.Filed w sessionId id)
    (hsub : s.enqueued ⊆ s'.enqueued) : s'.Filed w sessionId id := by
  obtain ⟨t, ht, hid⟩ := h
  exact ⟨t, hsub ht, hid⟩

theorem Covers.mono (h : s.Covers w) (hsub : s.enqueued ⊆ s'.enqueued)
    (hknown : s'.knownStale = s.knownStale) : s'.Covers w := by
  intro sessionId ids hids id hid
  rw [hknown] at hids
  exact (h sessionId ids hids id hid).mono hsub

end StalenessState

/-- Every payload returned and every id known has its task. -/
structure StalenessWorld.Backed (w : StalenessWatch P) (world : StalenessWorld P) : Prop where
  returned : ∀ p ∈ world.returned, world.sweeper.Paid w p
  known : world.sweeper.Covers w

/-! ## A storage that writes as it is called -/

namespace StalenessConfig

/-- What a durable storage keeps through a session. -/
structure Filing (w : StalenessWatch P) (s₀ : StalenessState P) (sessionId : String)
    (acc : List String × List P) (s : StalenessState P) : Prop where
  covers : s.Covers w
  grown : s₀.enqueued ⊆ s.enqueued
  current : ∀ id ∈ acc.1, s.Filed w sessionId id
  new : ∀ p ∈ acc.2, s.Paid w p

/-- What it keeps where a call raises. -/
def Kept (w : StalenessWatch P) (s₀ s : StalenessState P) : Prop :=
  s.Covers w ∧ s₀.enqueued ⊆ s.enqueued

theorem post_visit (hd : c.storage.Durable) {s₀ s : StalenessState P} {sessionId : String}
    {acc : List String × List P} (h : Filing w s₀ sessionId acc s) (finding : Except SweepError P) :
    Post (Filing w s₀ sessionId) (Kept w s₀) (c.visit w sessionId acc finding s) := by
  cases finding with
  | error e => exact ⟨h.covers, h.grown⟩
  | ok p =>
    show Post _ _ ((if w.idOf p ∈ known s sessionId then _ else _ : Sweep P _) s)
    -- a known finding has its task already, a new one gets it unless the storage refuses
    by_cases hknown : w.idOf p ∈ known s sessionId
    · rw [if_pos hknown]
      refine ⟨h.covers, h.grown, fun id hid => ?_, h.new⟩
      rcases List.mem_insert_iff.1 hid with hid | hid
      · subst hid
        unfold known at hknown
        cases hids : s.knownStale.lookup sessionId with
        | none =>
          rw [hids] at hknown
          cases hknown
        | some ids =>
          rw [hids] at hknown
          exact h.covers sessionId ids hids _ hknown
      · exact h.current id hid
    · rw [if_neg hknown]
      have hescalate := escalate_durable (w := w) hd sessionId p s
      by_cases haccepts : c.storage.accepts s.calls = true
      · rw [if_pos haccepts] at hescalate
        rw [bind_of_ok hescalate]
        have henqueued : (c.report w sessionId s p).enqueued =
            s.enqueued ++ [⟨w.taskType, sessionId, p⟩] := if_pos hd
        have hsub : s.enqueued ⊆ (c.report w sessionId s p).enqueued := by
          rw [henqueued]
          exact List.subset_append_left _ _
        have hnew : ⟨w.taskType, sessionId, p⟩ ∈ (c.report w sessionId s p).enqueued := by
          rw [henqueued]
          exact List.mem_append_right _ (List.mem_singleton.2 rfl)
        refine ⟨h.covers.mono hsub rfl, List.Subset.trans h.grown hsub, fun id hid => ?_,
          fun p' hp' => ?_⟩
        · rcases List.mem_insert_iff.1 hid with hid | hid
          · subst hid
            exact ⟨_, hnew, rfl, rfl⟩
          · exact (h.current id hid).mono hsub
        · rcases List.mem_append.1 hp' with hp' | hp'
          · exact (h.new p' hp').mono hsub
          · rw [List.mem_singleton.1 hp']
            exact ⟨_, hnew, rfl, rfl⟩
      · rw [if_neg haccepts] at hescalate
        rw [bind_of_error hescalate]
        exact ⟨h.covers.mono (List.Subset.refl _) rfl, h.grown⟩

theorem covers_remember {s : StalenessState P} {sessionId : String} {current : List String}
    (h : s.Covers w) (hcurrent : ∀ id ∈ current, s.Filed w sessionId id) :
    (remember sessionId current s).Covers w := by
  intro sessionId' ids hids id hid
  rw [lookup_remember] at hids
  by_cases hsession : sessionId' = sessionId
  · rw [if_pos hsession] at hids
    split at hids
    · cases hids
      rw [hsession]
      exact hcurrent id hid
    · cases hids
  · rw [if_neg hsession] at hids
    exact h sessionId' ids hids id hid

variable (now) in
theorem post_sweepSession (hd : c.storage.Durable) {s : StalenessState P} (h : s.Covers w)
    (r : StoredRow) : Post
      (fun new s' => (s'.Covers w ∧ s.enqueued ⊆ s'.enqueued) ∧ ∀ p ∈ new, s'.Paid w p)
      (Kept w s) (c.sweepSession w now r s) := by
  unfold sweepSession
  cases r.2.knowledge with
  | none => exact ⟨⟨h, List.Subset.refl _⟩, fun _ => List.not_mem_nil.elim⟩
  | some k =>
    have hinit : Filing w s r.1 ([], []) s :=
      ⟨h, List.Subset.refl _, fun _ => List.not_mem_nil.elim, fun _ => List.not_mem_nil.elim⟩
    have hloop := Post.foldlM (l := w.findings now k)
      (fun acc s' finding _ hfiling => post_visit (c := c) hd hfiling finding) hinit
    refine hloop.bind fun acc s' hfiling => ?_
    exact ⟨⟨covers_remember hfiling.covers hfiling.current, hfiling.grown⟩, hfiling.new⟩

theorem post_sweepOnce (hd : c.storage.Durable) {s : StalenessState P} (h : s.Covers w)
    (sessions : Table String StoredSession) (t : Nat) : Post
      (fun escalated s' => (s'.Covers w ∧ s.enqueued ⊆ s'.enqueued) ∧ ∀ p ∈ escalated, s'.Paid w p)
      (Kept w s) (c.sweepOnce w sessions t s) := by
  rw [sweepOnce_run]
  refine Post.foldlM (fun escalated s' r _ hkept => ?_)
    ⟨⟨h, List.Subset.refl _⟩, fun _ => List.not_mem_nil.elim⟩
  obtain ⟨⟨hcovers, hsub⟩, hpaid⟩ := hkept
  have hsession := post_sweepSession t hd hcovers r
  unfold round
  rw [bind_run]
  cases hrun : c.sweepSession w t r s' with
  | ok new s'' =>
    rw [hrun] at hsession
    obtain ⟨⟨hcovers', hsub'⟩, hnew⟩ := hsession
    refine ⟨⟨hcovers', List.Subset.trans hsub hsub'⟩, fun p hp => ?_⟩
    rcases List.mem_append.1 hp with hp | hp
    · exact (hpaid p hp).mono hsub'
    · exact hnew p hp
  | error e s'' =>
    rw [hrun] at hsession
    exact ⟨hsession.1, List.Subset.trans hsub hsession.2⟩

end StalenessConfig

/-- **A durable storage**: a sweep keeps every payload and id backed, also where it raises. -/
theorem StalenessWorld.Backed.sweep_durable (hd : c.storage.Durable) {world : StalenessWorld P}
    (h : world.Backed w) (t : Nat) : (world.step c w (.sweep t)).Backed w := by
  have hpost := post_sweepOnce (c := c) hd h.known world.sessions t
  unfold step
  dsimp only
  cases hrun : c.sweepOnce w world.sessions t world.sweeper with
  | ok payloads s =>
    rw [hrun] at hpost
    obtain ⟨⟨hcovers, hsub⟩, hpaid⟩ := hpost
    refine ⟨fun p hp => ?_, hcovers⟩
    rcases List.mem_append.1 hp with hp | hp
    · exact (h.returned p hp).mono hsub
    · exact hpaid p hp
  | error e s =>
    rw [hrun] at hpost
    exact ⟨fun p hp => (h.returned p hp).mono hpost.2, hpost.1⟩

/-! ## A storage that does not -/

theorem TaskStorage.quiet_of_not_durable {st : TaskStorage} (h : ¬st.Durable) : st.Quiet := by
  by_cases hs : st.supportsOutbox = true
  · refine .inr (.inl ?_)
    rw [← Bool.not_eq_false]
    exact fun hco => h ⟨hs, hco⟩
  · exact .inl (Bool.not_eq_true _ ▸ hs)

namespace StalenessConfig

/-- No session that the loop goes through to its end has a finding. -/
def Finds (w : StalenessWatch P) (now : Int) (batch : List StoredRow) : Prop :=
  ∃ r, Reached (Raises w now) batch r ∧ ¬Raises w now r ∧ found w now r ≠ []

theorem enqueued_foldlM (hd : ¬c.storage.Durable) (batch : List StoredRow) (acc : List P)
    (s : StalenessState P) :
    (stateOf (batch.foldlM (round c w now) acc s)).enqueued = s.enqueued := by
  induction batch generalizing acc s with
  | nil => rfl
  | cons r batch ih =>
    obtain ⟨s', hswept, herror, hok⟩ := foldlM_round_cons w now
      (TaskStorage.quiet_of_not_durable hd) r batch acc s
    by_cases hraises : Raises w now r
    · obtain ⟨e, he⟩ := herror hraises
      rw [he]
      exact hswept.enqueued hd
    · rw [hok hraises, ih]
      exact hswept.enqueued hd

/-- What is known of a session that is not in the loop stays. -/
theorem lookup_foldlM (hq : c.storage.Quiet) {batch : List StoredRow} {sessionId : String}
    (hid : sessionId ∉ batch.map (·.1)) (acc : List P) (s : StalenessState P) :
    (stateOf (batch.foldlM (round c w now) acc s)).knownStale.lookup sessionId =
      s.knownStale.lookup sessionId := by
  induction batch generalizing acc s with
  | nil => rfl
  | cons r batch ih =>
    rw [List.map_cons, List.mem_cons, not_or] at hid
    obtain ⟨s', hswept, herror, hok⟩ := foldlM_round_cons w now hq r batch acc s
    by_cases hraises : Raises w now r
    · obtain ⟨e, he⟩ := herror hraises
      rw [he]
      exact hswept.others sessionId hid.1
    · rw [hok hraises, ih hid.2]
      exact hswept.others sessionId hid.1

/-- A finding is known when the sweep ends. -/
theorem known_of_finds (hq : c.storage.Quiet) {batch : List StoredRow}
    (hnodup : (batch.map (·.1)).Nodup) (h : Finds w now batch) (acc : List P)
    (s : StalenessState P) : ∃ sessionId ids id, id ∈ ids ∧
      (stateOf (batch.foldlM (round c w now) acc s)).knownStale.lookup sessionId = some ids := by
  obtain ⟨r, hreached, hraises, hfound⟩ := h
  have hfirst : firstError (found w now r) = none := not_not.1 hraises
  obtain ⟨p, hp⟩ : ∃ p, p ∈ readable (found w now r) := by
    cases hf : found w now r with
    | nil => exact absurd hf hfound
    | cons finding findings =>
      cases finding with
      | ok p => exact ⟨p, List.mem_cons_self⟩
      | error e =>
        rw [hf] at hfirst
        cases hfirst
  have hstale : w.idOf p ∈ stale w [] (found w now r) := mem_stale.2 (.inr ⟨p, hp, rfl⟩)
  refine ⟨r.1, stale w [] (found w now r), w.idOf p, hstale, ?_⟩
  induction batch generalizing acc s with
  | nil => exact absurd hreached reached_nil
  | cons r' batch ih =>
    obtain ⟨s', hswept, -, hok⟩ := foldlM_round_cons w now hq r' batch acc s
    rw [List.map_cons, List.nodup_cons] at hnodup
    rcases reached_cons.1 hreached with heq | ⟨hraises', hreached'⟩
    · subst heq
      rw [hok hraises, lookup_foldlM hq hnodup.1]
      have hknowledge : r.2.knowledge ≠ none := by
        intro hnone
        rw [found, hnone] at hfound
        exact hfound rfl
      rw [hswept.replaced hraises hknowledge, if_pos (List.ne_nil_of_mem hstale)]
    · rw [hok hraises']
      exact ih hnodup.2 _ _ hreached'

/-- What is known was known. -/
def NoMore (s s' : StalenessState P) : Prop :=
  ∀ sessionId ids, s'.knownStale.lookup sessionId = some ids →
    s.knownStale.lookup sessionId = some ids

/-- A sweep that finds nothing in a session it goes through returns nothing, and knows nothing
more. -/
theorem post_of_not_finds (hq : c.storage.Quiet) {batch : List StoredRow}
    (h : ¬Finds w now batch) (s : StalenessState P) :
    Post (fun escalated s' => escalated = [] ∧ NoMore s s') (NoMore s)
      (batch.foldlM (round c w now) [] s) := by
  induction batch generalizing s with
  | nil => exact ⟨rfl, fun _ _ h => h⟩
  | cons r batch ih =>
    obtain ⟨s', hswept, herror, hok⟩ := foldlM_round_cons w now hq r batch [] s
    have hknown : NoMore s s' := by
      intro sessionId ids hids
      by_cases hid : sessionId = r.1
      · subst hid
        -- a session that raises, or has no structure, keeps what is known of it
        by_cases hkept : Raises w now r ∨ r.2.knowledge = none
        · rw [← hswept.kept hkept]
          exact hids
        · rw [not_or] at hkept
          have hfound : found w now r = [] := by
            by_contra hfound
            exact h ⟨r, reached_cons.2 (.inl rfl), hkept.1, hfound⟩
          rw [hswept.replaced hkept.1 hkept.2, hfound] at hids
          cases hids
      · rw [← hswept.others sessionId hid]
        exact hids
    -- the loop ends at the first session that raises
    by_cases hraises : Raises w now r
    · obtain ⟨e, he⟩ := herror hraises
      rw [he]
      exact hknown
    · have hfound : found w now r = [] := by
        by_contra hfound
        exact h ⟨r, reached_cons.2 (.inl rfl), hraises, hfound⟩
      have hrest : ¬Finds w now batch := by
        intro hfinds
        obtain ⟨r', hreached, hraises', hfound'⟩ := hfinds
        exact h ⟨r', reached_cons.2 (.inr ⟨hraises, hreached⟩), hraises', hfound'⟩
      have hfresh : fresh w r.1 s (found w now r) = [] := by
        rw [hfound]
        rfl
      rw [hok hraises, hfresh, List.append_nil]
      have hpost := ih hrest s'
      cases hrun : batch.foldlM (round c w now) [] s' with
      | ok escalated s'' =>
        rw [hrun] at hpost
        exact ⟨hpost.1, fun sessionId ids hids => hknown _ _ (hpost.2 sessionId ids hids)⟩
      | error e s'' =>
        rw [hrun] at hpost
        exact fun sessionId ids hids => hknown _ _ (hpost sessionId ids hids)

/-- What a sweep knows, returns and writes. -/
theorem known_sweepOnce (hq : c.storage.Quiet) (sessions : Table String StoredSession) (t : Nat)
    (s : StalenessState P) (h : Finds w t (c.swept sessions s.watermark)) :
    ∃ sessionId ids id, id ∈ ids ∧
      (stateOf (c.sweepOnce w sessions t s)).knownStale.lookup sessionId = some ids := by
  rw [sweepOnce_run]
  exact known_of_finds hq (nodup_swept _ _) h [] _

theorem enqueued_sweepOnce (hd : ¬c.storage.Durable) (sessions : Table String StoredSession)
    (t : Nat) (s : StalenessState P) :
    (stateOf (c.sweepOnce w sessions t s)).enqueued = s.enqueued := by
  rw [sweepOnce_run, enqueued_foldlM hd]

end StalenessConfig

/-! ## Runs -/

namespace StalenessWorld

/-- After the step every payload returned and every id known has its task. -/
def Backs (c : StalenessConfig) (w : StalenessWatch P) (world : StalenessWorld P)
    (e : StalenessEvent) : Prop := (world.step c w e).Backed w

/-- The storage has an outbox and writes as it is called, or the sweep finds nothing in the sessions
it goes through. -/
def Writes (c : StalenessConfig) (w : StalenessWatch P) (world : StalenessWorld P) :
    StalenessEvent → Prop
  | .sweep t => c.storage.Durable ∨
    ¬Finds w t (c.swept world.sessions world.sweeper.watermark)
  | _ => True

/-- Everything is backed, and a storage that does not write has no tasks. -/
structure Settled (c : StalenessConfig) (w : StalenessWatch P) (world : StalenessWorld P) :
    Prop where
  backed : world.Backed w
  empty : ¬c.storage.Durable → world.sweeper.enqueued = []

theorem settled_init (sessions : Table String StoredSession) :
    Settled c w { sessions := sessions } := by
  refine ⟨⟨fun _ => List.not_mem_nil.elim, fun sessionId ids hids => ?_⟩, fun _ => rfl⟩
  cases hids

/-- Without a task nothing is returned and nothing known. -/
theorem Settled.nothing {world : StalenessWorld P} (h : Settled c w world)
    (hd : ¬c.storage.Durable) : world.returned = [] ∧
      ∀ sessionId ids, world.sweeper.knownStale.lookup sessionId = some ids → ids = [] := by
  have hempty := h.empty hd
  constructor
  · rw [List.eq_nil_iff_forall_not_mem]
    intro p hp
    obtain ⟨t, ht, -⟩ := h.backed.returned p hp
    rw [hempty] at ht
    cases ht
  · intro sessionId ids hids
    rw [List.eq_nil_iff_forall_not_mem]
    intro id hid
    obtain ⟨t, ht, -⟩ := h.backed.known sessionId ids hids id hid
    rw [hempty] at ht
    cases ht

/-- Without tasks a sweep leaves all backed exactly when it finds nothing. -/
theorem Settled.backed_sweep_iff {world : StalenessWorld P} (h : Settled c w world)
    (hd : ¬c.storage.Durable) (t : Nat) : (world.step c w (.sweep t)).Backed w ↔
      ¬Finds w t (c.swept world.sessions world.sweeper.watermark) := by
  -- without an outbox there is no task, so nothing may be known or returned
  have hq := TaskStorage.quiet_of_not_durable hd
  constructor
  · intro hbacked hfinds
    obtain ⟨sessionId, ids, id, hid, hids⟩ := known_sweepOnce hq _ t world.sweeper hfinds
    rw [← sweeper_step_sweep] at hids
    obtain ⟨task, htask, -⟩ := hbacked.known sessionId ids hids id hid
    rw [sweeper_step_sweep, enqueued_sweepOnce hd, h.empty hd] at htask
    cases htask
  · intro hfinds
    obtain ⟨hreturned, hnone⟩ := h.nothing hd
    have hpost : Post (fun escalated s' => escalated = [] ∧ NoMore world.sweeper s')
        (NoMore world.sweeper) (c.sweepOnce w world.sessions t world.sweeper) := by
      rw [sweepOnce_run]
      exact post_of_not_finds hq hfinds _
    unfold step
    dsimp only
    cases hrun : c.sweepOnce w world.sessions t world.sweeper with
    | ok payloads s =>
      rw [hrun] at hpost
      refine ⟨fun p hp => ?_, fun sessionId ids hids id hid => ?_⟩
      · rw [hpost.1, hreturned] at hp
        cases hp
      · rw [hnone sessionId ids (hpost.2 sessionId ids hids)] at hid
        cases hid
    | error e s =>
      rw [hrun] at hpost
      refine ⟨fun p hp => ?_, fun sessionId ids hids id hid => ?_⟩
      · rw [hreturned] at hp
        cases hp
      · rw [hnone sessionId ids (hpost sessionId ids hids)] at hid
        cases hid

theorem backs_iff (world : StalenessWorld P) (e : StalenessEvent) (h : Settled c w world) :
    Backs c w world e ↔ Writes c w world e := by
  cases e with
  | sweep t =>
    by_cases hd : c.storage.Durable
    · exact iff_of_true (h.backed.sweep_durable hd t) (.inl hd)
    · exact (h.backed_sweep_iff hd t).trans ⟨.inr, fun hw => hw.resolve_left hd⟩
  | commit => exact iff_of_true ⟨h.backed.returned, h.backed.known⟩ trivial
  | remove => exact iff_of_true ⟨h.backed.returned, h.backed.known⟩ trivial

theorem Settled.step {world : StalenessWorld P} {e : StalenessEvent} (h : Settled c w world)
    (hw : Writes c w world e) : Settled c w (world.step c w e) := by
  refine ⟨(backs_iff world e h).2 hw, fun hd => ?_⟩
  cases e with
  | sweep t =>
    rw [sweeper_step_sweep, enqueued_sweepOnce hd]
    exact h.empty hd
  | commit => exact h.empty hd
  | remove => exact h.empty hd

theorem backed_throughout_iff (c : StalenessConfig) (w : StalenessWatch P)
    (sessions : Table String StoredSession) (events : List StalenessEvent) :
    Throughout (step c w) (Backs c w) events { sessions := sessions } ↔
      Throughout (step c w) (Writes c w) events { sessions := sessions } :=
  throughout_iff backs_iff (fun _ _ h hw => h.step hw) events _ (settled_init sessions)

end StalenessWorld

/-- **No escalation without a task**, throughout a run of either sweeper, exactly when each sweep
writes what it finds. -/
theorem tasks_backed_iff (c : StalenessConfig) (sessions : Table String StoredSession)
    (events : List StalenessEvent) :
    (∀ ttlSeconds : Nat, let w := ProvenanceStalenessSweeper.watch ttlSeconds
      Throughout (StalenessWorld.step c w) (StalenessWorld.Backs c w) events
        { sessions := sessions } ↔
      Throughout (StalenessWorld.step c w) (StalenessWorld.Writes c w) events
        { sessions := sessions }) ∧
    ∀ v : TemporalValidity, let w := TemporalStalenessSweeper.watch v
      Throughout (StalenessWorld.step c w) (StalenessWorld.Backs c w) events
        { sessions := sessions } ↔
      Throughout (StalenessWorld.step c w) (StalenessWorld.Writes c w) events
        { sessions := sessions } :=
  ⟨fun _ => StalenessWorld.backed_throughout_iff c _ sessions events,
    fun _ => StalenessWorld.backed_throughout_iff c _ sessions events⟩

/-- A stale record, over a storage whose `enqueue_task` is a coroutine function: its payload is
returned, its id is known, and there is no task. -/
theorem coroutine_not_awaited : ¬∀ (c : StalenessConfig) (ttlSeconds : Nat)
    (sessions : Table String StoredSession) (events : List StalenessEvent),
    let w := ProvenanceStalenessSweeper.watch ttlSeconds
    Throughout (StalenessWorld.step c w) (StalenessWorld.Backs c w) events
      { sessions := sessions } := by
  intro h
  let sessions : Table String StoredSession := (∅ : Table String StoredSession).set "s" checkedSession
  have hbacks := (h hourlySweep 5 sessions [.sweep 30000000]).1
  rcases (StalenessWorld.backs_iff _ _ (StalenessWorld.settled_init sessions)).1 hbacks with hd | hnone
  · cases hd.2
  · have hone : (hourlySweep.rowsSince sessions 0).length ≤ hourlySweep.ceiling :=
      le_trans (by decide) (le_ceiling MAX_SWEEP_LIMIT hourlySweep.batchSize)
    have hswept : hourlySweep.swept sessions 0 = [] ++ ("s", checkedSession) :: [] :=
      RowOrder.page_eq_order hone
    refine hnone ⟨("s", checkedSession), ⟨[], [], hswept, fun _ => List.not_mem_nil.elim⟩,
      fun hraises => hraises rfl, ?_⟩
    exact List.cons_ne_nil _ _

end CksRuntime
