import CksRuntime.Reasoning.Staleness

/-!
# What a sweep reports

Over a storage on which no call raises (`TaskStorage.Quiet`) a session's findings are reported one
after the other, those known aside, until one raises (`foldlM_visit`); a sweep goes on until a
session raises, so that `mem_made_sweepOnce` says of each payload which session of the page it is
of.
-/

set_option autoImplicit false

namespace CksRuntime

open Effect GrowingPage

variable {P : Type}

/-- No call of `enqueue_task` raises. -/
def TaskStorage.Quiet (st : TaskStorage) : Prop :=
  st.supportsOutbox = false ∨ st.coroutine = true ∨ ∀ n, st.accepts n = true

namespace StalenessConfig

variable (c : StalenessConfig) (w : StalenessWatch P) (now : Int)

/-- A payload reported, over a quiet storage. -/
def report (sessionId : String) (s : StalenessState P) (p : P) : StalenessState P :=
  { s with
    made := s.made ++ [(sessionId, p)]
    enqueued :=
      if c.storage.Durable then s.enqueued ++ [⟨w.taskType, sessionId, p⟩] else s.enqueued
    calls := if c.storage.Durable then s.calls + 1 else s.calls }

/-- The findings of a session. -/
def found (r : StoredRow) : List (Except SweepError P) :=
  r.2.knowledge.elim [] (w.findings now)

/-- The session's findings raise. -/
def Raises (r : StoredRow) : Prop := firstError (found w now r) ≠ none

/-- Of findings, those read and not known. -/
def fresh (sessionId : String) (s : StalenessState P) (findings : List (Except SweepError P)) :
    List P := (readable findings).filter fun p => w.idOf p ∉ known s sessionId

variable {c w now}

@[simp] theorem known_report (sessionId sessionId' : String) (s : StalenessState P) (p : P) :
    known (c.report w sessionId s p) sessionId' = known s sessionId' := rfl

/-! ## A payload -/

/-- The coroutine is not awaited, or there is no outbox: nothing is written. -/
theorem escalate_idle (h : ¬c.storage.Durable) (sessionId : String) (p : P)
    (s : StalenessState P) :
    c.escalate w sessionId p s = .ok () { s with made := s.made ++ [(sessionId, p)] } := by
  unfold escalate
  rw [bind_modify_run]
  by_cases hs : c.storage.supportsOutbox = true
  · have hco : c.storage.coroutine = true := by
      rw [← Bool.not_eq_false]
      exact fun hco => h ⟨hs, hco⟩
    rw [if_pos hs, enqueueTask, if_pos hco]
    rfl
  · rw [if_neg hs]
    rfl

theorem escalate_durable (h : c.storage.Durable) (sessionId : String) (p : P)
    (s : StalenessState P) : c.escalate w sessionId p s =
      if c.storage.accepts s.calls then .ok () (c.report w sessionId s p)
      else .error .operationalError
        { s with made := s.made ++ [(sessionId, p)], calls := s.calls + 1 } := by
  unfold escalate
  have hco : ¬c.storage.coroutine = true := by simp [h.2]
  rw [bind_modify_run, if_pos h.1, enqueueTask, if_neg hco, bind_get_run]
  show (if c.storage.accepts s.calls = true then _ else _ : Sweep P Unit) _ = _
  by_cases ha : c.storage.accepts s.calls = true
  · rw [if_pos ha, if_pos ha, report, if_pos h, if_pos h]
    rfl
  · rw [if_neg ha, if_neg ha]
    rfl

theorem escalate_run (hq : c.storage.Quiet) (sessionId : String) (p : P) (s : StalenessState P) :
    c.escalate w sessionId p s = .ok () (c.report w sessionId s p) := by
  by_cases h : c.storage.Durable
  · rw [escalate_durable h, if_pos]
    rcases hq with hq | hq | hq
    · rw [h.1] at hq
      cases hq
    · rw [h.2] at hq
      cases hq
    · exact hq s.calls
  · rw [escalate_idle h, report, if_neg h, if_neg h]

/-! ## A session -/

theorem visit_run (hq : c.storage.Quiet) (sessionId : String) (acc : List String × List P) (p : P)
    (s : StalenessState P) : c.visit w sessionId acc (.ok p) s =
      if w.idOf p ∈ known s sessionId then .ok (acc.1.insert (w.idOf p), acc.2) s
      else .ok (acc.1.insert (w.idOf p), acc.2 ++ [p]) (c.report w sessionId s p) := by
  show (if w.idOf p ∈ known s sessionId then _ else _ : Sweep P _) s = _
  by_cases hknown : w.idOf p ∈ known s sessionId
  · rw [if_pos hknown, if_pos hknown]
    rfl
  · rw [if_neg hknown, if_neg hknown]
    exact bind_of_ok (escalate_run hq sessionId p s) _

/-- What `current_stale` holds after the findings read. -/
def stale (w : StalenessWatch P) (current : List String) (findings : List (Except SweepError P)) :
    List String := (readable findings).foldl (fun current p => current.insert (w.idOf p)) current

theorem mem_stale {current : List String} {findings : List (Except SweepError P)} {id : String} :
    id ∈ stale w current findings ↔ id ∈ current ∨ ∃ p ∈ readable findings, w.idOf p = id := by
  unfold stale
  induction readable findings generalizing current with
  | nil => simp
  | cons p ps ih =>
    rw [List.foldl_cons, ih, List.mem_insert_iff]
    simp only [List.mem_cons, exists_eq_or_imp]
    rw [eq_comm (a := id), or_comm (a := w.idOf p = id), or_assoc]

/-- The loop of a session: the findings not known are reported, until one raises. -/
theorem foldlM_visit (hq : c.storage.Quiet) (sessionId : String)
    (findings : List (Except SweepError P)) (acc : List String × List P) (s : StalenessState P) :
    findings.foldlM (c.visit w sessionId) acc s =
      match firstError findings with
      | none => .ok (stale w acc.1 findings, acc.2 ++ fresh w sessionId s findings)
        ((fresh w sessionId s findings).foldl (c.report w sessionId) s)
      | some e => .error e ((fresh w sessionId s findings).foldl (c.report w sessionId) s) := by
  induction findings generalizing acc s with
  | nil => simp [firstError, readable, fresh, stale]
  | cons finding findings ih =>
    rw [List.foldlM_cons]
    cases finding with
    | error e => rfl
    | ok p =>
      have hfirst : firstError (.ok p :: findings) = firstError findings := rfl
      have hstale : stale w acc.1 (.ok p :: findings) =
          stale w (acc.1.insert (w.idOf p)) findings := rfl
      have hfresh : fresh w sessionId s (.ok p :: findings) =
          if w.idOf p ∈ known s sessionId then fresh w sessionId s findings
          else p :: fresh w sessionId (c.report w sessionId s p) findings := by
        show List.filter _ (p :: readable findings) = _
        rw [List.filter_cons]
        by_cases hknown : w.idOf p ∈ known s sessionId
        · rw [if_pos hknown, if_neg (by simpa using hknown)]
          rfl
        · rw [if_neg hknown, if_pos (by simpa using hknown)]
          rfl
      rw [hfirst, hstale, hfresh]
      -- a known finding is stale as well, but not escalated
      have hvisit := visit_run (w := w) hq sessionId acc p s
      by_cases hknown : w.idOf p ∈ known s sessionId
      · rw [if_pos hknown] at hvisit ⊢
        rw [bind_of_ok hvisit, ih]
      · rw [if_neg hknown] at hvisit ⊢
        rw [bind_of_ok hvisit, ih, List.append_assoc]
        rfl

/-- What reporting changes, and what not. -/
theorem foldl_report (sessionId : String) (ps : List P) (s : StalenessState P) :
    (ps.foldl (c.report w sessionId) s).made = s.made ++ ps.map (sessionId, ·) ∧
      (ps.foldl (c.report w sessionId) s).knownStale = s.knownStale ∧
      (ps.foldl (c.report w sessionId) s).watermark = s.watermark ∧
      (¬c.storage.Durable → (ps.foldl (c.report w sessionId) s).enqueued = s.enqueued) := by
  induction ps generalizing s with
  | nil => simp
  | cons p ps ih =>
    obtain ⟨hmade, hknown, hwatermark, hqueue⟩ := ih (c.report w sessionId s p)
    refine ⟨?_, hknown, hwatermark, fun h => ?_⟩
    · rw [List.foldl_cons, hmade, report, List.append_assoc]
      rfl
    · rw [List.foldl_cons, hqueue h, report, if_neg h]

/-- What the sweep of a session leaves. -/
structure Swept (c : StalenessConfig) (w : StalenessWatch P) (now : Int) (r : StoredRow)
    (s s' : StalenessState P) : Prop where
  made : s'.made = s.made ++ (fresh w r.1 s (found w now r)).map (r.1, ·)
  watermark : s'.watermark = s.watermark
  others : ∀ sessionId, sessionId ≠ r.1 →
    s'.knownStale.lookup sessionId = s.knownStale.lookup sessionId
  kept : Raises w now r ∨ r.2.knowledge = none →
    s'.knownStale.lookup r.1 = s.knownStale.lookup r.1
  replaced : ¬Raises w now r → r.2.knowledge ≠ none → s'.knownStale.lookup r.1 =
    if stale w [] (found w now r) ≠ [] then some (stale w [] (found w now r)) else none
  enqueued : ¬c.storage.Durable → s'.enqueued = s.enqueued

theorem lookup_remember (sessionId sessionId' : String) (current : List String)
    (s : StalenessState P) : (remember sessionId current s).knownStale.lookup sessionId' =
      if sessionId' = sessionId then (if current ≠ [] then some current else none)
      else s.knownStale.lookup sessionId' := by
  unfold remember
  by_cases hcurrent : current ≠ []
  · rw [if_pos hcurrent, if_pos hcurrent]
    exact Table.lookup_set _ _ _ _
  · rw [if_neg hcurrent, if_neg hcurrent]
    exact Table.lookup_erase_eq _ _ _

variable (w now) in
/-- **The sweep of a session** returns what is fresh, or raises where a finding does. -/
theorem sweepSession_run (hq : c.storage.Quiet) (r : StoredRow) (s : StalenessState P) :
    ∃ s', Swept c w now r s s' ∧
      (Raises w now r → ∃ e, c.sweepSession w now r s = .error e s') ∧
      (¬Raises w now r →
        c.sweepSession w now r s = .ok (fresh w r.1 s (found w now r)) s') := by
  obtain ⟨sessionId, modifiedAt, knowledge⟩ := r
  cases knowledge with
  | none =>
    refine ⟨s, ⟨(List.append_nil _).symm, rfl, fun _ _ => rfl, fun _ => rfl, fun _ h => absurd rfl h,
      fun _ => rfl⟩, fun h => absurd rfl h, fun _ => rfl⟩
  | some k =>
    have hrun := foldlM_visit (w := w) hq sessionId (w.findings now k) ([], []) s
    obtain ⟨hmade, hknown, hwatermark, hqueue⟩ :=
      foldl_report (c := c) (w := w) sessionId (fresh w sessionId s (w.findings now k)) s
    by_cases hraises : Raises w now (sessionId, ⟨modifiedAt, some k⟩)
    · obtain ⟨e, hfirst⟩ := Option.ne_none_iff_exists'.1 hraises
      change firstError (w.findings now k) = some e at hfirst
      rw [hfirst] at hrun
      exact ⟨_, ⟨hmade, hwatermark, fun _ _ => by rw [hknown], fun _ => by rw [hknown],
        fun h => absurd hraises h, hqueue⟩, fun _ => ⟨e, bind_of_error hrun _⟩,
        fun h => absurd hraises h⟩
    · have hfirst : firstError (w.findings now k) = none := not_not.1 hraises
      rw [hfirst] at hrun
      refine ⟨remember sessionId (stale w [] (w.findings now k)) _,
        ⟨hmade, hwatermark, fun sessionId' hid => ?_, fun h => ?_, fun _ _ => ?_, hqueue⟩,
        fun h => absurd h hraises, fun _ => bind_of_ok hrun fun acc => do
          modify (remember sessionId acc.1)
          pure acc.2⟩
      · exact (lookup_remember _ _ _ _).trans ((if_neg hid).trans (by rw [hknown]))
      · rcases h with h | h
        · exact absurd h hraises
        · cases h
      · exact (lookup_remember _ _ _ _).trans (if_pos rfl)

/-! ## A sweep -/

theorem fresh_congr {sessionId : String} {s s' : StalenessState P}
    (h : s'.knownStale.lookup sessionId = s.knownStale.lookup sessionId)
    (findings : List (Except SweepError P)) :
    fresh w sessionId s' findings = fresh w sessionId s findings := by
  unfold fresh known
  rw [h]

/-- A round of the sweep's loop. -/
def round (c : StalenessConfig) (w : StalenessWatch P) (now : Int) (escalated : List P)
    (r : StoredRow) : Sweep P (List P) := do
  let new ← c.sweepSession w now r
  pure (escalated ++ new)

variable (w now) in
/-- The first session of a sweep: the rest is swept unless it raises. -/
theorem foldlM_round_cons (hq : c.storage.Quiet) (r : StoredRow) (batch : List StoredRow)
    (acc : List P) (s : StalenessState P) : ∃ s', Swept c w now r s s' ∧
      (Raises w now r → ∃ e, (r :: batch).foldlM (round c w now) acc s = .error e s') ∧
      (¬Raises w now r → (r :: batch).foldlM (round c w now) acc s =
        batch.foldlM (round c w now) (acc ++ fresh w r.1 s (found w now r)) s') := by
  obtain ⟨s', hswept, herror, hok⟩ := sweepSession_run w now hq r s
  refine ⟨s', hswept, fun h => ?_, fun h => ?_⟩
  · obtain ⟨e, he⟩ := herror h
    have hround : round c w now acc r s = .error e s' := bind_of_error he _
    exact ⟨e, bind_of_error hround _⟩
  · have hround : round c w now acc r s = .ok (acc ++ fresh w r.1 s (found w now r)) s' :=
      bind_of_ok (hok h) _
    exact bind_of_ok hround _

theorem mem_made_foldlM (hq : c.storage.Quiet) {batch : List StoredRow}
    (hnodup : (batch.map (·.1)).Nodup) (acc : List P) (s : StalenessState P) {sessionId : String}
    {p : P} : (sessionId, p) ∈ (stateOf (batch.foldlM (round c w now) acc s)).made ↔
      (sessionId, p) ∈ s.made ∨ ∃ session, Reached (Raises w now) batch (sessionId, session) ∧
        p ∈ fresh w sessionId s (found w now (sessionId, session)) := by
  induction batch generalizing acc s with
  | nil => simp
  | cons r batch ih =>
    obtain ⟨s', hswept, herror, hok⟩ := foldlM_round_cons w now hq r batch acc s
    rw [List.map_cons, List.nodup_cons] at hnodup
    have hmade : (sessionId, p) ∈ s'.made ↔ (sessionId, p) ∈ s.made ∨
        ∃ session, (sessionId, session) = r ∧
          p ∈ fresh w sessionId s (found w now (sessionId, session)) := by
      rw [hswept.made, List.mem_append, List.mem_map]
      refine or_congr_right ⟨fun h => ?_, fun h => ?_⟩
      · obtain ⟨p', hp', hpair⟩ := h
        cases hpair
        exact ⟨r.2, rfl, hp'⟩
      · obtain ⟨session, hr, hp⟩ := h
        subst hr
        exact ⟨p, hp, rfl⟩
    simp only [reached_cons, or_and_right, exists_or]
    rw [← or_assoc, ← hmade]
    by_cases hraises : Raises w now r
    · obtain ⟨e, he⟩ := herror hraises
      rw [he]
      simp [hraises]
    · rw [hok hraises, ih hnodup.2]
      refine or_congr_right (exists_congr fun session => ?_)
      simp only [hraises, not_false_eq_true, true_and]
      refine and_congr_right fun hreached => ?_
      -- the session is another one, so that what is known of it is as before
      have hid : sessionId ≠ r.1 := by
        intro h
        subst h
        exact hnodup.1 (List.mem_map_of_mem (f := (·.1)) hreached.mem)
      rw [fresh_congr (hswept.others sessionId hid)]

theorem watermark_foldlM (hq : c.storage.Quiet) (batch : List StoredRow) (acc : List P)
    (s : StalenessState P) :
    (stateOf (batch.foldlM (round c w now) acc s)).watermark = s.watermark := by
  induction batch generalizing acc s with
  | nil => rfl
  | cons r batch ih =>
    obtain ⟨s', hswept, herror, hok⟩ := foldlM_round_cons w now hq r batch acc s
    by_cases hraises : Raises w now r
    · obtain ⟨e, he⟩ := herror hraises
      rw [he]
      exact hswept.watermark
    · rw [hok hraises, ih]
      exact hswept.watermark

/-- The sessions a sweep goes through, unless one raises. -/
def swept (c : StalenessConfig) (sessions : Table String StoredSession) (watermark : Nat) :
    List StoredRow := c.order.page (c.rowsSince sessions watermark) c.ceiling

theorem mem_swept {sessions : Table String StoredSession} {watermark : Nat} {r : StoredRow}
    (h : r ∈ c.swept sessions watermark) : sessions.lookup r.1 = some r.2 :=
  Table.mem_rows.1 (List.mem_of_mem_filter (RowOrder.mem_of_mem_page h))

theorem nodup_swept (sessions : Table String StoredSession) (watermark : Nat) :
    ((c.swept sessions watermark).map (·.1)).Nodup := by
  have hrows : ((c.rowsSince sessions watermark).map (·.1)).Nodup :=
    sessions.nodup_rows.sublist (List.filter_sublist.map _)
  have horder := ((c.order.perm (c.rowsSince sessions watermark)).map (·.1)).nodup_iff.2 hrows
  exact horder.sublist ((List.take_sublist _ _).map _)

theorem sweepOnce_run (sessions : Table String StoredSession) (t : Nat) (s : StalenessState P) :
    c.sweepOnce w sessions t s = (c.swept sessions s.watermark).foldlM (round c w t) [] { s with
      watermark :=
        if (c.rowsSince sessions s.watermark).length < c.ceiling then t else s.watermark } := by
  unfold sweepOnce
  rw [bind_get_run, drain_page]
  simp only [decide_eq_true_eq]
  rfl

theorem watermark_sweepOnce (hq : c.storage.Quiet) (sessions : Table String StoredSession)
    (t : Nat) (s : StalenessState P) : (stateOf (c.sweepOnce w sessions t s)).watermark =
      if (c.rowsSince sessions s.watermark).length < c.ceiling then t else s.watermark := by
  rw [sweepOnce_run, watermark_foldlM hq]

/-- **What a sweep reports**: the findings of the sessions it gets to, those known aside. -/
theorem mem_made_sweepOnce (hq : c.storage.Quiet) (sessions : Table String StoredSession)
    (t : Nat) (s : StalenessState P) {sessionId : String} {p : P} :
    (sessionId, p) ∈ (stateOf (c.sweepOnce w sessions t s)).made ↔ (sessionId, p) ∈ s.made ∨
      ∃ session, Reached (Raises w t) (c.swept sessions s.watermark) (sessionId, session) ∧
        p ∈ fresh w sessionId s (found w t (sessionId, session)) := by
  rw [sweepOnce_run, mem_made_foldlM hq (nodup_swept _ _)]
  rfl

end StalenessConfig

namespace StalenessWorld

open StalenessConfig

variable {c : StalenessConfig} {w : StalenessWatch P}

theorem sweeper_step_sweep (world : StalenessWorld P) (t : Nat) :
    (world.step c w (.sweep t)).sweeper =
      stateOf (c.sweepOnce w world.sessions t world.sweeper) := by
  unfold step
  dsimp only
  cases c.sweepOnce w world.sessions t world.sweeper <;> rfl

theorem sessions_step_sweep (world : StalenessWorld P) (t : Nat) :
    (world.step c w (.sweep t)).sessions = world.sessions := by
  unfold step
  dsimp only
  cases c.sweepOnce w world.sessions t world.sweeper <;> rfl

/-- A payload as described was made of the session. -/
def Reported (world : StalenessWorld P) (sessionId : String) (describes : P → Prop) : Prop :=
  ∃ p, (sessionId, p) ∈ world.sweeper.made ∧ describes p

/-- A stored session's payloads come from sweeps that get to it. -/
theorem reported_sweep_iff (hq : c.storage.Quiet) {world : StalenessWorld P} {sessionId : String}
    {session : StoredSession} (hstored : world.sessions.lookup sessionId = some session) (t : Nat)
    {describes : P → Prop} : (world.step c w (.sweep t)).Reported sessionId describes ↔
      world.Reported sessionId describes ∨
        Reached (Raises w t) (c.swept world.sessions world.sweeper.watermark)
          (sessionId, session) ∧
        ∃ p ∈ readable (found w t (sessionId, session)),
          w.idOf p ∉ known world.sweeper sessionId ∧ describes p := by
  unfold Reported
  rw [sweeper_step_sweep]
  simp only [mem_made_sweepOnce hq, or_and_right, exists_or]
  refine or_congr_right ⟨fun h => ?_, fun h => ?_⟩
  · obtain ⟨p, ⟨session', hreached, hfresh⟩, hp⟩ := h
    have hsession := mem_swept hreached.mem
    rw [hstored] at hsession
    cases hsession
    obtain ⟨hread, hknown⟩ := List.mem_filter.1 hfresh
    exact ⟨hreached, p, hread, of_decide_eq_true hknown, hp⟩
  · obtain ⟨hreached, p, hread, hknown, hp⟩ := h
    exact ⟨p, ⟨session, hreached, List.mem_filter.2 ⟨hread, decide_eq_true hknown⟩⟩, hp⟩

end StalenessWorld

end CksRuntime
