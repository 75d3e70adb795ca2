import CksRuntime.Reasoning.Proof.Expiry

/-!
# When a sweep catches what is stale

`Catches` speaks of the sweeper's watermark and of the ids it knows. Here both are read off the
times of sweeps and commits: a sweep visits the sessions modified since the sweep before it, and
announces what it finds stale there unless the last visit of the session found the same id stale
(`Announced`). For each sweeper `announced_sweep_iff` gives one sweep by its time, the commit's and
the last sweep's; what the last visit had found is a matter of its time and the TTL
(`lastFound_iff`) or of `valid_until` (`lastFound_of_expired`).

`all_escalated_iff_announced`: as long as no query is cut and no finding raises, a run escalates
what is stale by time exactly when each sweep announces it.
-/

set_option autoImplicit false

namespace CksRuntime

open Effect GrowingPage IsoTime Lockstep StalenessConfig

variable {P : Type}

/-- A visit of a session by a sweep, and what was stored of it then. -/
structure Visit where
  now : Nat
  knowledge : Knowledge

/-- The sessions, the time of the last sweep, and the visits of each session, the last first. -/
structure VisitLog where
  sessions : Table String StoredSession := ∅
  lastSweep : Nat := 0
  visits : String → List Visit := fun _ => []

namespace VisitLog

variable (c : StalenessConfig) (w : StalenessWatch P) (log : VisitLog)

/-- The visit a sweep pays to a session: if it was modified since the last sweep, in the unit that
the storage compares. -/
def visit (now : Nat) (sessionId : String) : Option Visit := do
  let session ← log.sessions.lookup sessionId
  let k ← session.knowledge
  if log.lastSweep / c.grain ≤ session.modifiedAt then some ⟨now, k⟩ else none

/-- What an event leaves. -/
def step : StalenessEvent → VisitLog
  | .commit sessionId session => { log with sessions := log.sessions.set sessionId session }
  | .remove sessionId => { log with sessions := log.sessions.erase sessionId }
  | .sweep now =>
    { log with
      lastSweep := now
      visits := fun sessionId =>
        (log.visit c now sessionId).toList ++ log.visits sessionId }

/-- No query of a sweep is cut, and nothing it reads raises. -/
def Smooth : StalenessEvent → Prop
  | .sweep now => (c.rowsSince log.sessions log.lastSweep).length < c.ceiling ∧
      ∀ r ∈ c.rowsSince log.sessions log.lastSweep, ¬Raises w now r
  | _ => True

end VisitLog

/-- The last visit found the id stale. -/
def LastFound (w : StalenessWatch P) (visits : List Visit) (id : String) : Prop :=
  ∃ v ∈ visits.head?, ∃ p ∈ readable (w.findings v.now v.knowledge), w.idOf p = id

/-- A visit found what is described, and the visit before it had not found the same id. -/
def Announced (w : StalenessWatch P) (describes : P → Prop) : List Visit → Prop
  | [] => False
  | v :: earlier => Announced w describes earlier ∨
      ∃ p ∈ readable (w.findings v.now v.knowledge),
        ¬LastFound w earlier (w.idOf p) ∧ describes p

/-- The sweeper has done what the visits say. -/
structure Tracked (w : StalenessWatch P) (world : StalenessWorld P) (log : VisitLog) : Prop where
  sessions : world.sessions = log.sessions
  watermark : world.sweeper.watermark = log.lastSweep
  known : ∀ sessionId id,
    id ∈ known world.sweeper sessionId ↔ LastFound w (log.visits sessionId) id
  reported : ∀ sessionId describes,
    world.Reported sessionId describes ↔ Announced w describes (log.visits sessionId)

/-! ## What a sweep knows -/

namespace StalenessConfig

variable {c : StalenessConfig} {w : StalenessWatch P} {now : Int}

theorem known_congr {sessionId : String} {s s' : StalenessState P}
    (h : s'.knownStale.lookup sessionId = s.knownStale.lookup sessionId) :
    known s' sessionId = known s sessionId := by
  unfold known
  rw [h]

theorem Swept.mem_known {r : StoredRow} {s s' : StalenessState P} (h : Swept c w now r s s')
    (hraises : ¬Raises w now r) (hknowledge : r.2.knowledge ≠ none) {id : String} :
    id ∈ known s' r.1 ↔ ∃ p ∈ readable (found w now r), w.idOf p = id := by
  have hstale : id ∈ stale w [] (found w now r) ↔
      ∃ p ∈ readable (found w now r), w.idOf p = id := by simp [mem_stale]
  rw [known, h.replaced hraises hknowledge, ← hstale]
  by_cases hempty : stale w [] (found w now r) = []
  · simp [hempty]
  · rw [if_pos hempty, Option.getD_some]

/-- A session that the rounds do not come to, or that has no structure, keeps its ids. -/
theorem known_foldlM_of_unread (hq : c.storage.Quiet) {batch : List StoredRow}
    {sessionId : String} (hunread : ∀ r ∈ batch, r.1 = sessionId → r.2.knowledge = none)
    (acc : List P) (s : StalenessState P) :
    known (stateOf (batch.foldlM (round c w now) acc s)) sessionId = known s sessionId := by
  induction batch generalizing acc s with
  | nil => rfl
  | cons r batch ih =>
    obtain ⟨s', hswept, herror, hok⟩ := foldlM_round_cons w now hq r batch acc s
    have hkept : known s' sessionId = known s sessionId := by
      refine known_congr ?_
      by_cases hid : r.1 = sessionId
      · rw [← hid]
        exact hswept.kept (.inr (hunread r List.mem_cons_self hid))
      · exact hswept.others sessionId (Ne.symm hid)
    by_cases hraises : Raises w now r
    · obtain ⟨e, he⟩ := herror hraises
      rw [he]
      exact hkept
    · rw [hok hraises, ih fun r' hr' => hunread r' (List.mem_cons_of_mem _ hr')]
      exact hkept

/-- A session that the rounds read has the ids found in it. -/
theorem mem_known_foldlM (hq : c.storage.Quiet) {batch : List StoredRow}
    (hnodup : (batch.map (·.1)).Nodup) (hquiet : ∀ r ∈ batch, ¬Raises w now r) {r : StoredRow}
    (hr : r ∈ batch) (hknowledge : r.2.knowledge ≠ none) (acc : List P) (s : StalenessState P)
    {id : String} : id ∈ known (stateOf (batch.foldlM (round c w now) acc s)) r.1 ↔
      ∃ p ∈ readable (found w now r), w.idOf p = id := by
  induction batch generalizing acc s with
  | nil => cases hr
  | cons r' batch ih =>
    obtain ⟨s', hswept, -, hok⟩ := foldlM_round_cons w now hq r' batch acc s
    rw [List.map_cons, List.nodup_cons] at hnodup
    have hraises := hquiet r' List.mem_cons_self
    rw [hok hraises]
    rcases List.mem_cons.1 hr with hhere | hlater
    · subst hhere
      -- the rest of the batch are other sessions
      rw [known_foldlM_of_unread hq fun r' hr' hid => ?_]
      · exact hswept.mem_known hraises hknowledge
      · exact absurd (hid ▸ List.mem_map_of_mem (f := (·.1)) hr') hnodup.1
    · exact ih hnodup.2 (fun r hr => hquiet r (List.mem_cons_of_mem _ hr)) hlater _ _

theorem mem_rowsSince {sessions : Table String StoredSession} {watermark : Nat} {r : StoredRow} :
    r ∈ c.rowsSince sessions watermark ↔
      sessions.lookup r.1 = some r.2 ∧ watermark / c.grain ≤ r.2.modifiedAt := by
  unfold rowsSince
  rw [List.mem_filter, decide_eq_true_eq]
  exact and_congr_left fun _ => Table.mem_rows

theorem mem_swept_iff {sessions : Table String StoredSession} {watermark : Nat} {r : StoredRow}
    (hlimit : (c.rowsSince sessions watermark).length < c.ceiling) :
    r ∈ c.swept sessions watermark ↔ r ∈ c.rowsSince sessions watermark :=
  RowOrder.mem_page hlimit.le

end StalenessConfig

/-- A sweep that is not cut and in which nothing raises reports what it finds in each session that
is listed, what is known aside. -/
theorem StalenessWorld.reported_of_smooth {c : StalenessConfig} {w : StalenessWatch P}
    (hq : c.storage.Quiet) {world : StalenessWorld P} {now : Nat}
    (hlimit : (c.rowsSince world.sessions world.sweeper.watermark).length < c.ceiling)
    (hquiet : ∀ r ∈ c.rowsSince world.sessions world.sweeper.watermark, ¬Raises w now r)
    {sessionId : String} {describes : P → Prop} :
    (world.step c w (.sweep now)).Reported sessionId describes ↔
      world.Reported sessionId describes ∨
        ∃ session, (sessionId, session) ∈ c.rowsSince world.sessions world.sweeper.watermark ∧
          ∃ p ∈ readable (found w now (sessionId, session)),
            w.idOf p ∉ known world.sweeper sessionId ∧ describes p := by
  have hreached : ∀ r, Reached (Raises w now) (c.swept world.sessions world.sweeper.watermark) r ↔
      r ∈ c.rowsSince world.sessions world.sweeper.watermark := by
    intro r
    rw [reached_iff_mem fun r hr => hquiet r ((mem_swept_iff hlimit).1 hr), mem_swept_iff hlimit]
  unfold Reported
  rw [sweeper_step_sweep]
  simp only [mem_made_sweepOnce hq, hreached, or_and_right, exists_or, fresh, List.mem_filter,
    decide_eq_true_eq]
  refine or_congr_right ⟨fun hnew => ?_, fun hnew => ?_⟩
  · obtain ⟨p, ⟨session, hr, hp, hunknown⟩, hdescribes⟩ := hnew
    exact ⟨session, hr, p, hp, hunknown, hdescribes⟩
  · obtain ⟨session, hr, p, hp, hunknown, hdescribes⟩ := hnew
    exact ⟨p, ⟨session, hr, hp, hunknown⟩, hdescribes⟩

/-! ## A step -/

namespace VisitLog

variable {c : StalenessConfig} {w : StalenessWatch P} {log : VisitLog} {now : Nat}

theorem visit_eq_some {sessionId : String} {v : Visit} : log.visit c now sessionId = some v ↔
    ∃ session k, (sessionId, session) ∈ c.rowsSince log.sessions log.lastSweep ∧
      session.knowledge = some k ∧ v = ⟨now, k⟩ := by
  simp only [visit, mem_rowsSince, Option.bind_eq_bind, Option.bind_eq_some_iff]
  constructor
  · intro h
    obtain ⟨session, hstored, k, hk, h⟩ := h
    by_cases hdue : log.lastSweep / c.grain ≤ session.modifiedAt
    · rw [if_pos hdue] at h
      exact ⟨session, k, ⟨hstored, hdue⟩, hk, (Option.some.inj h).symm⟩
    · rw [if_neg hdue] at h
      cases h
  · intro h
    obtain ⟨session, k, ⟨hstored, hdue⟩, hk, rfl⟩ := h
    exact ⟨session, hstored, k, hk, if_pos hdue⟩

theorem visit_eq_none {sessionId : String} (h : log.visit c now sessionId = none)
    {session : StoredSession}
    (hr : (sessionId, session) ∈ c.rowsSince log.sessions log.lastSweep) :
    session.knowledge = none := by
  rw [Option.eq_none_iff_forall_ne_some]
  intro k hk
  rw [visit_eq_some.2 ⟨session, k, hr, hk, rfl⟩] at h
  cases h

theorem visits_step_sweep (sessionId : String) : (log.step c (.sweep now)).visits sessionId =
    (log.visit c now sessionId).toList ++ log.visits sessionId := rfl

end VisitLog

theorem lastFound_cons {w : StalenessWatch P} {v : Visit} {earlier : List Visit} {id : String} :
    LastFound w (v :: earlier) id ↔
      ∃ p ∈ readable (w.findings v.now v.knowledge), w.idOf p = id := by
  simp [LastFound]

/-- Of a stored session, a sweep announces what it finds, if it visits the session, and the last
visit had not. -/
theorem announced_sweep_iff {c : StalenessConfig} {w : StalenessWatch P} {log : VisitLog}
    {now : Nat} {describes : P → Prop} {sessionId : String} {session : StoredSession}
    {k : Knowledge} (hstored : log.sessions.lookup sessionId = some session)
    (hk : session.knowledge = some k) :
    Announced w describes ((log.step c (.sweep now)).visits sessionId) ↔
      Announced w describes (log.visits sessionId) ∨
        log.lastSweep / c.grain ≤ session.modifiedAt ∧
          ∃ p ∈ readable (w.findings now k),
            ¬LastFound w (log.visits sessionId) (w.idOf p) ∧ describes p := by
  have hvisit : log.visit c now sessionId =
      if log.lastSweep / c.grain ≤ session.modifiedAt then some ⟨now, k⟩ else none := by
    simp [VisitLog.visit, hstored, hk]
  rw [VisitLog.visits_step_sweep, hvisit]
  by_cases hdue : log.lastSweep / c.grain ≤ session.modifiedAt
  · rw [if_pos hdue, Option.toList_some, List.singleton_append, Announced]
    exact or_congr_right (and_iff_right hdue).symm
  · rw [if_neg hdue, Option.toList_none, List.nil_append]
    exact (or_iff_left fun h => hdue h.1).symm

namespace Tracked

variable {c : StalenessConfig} {w : StalenessWatch P} {world : StalenessWorld P} {log : VisitLog}

theorem known_sweep (hq : c.storage.Quiet) (h : Tracked w world log) {now : Nat}
    (hsmooth : log.Smooth c w (.sweep now)) (sessionId id : String) :
    id ∈ StalenessConfig.known (world.step c w (.sweep now)).sweeper sessionId ↔
      LastFound w ((log.step c (.sweep now)).visits sessionId) id := by
  obtain ⟨hlimit, hquiet⟩ := hsmooth
  rw [StalenessWorld.sweeper_step_sweep, sweepOnce_run, VisitLog.visits_step_sweep, h.sessions,
    h.watermark]
  cases hvisit : log.visit c now sessionId with
  | none =>
    rw [known_foldlM_of_unread hq fun r hr hid => ?_]
    · rw [Option.toList_none, List.nil_append]
      exact h.known sessionId id
    · subst hid
      exact VisitLog.visit_eq_none hvisit ((mem_swept_iff hlimit).1 hr)
  | some v =>
    obtain ⟨session, k, hr, hk, rfl⟩ := VisitLog.visit_eq_some.1 hvisit
    have hknowledge : session.knowledge ≠ none := by simp [hk]
    have hfound : found w now (sessionId, session) = w.findings now k := by
      rw [found, hk, Option.elim_some]
    rw [Option.toList_some, List.singleton_append, lastFound_cons, ← hfound]
    exact mem_known_foldlM hq (nodup_swept _ _)
      (fun r hr => hquiet r ((mem_swept_iff hlimit).1 hr)) ((mem_swept_iff hlimit).2 hr) hknowledge
      _ _

theorem reported_sweep (hq : c.storage.Quiet) (h : Tracked w world log) {now : Nat}
    (hsmooth : log.Smooth c w (.sweep now)) (sessionId : String) (describes : P → Prop) :
    (world.step c w (.sweep now)).Reported sessionId describes ↔
      Announced w describes ((log.step c (.sweep now)).visits sessionId) := by
  rw [StalenessWorld.reported_of_smooth hq (by rw [h.sessions, h.watermark]; exact hsmooth.1)
    (by rw [h.sessions, h.watermark]; exact hsmooth.2), h.sessions, h.watermark, h.reported,
    VisitLog.visits_step_sweep]
  cases hvisit : log.visit c now sessionId with
  | none =>
    refine or_iff_left fun hnew => ?_
    obtain ⟨session, hr, p, hp, -⟩ := hnew
    rw [found, VisitLog.visit_eq_none hvisit hr] at hp
    cases hp
  | some v =>
    obtain ⟨session, k, hr, hk, rfl⟩ := VisitLog.visit_eq_some.1 hvisit
    have hstored := (mem_rowsSince.1 hr).1
    have hfound : found w now (sessionId, session) = w.findings now k := by
      rw [found, hk, Option.elim_some]
    refine or_congr_right ⟨fun hnew => ?_, fun hnew => ?_⟩
    · obtain ⟨session', hr', p, hp, hunknown, hdescribes⟩ := hnew
      have hsame := (mem_rowsSince.1 hr').1
      rw [hstored] at hsame
      cases hsame
      rw [hfound] at hp
      exact ⟨p, hp, fun hlast => hunknown ((h.known _ _).2 hlast), hdescribes⟩
    · obtain ⟨p, hp, hunknown, hdescribes⟩ := hnew
      refine ⟨session, hr, p, ?_, fun hknown => hunknown ((h.known _ _).1 hknown), hdescribes⟩
      rw [hfound]
      exact hp

/-- Every event keeps the sweeper and the visits together. -/
theorem step (hq : c.storage.Quiet) (h : Tracked w world log) {e : StalenessEvent}
    (hsmooth : log.Smooth c w e) : Tracked w (world.step c w e) (log.step c e) := by
  cases e with
  | commit sessionId session =>
    exact ⟨congrArg (·.set sessionId session) h.sessions, h.watermark, h.known, h.reported⟩
  | remove sessionId =>
    exact ⟨congrArg (·.erase sessionId) h.sessions, h.watermark, h.known, h.reported⟩
  | sweep now =>
    refine ⟨?_, ?_, h.known_sweep hq hsmooth, h.reported_sweep hq hsmooth⟩
    · rw [StalenessWorld.sessions_step_sweep]
      exact h.sessions
    · rw [StalenessWorld.sweeper_step_sweep, watermark_sweepOnce hq, h.sessions, h.watermark]
      exact if_pos hsmooth.1

theorem init (w : StalenessWatch P) (sessions : Table String StoredSession) :
    Tracked w { sessions := sessions } { sessions := sessions } where
  sessions := rfl
  watermark := rfl
  known := by simp [StalenessConfig.known, LastFound]
  reported := by simp [StalenessWorld.Reported, Announced]

/-- What a sweep and its visits say alike, a run says alike. -/
theorem throughout_iff (hq : c.storage.Quiet) {E : StalenessWorld P → StalenessEvent → Prop}
    {A : VisitLog → StalenessEvent → Prop}
    (hiff : ∀ world log e, Tracked w world log → log.Smooth c w e → (E world e ↔ A log e))
    {events : List StalenessEvent} (h : Tracked w world log)
    (hsmooth : Throughout (VisitLog.step c) (VisitLog.Smooth c w) events log) :
    Throughout (StalenessWorld.step c w) E events world ↔
      Throughout (VisitLog.step c) A events log := by
  induction events generalizing world log with
  | nil => exact Iff.rfl
  | cons e events ih =>
    obtain ⟨hhere, hlater⟩ := hsmooth
    exact and_congr (hiff world log e h hhere) (ih (h.step hq hhere) hlater)

end Tracked

/-! ## Sweeps, commits and expiry -/

namespace ProvenanceStalenessSweeper

variable (c : StalenessConfig) (ttlSeconds : Nat)

/-- With this sweep, every stale record of a stored session is announced. -/
def Announces (log : VisitLog) : StalenessEvent → Prop
  | .sweep now => ∀ sessionId session k obj, log.sessions.lookup sessionId = some session →
    session.knowledge = some k → obj ∈ k.objects → Stale ttlSeconds now obj →
      Announced (watch ttlSeconds) (Tells obj) ((log.step c (.sweep now)).visits sessionId)
  | _ => True

variable {c ttlSeconds}

theorem catches_iff_announces (hq : c.storage.Quiet) {world : StalenessWorld ProvenancePayload}
    {log : VisitLog} {e : StalenessEvent} (h : Tracked (watch ttlSeconds) world log)
    (hsmooth : log.Smooth c (watch ttlSeconds) e) :
    Catches c ttlSeconds world e ↔ Announces c ttlSeconds log e := by
  rw [← escalates_iff hq]
  cases e with
  | sweep now =>
    unfold Escalates Announces
    simp only [h.sessions, h.reported_sweep hq hsmooth]
  | commit => exact Iff.rfl
  | remove => exact Iff.rfl

/-- The last visit found a record of the id whose time to live was over by then. -/
theorem lastFound_iff {visits : List Visit} {id : String} :
    LastFound (watch ttlSeconds) visits id ↔ ∃ v ∈ visits.head?, ∃ record,
      Reached Unzoned v.knowledge.objects record ∧ record.type = VERIFICATION_RECORD_TYPE ∧
        (∃ i, parseTimestamp (record.fields.lookup CHECKED_AT_KEY) = some (.aware i) ∧
          i < v.now - ttlSeconds * SECOND) ∧ record.id = id := by
  unfold LastFound
  refine exists_congr fun v => and_congr_right fun _ => ?_
  simp only [mem_readable]
  constructor
  · intro h
    obtain ⟨p, ⟨record, hreached, htype, rfl, hold⟩, hid⟩ := h
    exact ⟨record, hreached, htype, hold, hid⟩
  · intro h
    obtain ⟨record, hreached, htype, hold, hid⟩ := h
    exact ⟨_, ⟨record, hreached, htype, rfl, hold⟩, hid⟩

/-- A stale record is announced by a sweep if it was before, or if its session was committed since
the last sweep, its `checked_at` is read, and the last visit had not found its id stale. -/
theorem announced_sweep_iff {log : VisitLog} {now : Nat}
    (hsmooth : log.Smooth c (watch ttlSeconds) (.sweep now)) {sessionId : String}
    {session : StoredSession} {k : Knowledge} {obj : StructureObject}
    (hstored : log.sessions.lookup sessionId = some session) (hk : session.knowledge = some k)
    (hobj : obj ∈ k.objects) (hstale : Stale ttlSeconds now obj) :
    Announced (watch ttlSeconds) (Tells obj) ((log.step c (.sweep now)).visits sessionId) ↔
      Announced (watch ttlSeconds) (Tells obj) (log.visits sessionId) ∨
        log.lastSweep / c.grain ≤ session.modifiedAt ∧
          (∃ i, parseTimestamp (obj.fields.lookup CHECKED_AT_KEY) = some (.aware i)) ∧
          ¬LastFound (watch ttlSeconds) (log.visits sessionId) obj.id := by
  rw [CksRuntime.announced_sweep_iff hstored hk]
  refine or_congr_right (and_congr_right fun hdue => ?_)
  -- no record of the session stops the loop
  have hreached : Reached Unzoned k.objects obj := by
    refine (reached_iff_mem fun record hrecord hnaive => ?_).2 hobj
    exact hsmooth.2 (sessionId, session) (mem_rowsSince.2 ⟨hstored, hdue⟩)
      (raises_iff.2 ⟨k, hk, record, hrecord, hnaive⟩)
  constructor
  · intro h
    obtain ⟨p, hp, hlast, htells⟩ := h
    obtain ⟨-, hparse, -⟩ := (read_iff hstale).1 ⟨p, hp, List.not_mem_nil, htells⟩
    rw [← htells.1]
    exact ⟨hparse, hlast⟩
  · intro h
    obtain ⟨hparse, hlast⟩ := h
    obtain ⟨p, hp, -, htells⟩ := (read_iff hstale).2
      ⟨⟨obj, hreached, hstale.1, rfl, rfl⟩, hparse, List.not_mem_nil⟩
    rw [← htells.1] at hlast
    exact ⟨p, hp, hlast, htells⟩

end ProvenanceStalenessSweeper

namespace TemporalStalenessSweeper

variable (c : StalenessConfig) (v : TemporalValidity)

/-- With this sweep, every expired object of a stored session is announced. -/
def Announces (log : VisitLog) : StalenessEvent → Prop
  | .sweep now => ∀ sessionId session k id obj, log.sessions.lookup sessionId = some session →
    session.knowledge = some k → k.objectsById.lookup id = some obj → obj.Expired v.closes now →
      Announced (watch v) (Tells id obj) ((log.step c (.sweep now)).visits sessionId)
  | _ => True

variable {c v}

theorem catches_iff_announces (hq : c.storage.Quiet) {world : StalenessWorld TemporalPayload}
    {log : VisitLog} {e : StalenessEvent} (h : Tracked (watch v) world log)
    (hsmooth : log.Smooth c (watch v) e) : Catches c v world e ↔ Announces c v log e := by
  rw [← escalates_iff hq]
  cases e with
  | sweep now =>
    unfold Escalates Announces
    simp only [h.sessions, h.reported_sweep hq hsmooth]
  | commit => exact Iff.rfl
  | remove => exact Iff.rfl

/-- An expired object is announced by a sweep if it was before, or if its session was committed
since the last sweep and the last visit had not found its id expired. -/
theorem announced_sweep_iff {log : VisitLog} {now : Nat}
    (hsmooth : log.Smooth c (watch v) (.sweep now)) {sessionId : String} {session : StoredSession}
    {k : Knowledge} {id : String} {obj : StructureObject}
    (hstored : log.sessions.lookup sessionId = some session) (hk : session.knowledge = some k)
    (hobj : k.objectsById.lookup id = some obj) (hexpired : obj.Expired v.closes now) :
    Announced (watch v) (Tells id obj) ((log.step c (.sweep now)).visits sessionId) ↔
      Announced (watch v) (Tells id obj) (log.visits sessionId) ∨
        log.lastSweep / c.grain ≤ session.modifiedAt ∧
          ¬LastFound (watch v) (log.visits sessionId) id := by
  rw [CksRuntime.announced_sweep_iff hstored hk]
  refine or_congr_right (and_congr_right fun hdue => ?_)
  constructor
  · intro h
    obtain ⟨p, -, hlast, htells⟩ := h
    rw [← htells.1]
    exact hlast
  · intro hlast
    have hreturns : ∃ diagnostics, v.validate now k = .ok diagnostics := by
      cases hvalidate : v.validate now k with
      | ok diagnostics => exact ⟨diagnostics, rfl⟩
      | error e =>
        exact absurd (raises_iff.2 ⟨k, e, hk, hvalidate⟩)
          (hsmooth.2 (sessionId, session) (mem_rowsSince.2 ⟨hstored, hdue⟩))
    obtain ⟨p, hp, -, htells⟩ := (read_iff hobj hexpired).2
      ⟨hreturns, List.not_mem_nil⟩
    rw [← htells.1] at hlast
    exact ⟨p, hp, hlast, htells⟩

/-- An object that had expired when its session was last visited was found then. -/
theorem lastFound_of_expired {visits : List Visit} {visit : Visit} {id : String}
    {obj : StructureObject} (hlast : visit ∈ visits.head?)
    (hobj : visit.knowledge.objectsById.lookup id = some obj)
    (hexpired : obj.Expired v.closes visit.now)
    (hreturns : ∃ diagnostics, v.validate visit.now visit.knowledge = .ok diagnostics) :
    LastFound (watch v) visits id := by
  obtain ⟨p, hp, -, htells⟩ := (read_iff hobj hexpired).2
    ⟨hreturns, List.not_mem_nil⟩
  exact ⟨visit, hlast, p, hp, htells.1⟩

end TemporalStalenessSweeper

/-- **Staleness by time, by the clock**: where no query is cut and nothing raises, a run escalates
it throughout exactly when each sweep announces it. -/
theorem all_escalated_iff_announced (c : StalenessConfig) (sessions : Table String StoredSession)
    (events : List StalenessEvent) :
    (∀ ttlSeconds : Nat,
      Throughout (VisitLog.step c.accepting)
        (VisitLog.Smooth c.accepting (ProvenanceStalenessSweeper.watch ttlSeconds)) events
        { sessions := sessions } →
      (Throughout (StalenessWorld.step c.accepting (ProvenanceStalenessSweeper.watch ttlSeconds))
        (ProvenanceStalenessSweeper.Escalates c.accepting ttlSeconds) events
        { sessions := sessions } ↔
      Throughout (VisitLog.step c.accepting)
        (ProvenanceStalenessSweeper.Announces c.accepting ttlSeconds) events
        { sessions := sessions })) ∧
    ∀ v : TemporalValidity,
      Throughout (VisitLog.step c.accepting)
        (VisitLog.Smooth c.accepting (TemporalStalenessSweeper.watch v)) events
        { sessions := sessions } →
      (Throughout (StalenessWorld.step c.accepting (TemporalStalenessSweeper.watch v))
        (TemporalStalenessSweeper.Escalates c.accepting v) events { sessions := sessions } ↔
      Throughout (VisitLog.step c.accepting) (TemporalStalenessSweeper.Announces c.accepting v)
        events { sessions := sessions }) := by
  have hq := c.accepting_quiet
  refine ⟨fun ttlSeconds hsmooth => ?_, fun v hsmooth => ?_⟩
  · refine Tracked.throughout_iff hq (fun world log e h hs => ?_) (Tracked.init _ sessions) hsmooth
    rw [ProvenanceStalenessSweeper.escalates_iff hq]
    exact ProvenanceStalenessSweeper.catches_iff_announces hq h hs
  · refine Tracked.throughout_iff hq (fun world log e h hs => ?_) (Tracked.init _ sessions) hsmooth
    rw [TemporalStalenessSweeper.escalates_iff hq]
    exact TemporalStalenessSweeper.catches_iff_announces hq h hs

end CksRuntime
