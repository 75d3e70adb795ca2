import CksRuntime.Lib.Lockstep
import CksRuntime.Reasoning.Proof.Sweeps

/-!
# What expires between two sweeps

`all_escalated_iff`: every sweep of a run leaves nothing stale unescalated exactly when each sweep
catches what is stale and not escalated by then (`Catches`): it gets to the session, to the record
in it, and does not take it for one it knows. Both sweepers find sessions by when they were
modified. `Reasoning/Proof/Visits` has the same by the times of sweeps, commits and expiry.
-/

set_option autoImplicit false

namespace CksRuntime

open Effect GrowingPage IsoTime Lockstep StalenessConfig

/-- The sweeper over a storage that takes every task it is given. -/
def StalenessConfig.accepting (c : StalenessConfig) : StalenessConfig :=
  { c with storage := { c.storage with accepts := fun _ => true } }

theorem StalenessConfig.accepting_quiet (c : StalenessConfig) : c.accepting.storage.Quiet :=
  .inr (.inr fun _ => rfl)

/-! ## Records past their TTL -/

namespace ProvenanceStalenessSweeper

variable (c : StalenessConfig) (ttlSeconds : Nat)

/-- The record is older than the TTL. -/
def Stale (now : Int) (obj : StructureObject) : Prop :=
  obj.type = VERIFICATION_RECORD_TYPE ∧ ∃ t i, obj.fields.lookup CHECKED_AT_KEY = some (.iso t) ∧
    t.instant = some i ∧ i < now - ttlSeconds * SECOND

/-- A payload of the record, as it was last checked. -/
def Tells (obj : StructureObject) (p : ProvenancePayload) : Prop :=
  p.recordId = obj.id ∧ p.checkedAt = obj.fields.lookup CHECKED_AT_KEY

/-- A record whose `checked_at` does not compare with the cutoff. -/
def Unzoned (obj : StructureObject) : Prop :=
  obj.type = VERIFICATION_RECORD_TYPE ∧
    ∃ l, parseTimestamp (obj.fields.lookup CHECKED_AT_KEY) = some (.naive l)

/-- The session holds one. -/
def HasUnzoned (r : StoredRow) : Prop :=
  ∃ k, r.2.knowledge = some k ∧ ∃ obj ∈ k.objects, Unzoned obj

/-- After a sweep every stale record of a stored session was escalated. -/
def Escalates (world : StalenessWorld ProvenancePayload) : StalenessEvent → Prop
  | .sweep now => ∀ sessionId session k obj, world.sessions.lookup sessionId = some session →
    session.knowledge = some k → obj ∈ k.objects → Stale ttlSeconds now obj →
      (world.step c (watch ttlSeconds) (.sweep now)).Reported sessionId (Tells obj)
  | _ => True

/-- Every stale record was escalated before, or its session is one the sweep gets to, it is one the
loop gets to, its `checked_at` is read, and its id is not known. -/
def Catches (world : StalenessWorld ProvenancePayload) : StalenessEvent → Prop
  | .sweep now => ∀ sessionId session k obj, world.sessions.lookup sessionId = some session →
    session.knowledge = some k → obj ∈ k.objects → Stale ttlSeconds now obj →
      world.Reported sessionId (Tells obj) ∨
      Reached HasUnzoned (c.swept world.sessions world.sweeper.watermark) (sessionId, session) ∧
      (∃ record, Reached Unzoned k.objects record ∧ record.type = VERIFICATION_RECORD_TYPE ∧
        Tells obj (payload k record)) ∧
      (∃ i, parseTimestamp (obj.fields.lookup CHECKED_AT_KEY) = some (.aware i)) ∧
      obj.id ∉ known world.sweeper sessionId
  | _ => True

variable {c ttlSeconds}

theorem finding_eq_error {cutoff : Int} {k : Knowledge} {obj : StructureObject} :
    (∃ e, finding cutoff k obj = some (.error e)) ↔ Unzoned obj := by
  unfold finding Unzoned
  by_cases htype : obj.type = VERIFICATION_RECORD_TYPE
  · rw [if_neg (not_not.2 htype)]
    cases parseTimestamp (obj.fields.lookup CHECKED_AT_KEY) with
    | none => simp
    | some d =>
      cases d with
      | naive l => simp [htype]
      | aware i => simp
  · rw [if_pos htype]
    simp [htype]

theorem finding_eq_ok {cutoff : Int} {k : Knowledge} {obj : StructureObject}
    {p : ProvenancePayload} : finding cutoff k obj = some (.ok p) ↔
      obj.type = VERIFICATION_RECORD_TYPE ∧ p = payload k obj ∧
        ∃ i, parseTimestamp (obj.fields.lookup CHECKED_AT_KEY) = some (.aware i) ∧ i < cutoff := by
  unfold finding
  by_cases htype : obj.type = VERIFICATION_RECORD_TYPE
  · rw [if_neg (not_not.2 htype)]
    cases parseTimestamp (obj.fields.lookup CHECKED_AT_KEY) with
    | none => simp
    | some d =>
      cases d with
      | naive l => simp
      | aware i =>
        by_cases hi : cutoff ≤ i
        · simp [hi]
        · have hlt : i < cutoff := by omega
          simp [hi, hlt, htype, eq_comm]
  · rw [if_pos htype]
    simp [htype]

theorem mem_readable {now : Int} {k : Knowledge} {p : ProvenancePayload} :
    p ∈ readable ((watch ttlSeconds).findings now k) ↔
      ∃ record, Reached Unzoned k.objects record ∧ record.type = VERIFICATION_RECORD_TYPE ∧
        p = payload k record ∧
        ∃ i, parseTimestamp (record.fields.lookup CHECKED_AT_KEY) = some (.aware i) ∧
          i < now - ttlSeconds * SECOND := by
  simp only [watch, mem_readable_filterMap, finding_eq_error, finding_eq_ok]

theorem raises_iff {now : Int} {r : StoredRow} :
    Raises (watch ttlSeconds) now r ↔ HasUnzoned r := by
  obtain ⟨sessionId, modifiedAt, knowledge⟩ := r
  cases knowledge with
  | none =>
    refine iff_of_false (fun h => h rfl) fun h => ?_
    obtain ⟨k, hk, -⟩ := h
    cases hk
  | some k =>
    refine firstError_filterMap.trans ⟨fun h => ?_, fun h => ?_⟩
    · obtain ⟨obj, hobj, herror⟩ := h
      exact ⟨k, rfl, obj, hobj, finding_eq_error.1 herror⟩
    · obtain ⟨k', hk, obj, hobj, hnaive⟩ := h
      cases hk
      exact ⟨obj, hobj, finding_eq_error.2 hnaive⟩

/-- A stale record is found if it is read. -/
theorem read_iff {now : Int} {k : Knowledge} {obj : StructureObject} {known : List String}
    (hstale : Stale ttlSeconds now obj) :
    (∃ p ∈ readable ((watch ttlSeconds).findings now k), p.recordId ∉ known ∧ Tells obj p) ↔
      (∃ record, Reached Unzoned k.objects record ∧ record.type = VERIFICATION_RECORD_TYPE ∧
        Tells obj (payload k record)) ∧
      (∃ i, parseTimestamp (obj.fields.lookup CHECKED_AT_KEY) = some (.aware i)) ∧
      obj.id ∉ known := by
  simp only [mem_readable]
  constructor
  · intro h
    obtain ⟨p, ⟨record, hreached, htype, rfl, i, hparse, -⟩, hknown, htells⟩ := h
    have hsame : record.fields.lookup CHECKED_AT_KEY = obj.fields.lookup CHECKED_AT_KEY := htells.2
    rw [htells.1] at hknown
    rw [hsame] at hparse
    exact ⟨⟨record, hreached, htype, htells⟩, ⟨i, hparse⟩, hknown⟩
  · intro h
    obtain ⟨⟨record, hreached, htype, htells⟩, ⟨i, hparse⟩, hknown⟩ := h
    have hsame : record.fields.lookup CHECKED_AT_KEY = obj.fields.lookup CHECKED_AT_KEY := htells.2
    obtain ⟨-, t, j, hlookup, hinstant, hold⟩ := hstale
    -- what is read is the instant that the text means
    have hread : i = j := by
      rw [hlookup] at hparse
      have hi := IsoText.instant_of_readUtc hparse
      rw [hinstant] at hi
      exact (Option.some.inj hi).symm
    subst hread
    rw [← hsame] at hparse
    refine ⟨_, ⟨record, hreached, htype, rfl, i, hparse, hold⟩, ?_, htells⟩
    rw [htells.1]
    exact hknown

theorem escalates_iff (hq : c.storage.Quiet) (world : StalenessWorld ProvenancePayload)
    (e : StalenessEvent) : Escalates c ttlSeconds world e ↔ Catches c ttlSeconds world e := by
  cases e with
  | sweep now =>
    refine forall_congr' fun sessionId => forall_congr' fun session => forall_congr' fun k =>
      forall_congr' fun obj => forall_congr' fun hstored => forall_congr' fun hk =>
      forall_congr' fun hobj => forall_congr' fun hstale => ?_
    rw [StalenessWorld.reported_sweep_iff hq hstored]
    have hfound : found (watch ttlSeconds) now (sessionId, session) =
        (watch ttlSeconds).findings now k := by rw [found, hk, Option.elim_some]
    have hraises : Raises (watch ttlSeconds) now = HasUnzoned := funext fun r => propext raises_iff
    rw [hfound, hraises]
    exact or_congr_right (and_congr_right fun _ => read_iff hstale)
  | commit => exact Iff.rfl
  | remove => exact Iff.rfl

end ProvenanceStalenessSweeper

/-! ## Objects past their `valid_until` -/

namespace TemporalStalenessSweeper

variable (c : StalenessConfig) (v : TemporalValidity)

/-- A payload of the object, with its `valid_until`. -/
def Tells (id : String) (obj : StructureObject) (p : TemporalPayload) : Prop :=
  p.objectId = id ∧ p.validUntil = obj.fields.lookup "valid_until"

/-- `cks.validate` raises. -/
def Fails (now : Int) (r : StoredRow) : Prop :=
  ∃ k e, r.2.knowledge = some k ∧ v.validate now k = .error e

/-- After a sweep every expired object of a stored session was escalated. -/
def Escalates (world : StalenessWorld TemporalPayload) : StalenessEvent → Prop
  | .sweep now => ∀ sessionId session k id obj, world.sessions.lookup sessionId = some session →
    session.knowledge = some k → k.objectsById.lookup id = some obj → obj.Expired v.closes now →
      (world.step c (watch v) (.sweep now)).Reported sessionId (Tells id obj)
  | _ => True

/-- Every expired object was escalated before, or its session is one the sweep gets to,
`cks.validate` returns, and its id is not known. -/
def Catches (world : StalenessWorld TemporalPayload) : StalenessEvent → Prop
  | .sweep now => ∀ sessionId session k id obj, world.sessions.lookup sessionId = some session →
    session.knowledge = some k → k.objectsById.lookup id = some obj → obj.Expired v.closes now →
      world.Reported sessionId (Tells id obj) ∨
      Reached (Fails v now) (c.swept world.sessions world.sweeper.watermark) (sessionId, session) ∧
      (∃ diagnostics, v.validate now k = .ok diagnostics) ∧ id ∉ known world.sweeper sessionId
  | _ => True

variable {c v}

theorem raises_iff {now : Int} {r : StoredRow} : Raises (watch v) now r ↔ Fails v now r := by
  obtain ⟨sessionId, modifiedAt, knowledge⟩ := r
  unfold Raises Fails found
  cases knowledge with
  | none => simp [firstError]
  | some k =>
    simp only [Option.elim_some, watch, Option.some.injEq, exists_and_left, exists_eq_left']
    cases v.validate now k with
    | error e => simp [firstError]
    | ok diagnostics => simp [firstError_map_ok]

theorem read_iff {now : Int} {k : Knowledge} {id : String} {obj : StructureObject}
    {known : List String} (hobj : k.objectsById.lookup id = some obj)
    (hexpired : obj.Expired v.closes now) :
    (∃ p ∈ readable ((watch v).findings now k), p.objectId ∉ known ∧ Tells id obj p) ↔
      (∃ diagnostics, v.validate now k = .ok diagnostics) ∧ id ∉ known := by
  unfold watch
  dsimp only
  cases hvalidate : v.validate now k with
  | error e => simp [readable]
  | ok diagnostics =>
    dsimp only
    rw [readable_map_ok]
    constructor
    · intro h
      obtain ⟨p, -, hknown, htells⟩ := h
      rw [htells.1] at hknown
      exact ⟨⟨_, rfl⟩, hknown⟩
    · intro h
      obtain ⟨d, hd, hcode, hwarning, hlocation⟩ := v.warns now k diagnostics id obj hvalidate hobj
        hexpired
      refine ⟨payload k id d.message, List.mem_filterMap.2 ⟨d, hd, ?_⟩, h.2, rfl, ?_⟩
      · rw [finding, if_pos ⟨hcode, hwarning⟩, hlocation, Option.map_some]
      · show (k.objectsById.lookup id).bind _ = _
        rw [hobj, Option.bind_some]

theorem escalates_iff (hq : c.storage.Quiet) (world : StalenessWorld TemporalPayload)
    (e : StalenessEvent) : Escalates c v world e ↔ Catches c v world e := by
  cases e with
  | sweep now =>
    refine forall_congr' fun sessionId => forall_congr' fun session => forall_congr' fun k =>
      forall_congr' fun id => forall_congr' fun obj => forall_congr' fun hstored =>
      forall_congr' fun hk => forall_congr' fun hobj => forall_congr' fun hexpired => ?_
    rw [StalenessWorld.reported_sweep_iff hq hstored]
    have hfound : found (watch v) now (sessionId, session) = (watch v).findings now k := by
      rw [found, hk, Option.elim_some]
    have hraises : Raises (watch v) now = Fails v now := funext fun r => propext raises_iff
    rw [hfound, hraises]
    exact or_congr_right (and_congr_right fun _ => read_iff hobj hexpired)
  | commit => exact Iff.rfl
  | remove => exact Iff.rfl

end TemporalStalenessSweeper

/-! ## Whole runs -/

/-- **Staleness by time** is escalated throughout a run exactly when each of its sweeps catches
it. -/
theorem all_escalated_iff (c : StalenessConfig) (sessions : Table String StoredSession)
    (events : List StalenessEvent) :
    (∀ ttlSeconds : Nat,
      Throughout (StalenessWorld.step c.accepting (ProvenanceStalenessSweeper.watch ttlSeconds))
        (ProvenanceStalenessSweeper.Escalates c.accepting ttlSeconds) events
        { sessions := sessions } ↔
      Throughout (StalenessWorld.step c.accepting (ProvenanceStalenessSweeper.watch ttlSeconds))
        (ProvenanceStalenessSweeper.Catches c.accepting ttlSeconds) events
        { sessions := sessions }) ∧
    ∀ v : TemporalValidity,
      Throughout (StalenessWorld.step c.accepting (TemporalStalenessSweeper.watch v))
        (TemporalStalenessSweeper.Escalates c.accepting v) events { sessions := sessions } ↔
      Throughout (StalenessWorld.step c.accepting (TemporalStalenessSweeper.watch v))
        (TemporalStalenessSweeper.Catches c.accepting v) events { sessions := sessions } := by
  refine ⟨fun ttlSeconds => ?_, fun v => ?_⟩
  · refine throughout_iff (I := fun _ => True) (fun world e _ => ?_) (fun _ _ _ _ => trivial) _ _
      trivial
    exact ProvenanceStalenessSweeper.escalates_iff c.accepting_quiet world e
  · refine throughout_iff (I := fun _ => True) (fun world e _ => ?_) (fun _ _ _ _ => trivial) _ _
      trivial
    exact TemporalStalenessSweeper.escalates_iff c.accepting_quiet world e

/-! ## A record that expires between two sweeps -/

/-- Sweeps over a storage that keeps whole seconds. -/
def hourlySweep : StalenessConfig where
  batchSize := DEFAULT_BATCH_SIZE
  grain := 1000000
  storage := { supportsOutbox := true, coroutine := true }
  order := .stable _

/-- A record checked in second 10. -/
def checkedRecord : StructureObject where
  id := "vr-1"
  type := VERIFICATION_RECORD_TYPE
  fields := (∅ : Table String FieldValue).set CHECKED_AT_KEY (.iso ⟨0, some 10000000, [.utc]⟩)

/-- Its session, stored in the same second. -/
def checkedSession : StoredSession := ⟨10, some { objects := [checkedRecord] }⟩

/-- The record is checked and stored in second 10. A sweep in second 12 finds it fresh, with a TTL
of five seconds; one in second 30 does not look at its session. -/
theorem expired_record_missed : ¬∀ (c : StalenessConfig) (ttlSeconds : Nat)
    (sessions : Table String StoredSession) (events : List StalenessEvent),
    Throughout (StalenessWorld.step c.accepting (ProvenanceStalenessSweeper.watch ttlSeconds))
      (ProvenanceStalenessSweeper.Escalates c.accepting ttlSeconds) events
      { sessions := sessions } := by
  intro h
  have hq := hourlySweep.accepting_quiet
  let sessions : Table String StoredSession := (∅ : Table String StoredSession).set "s" checkedSession
  let world : StalenessWorld ProvenancePayload := { sessions := sessions }
  let w := ProvenanceStalenessSweeper.watch 5
  let world' := world.step hourlySweep.accepting w (.sweep 12000000)
  have hsessions : world'.sessions = sessions := StalenessWorld.sessions_step_sweep _ _
  have hwatermark : world'.sweeper.watermark = 12000000 := by
    have hone : (hourlySweep.accepting.rowsSince sessions 0).length < hourlySweep.accepting.ceiling :=
      lt_of_lt_of_le (by decide) (le_ceiling MAX_SWEEP_LIMIT hourlySweep.batchSize)
    rw [StalenessWorld.sweeper_step_sweep, watermark_sweepOnce hq]
    exact if_pos hone
  have hescalates := (h hourlySweep 5 sessions [.sweep 12000000, .sweep 30000000]).2.1
  have hstale : ProvenanceStalenessSweeper.Stale 5 ((30000000 : Nat) : Int) checkedRecord :=
    ⟨rfl, _, _, rfl, rfl, by decide⟩
  have hstored : world'.sessions.lookup "s" = some checkedSession := by
    rw [hsessions]
    rfl
  have hreported := hescalates "s" checkedSession _ checkedRecord hstored rfl
    (List.mem_singleton.2 rfl) hstale
  rcases (StalenessWorld.reported_sweep_iff hq hstored _).1 hreported with hbefore | ⟨hreached, -⟩
  · rcases (StalenessWorld.reported_sweep_iff hq rfl _).1 hbefore with hmade | ⟨-, p, hp, -⟩
    · obtain ⟨p, hp, -⟩ := hmade
      cases hp
    · cases hp
  · have hmem := RowOrder.mem_of_mem_page hreached.mem
    rw [hsessions, hwatermark] at hmem
    cases hmem

end CksRuntime
