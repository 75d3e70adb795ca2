import CksRuntime.Core.Interface
import CksRuntime.Lib.Effect
import CksRuntime.Lib.IsoTime
import CksRuntime.Reasoning.Sweeper

/-!
# The staleness sweepers

`ProvenanceStalenessSweeper` and `TemporalStalenessSweeper`: what both do with the sessions they
find (`sweep_once`, `_sweep_session`), over what they read of a knowledge structure. They differ in
what they look for: a `StalenessWatch` gives the findings of a session, in order, as far as no
comparison raises. The sweeps are taken as a whole, with commits and removals between them;
`Reasoning/Sweeper` has the steps of one.
-/

set_option autoImplicit false

namespace CksRuntime

open GrowingPage IsoTime

/-! ## What is read of a structure -/

/-- A value of an object's structure: a text of ISO form, another text, or none. -/
inductive FieldValue
  | iso (text : IsoText)
  | text (text : String)
  | json (value : String)
deriving DecidableEq

/-- What the sweepers read of an object. -/
structure StructureObject where
  id : String
  type : String
  fields : Table String FieldValue := ∅

/-- What they read of a relation. -/
structure StructureRelation where
  relationType : String
  participants : List String

/-- What they read of a structure. -/
structure Knowledge where
  objects : List StructureObject
  relations : List StructureRelation := []

/-- How a sweep fails. -/
inductive SweepError
  | typeError
  | operationalError
  | other (message : String)

/-- `{obj.identity.id: obj for obj in structure.objects}`. -/
def Knowledge.objectsById (k : Knowledge) : Table String StructureObject :=
  k.objects.foldl (fun byId obj => byId.set obj.id obj) ∅

/-- `_parse_checked_at` and `_parse_timestamp`, alike. -/
def parseTimestamp : Option FieldValue → Option PyDatetime
  | some (.iso t) => t.readUtc
  | _ => none

/-! ## The outbox -/

/-- A task, as it is enqueued. -/
structure StaleTask (P : Type) where
  taskType : String
  sessionId : String
  payload : P

/-- A storage, as `enqueue_task` is called on it. -/
structure TaskStorage where
  supportsOutbox : Bool
  /-- The call makes a coroutine, which writes when it is awaited. -/
  coroutine : Bool
  /-- Whether a call writes, or raises. -/
  accepts : Nat → Bool := fun _ => true

/-- Every task it is given is written or raises. -/
def TaskStorage.Durable (st : TaskStorage) : Prop :=
  st.supportsOutbox = true ∧ st.coroutine = false

instance (st : TaskStorage) : Decidable st.Durable := inferInstanceAs (Decidable (_ ∧ _))

/-! ## A sweeper -/

/-- What a sweeper looks for. -/
structure StalenessWatch (P : Type) where
  taskType : String
  /-- What it finds in a structure, up to what raises. -/
  findings : Int → Knowledge → List (Except SweepError P)
  /-- What it is known by, once reported. -/
  idOf : P → String

/-- The sweeper, and what it and the storage did: the payloads it made, of which session, the tasks
written, and the calls that were to write them. -/
structure StalenessState (P : Type) where
  watermark : Nat := 0
  knownStale : Table String (List String) := ∅
  made : List (String × P) := []
  enqueued : List (StaleTask P) := []
  calls : Nat := 0

/-- What is read of a stored session. -/
structure StoredSession where
  modifiedAt : Nat
  knowledge : Option Knowledge

/-- A row of the table, with its id. -/
abbrev StoredRow := String × StoredSession

/-- The order in which the query lists the rows. -/
abbrev StoredOrder := RowOrder fun r : StoredRow => r.2.modifiedAt

/-- What a sweeper is configured with. -/
structure StalenessConfig extends SweepConfig where
  storage : TaskStorage
  order : StoredOrder

namespace StalenessConfig

variable {P : Type} (c : StalenessConfig) (w : StalenessWatch P)

/-- A call of a sweeper. -/
abbrev Sweep (P α : Type) := EStateM SweepError (StalenessState P) α

/-- The ids known to be stale in a session. -/
def known (s : StalenessState P) (sessionId : String) : List String :=
  (s.knownStale.lookup sessionId).getD []

/-- `self._storage.enqueue_task(…)`, which neither sweeper awaits. -/
def enqueueTask (task : StaleTask P) : Sweep P Unit :=
  if c.storage.coroutine then pure ()
  else do
    let s ← get
    set { s with calls := s.calls + 1 }
    if c.storage.accepts s.calls then
      modify fun s => { s with enqueued := s.enqueued ++ [task] }
    else throw .operationalError

/-- One finding is escalated. -/
def escalate (sessionId : String) (payload : P) : Sweep P Unit := do
  modify fun s => { s with made := s.made ++ [(sessionId, payload)] }
  if c.storage.supportsOutbox then c.enqueueTask ⟨w.taskType, sessionId, payload⟩ else pure ()

/-- A round of the loop, on `current_stale` and `new_payloads`. -/
def visit (sessionId : String) (acc : List String × List P) :
    Except SweepError P → Sweep P (List String × List P)
  | .error e => throw e
  | .ok payload => do
    let s ← get
    if w.idOf payload ∈ known s sessionId then pure (acc.1.insert (w.idOf payload), acc.2)
    else do
      c.escalate w sessionId payload
      pure (acc.1.insert (w.idOf payload), acc.2 ++ [payload])

/-- The ids found stale are those to know, and a session without any is forgotten. -/
def remember (sessionId : String) (current : List String) (s : StalenessState P) :
    StalenessState P :=
  { s with
    knownStale :=
      if current ≠ [] then s.knownStale.set sessionId current else s.knownStale.erase sessionId }

/-- `_sweep_session`. -/
def sweepSession (now : Int) (r : StoredRow) : Sweep P (List P) :=
  match r.2.knowledge with
  | none => pure []
  | some k => do
    let acc ← (w.findings now k).foldlM (c.visit w r.1) ([], [])
    modify (remember r.1 acc.1)
    pure acc.2

/-- `list_sessions_modified_since`, before its limit. -/
def rowsSince (sessions : Table String StoredSession) (watermark : Nat) : List StoredRow :=
  sessions.rows.filter fun r => watermark / c.grain ≤ r.2.modifiedAt

/-- `sweep_once`. -/
def sweepOnce (sessions : Table String StoredSession) (now : Nat) : Sweep P (List P) := do
  let s ← get
  let batch := drain MAX_SWEEP_LIMIT (c.order.page (c.rowsSince sessions s.watermark)) c.batchSize
  modify fun s => { s with watermark := if batch.2 then now else s.watermark }
  batch.1.foldlM (fun escalated r => do
    let new ← c.sweepSession w now r
    pure (escalated ++ new)) []

end StalenessConfig

/-! ## The two sweepers -/

/-- The type of the objects that are checked. -/
def VERIFICATION_RECORD_TYPE : String := "VerificationRecord"

/-- The relation from a subject to its record. -/
def VERIFIED_BY_RELATION : String := "verified_by"

/-- The field that says when. -/
def CHECKED_AT_KEY : String := "checked_at"

/-- What is escalated of a record. -/
structure ProvenancePayload where
  recordId : String
  subjectId : Option String
  sourceUrl : Option FieldValue
  checkedAt : Option FieldValue
  reason : String := "ttl_expired"

namespace ProvenanceStalenessSweeper

/-- Of each record, the subject of its last `verified_by` relation. -/
def subjectByRecord (k : Knowledge) : Table String String :=
  k.relations.foldl (fun byRecord r =>
    match r.participants with
    | [subjectId, recordId] =>
      if r.relationType = VERIFIED_BY_RELATION then byRecord.set recordId subjectId else byRecord
    | _ => byRecord) ∅

/-- What is escalated of a record in the structure. -/
def payload (k : Knowledge) (obj : StructureObject) : ProvenancePayload :=
  let subjectId := (subjectByRecord k).lookup obj.id
  let subject := (subjectId.filter (· ≠ "")).bind (k.objectsById.lookup ·)
  { recordId := obj.id
    subjectId := subjectId
    sourceUrl := subject.bind (·.fields.lookup "url")
    checkedAt := obj.fields.lookup CHECKED_AT_KEY }

/-- What is found of an object, if anything. -/
def finding (cutoff : Int) (k : Knowledge) (obj : StructureObject) :
    Option (Except SweepError ProvenancePayload) :=
  if obj.type ≠ VERIFICATION_RECORD_TYPE then none
  else
    match parseTimestamp (obj.fields.lookup CHECKED_AT_KEY) with
    | none => none
    -- a datetime without a zone does not compare with the cutoff
    | some (.naive _) => some (.error .typeError)
    | some (.aware checkedAt) => if cutoff ≤ checkedAt then none else some (.ok (payload k obj))

/-- What `ProvenanceStalenessSweeper` looks for. -/
def watch (ttlSeconds : Nat) : StalenessWatch ProvenancePayload where
  taskType := "provenance_conflict"
  findings now k := k.objects.filterMap (finding (now - ttlSeconds * SECOND) k)
  idOf p := p.recordId

end ProvenanceStalenessSweeper

/-- The identity of the diagnostics looked for. -/
def TEMPORAL_VALIDITY_CODE : String := "CKS-EXT-TEMPORAL-VALIDITY"

/-- What is read of a diagnostic. -/
structure CoreDiagnostic where
  identity : String
  severity : DiagnosticSeverity
  message : String
  location : Option String

/-- The object's `valid_until` has passed, as `closes` reads it. -/
def StructureObject.Expired (closes : FieldValue → Option Int) (now : Int)
    (obj : StructureObject) : Prop :=
  ∃ value i, obj.fields.lookup "valid_until" = some value ∧ closes value = some i ∧ i < now

/-- `cks.validate` with the `TemporalValidityConstraint`, which reads each `valid_until` that is
well formed, and warns of every object that has expired. -/
structure TemporalValidity where
  closes : FieldValue → Option Int
  validate : Int → Knowledge → Except SweepError (List CoreDiagnostic)
  warns : ∀ now k diagnostics id obj, validate now k = .ok diagnostics →
    k.objectsById.lookup id = some obj → obj.Expired closes now →
    ∃ d ∈ diagnostics, d.identity = TEMPORAL_VALIDITY_CODE ∧ d.severity = .warning ∧
      d.location = some id

/-- What is escalated of an object. -/
structure TemporalPayload where
  objectId : String
  objectType : Option String
  validUntil : Option FieldValue
  message : String
  reason : String := "valid_until_expired"

namespace TemporalStalenessSweeper

/-- What is escalated of the object at a location. -/
def payload (k : Knowledge) (location message : String) : TemporalPayload :=
  let obj := k.objectsById.lookup location
  { objectId := location
    objectType := obj.map (·.type)
    validUntil := obj.bind (·.fields.lookup "valid_until")
    message := message }

/-- What is found of a diagnostic, if anything. -/
def finding (k : Knowledge) (d : CoreDiagnostic) : Option TemporalPayload :=
  if d.identity = TEMPORAL_VALIDITY_CODE ∧ d.severity = .warning then
    d.location.map fun location => payload k location d.message
  else none

/-- What `TemporalStalenessSweeper` looks for. -/
def watch (v : TemporalValidity) : StalenessWatch TemporalPayload where
  taskType := "temporal_conflict"
  findings now k :=
    match v.validate now k with
    | .error e => [.error e]
    | .ok diagnostics => (diagnostics.filterMap (finding k)).map .ok
  idOf p := p.objectId

end TemporalStalenessSweeper

/-! ## Runs -/

/-- The sessions, the sweeper, and what its sweeps returned. -/
structure StalenessWorld (P : Type) where
  sessions : Table String StoredSession := ∅
  sweeper : StalenessState P := {}
  returned : List P := []

/-- What happens to the store and the sweeper. -/
inductive StalenessEvent
  | commit (sessionId : String) (session : StoredSession)
  | remove (sessionId : String)
  | sweep (now : Nat)

/-- What an event leaves. -/
def StalenessWorld.step {P : Type} (c : StalenessConfig) (w : StalenessWatch P)
    (world : StalenessWorld P) : StalenessEvent → StalenessWorld P
  | .commit sessionId session =>
    { world with sessions := world.sessions.set sessionId session }
  | .remove sessionId => { world with sessions := world.sessions.erase sessionId }
  | .sweep now =>
    match c.sweepOnce w world.sessions now world.sweeper with
    | .ok payloads s => { world with sweeper := s, returned := world.returned ++ payloads }
    | .error _ s => { world with sweeper := s }

end CksRuntime
