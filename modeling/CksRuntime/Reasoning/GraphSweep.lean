import CksRuntime.Reasoning.Components
import CksRuntime.Reasoning.Freshness
import Mathlib.Algebra.Order.Field.Rat

/-!
# The graph sweepers

`GraphAutoUpdateSweeper` and `GraphHealthSweeper`: what each finds of a registered graph
(`_check_graph`, `_score_graph`), and the sweep both make over the registry (`sweep_once`). A
`GraphSweepEnv` is what one sweep meets: the registry, the sessions, the network and the outbox, of
which each may fail. The weighted sum of a score is exact here.
-/

set_option autoImplicit false

namespace CksRuntime

open IsoTime

/-! ## What a sweep meets -/

/-- What is read of a session. -/
structure GraphSession where
  knowledge : Option (List GraphObject)

/-- Its objects, none where it has no structure. -/
def GraphSession.objects (session : GraphSession) : List GraphObject := session.knowledge.getD []

/-- The components, numbered as the loop comes to them. -/
def GraphSession.components (session : GraphSession) : List (GraphObject × Nat) :=
  (session.objects.filter (·.isComponent)).zipIdx

/-- What comes of `enqueue_task`, its arguments included; where it raises, the task may have been
written. -/
inductive EnqueueOutcome
  | written
  | raised (written : Bool) (e : SweepError)

/-- What one sweep meets. -/
structure GraphSweepEnv where
  graphs : Except SweepError (List (Graph Rendered))
  now : Graph Rendered → Int
  loadSession : Graph Rendered → Except SweepError (Option GraphSession)
  upstream : Graph Rendered → Upstream
  /-- The errors `cks.validate` finds of the two contradiction constraints. -/
  contradictions : List GraphObject → Except SweepError Nat
  /-- The sessions of the dead-lettered tasks. -/
  deadLetters : Graph Rendered → Except SweepError (List String)
  enqueue : Graph Rendered → EnqueueOutcome
  /-- The name is the registry's primary key. -/
  unique : ∀ rows, graphs = .ok rows → (rows.map (·.name)).Nodup

/-! ## Outdated components -/

/-- A component whose version is behind. -/
structure OutdatedComponent where
  component : String
  graphVersion : GraphValue
  actualVersion : String
deriving DecidableEq

namespace GraphAutoUpdateSweeper

open Upstream

variable (up : Upstream)

/-- `fetch_fn`, as the source says. -/
def fetch (round : Nat) (r : Resolved) : Except String String :=
  match r.source with
  | .packageJson => up.fetchPackageJsonVersion round r.repo r.candidatePaths
  | .python => up.fetchVersion round r.repo r.candidatePaths

/-- A round of the loop. -/
def checkComponent (obj : GraphObject) (round : Nat) :
    Except SweepError (Option OutdatedComponent) := do
  match ← up.resolveComponent obj.componentName obj.fields with
  | none => return none
  | some r =>
    match fetch up round r with
    | .error _ => return none
    | .ok actualVersion =>
      if isOutdated obj.version actualVersion then
        return some ⟨obj.componentName, obj.version, actualVersion⟩
      else return none

/-- `_check_graph`, of the session it loads. -/
def checkGraph (session : Option GraphSession) : Except SweepError (List OutdatedComponent) :=
  match session with
  | none => .ok []
  | some session => session.components.foldlM (fun outdated c => do
      return outdated ++ (← checkComponent up c.1 c.2).toList) []

/-- What is reported of a graph with such. -/
structure Payload where
  name : String
  sessionId : String
  outdatedComponents : List OutdatedComponent
  autoApplyRequested : Bool
  reason : String := "version_outdated"

end GraphAutoUpdateSweeper

/-! ## Scores -/

namespace GraphHealthSweeper

open Upstream

/-- A datetime without a zone is taken to be in UTC. -/
def inUtc : PyDatetime → PyDatetime
  | .aware instant => .aware instant
  | .naive localTime => .aware localTime

/-- `_parse_timestamp`. -/
def parseTimestamp : Option FieldValue → Option PyDatetime
  | some (.iso t) =>
    match t.fromisoformat with
    | some parsed => some (inUtc parsed)
    | none => t.readUtc.map inUtc
  | _ => none

/-- Whether a timestamp is read and not before the cutoff. -/
def fresh (cutoff : Int) (value : Option FieldValue) : Except SweepError Bool :=
  match parseTimestamp value with
  | none => .ok false
  | some (.naive _) => .error .typeError
  | some (.aware instant) => .ok (cutoff ≤ instant)

section
variable (up : Upstream)

/-- A round of the loop, on `up_to_date` and `checked`. -/
def countComponent (acc : Nat × Nat) (c : GraphObject × Nat) : Except SweepError (Nat × Nat) := do
  match ← up.resolveComponent c.1.componentName c.1.fields with
  | none => return acc
  | some r =>
    match up.fetchVersion c.2 r.repo r.candidatePaths with
    | .error _ => return acc
    | .ok actualVersion =>
      return (if isOutdated c.1.version actualVersion then acc.1 else acc.1 + 1, acc.2 + 1)

/-- `_version_freshness_score`. -/
def versionFreshnessScore (session : GraphSession) : Except SweepError ℚ := do
  let (upToDate, checked) ← session.components.foldlM (countComponent up) (0, 0)
  return if checked = 0 then 1 else upToDate / checked

end

/-- `_ttl_freshness_score`: only a text is parsed. -/
def ttlFreshnessScore (now : Int) (ttlSeconds : Nat) : Rendered → Except SweepError ℚ
  | .text t => do
    return if ← fresh (now - ttlSeconds * SECOND) (some (.iso t)) then 1 else 0
  | .datetime _ => .ok 0

/-- `_contradictions_score`. -/
def contradictionsScore (count : List GraphObject → Except SweepError Nat)
    (session : GraphSession) : Except SweepError ℚ :=
  match session.knowledge with
  | none => .ok 1
  | some objects => do return if (← count objects) = 0 then 1 else 0

/-- Thirty days. -/
def VERIFICATION_COVERAGE_TTL_SECONDS : Nat := 30 * 24 * 3600

/-- A value as the timestamps are read of it: `isoOf` takes a text of ISO form apart. -/
def fieldValue (isoOf : String → Option IsoText) : GraphValue → FieldValue
  | .str s =>
    match isoOf s with
    | some t => .iso t
    | none => .text s
  | .other _ => .json ""

/-- `_verification_coverage_score`. -/
def verificationCoverageScore (isoOf : String → Option IsoText) (now : Int)
    (session : GraphSession) : Except SweepError ℚ := do
  let records := session.objects.filter (·.type == VERIFICATION_RECORD_TYPE)
  let cutoff := now - VERIFICATION_COVERAGE_TTL_SECONDS * SECOND
  let covered ← records.foldlM (fun count record => do
    let value := (record.fields.lookup CHECKED_AT_KEY).map (fieldValue isoOf)
    return if ← fresh cutoff value then count + 1 else count) 0
  return if records = [] then 1 else (covered : ℚ) / records.length

/-- `_dead_letter_score`. -/
def deadLetterScore (deadLetters : Except SweepError (List String)) (sessionId : String) :
    Except SweepError ℚ := do
  return if (← deadLetters).contains sessionId then 1 / 2 else 1

/-- The five scores of a graph. -/
structure Metrics where
  versionFreshness : ℚ
  ttlFreshness : ℚ
  contradictions : ℚ
  verificationCoverage : ℚ
  deadLetter : ℚ

/-- The weighted sum, exact: the code sums floats, and so may put a score on the other side of a
threshold that the sum is within rounding of. -/
def Metrics.score (m : Metrics) : ℚ :=
  3 / 10 * m.versionFreshness + 1 / 10 * m.ttlFreshness + 3 / 10 * m.contradictions +
    1 / 5 * m.verificationCoverage + 1 / 10 * m.deadLetter

/-- What is reported of a graph below the threshold. -/
structure Payload where
  name : String
  sessionId : String
  healthScore : ℚ
  metrics : Metrics
  minScore : ℚ

/-- `_score_graph`: none where the session is not available. -/
def scoreGraph (isoOf : String → Option IsoText) (ttlSeconds : Nat) (env : GraphSweepEnv)
    (graph : Graph Rendered) : Except SweepError (Option Metrics) := do
  match ← env.loadSession graph with
  | none => return none
  | some session =>
    return some
      { versionFreshness := ← versionFreshnessScore (env.upstream graph) session
        ttlFreshness := ← ttlFreshnessScore (env.now graph) ttlSeconds graph.updatedAt
        contradictions := ← contradictionsScore env.contradictions session
        verificationCoverage := ← verificationCoverageScore isoOf (env.now graph) session
        deadLetter := ← deadLetterScore (env.deadLetters graph) graph.sessionId }

end GraphHealthSweeper

/-! ## A sweep -/

/-- What a sweeper looks for in a graph, and reports. -/
structure GraphWatch (P : Type) where
  taskType : String
  assess : GraphSweepEnv → Graph Rendered → Except SweepError (Option P)

/-- `_check_graph`, and the task for what it finds. -/
def GraphAutoUpdateSweeper.watch (applyUpdates : Bool) :
    GraphWatch GraphAutoUpdateSweeper.Payload where
  taskType := GRAPH_OUTDATED_TASK_TYPE
  assess env graph := do
    let outdatedComponents ← checkGraph (env.upstream graph) (← env.loadSession graph)
    if outdatedComponents = [] then return none
    else return some ⟨graph.name, graph.sessionId, outdatedComponents, applyUpdates,
      "version_outdated"⟩

/-- `_score_graph`, and the task for a low score. -/
def GraphHealthSweeper.watch (isoOf : String → Option IsoText) (ttlSeconds : Nat) (minScore : ℚ) :
    GraphWatch GraphHealthSweeper.Payload where
  taskType := "health_check"
  assess env graph := do
    match ← scoreGraph isoOf ttlSeconds env graph with
    | none => return none
    | some metrics =>
      -- `score >= self._min_score`, on the exact sum
      if minScore ≤ metrics.score then return none
      else return some ⟨graph.name, graph.sessionId, metrics.score, metrics, minScore⟩

/-- The graphs reported, and the tasks written, each with its graph. -/
structure GraphSweepState (P : Type) where
  known : List String := []
  enqueued : List (String × StaleTask P) := []

namespace GraphWatch

variable {P : Type} (w : GraphWatch P) (supportsOutbox : Bool) (env : GraphSweepEnv)

/-- A call of a sweeper. -/
abbrev Sweep (P α : Type) := EStateM SweepError (GraphSweepState P) α

/-- A task is written. -/
def write (name : String) (task : StaleTask P) : Sweep P Unit :=
  modify fun s => { s with enqueued := s.enqueued ++ [(name, task)] }

/-- `enqueue_task`, which may raise before or after the row is written. -/
def enqueueTask (graph : Graph Rendered) (payload : P) : Sweep P Unit :=
  match env.enqueue graph with
  | .written => write graph.name ⟨w.taskType, graph.sessionId, payload⟩
  | .raised true e => do
    write graph.name ⟨w.taskType, graph.sessionId, payload⟩
    throw e
  | .raised false e => throw e

/-- A round of the loop, on `current` and `new_payloads`. -/
def visit (acc : List String × List P) (graph : Graph Rendered) : Sweep P (List String × List P) :=
  if graph.name = "" ∨ graph.sessionId = "" then pure acc
  else
    match w.assess env graph with
    | .error e => throw e
    | .ok none => pure acc
    | .ok (some payload) => do
      let s ← get
      if graph.name ∈ s.known then pure (acc.1.insert graph.name, acc.2)
      else do
        if supportsOutbox then w.enqueueTask env graph payload else pure ()
        pure (acc.1.insert graph.name, acc.2 ++ [payload])

/-- `sweep_once`. -/
def sweepOnce : Sweep P (List P) :=
  match env.graphs with
  | .error e => throw e
  | .ok graphs => do
    let acc ← graphs.foldlM (w.visit supportsOutbox env) ([], [])
    modify fun s => { s with known := acc.1 }
    pure acc.2

end GraphWatch

end CksRuntime
