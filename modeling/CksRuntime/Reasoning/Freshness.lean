import CksRuntime.Reasoning.Staleness
import CksRuntime.Storage.Graphs

/-!
# The graph freshness sweeper

`GraphFreshnessSweeper.sweep_once` over the graph registry of SQLite and of Postgres, whose upserts
are alike (`Storage/Graphs`) but for the clock they store and the form `list_graphs` returns it in.
A run also counts registrations, keeps of every task which registration it was for, and of every
sweep when it was and what was registered then.
-/

set_option autoImplicit false

namespace CksRuntime

open IsoTime

/-- `updated_at`, as `list_graphs` returns it: a text, or a `datetime` of the driver. -/
inductive Rendered
  | text (text : IsoText)
  | datetime (instant : Int)
deriving DecidableEq

/-- The backend that keeps the registry. -/
inductive GraphBackend
  | sqlite
  | postgres
deriving DecidableEq

namespace GraphBackend

/-- The clock, in microseconds, as the backend stores it: `datetime('now')` has whole seconds. -/
def stored : GraphBackend → Nat → Nat
  | .sqlite, now => now / 1000000
  | .postgres, now => now

/-- SQLite keeps `YYYY-MM-DD HH:MM:SS`, Postgres a `TIMESTAMPTZ`. -/
def render : GraphBackend → Nat → Rendered
  | .sqlite, seconds =>
    .text ⟨(seconds / 86400 : Nat), some (seconds % 86400 * 1000000), []⟩
  | .postgres, micros => .datetime micros

/-- `supports_outbox`. -/
def supportsOutbox : GraphBackend → Bool
  | .sqlite => true
  | .postgres => true

end GraphBackend

/-- What is escalated of a graph. -/
structure GraphPayload where
  name : String
  sessionId : String
  updatedAt : Rendered
  ttlSeconds : Nat
  reason : String := "ttl_expired"

/-- The type of its task. -/
def GRAPH_OUTDATED_TASK_TYPE : String := "graph_outdated"

/-- The names the sweeper has in mind, and the tasks it has written. -/
structure FreshnessState where
  knownStale : List String := []
  enqueued : List (StaleTask GraphPayload) := []

namespace GraphFreshnessSweeper

/-- A call of the sweeper. -/
abbrev Sweep (α : Type) := EStateM SweepError FreshnessState α

/-- `_parse_timestamp`: only a text is parsed. -/
def parseTimestamp : Rendered → Option PyDatetime
  | .text t => t.readUtc
  | .datetime _ => none

/-- `enqueue_task`, awaited where it is a coroutine. -/
def enqueueTask (task : StaleTask GraphPayload) : Sweep PUnit :=
  modify fun s => { s with enqueued := s.enqueued ++ [task] }

/-- What is escalated of a graph that is stale. -/
def payload (ttlSeconds : Nat) (graph : Graph Rendered) : GraphPayload where
  name := graph.name
  sessionId := graph.sessionId
  updatedAt := graph.updatedAt
  ttlSeconds := ttlSeconds

/-- The task for it. -/
def task (ttlSeconds : Nat) (graph : Graph Rendered) : StaleTask GraphPayload where
  taskType := GRAPH_OUTDATED_TASK_TYPE
  sessionId := graph.sessionId
  payload := payload ttlSeconds graph

variable (b : GraphBackend) (ttlSeconds : Nat)

/-- A round of the loop, on `current_stale` and `new_payloads`. -/
def visit (cutoff : Int) (acc : List String × List GraphPayload) (graph : Graph Rendered) :
    Sweep (List String × List GraphPayload) :=
  if graph.name = "" then pure acc
  else
    match parseTimestamp graph.updatedAt with
    | none => pure acc
    | some (.naive _) => throw .typeError
    | some (.aware updatedAt) =>
      if cutoff ≤ updatedAt then pure acc
      else do
        let s ← get
        if graph.name ∈ s.knownStale then pure (acc.1.insert graph.name, acc.2)
        else do
          if b.supportsOutbox then enqueueTask (task ttlSeconds graph) else pure ⟨⟩
          pure (acc.1.insert graph.name, acc.2 ++ [payload ttlSeconds graph])

/-- `sweep_once`, of the graphs listed. -/
def sweepOnce (graphs : List (Graph Rendered)) (now : Nat) : Sweep (List GraphPayload) := do
  let acc ← graphs.foldlM (visit b ttlSeconds (now - ttlSeconds * SECOND)) ([], [])
  modify fun s => { s with knownStale := acc.1 }
  pure acc.2

end GraphFreshnessSweeper

/-! ## Runs -/

/-- A registration: when, and which of all it was. -/
structure Registration where
  serial : Nat
  registeredAt : Nat
deriving DecidableEq

/-- A sweep: when, and what was registered then. -/
structure PastSweep where
  now : Nat
  registered : Table String Registration

/-- The registry and the sweeper, with what has happened to each name. -/
structure FreshnessWorld where
  registry : SQLiteStorage.Registry := ∅
  sweeper : FreshnessState := {}
  /-- Of each graph registered, its last registration. -/
  registered : Table String Registration := ∅
  registrations : Nat := 0
  /-- Of each task, the graph and its registration. -/
  escalated : List (String × Option Registration) := []
  /-- The last sweep first. -/
  sweeps : List PastSweep := []

/-- What happens to them. -/
inductive FreshnessEvent
  | register (now : Nat) (args : GraphArgs)
  | unregister (name : String)
  | sweep (now : Nat)

namespace FreshnessWorld

variable (b : GraphBackend) (ttlSeconds : Nat)

/-- The sweeper after a sweep, with the tasks it added. -/
def swept (world : FreshnessWorld) (now : Nat) (s : FreshnessState) : FreshnessWorld :=
  { world with
    sweeper := s
    escalated := world.escalated ++
      (s.enqueued.drop world.sweeper.enqueued.length).map fun t =>
        (t.payload.name, world.registered.lookup t.payload.name)
    sweeps := ⟨now, world.registered⟩ :: world.sweeps }

/-- What an event leaves. -/
def step (world : FreshnessWorld) : FreshnessEvent → FreshnessWorld
  | .register now args =>
    { world with
      registry := SQLiteStorage.registerGraph world.registry (b.stored now) args
      registered := world.registered.set args.name ⟨world.registrations, now⟩
      registrations := world.registrations + 1 }
  | .unregister name =>
    { world with
      registry := (SQLiteStorage.unregisterGraph world.registry name).1
      registered := world.registered.erase name }
  | .sweep now =>
    let graphs := SQLiteStorage.listGraphs b.render world.registry {}
    match GraphFreshnessSweeper.sweepOnce b ttlSeconds graphs now world.sweeper with
    | .ok _ s => world.swept now s
    | .error _ s => world.swept now s

/-! ## What a sweep owes -/

/-- Registered longer ago than the TTL. -/
def Outdated (now : Nat) (r : Registration) : Prop :=
  (r.registeredAt : Int) < now - ttlSeconds * SECOND

instance (now : Nat) (r : Registration) : Decidable (Outdated ttlSeconds now r) :=
  inferInstanceAs (Decidable (_ < _))

/-- The same by the second SQLite stored. -/
def SeenOutdated (now : Nat) (r : Registration) : Prop :=
  (r.registeredAt / 1000000 : Nat) * SECOND < now - ttlSeconds * SECOND

instance (now : Nat) (r : Registration) : Decidable (SeenOutdated ttlSeconds now r) :=
  inferInstanceAs (Decidable (_ < _))

/-- The registration has been escalated. -/
def Escalated (world : FreshnessWorld) (name : String) (r : Registration) : Prop :=
  (name, some r) ∈ world.escalated

/-- After a sweep every outdated graph has had a task for its registration, and none has had two. -/
def Complete (world : FreshnessWorld) : FreshnessEvent → Prop
  | .sweep now =>
    (∀ name r, world.registered.lookup name = some r → Outdated ttlSeconds now r →
      (world.step b ttlSeconds (.sweep now)).Escalated name r) ∧
    (world.step b ttlSeconds (.sweep now)).escalated.Nodup
  | _ => True

/-- The sweep found this registration, outdated. -/
def Saw (name : String) (r : Registration) (sweep : PastSweep) : Prop :=
  sweep.registered.lookup name = some r ∧ SeenOutdated ttlSeconds sweep.now r

/-- The last of these sweeps found the name outdated. -/
def LastSaw (sweeps : List PastSweep) (name : String) : Prop :=
  ∃ sweep ∈ sweeps.head?, ∃ r, Saw ttlSeconds name r sweep

/-- One of these sweeps found this registration outdated when the sweep before it had not found the
name so. -/
def Expired (sweeps : List PastSweep) (name : String) (r : Registration) : Prop :=
  ∃ later sweep earlier, sweeps = later ++ sweep :: earlier ∧ Saw ttlSeconds name r sweep ∧
    ¬LastSaw ttlSeconds earlier name

/-- In SQLite an outdated graph has a name, and expired before this sweep or does now; one that
expired before and is seen outdated still was at the last sweep. In Postgres no graph is outdated.
Only the times of registrations and sweeps are asked for. -/
def Expires (world : FreshnessWorld) : FreshnessEvent → Prop
  | .sweep now => ∀ name r, world.registered.lookup name = some r →
    match b with
    | .sqlite =>
      (Outdated ttlSeconds now r → name ≠ "" ∧
        (Expired ttlSeconds world.sweeps name r ∨ ¬LastSaw ttlSeconds world.sweeps name)) ∧
      (SeenOutdated ttlSeconds now r → name ≠ "" → Expired ttlSeconds world.sweeps name r →
        LastSaw ttlSeconds world.sweeps name)
    | .postgres => ¬Outdated ttlSeconds now r
  | _ => True

end FreshnessWorld

end CksRuntime
