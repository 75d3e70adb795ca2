import CksRuntime.Lib.Transition

/-!
# Background loops

`start`, `stop` and the loop of the reasoning sweepers (`reasoning/sweeper_status.py` and the seven
modules it lists), of `gc/garbage_collector.py`, of `projection/outbox_worker.py` and of
`gossip/service.py`. The calls of `start` and `stop` come from anywhere and wait in between. A step
is what runs without waiting. What a loop does in a round is its own business: it neither starts
nor stops loops.
-/

set_option autoImplicit false

namespace CksRuntime

open Transition

/-- What a storage is asked for before a loop is started on it. -/
inductive Capability
  | outbox
  | sweepMethods
  | gcMethods
  deriving DecidableEq

/-- Where the loops differ. -/
structure LoopControl where
  requires : List Capability := []
  /-- `start` and `stop` run under `_control_lock`. -/
  locked : Bool := false
  /-- `start` waits for `discover_peers` before it creates the task. -/
  discovers : Bool := false
  /-- The loop reads `get_sweeper_desired_running`, outside its `try`. -/
  readsDesired : Bool := false

/-- A task that runs the loop. -/
inductive LoopTask
  | live (cancelled : Bool)
  | returned
  | interrupted
  | raised
  deriving DecidableEq

/-- The two attributes, the tasks that were ever created, and the calls that wait: the `stop`s by
the task they wait for, and how many `start`s wait for `discover_peers`. -/
structure BackgroundLoop where
  running : Bool := false
  task : Option Nat := none
  tasks : List LoopTask := []
  stopping : List Nat := []
  discovering : Nat := 0

/-- What happens to a loop and its tasks. -/
inductive LoopCall
  | start
  | discovered
  | discoveryRaises
  | stop
  /-- A `stop` goes on after the task it waited for. -/
  | stopped (t : Nat)
  /-- `while self._running` is over. -/
  | ends (t : Nat)
  /-- The desired state it has read is `False`. -/
  | turnedOff (t : Nat)
  | interrupted (t : Nat)
  /-- Reading the desired state raises. -/
  | raises (t : Nat)

namespace BackgroundLoop

variable (w : BackgroundLoop)

/-- The task has not ended. -/
def Live (t : Nat) : Prop := ∃ cancelled, w.tasks[t]? = some (.live cancelled)

/-- `create_task`: the loop's task is the new one. -/
def createTask : BackgroundLoop :=
  { w with task := some w.tasks.length, tasks := w.tasks ++ [.live false] }

/-- `start`, up to where it waits. -/
def start (c : LoopControl) (supports : Capability → Bool) : BackgroundLoop :=
  if w.running then w
  else if ¬c.requires.all supports then w
  else if c.discovers then { w with running := true, discovering := w.discovering + 1 }
  else { w with running := true }.createTask

/-- The rest of `start`. -/
def discovered : BackgroundLoop := { w with discovering := w.discovering - 1 }.createTask

/-- After `await self._task`, which raises what the task has raised. -/
def awaited (t : Nat) : BackgroundLoop :=
  if w.tasks[t]? = some .raised then w else { w with task := none }

/-- `stop`, up to where it waits. -/
def stop : BackgroundLoop :=
  match w.task with
  | none => { w with running := false }
  | some t =>
    match w.tasks[t]? with
    | some (.live _) => { w with
        running := false
        tasks := w.tasks.set t (.live true)
        stopping := t :: w.stopping }
    | _ => { w with running := false }.awaited t

/-- The rest of `stop`. -/
def stopped (t : Nat) : BackgroundLoop := { w with stopping := w.stopping.erase t }.awaited t

/-- A task has ended. -/
def finish (t : Nat) (outcome : LoopTask) : BackgroundLoop :=
  { w with tasks := w.tasks.set t outcome }

/-- The lock is held by a call that waits. -/
def Unlocked (c : LoopControl) : Prop := c.locked → w.stopping = [] ∧ w.discovering = 0

variable {w}

/-- What happens, one at a time; a `start` or `stop` that awaits is two steps. -/
inductive Step (c : LoopControl) (supports : Capability → Bool) :
    BackgroundLoop → LoopCall → BackgroundLoop → Prop
  | start {w : BackgroundLoop} : w.Unlocked c → Step c supports w .start (w.start c supports)
  | discovered {w : BackgroundLoop} : 0 < w.discovering → Step c supports w .discovered w.discovered
  | discoveryRaises {w : BackgroundLoop} : 0 < w.discovering →
      Step c supports w .discoveryRaises { w with discovering := w.discovering - 1 }
  | stop {w : BackgroundLoop} : w.Unlocked c → Step c supports w .stop w.stop
  | stopped {w : BackgroundLoop} (t : Nat) : t ∈ w.stopping → ¬w.Live t →
      Step c supports w (.stopped t) (w.stopped t)
  | ends {w : BackgroundLoop} (t : Nat) : w.Live t → w.running = false →
      Step c supports w (.ends t) (w.finish t .returned)
  | turnedOff {w : BackgroundLoop} (t : Nat) : w.Live t → c.readsDesired →
      Step c supports w (.turnedOff t) { w.finish t .returned with running := false }
  | interrupted {w : BackgroundLoop} (t : Nat) : w.tasks[t]? = some (.live true) →
      Step c supports w (.interrupted t) (w.finish t .interrupted)
  | raises {w : BackgroundLoop} (t : Nat) : w.Live t → c.readsDesired →
      Step c supports w (.raises t) (w.finish t .raised)

/-- No loop runs at first. -/
def system (c : LoopControl) (supports : Capability → Bool) : System BackgroundLoop LoopCall where
  init w := w = {}
  step := Step c supports

/-- A loop that runs, is not the recorded one and is waited for by nobody. -/
def Orphan (w : BackgroundLoop) (t : Nat) : Prop := w.Live t ∧ w.task ≠ some t ∧ t ∉ w.stopping

end BackgroundLoop

/-! ## The loops -/

namespace LoopControl

/-- The loop of a sweeper. -/
def sweeper (requires : List Capability) : LoopControl where
  requires := requires
  locked := true
  readsDesired := true

def contradictionSweeper : LoopControl := sweeper [.outbox, .sweepMethods]
def temporalStalenessSweeper : LoopControl := sweeper [.outbox, .sweepMethods]
def provenanceStalenessSweeper : LoopControl := sweeper [.outbox, .sweepMethods]
def inferenceStalenessSweeper : LoopControl := sweeper [.sweepMethods]
def graphFreshnessSweeper : LoopControl := sweeper [.outbox]
def graphAutoUpdateSweeper : LoopControl := sweeper [.outbox]
def graphHealthSweeper : LoopControl := sweeper [.outbox]

/-- `GarbageCollector`. -/
def garbageCollector : LoopControl where
  requires := [.gcMethods]

/-- `OutboxEmbeddingWorker`. -/
def outboxEmbeddingWorker : LoopControl where
  requires := [.outbox]

/-- `GossipService`, with a `discovery` or without. -/
def gossipService (discovery : Bool) : LoopControl where
  discovers := discovery

end LoopControl

end CksRuntime
