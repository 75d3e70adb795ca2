import CksRuntime.Lib.CivilTime
import CksRuntime.Storage.Outbox

/-!
# Retries of the outbox worker

What `OutboxEmbeddingWorker._process_next_task` does about a task that failed: it is given up, or
stored with the time of its next retry as Python writes it. `dequeue_next_outbox_task` compares that
text with SQLite's `datetime('now')`.
-/

set_option autoImplicit false

namespace CksRuntime

open CivilTime (UtcTime datetime)

/-- `min(2 ** retry_count, 3600)`. -/
def delaySeconds (retryCount : Int) : Nat := min (2 ^ retryCount.toNat) 3600

/-- The `except` branch; `nextRetry` is when the delay is over. -/
def Outbox.afterFailure (o : Outbox) (maxRetries : Int) (task : OutboxTask) (error : String)
    (nextRetry : UtcTime) : Outbox :=
  let retryCount := task.retryCount + 1
  if maxRetries ≤ retryCount then o.deadLetterOutboxTask task.taskId error
  else o.failOutboxTask task.taskId retryCount error nextRetry.isoformat

/-- The task may be handed out: `dequeue` is asked for its type. -/
def Outbox.Eligible (o : Outbox) (taskId : Nat) (now : UtcTime) : Prop :=
  ∃ r ∈ o.rows taskId, r.eligible datetime now.seconds (some r.taskType) = true

/-- A task that failed and is to be tried again. -/
structure FailedTask where
  outbox : Outbox
  task : OutboxTask
  row : OutboxRow
  found : outbox.rows task.taskId = some row
  maxRetries : Int
  retries : task.retryCount + 1 < maxRetries
  error : String
  failedAt : UtcTime
  nextRetry : UtcTime
  delayed : nextRetry.microseconds =
    failedAt.microseconds + delaySeconds (task.retryCount + 1) * 1000000

namespace FailedTask

variable (f : FailedTask)

/-- The row as the failure leaves it. -/
def stored : Outbox := f.outbox.afterFailure f.maxRetries f.task f.error f.nextRetry

/-- Eligible in every second after that of the retry, and in none before it. -/
def OnTime (now : UtcTime) : Prop :=
  (f.nextRetry.seconds < now.seconds → f.stored.Eligible f.task.taskId now) ∧
    (f.stored.Eligible f.task.taskId now → f.nextRetry.seconds ≤ now.seconds)

/-- Eligible whenever the seconds of the delay are over. -/
def NotHeldBack : Prop :=
  ∀ now : UtcTime, f.failedAt.seconds + delaySeconds (f.task.retryCount + 1) < now.seconds →
    f.stored.Eligible f.task.taskId now

/-- It is another day, or not later yet. -/
def AnotherDay (now : UtcTime) : Prop :=
  f.nextRetry.ordinal ≠ now.ordinal ∨ now.seconds ≤ f.nextRetry.seconds

/-- The retry is in the last second of a day. -/
def AtMidnight : Prop :=
  f.nextRetry.hour = 23 ∧ f.nextRetry.minute = 59 ∧ f.nextRetry.second = 59

end FailedTask

end CksRuntime
