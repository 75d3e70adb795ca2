import CksRuntime.Projection.Retry

/-!
# When a retry is due

`onTime_iff`: a failed task is eligible from its retry time on, to the second, exactly on the days
after it: on the day itself the text with a `T` is greater than every text with a space.
-/

set_option autoImplicit false

namespace CksRuntime

open CivilTime (UtcTime datetime)

namespace FailedTask

variable (f : FailedTask) (now : UtcTime)

theorem stored_row : f.stored.rows f.task.taskId =
    some (f.row.failed (f.task.retryCount + 1) f.error f.nextRetry.isoformat) := by
  have hretries := f.retries
  rw [stored, Outbox.afterFailure, if_neg (by omega), Outbox.failOutboxTask, Outbox.update, f.found]
  exact Function.update_self ..

/-- The texts are compared as the dates in them are. -/
theorem eligible_iff :
    f.stored.Eligible f.task.taskId now ↔ f.nextRetry.ordinal < now.ordinal := by
  rw [Outbox.Eligible, stored_row, ← UtcTime.isoformat_le_datetime_iff]
  simp only [OutboxRow.eligible, OutboxRow.failed, Option.mem_some_iff, exists_eq_left',
    Option.all_some, decide_true, true_and, decide_eq_true_eq, reduceCtorEq, false_and, or_false]

theorem seconds_lt_of_ordinal_lt {t u : UtcTime} (h : t.ordinal < u.ordinal) :
    t.seconds < u.seconds := by
  have ht := t.secondOfDay_lt
  rw [UtcTime.seconds, UtcTime.seconds]
  omega

theorem ordinal_le_of_seconds_lt {t u : UtcTime} (h : t.seconds < u.seconds) :
    t.ordinal ≤ u.ordinal := by
  have hu := u.secondOfDay_lt
  rw [UtcTime.seconds, UtcTime.seconds] at h
  omega

theorem onTime_now_iff : f.OnTime now ↔ f.AnotherDay now := by
  rw [OnTime, AnotherDay, eligible_iff]
  have hlt := seconds_lt_of_ordinal_lt (t := f.nextRetry) (u := now)
  have hle := ordinal_le_of_seconds_lt (t := f.nextRetry) (u := now)
  omega

theorem nextRetry_seconds : f.nextRetry.seconds =
    f.failedAt.seconds + delaySeconds (f.task.retryCount + 1) := by
  have h := f.delayed
  have hretry := f.nextRetry.microsecond_lt
  have hfailed := f.failedAt.microsecond_lt
  rw [UtcTime.microseconds, UtcTime.microseconds] at h
  omega

/-- The last second of the day. -/
def lastSecond (t : UtcTime) : UtcTime :=
  { t with
    hour := 23
    minute := 59
    second := 59
    hour_lt := by decide
    minute_lt := by decide
    second_lt := by decide }

theorem seconds_lastSecond (t : UtcTime) :
    (lastSecond t).seconds = t.ordinal * 86400 + (23 * 3600 + 59 * 60 + 59) := rfl

theorem notHeldBack_iff : f.NotHeldBack ↔ f.AtMidnight := by
  have hhour := f.nextRetry.hour_lt
  have hminute := f.nextRetry.minute_lt
  have hsecond := f.nextRetry.second_lt
  rw [NotHeldBack, AtMidnight, ← nextRetry_seconds]
  constructor
  · intro h
    by_contra hearlier
    have hlast : f.nextRetry.seconds < (lastSecond f.nextRetry).seconds := by
      rw [seconds_lastSecond, UtcTime.seconds, UtcTime.secondOfDay]
      omega
    have hlater : f.nextRetry.ordinal < (lastSecond f.nextRetry).ordinal :=
      (f.eligible_iff _).1 (h _ hlast)
    exact lt_irrefl _ hlater
  · intro h now hnow
    have hday := now.secondOfDay_lt
    rw [eligible_iff]
    rw [UtcTime.seconds, UtcTime.seconds, UtcTime.secondOfDay, h.1, h.2.1, h.2.2] at hnow
    omega

/-- **A retry is on time** on another day than its own, and a task is not held back longer than its
delay exactly when that ends at midnight. -/
theorem onTime_iff (f : FailedTask) :
    (∀ now : UtcTime, f.OnTime now ↔ f.AnotherDay now) ∧ (f.NotHeldBack ↔ f.AtMidnight) :=
  ⟨f.onTime_now_iff, f.notHeldBack_iff⟩

/-- Ten in the morning of the first of January 2024, and two seconds later. -/
def tenOClock (second : Nat) (h : second < 60) : UtcTime where
  year := 2024
  month := 1
  day := 1
  hour := 10
  minute := 0
  second := second
  microsecond := 0
  year_pos := by decide
  year_le := by decide
  month_pos := by decide
  month_le := by decide
  day_pos := by decide
  day_le := by decide
  hour_lt := by decide
  minute_lt := by decide
  second_lt := h
  microsecond_lt := by decide

/-- A task in hand. -/
def failedRow : OutboxRow where
  taskType := "projection"
  sessionId := "s"
  payload := "{}"
  status := .inProgress
  nextRetryAt := []
  createdAt := 0

/-- Failed once, to be retried after two seconds. -/
def failedOnce : FailedTask where
  outbox := { rows := fun _ => some failedRow, lastId := 1 }
  task := failedRow.toTask 1
  row := failedRow
  found := rfl
  maxRetries := 8
  retries := by decide
  error := "timeout"
  failedAt := tenOClock 0 (by decide)
  nextRetry := tenOClock 2 (by decide)
  delayed := by decide

/-- Half a minute later it is still not eligible. -/
theorem held_back_until_midnight :
    ¬∀ (f : FailedTask) (now : UtcTime), f.OnTime now ∧ f.NotHeldBack := by
  intro h
  have honTime := (h failedOnce (tenOClock 30 (by decide))).1.1
  have heligible := (failedOnce.eligible_iff _).1 (honTime (by decide))
  exact lt_irrefl _ heligible

end FailedTask

end CksRuntime
