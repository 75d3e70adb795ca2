import CksRuntime.Lib.GrowingPage
import CksRuntime.Lib.Table
import CksRuntime.Lib.Transition
import Mathlib.Data.String.Basic

/-!
# Watermark sweeps

`InferenceStalenessSweeper._sweep` and `ContradictionSweeper.sweep_once`: how both find the sessions
they go through. A sweep is cut wherever it awaits, so that sessions are written and removed between
any two of its steps: the query, the load of each session of its page
(`list_sessions_modified_since` of `storage/sqlite_storage.py` and `storage/postgres_storage.py`),
what is made of a full or short page, and the check of each candidate. What a check does is left
open but for whether it raises.

Clocks are in microseconds, and may be set back. `modified_at` is in the unit the storage compares
it in, `grain` microseconds each: SQLite's text has seconds, Postgres's column none lost. It comes
with the write: a transaction's `now()` is the time it began, and an import brings its own.
-/

set_option autoImplicit false

namespace CksRuntime

open GrowingPage Transition

/-- No page is longer. -/
def MAX_SWEEP_LIMIT : Nat := 100000

/-- The default `batch_size`. -/
def DEFAULT_BATCH_SIZE : Limit := ⟨100, by decide⟩

/-- Of a row of `sessions`, when it was modified, and which of all writes that was. -/
structure Stamp where
  modifiedAt : Nat
  revision : Nat
deriving DecidableEq

/-- A session as it was when it was loaded. -/
structure LoadedSession where
  sessionId : String
  revision : Nat
deriving DecidableEq

/-- A row of the table, with its id. -/
abbrev StampedRow := String × Stamp

/-- The order in which the query lists the rows. -/
abbrev SessionOrder := RowOrder fun r : StampedRow => r.2.modifiedAt

/-- Where a sweep is. -/
inductive SweepPhase
  | idle
  | querying (startedAt : Nat) (limit : Limit)
  | loading (startedAt : Nat) (limit : Limit) (page pending : List String) (batch : List LoadedSession)
  | processing (candidates : List LoadedSession)

/-- What a sweeper is configured with. -/
structure SweepConfig where
  batchSize : Limit
  grain : Nat

namespace SweepConfig

variable (c : SweepConfig)

/-- `modified_at >= watermark`. -/
def Since (watermark : Nat) (r : Stamp) : Prop := watermark / c.grain ≤ r.modifiedAt

instance (watermark : Nat) (r : Stamp) : Decidable (c.Since watermark r) :=
  inferInstanceAs (Decidable (_ ≤ _))

/-- The limit of the last page a sweep asks for. -/
def ceiling : Nat := GrowingPage.ceiling MAX_SWEEP_LIMIT c.batchSize

/-- The rows the query orders and cuts. -/
def rowsSince (sessions : Table String Stamp) (watermark : Nat) : List StampedRow :=
  sessions.rows.filter fun r => c.Since watermark r.2

end SweepConfig

/-- The storage and the sweeper; `checked` is what was ever checked. -/
structure SweepState where
  sessions : Table String Stamp := ∅
  writes : Nat := 0
  watermark : Nat := 0
  phase : SweepPhase := .idle
  checked : List LoadedSession := []

/-- A statement of the sweep, or a write between two of them. -/
inductive SweepStep
  | write (sessionId : String) (modifiedAt : Nat)
  | remove (sessionId : String)
  | start (now : Nat)
  | select (order : SessionOrder)
  | load
  | close
  | check
  | finish
  /-- An exception, of the storage or a check, or `stop`. -/
  | fail

namespace SweepState

/-- A session is saved. -/
def write (s : SweepState) (sessionId : String) (modifiedAt : Nat) : SweepState :=
  { s with
    sessions := s.sessions.set sessionId ⟨modifiedAt, s.writes⟩
    writes := s.writes + 1 }

/-- `load_session`. -/
def load (s : SweepState) (sessionId : String) : List LoadedSession :=
  match s.sessions.lookup sessionId with
  | some r => [⟨sessionId, r.revision⟩]
  | none => []

/-- What a statement leaves, where it can run. -/
def step (c : SweepConfig) (s : SweepState) (l : SweepStep) : Option SweepState :=
  match l, s.phase with
  | .write sessionId modifiedAt, _ => some (s.write sessionId modifiedAt)
  | .remove sessionId, _ => some { s with sessions := s.sessions.erase sessionId }
  | .start now, .idle => some { s with phase := .querying now c.batchSize }
  | .select order, .querying startedAt limit =>
    let page := (order.page (c.rowsSince s.sessions s.watermark) limit.1).map (·.1)
    some { s with phase := .loading startedAt limit page page [] }
  | .load, .loading startedAt limit page (sessionId :: pending) batch =>
    some { s with phase := .loading startedAt limit page pending (batch ++ s.load sessionId) }
  | .close, .loading startedAt limit _ [] batch =>
    if batch.length < limit.1 then
      some { s with watermark := startedAt, phase := .processing batch }
    else if MAX_SWEEP_LIMIT ≤ limit.1 then some { s with phase := .processing batch }
    else some { s with phase := .querying startedAt limit.grow }
  | .check, .processing (session :: candidates) =>
    some { s with phase := .processing candidates, checked := session :: s.checked }
  | .finish, .processing [] => some { s with phase := .idle }
  | .fail, .querying .. | .fail, .loading .. | .fail, .processing .. =>
    some { s with phase := .idle }
  | _, _ => none

/-- Nothing is stored before the first write. -/
def system (c : SweepConfig) : System SweepState SweepStep where
  init s := s = {}
  step s l s' := s.step c l = some s'

/-! ## What a sweep owes -/

/-- What the sweep at work has still to check. -/
def candidates (s : SweepState) : List LoadedSession :=
  match s.phase with
  | .processing candidates => candidates
  | _ => []

/-- A sweep that nothing disturbs returns the session, however its queries are ordered. -/
def Due (c : SweepConfig) (s : SweepState) (sessionId : String) : Prop :=
  ∀ order : Nat → SessionOrder, sessionId ∈ (drain MAX_SWEEP_LIMIT
    (fun limit => (order limit).page (c.rowsSince s.sessions s.watermark) limit)
    c.batchSize).1.map (·.1)

/-- Every stored session was checked as it is, is to be checked by the sweep at work, or is returned
by a later one. -/
def Covered (c : SweepConfig) (s : SweepState) : Prop :=
  ∀ sessionId r, s.sessions.lookup sessionId = some r →
    ⟨sessionId, r.revision⟩ ∈ s.checked ∨ ⟨sessionId, r.revision⟩ ∈ s.candidates ∨
      s.Due c sessionId

/-- A step that skips nothing. A write is stamped at or after the watermark, and at or after the one
that the page being loaded will set unless its session is still to be loaded; the sessions since the
watermark are fewer than a sweep can return. A full page loses no session while it is loaded.
Where a check raises, each session left was removed, written, checked or is still at or after the
watermark. -/
def Gentle (c : SweepConfig) (s : SweepState) : SweepStep → Prop
  | .write sessionId modifiedAt =>
    c.Since s.watermark ⟨modifiedAt, s.writes⟩ ∧
    (∀ startedAt limit page pending batch, s.phase = .loading startedAt limit page pending batch →
      page.length < limit.1 →
        sessionId ∈ pending ∨ c.Since startedAt ⟨modifiedAt, s.writes⟩) ∧
    (c.rowsSince (s.write sessionId modifiedAt).sessions s.watermark).length < c.ceiling
  | .close => ∀ startedAt limit page batch, s.phase = .loading startedAt limit page [] batch →
    batch.length < limit.1 →
      page.length < limit.1 ∧ (c.rowsSince s.sessions startedAt).length < c.ceiling
  | .fail => ∀ session ∈ s.candidates, ∀ r, s.sessions.lookup session.sessionId = some r →
    r.revision = session.revision → session ∈ s.checked ∨ c.Since s.watermark r
  | _ => True

end SweepState

end CksRuntime
