import CksRuntime.Lib.GrowingPage
import CksRuntime.Storage.Archive

/-!
# The session garbage collector

`GarbageCollector._sweep` of `gc/garbage_collector.py` over a SQLite storage, whose calls it makes
without awaiting anything in between: it loads the sessions that `list_sessions_modified_before`
finds and archives those of them that are closed. The clock and the retention are in microseconds;
`modified_at` is in seconds, as `datetime('now')` writes it, and so is the cutoff once `strftime`
has written it.
-/

set_option autoImplicit false

namespace CksRuntime

open Effect (stateOf)
open GrowingPage

variable {K : Core}

/-- The order in which the query lists the rows. -/
abbrev ModifiedOrder (K : Core) := RowOrder fun r : String × SessionCells K => r.2.modifiedAt

namespace Tables

/-- The rows that the query orders and cuts. -/
def modifiedBefore (t : Tables K) (cutoff : Int) : List (String × SessionCells K) :=
  t.sessions.rows.filter fun r => decide ((r.2.modifiedAt : Int) < cutoff / 1000000)

/-- The rows the query returns: a negative `LIMIT` is none. -/
def modifiedBeforePage (t : Tables K) (order : ModifiedOrder K) (cutoff limit : Int) :
    List (String × SessionCells K) :=
  if limit < 0 then order.order (t.modifiedBefore cutoff)
  else order.page (t.modifiedBefore cutoff) limit.toNat

/-- `list_sessions_modified_before`: the page, each session loaded. -/
def listSessionsModifiedBefore (t : Tables K) (order : ModifiedOrder K) (cutoff limit : Int) :
    Except (Err K.Obj) (List (Session K)) := do
  let sessions ← (t.modifiedBeforePage order cutoff limit).mapM fun r => t.loadSession r.1
  pure sessions.reduceOption

end Tables

/-- What the collector is configured with. -/
structure GarbageCollector where
  retention : Int
  batchSize : Int

/-- When a sweep is made, how its query orders rows of one second, and when it archives each
session. -/
structure GcSweep (K : Core) where
  now : Int
  order : ModifiedOrder K
  clock : String → Nat

namespace GarbageCollector

variable (gc : GarbageCollector)

/-- What was modified before it is old enough. -/
def cutoff (now : Int) : Int := now - gc.retention

/-- The rows of one sweep. -/
def candidates (w : GcSweep K) (t : Tables K) : List (String × SessionCells K) :=
  t.modifiedBeforePage w.order (gc.cutoff w.now) gc.batchSize

/-- What the loop does with a session. -/
def collect (clock : String → Nat) (t : ArchivingTables K) (s : Session K) : ArchivingTables K :=
  if s.closed then t.archiveSession (clock s.sessionId) s.sessionId else t

/-- `_sweep`. -/
def sweep (w : GcSweep K) (t : ArchivingTables K) : Except (Err K.Obj) (ArchivingTables K) := do
  let sessions ← t.listSessionsModifiedBefore w.order (gc.cutoff w.now) gc.batchSize
  pure (sessions.foldl (collect w.clock) t)

/-- The store after a sweep; `_run` logs the exception of one that raises. -/
def swept (t : ArchivingTables K) (w : GcSweep K) : ArchivingTables K :=
  (gc.sweep w t).toOption.getD t

/-! ## What a sweep is for -/

/-- Modified longer ago than the retention. -/
def PastRetention (now : Int) (cells : SessionCells K) : Prop :=
  (cells.modifiedAt : Int) * 1000000 < gc.cutoff now

/-- Closed, and past retention. -/
def Due (now : Int) (t : ArchivingTables K) (id : String) : Prop :=
  ∃ cells, t.sessions.lookup id = some cells ∧ cells.data.data.closed = true ∧
    gc.PastRetention now cells

/-- The sweep takes the session out of `sessions`. -/
def Archives (w : GcSweep K) (t : ArchivingTables K) (id : String) : Prop :=
  id ∈ t.sessions ∧ id ∉ (gc.swept t w).sessions

/-- It archives closed sessions only, each of them past retention wherever in its second it was
modified. -/
def Safe (w : GcSweep K) (t : ArchivingTables K) : Prop :=
  ∀ id cells, t.sessions.lookup id = some cells → gc.Archives w t id →
    cells.data.data.closed = true ∧ ((cells.modifiedAt : Int) + 1) * 1000000 ≤ gc.cutoff w.now

/-- Where a session is due, one is archived. -/
def Progresses (w : GcSweep K) (t : ArchivingTables K) : Prop :=
  (∃ id, gc.Due w.now t id) → ∃ id, gc.Due w.now t id ∧ gc.Archives w t id

/-- Sweeps from `now` on leave none of the sessions that are due then, if they are as many. -/
def CollectsAll (now : Int) (sweeps : List (GcSweep K)) (t : ArchivingTables K) : Prop :=
  (∀ w ∈ sweeps, now ≤ w.now) →
    ∀ ids : List String, (∀ id, gc.Due now t id → id ∈ ids) → ids.length ≤ sweeps.length →
      ∀ id, ¬gc.Due now (sweeps.foldl gc.swept t) id

end GarbageCollector

/-! ## When it does that -/

/-- Nothing is due, or one of the candidates is closed and all of them can be loaded. -/
def GarbageCollector.Reaches (gc : GarbageCollector) (t : ArchivingTables K) (w : GcSweep K) :
    Prop :=
  (∃ id, gc.Due w.now t id) →
    (∃ r ∈ gc.candidates w t.toTables, r.2.data.data.closed = true) ∧
      ∀ r ∈ gc.candidates w t.toTables, t.toTables.Legible r

/-! ## Runs -/

/-- What happens to the store. -/
inductive StorageEvent (K : Core)
  | call (c : StoreCall K)
  | importDump (clear : Bool) (now : Nat) (d : Dump K)
  | archive (now : Nat) (sessionId : String)
  | sweep (gc : GarbageCollector) (w : GcSweep K)

namespace ArchivingTables

/-- The store after an event, as its connection reads it: what an import wrote before it raised
stands. -/
def step (t : ArchivingTables K) : StorageEvent K → ArchivingTables K
  | .call c => { t.toTables.call c with archive := t.archive }
  | .importDump clear now d =>
    { stateOf (importStorage clear (d.reads now) t.toTables) with archive := t.archive }
  | .archive now sessionId => t.archiveSession now sessionId
  | .sweep gc w => gc.swept t w

end ArchivingTables

end CksRuntime
