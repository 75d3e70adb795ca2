import CksRuntime.Core.Interface
import CksRuntime.Gossip.Filter
import CksRuntime.Lib.Transition

/-!
# The sequence-number counters

`gossip/seq_no.py`: any number of `SeqNoCounter`s, of any replica ids and in any processes, over one
file. `next` runs under the file lock: it reads the file, takes the next number, and writes the file
anew, which truncates it before it fills it. A process may crash anywhere; its counters are gone
then, and so is the lock it held. The file system can be read and written throughout.
-/

set_option autoImplicit false

namespace CksRuntime

open Transition

/-- The file of the counters. -/
inductive SeqNoFile
  | missing
  /-- No JSON object: a file that has been truncated and not wholly filled is none. -/
  | malformed
  /-- An object, by its entries that are numbers. -/
  | entries (values : Dict Int)

/-- `_read_all`. -/
def SeqNoFile.readAll : SeqNoFile → Dict Int
  | .entries values => values
  | .missing | .malformed => ∅

/-- Where a counter is in its `next`. -/
inductive NextPhase
  | idle
  /-- Has the lock, and is to read the file. -/
  | locked
  /-- Has its number, and is to truncate the file and write these entries. -/
  | writing (values : Dict Int)
  /-- Has truncated the file. -/
  | filling (values : Dict Int)
  /-- Is to return. -/
  | filled
  deriving DecidableEq

/-- An instance on the file. -/
structure SeqNoCounter where
  replicaId : String
  value : Int
  phase : NextPhase := .idle
  deriving DecidableEq

/-- `all_values.get(self._replica_id, 0)`. -/
def SeqNoCounter.onFile (replicaId : String) (values : Dict Int) : Int :=
  (values.lookup replicaId).getD 0

/-- The counters over one file. `returned` are the numbers returned so far, the latest last, and
`entries` what was on file at first with each counter's own writes over it. -/
structure SeqNoWorld (ι : Type) where
  file : SeqNoFile
  lock : Option ι := none
  counters : ι → Option SeqNoCounter := fun _ => none
  returned : List (String × Int) := []
  entries : Dict Int

/-- A statement of some instance, or what happens to a process. -/
inductive SeqNoCall (ι : Type)
  | construct (i : ι) (replicaId : String) (start : Int)
  | acquire (i : ι)
  | read (i : ι)
  | truncate (i : ι)
  | fill (i : ι)
  | finish (i : ι)
  /-- These counters are gone. -/
  | crash (dead : ι → Bool)

namespace SeqNoWorld

variable {ι : Type} [DecidableEq ι]

/-- An instance has become `c`. -/
def setCounter (w : SeqNoWorld ι) (i : ι) (c : SeqNoCounter) : SeqNoWorld ι :=
  { w with counters := Function.update w.counters i (some c) }

/-- `max(floor, all_values.get(self._replica_id, 0)) + 1`. -/
def nextValue (w : SeqNoWorld ι) (c : SeqNoCounter) : Int :=
  max c.value (SeqNoCounter.onFile c.replicaId w.file.readAll) + 1

/-- The lock of a counter that is gone is free. -/
def without (w : SeqNoWorld ι) (dead : ι → Bool) : SeqNoWorld ι :=
  { w with
    lock := w.lock.filter (!dead ·)
    counters := fun i => if dead i then none else w.counters i }

/-- The statements of all instances, interleaved as the lock allows. -/
inductive Step : SeqNoWorld ι → SeqNoCall ι → SeqNoWorld ι → Prop
  | construct {w : SeqNoWorld ι} {i : ι} {replicaId : String} {start : Int} :
      w.counters i = none → strip replicaId.toList ≠ [] → 0 ≤ start →
      Step w (.construct i replicaId start) (w.setCounter i
        { replicaId, value := max start (SeqNoCounter.onFile replicaId w.file.readAll) })
  | acquire {w : SeqNoWorld ι} {i : ι} {c : SeqNoCounter} :
      w.counters i = some c → c.phase = .idle → w.lock = none →
      Step w (.acquire i) ({ w with lock := some i }.setCounter i { c with phase := .locked })
  | read {w : SeqNoWorld ι} {i : ι} {c : SeqNoCounter} :
      w.counters i = some c → c.phase = .locked →
      Step w (.read i) (w.setCounter i
        { c with
          value := w.nextValue c
          phase := .writing (w.file.readAll.insert c.replicaId (w.nextValue c)) })
  | truncate {w : SeqNoWorld ι} {i : ι} {c : SeqNoCounter} {values : Dict Int} :
      w.counters i = some c → c.phase = .writing values →
      Step w (.truncate i)
        ({ w with file := .malformed }.setCounter i { c with phase := .filling values })
  | fill {w : SeqNoWorld ι} {i : ι} {c : SeqNoCounter} {values : Dict Int} :
      w.counters i = some c → c.phase = .filling values →
      Step w (.fill i)
        ({ w with
            file := .entries values
            entries := w.entries.insert c.replicaId c.value }.setCounter i
          { c with phase := .filled })
  | finish {w : SeqNoWorld ι} {i : ι} {c : SeqNoCounter} :
      w.counters i = some c → c.phase = .filled →
      Step w (.finish i)
        ({ w with
            lock := none
            returned := w.returned ++ [(c.replicaId, c.value)] }.setCounter i
          { c with phase := .idle })
  | crash {w : SeqNoWorld ι} (dead : ι → Bool) : Step w (.crash dead) (w.without dead)

/-- Any file at first, and no counter. -/
def system (ι : Type) [DecidableEq ι] : System (SeqNoWorld ι) (SeqNoCall ι) where
  init w := w.lock = none ∧ (∀ i, w.counters i = none) ∧ w.returned = [] ∧
    w.entries = w.file.readAll
  step := Step

/-- A counter has truncated the file and is to fill it. -/
def Filling (w : SeqNoWorld ι) (i : ι) : Prop :=
  ∃ c ∈ w.counters i, ∃ values, c.phase = .filling values

/-- No crash comes between the truncation of the file and the end of its filling, unless there was
no entry on file. -/
def FillsThrough (w : SeqNoWorld ι) : SeqNoCall ι → Prop
  | .crash dead => ∀ i, dead i → w.Filling i → w.entries = ∅
  | _ => True

/-- The numbers returned for a replica id, in order. -/
def returnedFor (w : SeqNoWorld ι) (replicaId : String) : List Int :=
  (w.returned.filter (·.1 = replicaId)).map (·.2)

end SeqNoWorld

end CksRuntime
