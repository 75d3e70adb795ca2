import CksRuntime.Lib.Binary64
import CksRuntime.Lib.Effect
import CksRuntime.Lib.Table

/-!
# The peer scheduler

`gossip/scheduling.py`: the record a `PeerScheduler` keeps of each peer (`record_success`,
`record_failure`) and which peers may be chosen (`eligible_peers`). A failed peer is left alone for
the base backoff, doubled with every further failure up to the maximum. Times are in milliseconds;
the two backoffs are floats, the counters are unbounded.
-/

set_option autoImplicit false

namespace CksRuntime

open Binary64

/-- `PeerStats`. -/
structure PeerStats where
  successes : Nat := 0
  failures : Nat := 0
  consecutiveFailures : Nat := 0
  lastAttemptMs : Option Int := none
  /-- Before it the peer is skipped. -/
  backoffUntilMs : Int := 0
deriving DecidableEq

/-- The arguments of `PeerScheduler`, as its constructor checks them. -/
structure BackoffConfig where
  baseBackoffS : Double
  maxBackoffS : Double
  base_pos : 0 < baseBackoffS.units
  base_le_max : baseBackoffS.units ≤ maxBackoffS.units

/-- What arithmetic on floats raises. -/
inductive ArithmeticErr
  | overflowError
deriving DecidableEq

namespace PeerScheduler

/-- The peers, in the order they were added. -/
abbrev Peers := Table String PeerStats

/-- A call on the scheduler. -/
abbrev Call (α : Type) := EStateM ArithmeticErr Peers α

/-- `PeerScheduler(peers)`. -/
def init (peers : List String) : Peers := peers.foldl (fun stats peer => stats.set peer {}) ∅

/-- `stats_for`, without the entry that it makes. -/
def statsFor (stats : Peers) (peer : String) : PeerStats := (stats.lookup peer).getD {}

/-- `add_peer`. -/
def addPeer (peer : String) (stats : Peers) : Peers := stats.insertNew peer {}

/-- `remove_peer`. -/
def removePeer (peer : String) (stats : Peers) : Peers := stats.erase peer

/-- `record_success`: the backoff ends. -/
def recordSuccess (peer : String) (nowMs : Int) : Call PUnit :=
  modify fun stats =>
    let s := statsFor stats peer
    stats.set peer { s with
      successes := s.successes + 1
      consecutiveFailures := 0
      backoffUntilMs := 0
      lastAttemptMs := some nowMs }

/-- What has no value raises. -/
def orRaise (x : Option Double) : Call Double :=
  match x with
  | some x => pure x
  | none => throw .overflowError

/-- An integer, as a float. -/
def toFloat (n : Nat) : Call Double := orRaise (ofNat n)

/-- `min(product, maximum)`, of a product that may be infinite. -/
def minOf (product : Option Double) (maximum : Double) : Double :=
  match product with
  | some x => if maximum.units < x.units then maximum else x
  | none => maximum

/-- `int(x)`, of a float that may be infinite. -/
def toInt (x : Option Double) : Call Int := do
  return (trunc (← orRaise x) : Nat)

variable (c : BackoffConfig)

/-- `record_failure`: the failure is counted before the backoff is computed. -/
def recordFailure (peer : String) (nowMs : Int) : Call PUnit := do
  modify fun stats =>
    let s := statsFor stats peer
    stats.set peer { s with
      failures := s.failures + 1
      consecutiveFailures := s.consecutiveFailures + 1
      lastAttemptMs := some nowMs }
  let s := statsFor (← get) peer
  let factor ← toFloat (2 ^ (s.consecutiveFailures - 1))
  let backoffS := minOf (mul c.baseBackoffS factor) c.maxBackoffS
  let thousand ← toFloat 1000
  let backoffMs ← toInt (mul backoffS thousand)
  modify fun stats =>
    stats.set peer { statsFor stats peer with backoffUntilMs := nowMs + backoffMs }

/-- The peers `choose_peer` chooses from. -/
def eligiblePeers (stats : Peers) (nowMs : Int) : List String :=
  (stats.rows.filter fun r => r.2.backoffUntilMs ≤ nowMs).map (·.1)

/-! ## Runs -/

/-- What happens to the scheduler. -/
inductive Event
  | add (peer : String)
  | remove (peer : String)
  | success (peer : String) (nowMs : Int)
  | failure (peer : String) (nowMs : Int)

/-- The peers after a call, whether it returned or raised. -/
def step (stats : Peers) : Event → Peers
  | .add peer => addPeer peer stats
  | .remove peer => removePeer peer stats
  | .success peer nowMs => Effect.stateOf (recordSuccess peer nowMs stats)
  | .failure peer nowMs => Effect.stateOf (recordFailure c peer nowMs stats)

end PeerScheduler

end CksRuntime

