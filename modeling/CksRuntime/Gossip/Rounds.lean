import CksRuntime.Gossip.Membership

/-!
# Gossip rounds

`gossip/service.py`: `gossip_round`, and what is done to the service while a round waits for its
peer. A round is with one peer, about every session that was tracked when it began, and tells the
scheduler what came of it. A service has one round at a time, which `gossip/scheduling.py` expects
of it.
-/

set_option autoImplicit false

namespace CksRuntime

open PeerDiscovery GossipTransport Transition Effect

/-- A `gossip_round` that waits for its peer. -/
structure GossipRound where
  peer : String
  /-- The sessions that are still to be exchanged. -/
  remaining : List String

/-- A service, with what was ever done to its scheduler. -/
structure GossipService where
  scheduler : PeerScheduler.Peers
  sessionIds : List String := []
  round : Option GossipRound := none
  events : List PeerScheduler.Event := []
  /-- The time of the last call that has read it. -/
  nowMs : Int := 0

/-- What the service does in a round, and what others do meanwhile. -/
inductive RoundCall
  | choosePeer (peer : String) (nowMs : Int)
  /-- An exchange has returned. -/
  | exchanged (nowMs : Int)
  /-- It has raised `GossipTransportError`. -/
  | failed (nowMs : Int)
  /-- The round has raised anything else. -/
  | raised
  | discoverFrom (reply : HttpResult)
  | ended
  /-- `discover_peers` has been answered. -/
  | discovered (reply : HttpResult)
  | addPeer (peer : String)
  | removePeer (peer : String)
  | trackSession (sessionId : String)
  | untrackSession (sessionId : String)

/-- What a service is made with. -/
structure GossipConfig where
  backoff : BackoffConfig
  builtins : Builtins
  discovery : Bool
  selfAddress : Option String

namespace GossipService

variable (C : GossipConfig) (w : GossipService)

/-- The scheduler is told of an event. -/
def recorded (event : PeerScheduler.Event) : GossipService :=
  { w with
    scheduler := PeerScheduler.step C.backoff w.scheduler event
    events := w.events ++ [event] }

/-- The peers that `_discover_from` adds. -/
def newlyAdded (reply : HttpResult) : List String :=
  match PeerDiscovery.discoverFrom C.builtins C.selfAddress reply w.scheduler with
  | .ok added _ => added
  | .error _ _ => []

/-- `_discover_from`. -/
def merged (reply : HttpResult) : GossipService :=
  { w with
    scheduler := stateOf
      (PeerDiscovery.discoverFrom C.builtins C.selfAddress reply w.scheduler)
    events := w.events ++ (w.newlyAdded C reply).map .add }

variable {C w}

/-- What each call needs, and what it leaves. -/
inductive Step (C : GossipConfig) : GossipService → RoundCall → GossipService → Prop
  | choosePeer {w : GossipService} (peer : String) (nowMs : Int) : w.round = none →
      peer ∈ PeerScheduler.eligiblePeers w.scheduler nowMs →
      Step C w (.choosePeer peer nowMs) { w with round := some ⟨peer, w.sessionIds⟩, nowMs := nowMs }
  | exchanged {w : GossipService} (nowMs : Int) {peer sessionId : String} {rest : List String} :
      w.round = some ⟨peer, sessionId :: rest⟩ →
      Step C w (.exchanged nowMs)
        { w.recorded C (.success peer nowMs) with round := some ⟨peer, rest⟩, nowMs := nowMs }
  | failed {w : GossipService} (nowMs : Int) {peer sessionId : String} {rest : List String} :
      w.round = some ⟨peer, sessionId :: rest⟩ →
      Step C w (.failed nowMs)
        { w.recorded C (.failure peer nowMs) with round := none, nowMs := nowMs }
  | raised {w : GossipService} : w.round.isSome → Step C w .raised { w with round := none }
  | discoverFrom {w : GossipService} (reply : HttpResult) {peer : String} :
      w.round = some ⟨peer, []⟩ → C.discovery →
      Step C w (.discoverFrom reply) { w.merged C reply with round := none }
  | ended {w : GossipService} {peer : String} : w.round = some ⟨peer, []⟩ → ¬C.discovery →
      Step C w .ended { w with round := none }
  | discovered {w : GossipService} (reply : HttpResult) : C.discovery →
      Step C w (.discovered reply) (w.merged C reply)
  | addPeer {w : GossipService} (peer : String) :
      Step C w (.addPeer peer) (w.recorded C (.add peer))
  | removePeer {w : GossipService} (peer : String) :
      Step C w (.removePeer peer) (w.recorded C (.remove peer))
  | trackSession {w : GossipService} (sessionId : String) :
      Step C w (.trackSession sessionId)
        { w with sessionIds := if sessionId ∈ w.sessionIds then w.sessionIds
            else w.sessionIds ++ [sessionId] }
  | untrackSession {w : GossipService} (sessionId : String) :
      Step C w (.untrackSession sessionId) { w with sessionIds := w.sessionIds.erase sessionId }

/-- A service over a new scheduler. -/
def system (C : GossipConfig) : System GossipService RoundCall where
  init w := (∃ peers, w.scheduler = PeerScheduler.init peers) ∧ w.round = none ∧ w.events = []
  step := Step C

/-! ## Time -/

/-- The clock of a call is not behind that of an earlier one. -/
def Forward (w : GossipService) : RoundCall → Prop
  | .choosePeer _ nowMs | .exchanged nowMs | .failed nowMs => w.nowMs ≤ nowMs
  | _ => True

/-- When a peer has failed in a row, after one more event. -/
def failuresAfter (peer : String) (times : List Int) : PeerScheduler.Event → List Int
  | .failure peer' nowMs => if peer' = peer then times ++ [nowMs] else times
  | .success peer' _ | .remove peer' => if peer' = peer then [] else times
  | .add _ => times

/-- When a peer has failed, since it last did not or was removed. -/
def failures (peer : String) (events : List PeerScheduler.Event) : List Int :=
  events.foldl (failuresAfter peer) []

/-! ## Removal -/

/-- A call that adds the peer, apart from the outcome of a round. -/
def Adds (C : GossipConfig) (peer : String) : RoundCall → Prop
  | .addPeer peer' => peer' = peer
  | .discoverFrom reply | .discovered reply =>
    ∃ discovered, fetchPeers C.builtins reply = .ok discovered ∧ peer ∈ discovered ∧
      C.selfAddress ≠ some peer
  | _ => False

/-- Whether a call is the round's own. -/
def ofRound : RoundCall → Bool
  | .choosePeer _ _ | .exchanged _ | .failed _ | .raised | .discoverFrom _ | .ended => true
  | _ => false

/-- Whether a call ends one exchange of the round. -/
def isOutcome : RoundCall → Bool
  | .exchanged _ | .failed _ => true
  | _ => false

/-- The first call of a round is an outcome. -/
def OutcomeFirst (calls : List RoundCall) : Prop :=
  ∃ call, (calls.find? ofRound) = some call ∧ isOutcome call = true

end GossipService

end CksRuntime
