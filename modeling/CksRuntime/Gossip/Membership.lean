import CksRuntime.Gossip.Scheduling
import CksRuntime.Gossip.Server
import CksRuntime.Lib.Transition

/-!
# Peer exchange

`gossip/discovery.py`, the two ends of `GET /gossip/peers` in `gossip/http_transport.py`, and
`_discover_from` in `gossip/service.py`: how a replica learns of addresses nobody told it about. It
asks a peer for the peers it knows, and adds those to its scheduler.
-/

set_option autoImplicit false

namespace CksRuntime

open JsonText

/-- `PeerScheduler.peers`. -/
def PeerScheduler.peers (stats : Peers) : List String := stats.rows.map (·.1)

namespace PeerDiscovery

open PeerScheduler (Peers addPeer)
open GossipTransport (HttpResult)

/-- How a discovery fails. -/
inductive DiscoveryExc
  | peerDiscoveryError
  /-- A reply that is no JSON. -/
  | jsonDecodeError
deriving DecidableEq

/-! ## The server -/

/-- The `known_peers` of a `GossipServer`; the callable is one that reads the scheduler. -/
inductive KnownPeers
  | absent
  | scheduler
  | fixed (peers : List String)

/-- The peers a server tells of. -/
def KnownPeers.read (stats : Peers) : KnownPeers → List String
  | .absent => []
  | .scheduler => PeerScheduler.peers stats
  | .fixed peers => peers

/-- The list that `_handle_peers` sends. -/
def peerList (known : List String) (selfAddress : Option String) : List String :=
  match selfAddress with
  | none => known.eraseDups
  | some address => if address ∈ known.eraseDups then known.eraseDups else address :: known.eraseDups

/-- `_handle_peers`. -/
def handlePeers (known : List String) (selfAddress : Option String) : HttpResult :=
  .response 200 (some (.object [("peers".toList,
    .array ((peerList known selfAddress).map fun peer => .string peer.toList))]))

/-! ## The client -/

/-- `fetch_peers`, from what came of the request. -/
def fetchPeers (B : Builtins) : HttpResult → Except DiscoveryExc (List String)
  | .failed => .error .peerDiscoveryError
  | .response status body =>
    if status ≠ 200 then .error .peerDiscoveryError
    else
      match body with
      | none => .error .jsonDecodeError
      | some (.object data) =>
        match data.lookup "peers".toList with
        | some (.array peers) => .ok (peers.map fun peer => String.ofList (B.toStr peer))
        | _ => .error .peerDiscoveryError
      | some _ => .error .peerDiscoveryError

/-- What `merge_discovered_peers` goes through the answer with. -/
structure Merging where
  scheduler : Peers
  known : Finset String
  newlyAdded : List String := []

/-- One address of a reply, unless it is known or the replica's own. -/
def Merging.add (selfAddress : Option String) (m : Merging) (address : String) : Merging :=
  if some address = selfAddress ∨ address ∈ m.known then m
  else ⟨addPeer address m.scheduler, insert address m.known, m.newlyAdded ++ [address]⟩

/-- `merge_discovered_peers`. -/
def mergeDiscoveredPeers (stats : Peers) (discovered : List String) (selfAddress : Option String) :
    Peers × List String :=
  let merged := discovered.foldl (Merging.add selfAddress)
    ⟨stats, (PeerScheduler.peers stats).toFinset, []⟩
  (merged.scheduler, merged.newlyAdded)

/-- `_discover_from`. -/
def discoverFrom (B : Builtins) (selfAddress : Option String) (reply : HttpResult) :
    EStateM DiscoveryExc Peers (List String) := fun stats =>
  match fetchPeers B reply with
  | .ok discovered =>
    let merged := mergeDiscoveredPeers stats discovered selfAddress
    .ok merged.2 merged.1
  | .error .peerDiscoveryError => .ok [] stats
  | .error exc => .error exc stats

end PeerDiscovery

/-! ## A deployment -/

open PeerDiscovery GossipTransport in
/-- The replicas of a deployment, and where an address leads. -/
structure Deployment (R : Type) where
  host : String → Option R
  /-- Of the `GossipService`. -/
  selfAddress : R → Option String
  /-- Of the `GossipServer`. -/
  advertised : R → Option String
  knownPeers : R → KnownPeers
  backoff : BackoffConfig
  builtins : Builtins

open GossipTransport in
/-- The schedulers, what was ever taken from one to be contacted, and the answers that were sent.
A scheduler keeps changing between a question and its answer. -/
structure Membership (R : Type) where
  schedulers : R → PeerScheduler.Peers
  contacted : List (R × String) := []
  answers : List (R × HttpResult) := []

open GossipTransport in

/-- What a replica does about its peers. -/
inductive MembershipCall (R : Type)
  /-- `choose_peer`, or the snapshot of `discover_peers`. -/
  | contact (r : R) (peer : String)
  | schedule (r : R) (event : PeerScheduler.Event)
  | answer (r : R) (peer : String) (reply : HttpResult)
  | merge (r : R) (reply : HttpResult)

namespace Membership

open PeerDiscovery GossipTransport Transition Effect

variable {R : Type} [DecidableEq R]

/-- A replica's scheduler has become `stats`. -/
def withScheduler (w : Membership R) (r : R) (stats : PeerScheduler.Peers) : Membership R :=
  { w with schedulers := Function.update w.schedulers r stats }

/-- What may be done to the scheduler of `r`: a deployment's own configuration is `configured`, and
an outcome is recorded of a peer that was contacted. -/
def Schedules (configured : R → Set String) (w : Membership R) (r : R) :
    PeerScheduler.Event → Prop
  | .add peer => peer ∈ configured r
  | .remove _ => True
  | .success peer _ | .failure peer _ => (r, peer) ∈ w.contacted

/-- What the replicas do, in any order. -/
inductive Step (D : Deployment R) (configured : R → Set String) :
    Membership R → MembershipCall R → Membership R → Prop
  | contact {w : Membership R} (r : R) (peer : String) :
      peer ∈ PeerScheduler.peers (w.schedulers r) →
      Step D configured w (.contact r peer) { w with contacted := w.contacted ++ [(r, peer)] }
  | schedule {w : Membership R} (r : R) (event : PeerScheduler.Event) :
      Schedules configured w r event →
      Step D configured w (.schedule r event)
        (w.withScheduler r (PeerScheduler.step D.backoff (w.schedulers r) event))
  | answer {w : Membership R} (r : R) (peer : String) {q : R} {reply : HttpResult} :
      (r, peer) ∈ w.contacted → D.host peer = some q →
      handlePeers ((D.knownPeers q).read (w.schedulers q)) (D.advertised q) = reply →
      Step D configured w (.answer r peer reply) { w with answers := w.answers ++ [(r, reply)] }
  | merge {w : Membership R} (r : R) (reply : HttpResult) :
      (r, reply) ∈ w.answers ∨ (∃ exc, fetchPeers D.builtins reply = .error exc) →
      Step D configured w (.merge r reply) (w.withScheduler r
        (stateOf (discoverFrom D.builtins (D.selfAddress r) reply (w.schedulers r))))

/-- Every scheduler starts with what it is configured with. -/
def system (D : Deployment R) (configured : R → Set String) :
    System (Membership R) (MembershipCall R) where
  init w := (∀ r, ∀ a ∈ PeerScheduler.peers (w.schedulers r), a ∈ configured r) ∧
    w.contacted = [] ∧ w.answers = []
  step := Step D configured

/-- The peers a replica schedules. -/
def known (w : Membership R) (r : R) : Set String :=
  { a | a ∈ PeerScheduler.peers (w.schedulers r) }

/-! ## Passes -/

/-- A run in which no peer is removed and every replica has asked all that it knew at its start,
and got an answer from those who are there. -/
structure Pass (D : Deployment R) (w : Membership R) (calls : List (MembershipCall R)) : Prop where
  kept : ∀ r peer, .schedule r (.remove peer) ∉ calls
  asked : ∀ r, ∀ peer ∈ w.known r, ∀ q, D.host peer = some q →
    ∃ reply, .answer r peer reply ∈ calls ∧ .merge r reply ∈ calls

/-- So many passes, one after the other. -/
inductive Passes (D : Deployment R) (configured : R → Set String) :
    Membership R → Nat → Membership R → Prop
  | zero (w : Membership R) : Passes D configured w 0 w
  | succ {w w₁ w₂ : Membership R} {n : Nat} {calls : List (MembershipCall R)} :
      Passes D configured w n w₁ → (system D configured).Path w₁ calls w₂ → Pass D w₁ calls →
      Passes D configured w (n + 1) w₂

end Membership

end CksRuntime
