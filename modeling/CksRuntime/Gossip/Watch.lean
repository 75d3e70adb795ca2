import CksRuntime.Gossip.Adapter
import CksRuntime.Lib.LastSeen
import CksRuntime.Lib.Transition

/-!
# What a replica's subscribers are told of its conflicts

The transition system of one adapter under deliveries of any session's snapshots, from any peers, in
any order and repeated, while the rest of its Runtime goes on (`elsewhere`). `Watch` keeps what a
subscriber sees: the content (by its vector) of each snapshot a conflict event was published for and
of each a branch was registered for, since the session's conflict was last resolved.
-/

set_option autoImplicit false

namespace CksRuntime

open Effect Transition

variable {K : Core}

/-- Whether an event reports a gossip conflict. -/
def Event.isGossipConflict : Event → Bool
  | .gossipConflictDetected _ _ _ _ => true
  | _ => false

namespace GossipAdapter

/-- `apply_remote_session` returned `True`. -/
def accepted (r : EStateM.Result (Err K.Obj) (Adapter K) Bool) : Bool :=
  match r with
  | .ok b _ => b
  | .error _ _ => false

/-- A delivery that ends in a conflict: neither side has seen the other, and the probe of the merge
fails. -/
def Conflicts (env : GossipEnv K) (remote : Session K) (a : Adapter K) : Prop :=
  env.crdtFault = none ∧ ∃ s, a.node.sessions remote.sessionId = some s ∧
    ¬duplicateIdDetected a.replicaId s remote ∧
    ¬K.structurallyEquivalent s.knowledgeStructure remote.knowledgeStructure ∧
    ¬s.vector.dominates remote.vector ∧ ¬remote.vector.dominates s.vector ∧
    (OperationExecutor.execute (mergeOperation remote) a.node.shared.storage s).1.status = .failed

/-- `uuid4`: the id a branch would get is no session's. -/
structure FreshBranch (env : GossipEnv K) (remote : Session K) (n : Node K) : Prop where
  unregistered : n.sessions env.branchId = none
  delivered : remote.sessionId ≠ env.branchId
  session : ∀ s, n.sessions remote.sessionId = some s → s.sessionId ≠ env.branchId

end GossipAdapter

/-- An adapter, with the vectors whose conflicts were published, and branched, for each session. -/
structure Watch (K : Core) where
  adapter : Adapter K
  published : String → List VersionVector := fun _ => []
  branched : String → List VersionVector := fun _ => []

/-- A delivery, or anything else on the Runtime. -/
inductive WatchCall (K : Core)
  | deliver (env : GossipEnv K) (remote : Session K)
  | elsewhere (node : Node K)

namespace Watch

/-- The conflict events a call has published. -/
def publishedBetween (n n' : Node K) : Nat :=
  (n'.shared.events.drop n.shared.events.length).countP Event.isGossipConflict

/-- The branches a call has registered under the id it would draw. -/
def branchedBetween (branchId : String) (n n' : Node K) : Nat :=
  if (n.sessions branchId).isNone ∧ (n'.sessions branchId).isSome then 1 else 0

/-- Reports of a vector added to those since the last resolution. -/
def extend (reports : List VersionVector) (resolved : Bool) (count : Nat) (v : VersionVector) :
    List VersionVector :=
  (if resolved then [] else reports) ++ List.replicate count v

/-- A delivery, and what it publishes. -/
def deliver (w : Watch K) (env : GossipEnv K) (remote : Session K) : Watch K :=
  let r := GossipAdapter.applyRemoteSession env remote w.adapter
  let n := w.adapter.node
  -- adopting a session is no resolution of a conflict
  let resolved := GossipAdapter.accepted r && (n.sessions remote.sessionId).isSome
  { adapter := stateOf r
    published := Function.update w.published remote.sessionId
      (extend (w.published remote.sessionId) resolved (publishedBetween n (stateOf r).node)
        remote.vector)
    branched := Function.update w.branched remote.sessionId
      (extend (w.branched remote.sessionId) resolved
        (branchedBetween env.branchId n (stateOf r).node) remote.vector) }

/-- What happens, one at a time. -/
inductive Step : Watch K → WatchCall K → Watch K → Prop
  | deliver {w : Watch K} (env : GossipEnv K) (remote : Session K) :
      GossipAdapter.FreshBranch env remote w.adapter.node →
      Step w (.deliver env remote) (w.deliver env remote)
  | elsewhere {w : Watch K} (node : Node K) :
      Step w (.elsewhere node) { w with adapter := { w.adapter with node := node } }

/-- Every run starts with a new adapter. -/
def system (K : Core) : System (Watch K) (WatchCall K) where
  init w := ∃ node replicaId, w = { adapter := { node := node, replicaId := replicaId } }
  step := Step

/-- No content of a session is reported twice while its conflict is unresolved. -/
def OncePerContent (w : Watch K) : Prop :=
  ∀ sessionId, (w.published sessionId).Nodup ∧ (w.branched sessionId).Nodup

/-- A snapshot that conflicts and has been reported before is the last one reported. -/
def RepeatsLast (w : Watch K) : WatchCall K → Prop
  | .deliver env remote =>
    GossipAdapter.Conflicts env remote w.adapter → remote.vector ∈ w.published remote.sessionId →
      (w.published remote.sessionId).getLast? = some remote.vector
  | .elsewhere _ => True

end Watch

end CksRuntime
