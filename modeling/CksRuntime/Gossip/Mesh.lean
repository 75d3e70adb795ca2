import CksRuntime.Gossip.Adapter
import CksRuntime.Runtime.Family

/-!
# A mesh of replicas

Any number of replicas, each a Runtime with its adapter, and one session that is created at one of
them. Each replica commits to it and applies snapshots of whatever it has been anywhere, now or
before, in any order and any number of times. A call is one step and takes effect whether or not it
raises; `elsewhere` is what a replica does meanwhile to its other sessions, or to this one without
touching its content and metadata (`begin_transaction`, `anchor_genesis`).
-/

set_option autoImplicit false

namespace CksRuntime

open Transition Effect

variable {K : Core} {R : Type}

/-- The replicas that share one session. -/
structure Mesh (K : Core) (R : Type) where
  adapters : R → Adapter K
  /-- All the session has been after a step, at any replica. -/
  history : List (Session K) := []

/-- What happens at a replica. -/
inductive MeshCall (K : Core) (R : Type)
  | create (r : R) (env : CallEnv K) (knowledgeStructure : K.Structure)
  | commit (r : R) (env : Env K) (tx : Transaction K)
  | deliver (r : R) (env : GossipEnv K) (remote : Session K)
  | elsewhere (r : R) (adapter : Adapter K)

/-- `remote` is a snapshot of `s`: the id, content and metadata are the session's, and what else an
envelope carries or leaves out may be anything. -/
structure SnapshotOf (s remote : Session K) : Prop where
  sessionId : remote.sessionId = s.sessionId
  knowledgeStructure : remote.knowledgeStructure = s.knowledgeStructure
  metadata : remote.metadata = s.metadata

/-- `DuplicateReplicaIdDetected` has been published for the session. -/
def Reported (sessionId : String) (n : Node K) : Prop :=
  ∃ ownReplicaId localClock remoteClock,
    Event.duplicateReplicaIdDetected sessionId ownReplicaId localClock remoteClock ∈ n.shared.events

namespace Mesh

/-- The session, at a replica. -/
def session (w : Mesh K R) (sessionId : String) (r : R) : Option (Session K) :=
  (w.adapters r).node.sessions sessionId

/-- What a replica has committed to the session, by its own clock. -/
def own (w : Mesh K R) (replicaId : R → String) (sessionId : String) (r : R) : Int :=
  (w.session sessionId r).elim 0 (·.vector.get (replicaId r))

variable [DecidableEq R]

/-- A step has left a replica like this. -/
def after (w : Mesh K R) (sessionId : String) (r : R) (a : Adapter K) : Mesh K R where
  adapters := Function.update w.adapters r a
  history := w.history ++ (a.node.sessions sessionId).toList

/-- What happens at one replica at a time, with any delay between a state and its delivery. -/
inductive Step (replicaId : R → String) (sessionId : String) :
    Mesh K R → MeshCall K R → Mesh K R → Prop
  | create {w : Mesh K R} (r : R) (env : CallEnv K) (ks : K.Structure) {n : Node K} :
      w.history = [] → env.sessionId = sessionId → (∀ q, env.nodeId ≠ replicaId q) →
      stateOf (Runtime.createSession env ks (w.adapters r).node) = n →
      Step replicaId sessionId w (.create r env ks)
        (w.after sessionId r { w.adapters r with node := n })
  | commit {w : Mesh K R} (r : R) (env : Env K) (tx : Transaction K) {s : Session K}
      {n : Node K} :
      w.session sessionId r = some s → env.replicaId = (w.adapters r).node.replicaId →
      -- what is merged has seen no more of another replica than it has committed
      (∀ source, tx.Sources env.registry source → ∀ q, q ≠ r →
        source.vector.get (replicaId q) ≤ w.own replicaId sessionId q) →
      stateOf (Runtime.onSession sessionId s tx (Pipeline.commit env) (w.adapters r).node) = n →
      Step replicaId sessionId w (.commit r env tx)
        (w.after sessionId r { w.adapters r with node := n })
  | deliver {w : Mesh K R} (r : R) (env : GossipEnv K) (remote : Session K) {s : Session K}
      {a : Adapter K} :
      s ∈ w.history → SnapshotOf s remote →
      -- `uuid4`: the ids drawn are nobody's
      (∀ q, env.nodeId ≠ replicaId q) → env.branchId ≠ sessionId →
      stateOf (GossipAdapter.applyRemoteSession env remote (w.adapters r)) = a →
      Step replicaId sessionId w (.deliver r env remote) (w.after sessionId r a)
  | elsewhere {w : Mesh K R} (r : R) (a : Adapter K) :
      a.replicaId = (w.adapters r).replicaId → a.node.replicaId = (w.adapters r).node.replicaId →
      Option.Rel SnapshotOf (w.session sessionId r) (a.node.sessions sessionId) →
      (Reported sessionId a.node → Reported sessionId (w.adapters r).node) →
      Step replicaId sessionId w (.elsewhere r a) (w.after sessionId r a)

/-- Every run starts without the session, each adapter built with its Runtime's replica id. -/
def system (K : Core) (replicaId : R → String) (sessionId : String) :
    System (Mesh K R) (MeshCall K R) where
  init w := w.history = [] ∧ ∀ r, (w.adapters r).replicaId = replicaId r ∧
    (w.adapters r).node.replicaId = some (replicaId r) ∧ w.session sessionId r = none ∧
    ¬Reported sessionId (w.adapters r).node
  step := Step replicaId sessionId

/-! ## The guard -/

/-- The call is a delivery that the guard refuses. -/
def Refuses (sessionId : String) (w : Mesh K R) : MeshCall K R → Prop
  | .deliver r _ remote => ∃ s ∈ w.session sessionId r,
      GossipAdapter.duplicateIdDetected (w.adapters r).replicaId s remote
  | _ => False

/-- A delivered snapshot that has seen the receiver's last commit has the receiver's content: nobody
has built on that commit. -/
def NotBuiltOn (replicaId : R → String) (sessionId : String) (w : Mesh K R) :
    MeshCall K R → Prop
  | .deliver r _ remote => ∀ s ∈ w.session sessionId r, 0 < s.vector.get (replicaId r) →
      remote.vector.get (replicaId r) = s.vector.get (replicaId r) →
      K.structurallyEquivalent s.knowledgeStructure remote.knowledgeStructure
  | _ => True

/-! ## Divergence -/

/-- The call returns. -/
def Returns (sessionId : String) (w : Mesh K R) : MeshCall K R → Prop
  | .commit r env tx => ∀ s ∈ w.session sessionId r,
      returned (Runtime.onSession sessionId s tx (Pipeline.commit env) (w.adapters r).node) = true
  | .deliver r env remote =>
      returned (GossipAdapter.applyRemoteSession env remote (w.adapters r)) = true
  | _ => True

/-- What `r` does with a snapshot of what `q` holds is to return `True` and change nothing. -/
def Ignores (sessionId : String) (w : Mesh K R) (r q : R) : Prop :=
  ∃ s ∈ w.session sessionId r, ∃ t ∈ w.session sessionId q, ∃ env remote a,
    SnapshotOf t remote ∧
      GossipAdapter.applyRemoteSession env remote (w.adapters r) = .ok true a ∧
      a.node.sessions sessionId = some s

end Mesh

end CksRuntime
