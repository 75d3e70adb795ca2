import CksRuntime.Gossip.Mesh

/-!
# Clones

Replicas that share a replica id, as the clones of one deployment image do. Each holds a copy of a
session, from one snapshot of it, and commits to its copy without hearing of the others.
-/

set_option autoImplicit false

namespace CksRuntime

open Transition Effect

variable {K : Core}

/-- What a clone does; a commit returns or raises. -/
inductive CloneCall (K : Core)
  | commit (env : Env K) (tx : Transaction K) (returns : Bool)
  | elsewhere

namespace CloneCall

/-- Whether a commit on the session has returned. -/
def commits : CloneCall K → Bool
  | .commit _ _ returns => returns
  | .elsewhere => false

/-- No commit raises, and none merges another session in. -/
def Plain : CloneCall K → Prop
  | .commit env tx returns => returns = true ∧ ∀ source, ¬tx.Sources env.registry source
  | .elsewhere => True

end CloneCall

/-- A call on one of the replicas that share an id. -/
inductive CloneStep (sessionId : String) : Adapter K → CloneCall K → Adapter K → Prop
  | commit {a : Adapter K} (env : Env K) (tx : Transaction K) {s : Session K} {n : Node K} {b : Bool} :
      a.node.sessions sessionId = some s → env.replicaId = a.node.replicaId →
      stateOf (Runtime.onSession sessionId s tx (Pipeline.commit env) a.node) = n →
      returned (Runtime.onSession sessionId s tx (Pipeline.commit env) a.node) = b →
      CloneStep sessionId a (.commit env tx b) { a with node := n }
  /-- What it does to other sessions, or to this one without touching content and metadata. -/
  | elsewhere {a a' : Adapter K} :
      a'.replicaId = a.replicaId → a'.node.replicaId = a.node.replicaId →
      Option.Rel SnapshotOf (a.node.sessions sessionId) (a'.node.sessions sessionId) →
      CloneStep sessionId a .elsewhere a'

/-- A clone under `replicaId`, with a copy of `snapshot`. The copy may have a node id of its own. -/
def clone (replicaId : String) (snapshot : Session K) : System (Adapter K) (CloneCall K) where
  init a := a.replicaId = replicaId ∧ a.node.replicaId = some replicaId ∧
    ∃ s, a.node.sessions snapshot.sessionId = some s ∧ s.sessionId = snapshot.sessionId ∧
      s.knowledgeStructure = snapshot.knowledgeStructure ∧ s.vector = snapshot.vector
  step := CloneStep snapshot.sessionId

namespace GossipAdapter

/-- A delivery is refused as of a duplicate replica id: it returns `False`, no session has changed,
and the clock is among those reported. -/
def RefusedAsDuplicate (env : GossipEnv K) (remote : Session K) (a : Adapter K) : Prop :=
  ∃ a', applyRemoteSession env remote a = .ok false a' ∧ a'.node.sessions = a.node.sessions ∧
    remote.vector.get a.replicaId ∈ a'.pendingDuplicateIds remote.sessionId

/-- Nothing raises before a refusal returns: not the CRDT store, and no subscriber that is told. -/
def Tells (env : GossipEnv K) (s remote : Session K) (a : Adapter K) : Prop :=
  env.crdtFault = none ∧
    (remote.vector.get a.replicaId ∈ a.pendingDuplicateIds remote.sessionId ∨
      env.pipeline.subscriber (.duplicateReplicaIdDetected remote.sessionId a.replicaId
        (s.vector.get a.replicaId) (remote.vector.get a.replicaId)) = none)

end GossipAdapter

end CksRuntime
