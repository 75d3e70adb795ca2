import CksRuntime.Lib.Transition
import CksRuntime.Pipeline.Proof.Items
import CksRuntime.Runtime.Desk
import CksRuntime.Runtime.Ledger

/-!
# The sessions of a Runtime

The transition system of one Runtime whose sessions are created, branched, registered with foreign
content, committed to, rolled back, aborted and merged into each other, in any order, each call
returning or raising; `elsewhere` is whatever other writers do to the store meanwhile.
-/

set_option autoImplicit false

namespace CksRuntime

open Effect Transition

variable {K : Core}

/-- The sessions a transaction merges from. -/
def Transaction.Sources (tx : Transaction K) (registry : OperationRegistry K) (s : Session K) :
    Prop :=
  ∃ x ∈ tx.items, ∃ op ∈ x.operation? registry, s ∈ op.kind.mergeSource

/-- A Runtime, and which of its sessions `create_branch` has made and no transaction was begun
on. -/
structure Family (K : Core) where
  node : Node K
  untouched : String → Bool := fun _ => false

/-- A call on the sessions of a Runtime. -/
inductive FamilyCall (K : Core)
  | create (env : CallEnv K) (knowledgeStructure : K.Structure)
  | branch (env : CallEnv K) (parentId : String) (versionId : Option String)
  | foreign (env : CallEnv K) (parentId : String) (knowledgeStructure : K.Structure)
      (parentVersionId : Option String) (metadata : MetadataItems)
  | begin (transactionId sessionId : String)
  | finish (how : Finish) (env : Env K) (sessionId : String) (tx : Transaction K)
  | elsewhere (shared : Shared K)

namespace Family

/-- `uuid4`: no session has the ids drawn, nor has the Runtime. -/
structure Fresh (n : Node K) (env : CallEnv K) : Prop where
  sessionId : n.sessions env.sessionId = none
  nodeId : ∀ sessionId, ∀ s ∈ n.sessions sessionId, s.metadata.nodeId ≠ some env.nodeId
  replicaId : n.replicaId ≠ some env.nodeId

/-- A call that has left the Runtime at `n` has made the session, or begun or finished a transaction
on it. -/
def after (f : Family K) (n : Node K) (sessionId : String) (untouched : Bool) : Family K where
  node := n
  untouched := Function.update f.untouched sessionId untouched

/-- A call on a transaction of the session has left `c`, returning or raising. -/
def leave (f : Family K) (sessionId : String) (c : Ctx K) : Family K :=
  f.after { f.node with
    sessions := Function.update f.node.sessions sessionId (some c.session)
    shared := c.shared } sessionId false

/-- What a call leaves. -/
inductive Step : Family K → FamilyCall K → Family K → Prop
  | create {f : Family K} (env : CallEnv K) (ks : K.Structure) :
      Fresh f.node env →
      Step f (.create env ks)
        (f.after (stateOf (Runtime.createSession env ks f.node)) env.sessionId false)
  | branch {f : Family K} (env : CallEnv K) (parentId : String) {parent : Session K}
      (versionId : Option String) :
      Fresh f.node env → f.node.sessions parentId = some parent →
      Step f (.branch env parentId versionId)
        (f.after (stateOf (Runtime.createBranch env parent versionId f.node)) env.sessionId true)
  | foreign {f : Family K} (env : CallEnv K) (parentId : String) {parent : Session K}
      (ks : K.Structure) (parentVersionId : Option String) (metadata : MetadataItems) :
      Fresh f.node env → f.node.sessions parentId = some parent →
      Step f (.foreign env parentId ks parentVersionId metadata)
        (f.after (stateOf (Runtime.registerForeignBranch env parent ks parentVersionId metadata
          f.node)) env.sessionId false)
  | begin {f : Family K} (transactionId sessionId : String) {s : Session K} :
      f.node.sessions sessionId = some s →
      Step f (.begin transactionId sessionId)
        (f.after (stateOf (Runtime.beginTransaction transactionId sessionId s f.node)) sessionId
          false)
  | finish {f : Family K} (how : Finish) (env : Env K) (sessionId : String) (tx : Transaction K)
      {s : Session K} :
      f.node.sessions sessionId = some s → env.replicaId = f.node.replicaId →
      env.versionId ≠ EMPTY_STATE_VERSION_ID →
      -- a merge is of another session of this Runtime, as it is when the merge runs
      (how = .commit → ∀ source, tx.Sources env.registry source →
        source.sessionId ≠ sessionId ∧ f.node.sessions source.sessionId = some source) →
      Step f (.finish how env sessionId tx)
        (f.leave sessionId (how.run env ⟨s, tx, f.node.shared⟩))
  | elsewhere {f : Family K} (shared : Shared K) :
      Step f (.elsewhere shared) { f with node := { f.node with shared := shared } }

/-- Every run starts from a Runtime without sessions. -/
def system (K : Core) : System (Family K) (FamilyCall K) where
  init f := ∃ replicaId shared, f = { node := { replicaId := replicaId, shared := shared } }
  step := Step

/-- No merge goes into a session without clocks from one with clocks. -/
def MergesForward (f : Family K) : FamilyCall K → Prop
  | .finish .commit env sessionId tx => ∀ source, tx.Sources env.registry source →
      source.vector.clocks ≠ ∅ → ∀ s ∈ f.node.sessions sessionId, s.vector.clocks ≠ ∅
  | _ => True

/-- A session is branched off without a version id only where its fork point is exact. -/
def ForksExactly (f : Family K) : FamilyCall K → Prop
  | .branch _ parentId none => ∀ parent ∈ f.node.sessions parentId, ForkPointExact parent
  | _ => True

/-- A foreign branch keeps the node id it was given, and starts without clocks. -/
def KeepsIdentity : FamilyCall K → Prop
  | .foreign _ _ _ _ metadata => metadata.nodeId = none ∧ metadata.versionVector = none
  | _ => True

/-- Calls after which the vectors tell the contents apart. -/
structure Orderly (f : Family K) (l : FamilyCall K) : Prop where
  mergesForward : MergesForward f l
  forksExactly : ForksExactly f l
  keepsIdentity : KeepsIdentity l

end Family

end CksRuntime
