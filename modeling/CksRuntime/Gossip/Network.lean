import CksRuntime.Gossip.Mesh
import CksRuntime.Gossip.Server

/-!
# Replicas over a hostile network

The mesh of `CksRuntime.Gossip.Mesh` with its deliveries made by the code that makes them: each
replica has a `GossipServer` and a `GossipService`, and what reaches either is whatever the network
makes of what was ever sent, any other JSON included, in any order and any number of times. The one
thing the network cannot do is to put a valid signature under a text that no replica has signed
(`Unforged`). Every session is served; the mesh follows one of them.
-/

set_option autoImplicit false

namespace CksRuntime

open JsonText Transition Effect

variable {K : Core} {R : Type}

/-- Every session is registered under its own id. -/
def Node.Keyed (n : Node K) : Prop :=
  ∀ sessionId, ∀ s ∈ n.sessions sessionId, s.sessionId = sessionId

/-- What `sorted` returns, of any keys it takes, is the same items. -/
def Builtins.SortsItems (B : Builtins) : Prop :=
  ∀ items items', B.sorted items = .ok items' → items'.Perm items

/-! ## What replicas sign -/

/-- As replicas have them: the separator in no text, dicts with strings for keys, and no key of the
metadata that is spelled like another JSON value. -/
structure Outgoing.Plain (e : Outgoing) : Prop where
  texts : ∀ s ∈ [e.senderReplicaId, e.sessionId, e.knowledgeStructureJson, e.nonce,
    e.parentSessionId.getD [], e.parentVersionId.getD []], SIGNING_SEPARATOR ∉ s
  keys : PyValue.StringKeys (.dict e.metadata)
  distinct : PyValue.DistinctKeys (.dict e.metadata)
  worded : ∀ m ∈ e.metadata, ∀ a : Atom, m.1.text ≠ a.text

/-- The session is signed as Python holds it, and plainly. -/
structure SignedPlainly (C : GossipCodec K) (env : EndEnv K) (replicaId : String) (s : Session K) :
    Prop where
  stands : Stands (env.held s) s
  plain : (Outgoing.unsigned C.serialize (GossipEnd.sending env replicaId)
    (env.held s).toSessionSnapshot).Plain

/-- The mesh, with the filters of each replica and what has been signed. -/
structure Network (K : Core) (R : Type) where
  mesh : Mesh K R
  serverFilter : R → GossipFilter
  serviceFilter : R → GossipFilter
  /-- All that the replicas have ever signed. -/
  signed : List Outgoing := []

/-- What happens at a replica, over the wire. -/
inductive NetworkCall (K : Core) (R : Type)
  /-- A step of the mesh that is no delivery. -/
  | inside (call : MeshCall K R)
  | send (r : R) (env : EndEnv K) (sessionId : String)
  | serve (r : R) (env : EndEnv K) (request : GossipServer.Request)
  | receive (r : R) (env : EndEnv K) (result : GossipTransport.HttpResult)

namespace Network

/-- The end that answers requests. -/
def server (w : Network K R) (r : R) : GossipEnd K := ⟨w.mesh.adapters r, w.serverFilter r⟩

/-- The end that sends them. -/
def service (w : Network K R) (r : R) : GossipEnd K := ⟨w.mesh.adapters r, w.serviceFilter r⟩

/-- The envelope a call has signed. -/
def sentBy {α : Type} (envelope : α → Option Outgoing) :
    EStateM.Result (GossipExc K.Obj) (GossipEnd K) α → List Outgoing
  | .ok a _ => (envelope a).toList
  | .error _ _ => []

/-- The envelope of a reply, if it has one. -/
def replied : GossipServer.Response → Option Outgoing
  | .envelope e => some e
  | _ => none

/-- `uuid4`: the ids an adapter draws are nobody's. -/
structure FreshIds (replicaId : R → String) (sessionId : String) (env : GossipEnv K) : Prop where
  nodeId : ∀ q, env.nodeId ≠ replicaId q
  branchId : env.branchId ≠ sessionId

variable [DecidableEq R]

/-- What happens at one replica at a time; requests and replies are lost, delayed or repeated. -/
inductive Step (C : GossipCodec K) (replicaId : R → String) (sessionId : String) :
    Network K R → NetworkCall K R → Network K R → Prop
  | inside {w : Network K R} (call : MeshCall K R) {m : Mesh K R} :
      Mesh.Step replicaId sessionId w.mesh call m → (∀ r env remote, call ≠ .deliver r env remote) →
      (∀ r a, call = .elsewhere r a → a.node.Keyed) →
      Step C replicaId sessionId w (.inside call) { w with mesh := m }
  | send {w : Network K R} (r : R) (env : EndEnv K) (gossiped : String)
      {result : EStateM.Result (GossipExc K.Obj) (GossipEnd K) (Option Outgoing)} :
      (∀ s ∈ (w.mesh.adapters r).node.sessions gossiped,
        SignedPlainly C env (w.mesh.adapters r).replicaId s) →
      GossipTransport.prepare C env gossiped (w.service r) = result →
      Step C replicaId sessionId w (.send r env gossiped)
        { w with signed := w.signed ++ sentBy id result }
  | serve {w : Network K R} (r : R) (env : EndEnv K) (request : GossipServer.Request)
      {result : EStateM.Result (GossipExc K.Obj) (GossipEnd K) GossipServer.Response} :
      FreshIds replicaId sessionId env.adapter →
      GossipServer.handleGossip C env request (w.server r) = result →
      (∀ s ∈ (stateOf result).adapter.node.sessions (String.ofList request.sessionId),
        SignedPlainly C env (stateOf result).adapter.replicaId s) →
      Step C replicaId sessionId w (.serve r env request)
        { w with
          mesh := w.mesh.after sessionId r (stateOf result).adapter
          serverFilter := Function.update w.serverFilter r (stateOf result).filter
          signed := w.signed ++ sentBy replied result }
  | receive {w : Network K R} (r : R) (env : EndEnv K) (reply : GossipTransport.HttpResult)
      {result : EStateM.Result (GossipExc K.Obj) (GossipEnd K) Bool} :
      FreshIds replicaId sessionId env.adapter →
      GossipTransport.finish C env reply (w.service r) = result →
      Step C replicaId sessionId w (.receive r env reply)
        { w with
          mesh := w.mesh.after sessionId r (stateOf result).adapter
          serviceFilter := Function.update w.serviceFilter r (stateOf result).filter }

/-- A run starts with no session and nothing signed. -/
def system (C : GossipCodec K) (replicaId : R → String) (sessionId : String) :
    System (Network K R) (NetworkCall K R) where
  init w := (Mesh.system K replicaId sessionId).init w.mesh ∧
    (∀ r, (w.mesh.adapters r).node.Keyed) ∧ w.signed = []
  step := Step C replicaId sessionId

/-! ## What the network cannot do -/

/-- An envelope that verifies carries a text that has been signed. -/
def HasBeenSigned (C : GossipCodec K) (signed : List Outgoing) (body : Option Json) : Prop :=
  ∀ data ∈ body, ∀ e, GossipEnd.fromDict C data = .ok e → e.verify C.builtins C.hmac = .ok true →
    ∃ o ∈ signed, o.payload C.builtins = e.payload C.builtins

/-- Only what some replica has signed verifies where it arrives. -/
def Unforged (C : GossipCodec K) (w : Network K R) : NetworkCall K R → Prop
  | .serve _ _ request => HasBeenSigned C w.signed request.body
  | .receive _ _ (.response _ body) => HasBeenSigned C w.signed body
  | _ => True

end Network

end CksRuntime
