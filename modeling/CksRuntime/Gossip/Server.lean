import CksRuntime.Gossip.Adapter
import CksRuntime.Gossip.Filter
import CksRuntime.Gossip.Wire

/-!
# The gossip server, and an exchange over a transport

`gossip/http_transport.py` and `gossip/transport.py`: what a replica does with an envelope that
comes off the wire, as the body of a peer's request (`_handle_gossip`) or of a peer's reply
(`gossip_exchange_over_transport`), and what it signs for its own. A request is answered with a
response or ends in an exception that nothing catches; what was changed by then stays changed.
-/

set_option autoImplicit false

namespace CksRuntime

open JsonText

variable {K : Core}

/-! ## Metadata as JSON -/

/-- A key that is this string. -/
def Key.names (name : String) : Key → Bool
  | .string s => s = name.toList
  | .atom _ => false

/-- An entry of a vector that `from_metadata` takes. -/
def RawVector.clockOf : Text × Json → Option (Sigma fun _ : String => Int)
  | (k, .atom (.int n)) => some ⟨String.ofList k, n⟩
  | _ => none

/-- A value that was read from JSON. -/
def MetadataValue.ofJson : Json → MetadataValue
  | .string s => .text (String.ofList s)
  | x => .json (String.ofList (write x))

/-- What a received value is read as, under the key of the version vector. -/
def RawVector.ofJson : Json → RawVector
  | .object ms => .dict (ms.filterMap clockOf).toFinmap
      ((ms.filter fun m => (clockOf m).isNone).map fun m =>
        ⟨String.ofList m.1, .ofJson m.2⟩).toFinmap
  | x => .notDict (.ofJson x)

namespace Metadata

/-- `metadata.get(name)`. -/
def valueAt (name : String) (items : List (Key × Json)) : Option Json :=
  (items.find? fun m => m.1.names name).map (·.2)

/-- A value that is a text. -/
def textOf : Json → Option String
  | .string s => some (String.ofList s)
  | _ => none

/-- An entry that the Runtime does not read. -/
def extraOf : Key × Json → Option (Sigma fun _ : String => MetadataValue)
  | (.string k, x) =>
    if k = "node_id".toList ∨ k = "version_vector".toList then none
    else some ⟨String.ofList k, .ofJson x⟩
  | (.atom _, _) => none

/-- The metadata of a session, from the items of an envelope. -/
def ofItems (items : List (Key × Json)) : Metadata where
  nodeId := (valueAt "node_id" items).bind textOf
  versionVector := (valueAt "version_vector" items).map RawVector.ofJson
  extra := (items.filterMap extraOf).toFinmap

/-- What the Runtime sees of a metadata dict: no order of its keys, at any depth. -/
def ofDict (metadata : List (Key × PyValue)) : Metadata :=
  ofItems (metadata.map fun m => (m.1, sortKeys m.2.toJson))

end Metadata

/-! ## Sessions and their snapshots -/

/-- Nothing checks that a parent id is a string; one that is none reads as absent. -/
def parentOf : Json → Option String
  | .string s => some (String.ofList s)
  | _ => none

/-- The `RuntimeSession` that `to_session` makes. -/
def Session.ofSnapshot (received : SessionSnapshot K.Structure Json) : Session K where
  knowledgeStructure := received.knowledgeStructure
  sessionId := String.ofList received.sessionId
  metadata := Metadata.ofDict received.metadata
  parentSessionId := parentOf received.parentSessionId
  parentVersionId := parentOf received.parentVersionId

/-- The session, as Python holds it. -/
structure Stands (snapshot : LocalSession K.Structure) (s : Session K) : Prop where
  knowledgeStructure : snapshot.knowledgeStructure = s.knowledgeStructure
  sessionId : snapshot.sessionId = s.sessionId.toList
  metadata : Metadata.ofDict snapshot.metadata = s.metadata
  parentSessionId : snapshot.parentSessionId = s.parentSessionId.map String.toList
  parentVersionId : snapshot.parentVersionId = s.parentVersionId.map String.toList

/-! ## One end of an exchange -/

/-- What an end rests on: the builtins, HMAC under the shared secret, `cks.serialize` and
`cks.parse` (`none` where it raises). -/
structure GossipCodec (K : Core) where
  builtins : Builtins
  hmac : Text → Text
  serialize : K.Structure → Text
  parse : Text → Option K.Structure

/-- An exception that reaches the server framework, or the caller of an exchange. -/
inductive GossipExc (Obj : Type)
  | attributeError
  /-- A reply whose text is no JSON. -/
  | jsonDecodeError
  | wire (e : WireError)
  | parse
  | adapter (e : Err Obj)
  | gossipTransportError

/-- A `GossipServer` or a `GossipService`: the replica's adapter, and a filter of its own. -/
structure GossipEnd (K : Core) where
  adapter : Adapter K
  filter : GossipFilter

/-- A call on one end. -/
abbrev GossipEndM (K : Core) := EStateM (GossipExc K.Obj) (GossipEnd K)

/-- What a call draws and meets: the clock of the filter, what the reply is signed with, and the
sessions as Python holds them. -/
structure EndEnv (K : Core) where
  adapter : GossipEnv K
  nowMs : Int
  nonce : Text
  seqNo : Int
  timestampMs : Int
  held : Session K → LocalSession K.Structure

namespace GossipEnd

variable (C : GossipCodec K) (env : EndEnv K)

/-! ## What comes off the wire -/

/-- `GossipEnvelope.from_dict(data)`; anything but a dict has no `get`. -/
def fromDict : Json → Except (GossipExc K.Obj) GossipEnvelope
  | .object data => (GossipEnvelope.fromDict C.builtins data).mapError .wire
  | _ => .error .attributeError

/-- `verify`, whose errors are the caller's. -/
def verify (e : GossipEnvelope) : GossipEndM K Bool :=
  match e.verify C.builtins C.hmac with
  | .ok b => pure b
  | .error exc => throw (.wire exc)

/-- The call of the filter that an envelope makes. -/
def filterCall (e : GossipEnvelope) : GossipFilter.Call where
  senderReplicaId := e.senderReplicaId
  nonce := some e.nonce
  seqNo := some (some e.seqNo)
  timestampMs := some (some e.timestampMs)
  nowMs := env.nowMs

/-- `filter.check`. -/
def check (e : GossipEnvelope) : GossipEndM K Bool := do
  let r := (← get).filter.check (filterCall env e)
  modify fun s => { s with filter := r.2 }
  pure r.1

/-- A call of the adapter. -/
def onAdapter {α : Type} (call : GossipM K α) : GossipEndM K α := fun s =>
  match call s.adapter with
  | .ok r a => .ok r { s with adapter := a }
  | .error exc a => .error (.adapter exc) { s with adapter := a }

/-- `apply_remote_session(envelope.to_session())`. -/
def apply (e : GossipEnvelope) : GossipEndM K Bool :=
  match e.toSession C.parse with
  | none => throw .parse
  | some received =>
    onAdapter (GossipAdapter.applyRemoteSession env.adapter (Session.ofSnapshot received))

/-! ## What is signed -/

/-- What an envelope is signed with. -/
def sending (replicaId : String) : Sending where
  senderReplicaId := replicaId.toList
  nonce := env.nonce
  seqNo := env.seqNo
  timestampMs := env.timestampMs

/-- `from_session`. -/
def sign (s : Session K) : GossipEndM K Outgoing := do
  let sent := Outgoing.fromSession C.serialize C.builtins C.hmac
    (sending env (← get).adapter.replicaId) (env.held s).toSessionSnapshot
  match sent with
  | .ok e => pure e
  | .error exc => throw (.wire exc)

end GossipEnd

/-! ## The server -/

namespace GossipServer

/-- A `POST /gossip/{session_id}`; a body that is no JSON is absent. -/
structure Request where
  sessionId : Text
  body : Option Json

/-- What is answered; an error message without the exception it ends in. -/
inductive Response
  | error (status : Nat) (message : String)
  /-- A 404. -/
  | noSession
  | envelope (e : Outgoing)

variable (C : GossipCodec K) (env : EndEnv K)

/-- The end of `_handle_gossip`: the session as it is now. -/
def reply (sessionId : Text) : GossipEndM K Response := do
  match (← get).adapter.node.sessions (String.ofList sessionId) with
  | none => pure .noSession
  | some s =>
    let e ← GossipEnd.sign C env s
    pure (.envelope e)

/-- `_handle_gossip` past the parsing of the envelope. -/
def handleEnvelope (sessionId : Text) (e : GossipEnvelope) : GossipEndM K Response := do
  if e.sessionId ≠ sessionId then
    pure (.error 400 "session_id in URL does not match envelope")
  else if ¬(← GossipEnd.verify C e) then pure (.error 401 "signature verification failed")
  else if ¬(← GossipEnd.check env e) then pure (.error 409 "rejected by replay filter")
  else
    let _ ← GossipEnd.apply C env e
    reply C env sessionId

/-- `_handle_gossip`. -/
def handleGossip (request : Request) : GossipEndM K Response :=
  match request.body with
  | none => pure (.error 400 "malformed request body: ")
  | some data =>
    match GossipEnd.fromDict C data with
    | .ok e => handleEnvelope C env request.sessionId e
    | .error (.wire _) => pure (.error 400 "malformed envelope: ")
    | .error exc => throw exc

end GossipServer

/-! ## The client -/

namespace GossipTransport

/-- What comes of the POST. -/
inductive HttpResult
  /-- `aiohttp.ClientError` or `TimeoutError`. -/
  | failed
  /-- A body that is no JSON is absent. -/
  | response (status : Nat) (body : Option Json)

variable (C : GossipCodec K) (env : EndEnv K)

/-- `HTTPGossipTransport.exchange`, from what came of the request. -/
def exchange : HttpResult → Except (GossipExc K.Obj) (Option GossipEnvelope)
  | .failed => .error .gossipTransportError
  | .response status body =>
    if status = 404 then .ok none
    else if status ≠ 200 then .error .gossipTransportError
    else
      match body with
      | none => .error .jsonDecodeError
      | some data =>
        match GossipEnd.fromDict C data with
        | .ok e => .ok (some e)
        | .error (.wire _) => .error .gossipTransportError
        | .error exc => .error exc

/-- `gossip_exchange_over_transport` up to the exchange: the envelope sent, if there is a session
to send. -/
def prepare (sessionId : String) : GossipEndM K (Option Outgoing) := do
  match (← get).adapter.node.sessions sessionId with
  | none => pure none
  | some s =>
    let e ← GossipEnd.sign C env s
    pure (some e)

/-- Its rest, given the `gossip_filter` of a `GossipService`. -/
def finish (result : HttpResult) : GossipEndM K Bool :=
  match exchange C result with
  | .error exc => throw exc
  | .ok none => pure true
  | .ok (some e) => do
    if ¬(← GossipEnd.verify C e) then pure false
    else if ¬(← GossipEnd.check env e) then pure false
    else GossipEnd.apply C env e

end GossipTransport

/-! ## A replica off the wire -/

/-- What reaches a replica off the wire: a request, or what came of one of its own. -/
inductive WireCall (K : Core)
  | serve (env : EndEnv K) (request : GossipServer.Request)
  | receive (env : EndEnv K) (result : GossipTransport.HttpResult)

/-- The server and the service each have a filter. -/
inductive Side
  | server
  | service
  deriving DecidableEq

/-- A replica whose server and service share the adapter. -/
structure WireReplica (K : Core) where
  adapter : Adapter K
  filter : Side → GossipFilter

namespace WireReplica

/-- One of the two ends of a replica. -/
def endAt (p : WireReplica K) (side : Side) : GossipEnd K := ⟨p.adapter, p.filter side⟩

/-- What a call on one end leaves. -/
def left (p : WireReplica K) (side : Side) (x : GossipEnd K) : WireReplica K :=
  ⟨x.adapter, Function.update p.filter side x.filter⟩

variable (C : GossipCodec K)

/-- What a message leaves. -/
def step (p : WireReplica K) : WireCall K → WireReplica K
  | .serve env request =>
    p.left .server (Effect.stateOf (GossipServer.handleGossip C env request (p.endAt .server)))
  | .receive env result =>
    p.left .service (Effect.stateOf (GossipTransport.finish C env result (p.endAt .service)))

/-- What a list of messages leaves. -/
def run (p : WireReplica K) (calls : List (WireCall K)) : WireReplica K := calls.foldl (step C) p

end WireReplica

end CksRuntime
