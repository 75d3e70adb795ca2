import CksRuntime.Gossip.Server

/-!
# An exchange of a session

`gossip/exchange.py`, which hands each side's session to the other in one process, and the same
over HTTP: `gossip_exchange_over_transport` against a server, when nothing on the wire is lost or
changed.
-/

set_option autoImplicit false

namespace CksRuntime

open JsonText Effect

variable {K : Core}

/-! ## In one process -/

namespace GossipExchange

/-- A call on two adapters. -/
abbrev ExchangeM (K : Core) := EStateM (Err K.Obj) (Adapter K × Adapter K)

/-- A call on `adapter_a`. -/
def onA {α : Type} (call : GossipM K α) : ExchangeM K α := fun s =>
  match call s.1 with
  | .ok r a => .ok r (a, s.2)
  | .error exc a => .error exc (a, s.2)

/-- A call on the second. -/
def onB {α : Type} (call : GossipM K α) : ExchangeM K α := fun s =>
  match call s.2 with
  | .ok r b => .ok r (s.1, b)
  | .error exc b => .error exc (s.1, b)

/-- `gossip_exchange`. Both sessions are looked up first; what is handed on of the second is the
registered object, as it is by then. -/
def gossipExchange (envA envB : GossipEnv K) (sessionId : String) : ExchangeM K Unit := do
  let sessionA := (← get).1.node.sessions sessionId
  let sessionB := (← get).2.node.sessions sessionId
  match sessionA with
  | none => pure ()
  | some s =>
    let _ ← onB (GossipAdapter.applyRemoteSession envB s)
    pure ()
  match sessionB with
  | none => pure ()
  | some s =>
    let s := ((← get).2.node.sessions sessionId).getD s
    let _ ← onA (GossipAdapter.applyRemoteSession envA s)
    pure ()

end GossipExchange

/-! ## Over HTTP -/

namespace GossipTransport

/-- What arrives of an envelope: `json.loads(json.dumps(envelope.to_dict()))`. -/
def carried (e : Outgoing) : Option Json := JsonText.loads (PyValue.dict e.toDict).dumps

/-- The response to a request. An exception that the handler does not catch is a 500. -/
def answered {σ : Type} : EStateM.Result (GossipExc K.Obj) σ GossipServer.Response → HttpResult
  | .ok (.error status _) _ => .response status none
  | .ok .noSession _ => .response 404 none
  | .ok (.envelope e) _ => .response 200 (carried e)
  | .error _ _ => .response 500 none

variable (C : GossipCodec K)

/-- The two ends after an exchange: what the client signs with, what the server meets and what the
client meets in the reply. -/
def overHttp (sending serving receiving : EndEnv K) (sessionId : String)
    (client server : GossipEnd K) : GossipEnd K × GossipEnd K :=
  match prepare C sending sessionId client with
  | .error _ client => (client, server)
  | .ok none client => (client, server)
  | .ok (some e) client =>
    let served := GossipServer.handleGossip C serving ⟨e.sessionId, carried e⟩ server
    (stateOf (finish C receiving (answered served) client), stateOf served)

end GossipTransport

end CksRuntime
