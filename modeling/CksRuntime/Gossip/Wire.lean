import CksRuntime.Gossip.Envelope
import CksRuntime.Lib.JsonRead

/-!
# An envelope over the wire

`gossip/envelope.py` from the sender's session to the receiver's: `from_session`, `to_dict`,
`json.dumps`, `json.loads`, `from_dict`, `verify`, `to_session`. The sender's metadata are Python
values, whose dicts may have any keys `json.dumps` takes; it spells each of them as a string. The
signature is over the metadata with the keys of every dict sorted.
-/

set_option autoImplicit false

namespace CksRuntime

open JsonText

/-! ## Python values -/

/-- A value that `json.dumps` takes. -/
inductive PyValue
  | atom (a : Atom)
  | string (s : Text)
  | list (elements : List PyValue)
  | dict (items : List (Key × PyValue))

namespace PyValue

mutual

/-- What `json.dumps` writes. -/
def toJson : PyValue → Json
  | .atom a => .atom a
  | .string s => .string s
  | .list xs => .array (toElements xs)
  | .dict items => .object (toMembers items)

/-- The elements, each. -/
def toElements : List PyValue → List Json
  | [] => []
  | x :: xs => toJson x :: toElements xs

/-- The items, with the keys as JSON has them. -/
def toMembers : List (Key × PyValue) → List (Text × Json)
  | [] => []
  | (k, x) :: items => (k.text, toJson x) :: toMembers items

end

/-- `json.dumps`. -/
def dumps (v : PyValue) : Text := write v.toJson

mutual

/-- What `json.dumps(.., sort_keys=True)` writes. -/
def sorted (B : Builtins) : PyValue → Except WireError Json
  | .atom a => .ok (.atom a)
  | .string s => .ok (.string s)
  | .list xs => do
    let xs ← sortedElements B xs
    return .array xs
  | .dict items => do
    let items ← sortedItems B items
    let items ← B.sortItems items
    return .object (items.map fun m => (m.1.text, m.2))

/-- The elements, each sorted. -/
def sortedElements (B : Builtins) : List PyValue → Except WireError (List Json)
  | [] => .ok []
  | x :: xs => do
    let x ← sorted B x
    let xs ← sortedElements B xs
    return x :: xs

/-- The values of the items, each sorted. -/
def sortedItems (B : Builtins) : List (Key × PyValue) → Except WireError (List (Key × Json))
  | [] => .ok []
  | (k, x) :: items => do
    let x ← sorted B x
    let items ← sortedItems B items
    return (k, x) :: items

end

mutual

/-- `json.loads`, of what is read. -/
def ofJson : Json → PyValue
  | .atom a => .atom a
  | .string s => .string s
  | .array xs => .list (ofElements xs)
  | .object ms => .dict (ofMembers ms)

/-- The elements, each. -/
def ofElements : List Json → List PyValue
  | [] => []
  | x :: xs => ofJson x :: ofElements xs

/-- The members, each. -/
def ofMembers : List (Text × Json) → List (Key × PyValue)
  | [] => []
  | (k, x) :: ms => (.string k, ofJson x) :: ofMembers ms

end

mutual

/-- Of the keys of each dict, at every depth. -/
def EveryDict (P : List Key → Prop) : PyValue → Prop
  | .atom _ => True
  | .string _ => True
  | .list xs => EveryDictElements P xs
  | .dict items => P (items.map Prod.fst) ∧ EveryDictItems P items

/-- Of every dict in the elements. -/
def EveryDictElements (P : List Key → Prop) : List PyValue → Prop
  | [] => True
  | x :: xs => EveryDict P x ∧ EveryDictElements P xs

/-- Of every dict in the values. -/
def EveryDictItems (P : List Key → Prop) : List (Key × PyValue) → Prop
  | [] => True
  | (_, x) :: items => EveryDict P x ∧ EveryDictItems P items

end

/-- Every key, at any depth, is a string. -/
def StringKeys : PyValue → Prop := EveryDict fun keys => ∀ k ∈ keys, k.isString

/-- No string is twice a key of one dict. -/
def DistinctKeys : PyValue → Prop := EveryDict fun keys => (keys.filter Key.isString).Nodup

mutual

/-- Python's `==`, which takes a dict's items in any order; here 1 differs from 1.0 and True. -/
def Equal : PyValue → PyValue → Prop
  | .atom a, v => v = .atom a
  | .string s, v => v = .string s
  | .list xs, v => ∃ ys, v = .list ys ∧ EqualElements xs ys
  | .dict items, v => ∃ items', v = .dict items' ∧ items.length = items'.length ∧
      EqualItems items items'

/-- Lists that are equal element by element. -/
def EqualElements : List PyValue → List PyValue → Prop
  | [], ys => ys = []
  | x :: xs, ys => ∃ y ys', ys = y :: ys' ∧ Equal x y ∧ EqualElements xs ys'

/-- Each of the first items is among the others. -/
def EqualItems : List (Key × PyValue) → List (Key × PyValue) → Prop
  | [], _ => True
  | (k, x) :: items, items' => (∃ y, (k, y) ∈ items' ∧ Equal x y) ∧ EqualItems items items'

end

end PyValue

/-! ## Sessions -/

/-- What an envelope carries of a session. -/
structure SessionSnapshot (S Parent : Type) where
  knowledgeStructure : S
  sessionId : Text
  metadata : List (Key × PyValue)
  parentSessionId : Parent
  parentVersionId : Parent

/-- A session as a sender has it. -/
structure LocalSession (S : Type) extends SessionSnapshot S (Option Text) where
  distinct : PyValue.DistinctKeys (.dict metadata)

/-- A parent's id, as it is sent. -/
def ofParent : Option Text → Json
  | some s => .string s
  | none => .atom .null

namespace SessionSnapshot

variable {S : Type}

/-- The received session is the one sent. -/
structure Reproduces (received : SessionSnapshot S Json)
    (session : SessionSnapshot S (Option Text)) : Prop where
  knowledgeStructure : received.knowledgeStructure = session.knowledgeStructure
  sessionId : received.sessionId = session.sessionId
  metadata : PyValue.Equal (.dict session.metadata) (.dict received.metadata)
  parentSessionId : received.parentSessionId = ofParent session.parentSessionId
  parentVersionId : received.parentVersionId = ofParent session.parentVersionId

end SessionSnapshot

/-! ## The sender -/

/-- What a sender adds to a session. -/
structure Sending where
  senderReplicaId : Text
  nonce : Text
  seqNo : Int
  timestampMs : Int

/-- A `GossipEnvelope` before it went over the wire. -/
structure Outgoing extends Sending where
  sessionId : Text
  knowledgeStructureJson : Text
  metadata : List (Key × PyValue)
  parentSessionId : Option Text
  parentVersionId : Option Text
  signature : Text
  version : Text := GOSSIP_ENVELOPE_VERSION

namespace Outgoing

/-- The parts `_sign` joins; a parent id that is not there is the empty text. -/
def parts (B : Builtins) (e : Outgoing) : Except WireError (List Text) := do
  let metadataJson ← (PyValue.dict e.metadata).sorted B
  return [e.senderReplicaId, e.sessionId, e.knowledgeStructureJson, write metadataJson,
    e.parentSessionId.getD [], e.parentVersionId.getD [], e.nonce, intText e.seqNo,
    intText e.timestampMs]

/-- The bytes that are signed. -/
def payload (B : Builtins) (e : Outgoing) : Except WireError Text :=
  (e.parts B).map [SIGNING_SEPARATOR].intercalate

/-- `_sign`. -/
def sign (B : Builtins) (hmac : Text → Text) (e : Outgoing) : Except WireError Text :=
  (e.payload B).map hmac

variable {S : Type} (serialize : S → Text)

/-- The envelope before it is signed. -/
def unsigned (sending : Sending) (session : SessionSnapshot S (Option Text)) : Outgoing where
  toSending := sending
  sessionId := session.sessionId
  knowledgeStructureJson := serialize session.knowledgeStructure
  metadata := session.metadata
  parentSessionId := session.parentSessionId
  parentVersionId := session.parentVersionId
  signature := []

/-- `from_session`. -/
def fromSession (B : Builtins) (hmac : Text → Text) (sending : Sending)
    (session : SessionSnapshot S (Option Text)) : Except WireError Outgoing := do
  let e := unsigned serialize sending session
  let signature ← e.sign B hmac
  return { e with signature := signature }

/-- `to_dict`. -/
def toDict (e : Outgoing) : List (Key × PyValue) :=
  [(.string "version".toList, .string e.version),
    (.string "sender_replica_id".toList, .string e.senderReplicaId),
    (.string "session_id".toList, .string e.sessionId),
    (.string "knowledge_structure_json".toList, .string e.knowledgeStructureJson),
    (.string "metadata".toList, .dict e.metadata),
    (.string "parent_session_id".toList, .ofJson (ofParent e.parentSessionId)),
    (.string "parent_version_id".toList, .ofJson (ofParent e.parentVersionId)),
    (.string "nonce".toList, .string e.nonce),
    (.string "seq_no".toList, .atom (.int e.seqNo)),
    (.string "timestamp_ms".toList, .atom (.int e.timestampMs)),
    (.string "signature".toList, .string e.signature)]

end Outgoing

/-! ## The receiver -/

namespace GossipEnvelope

variable {S : Type} (parse : Text → Option S)

/-- `to_session`. -/
def toSession (e : GossipEnvelope) : Option (SessionSnapshot S Json) :=
  (parse e.knowledgeStructureJson).map fun knowledgeStructure => {
    knowledgeStructure := knowledgeStructure
    sessionId := e.sessionId
    metadata := e.metadata.map fun m => (m.1, .ofJson m.2)
    parentSessionId := e.parentSessionId
    parentVersionId := e.parentVersionId }

/-- Sent, written, read, verified under the same secret and taken for a session, the session is
there again. -/
def Arrives (serialize : S → Text) (B : Builtins) (hmac : Text → Text) (sending : Sending)
    (session : SessionSnapshot S (Option Text)) : Prop :=
  ∃ sent data e received, Outgoing.fromSession serialize B hmac sending session = .ok sent ∧
    loads (PyValue.dict sent.toDict).dumps = some (.object data) ∧
    fromDict B data = .ok e ∧ e.verify B hmac = .ok true ∧
    e.toSession parse = some received ∧ received.Reproduces session

/-- What a digest is in hexadecimal. -/
def IsHexDigest (t : Text) : Prop := t ≠ [] ∧ t.all (· ∈ "0123456789abcdef".toList)

end GossipEnvelope

end CksRuntime
