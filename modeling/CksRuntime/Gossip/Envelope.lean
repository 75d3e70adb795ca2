import CksRuntime.Crdt.MerkleTree
import CksRuntime.Lib.JsonText

/-!
# The gossip envelope

`gossip/envelope.py`: a signed snapshot of a session as it goes over the wire. `from_dict` takes
what `json.loads` made of a message, so a metadata key is a string unless the metadata came as an
array of pairs. HMAC-SHA256 with the shared secret is a parameter, on the payload before its
encoding.
-/

set_option autoImplicit false

namespace CksRuntime

open JsonText

/-- What reading an envelope, or signing it, raises. -/
inductive WireError
  | keyError (key : String)
  | typeError
  | valueError
deriving DecidableEq

/-! ## Values -/

/-- A JSON value that can be the key of a dict. -/
inductive Key
  | string (s : Text)
  | atom (a : Atom)

/-- How `json.dumps` spells a key. -/
def Key.text : Key → Text
  | .string s => s
  | .atom a => a.text

/-- Whether a key of a dict is a string. -/
def Key.isString : Key → Bool
  | .string _ => true
  | .atom _ => false

/-- The metadata of an envelope, in the order of its items. -/
abbrev EnvelopeMetadata := List (Key × Json)

/-- Python's `bool`. -/
def truthy : Json → Bool
  | .atom .null | .atom (.bool false) => false
  | .atom (.bool true) => true
  | .atom (.int n) => n ≠ 0
  | .atom (.float f) => f.text ∉ ["0.0".toList, "-0.0".toList]
  | .string s => s ≠ []
  | .array xs => ¬xs.isEmpty
  | .object ms => ¬ms.isEmpty

/-- The builtins where a message is not what `to_dict` writes; what they do there is left open. -/
structure Builtins where
  /-- Of anything but a string. -/
  str : Json → Text
  /-- Of anything but an integer. -/
  int : Json → Except WireError Int
  /-- Of an array. -/
  dict : List Json → Except WireError EnvelopeMetadata
  /-- Of items whose keys are not all strings. -/
  sorted : EnvelopeMetadata → Except WireError EnvelopeMetadata

namespace Builtins

variable (B : Builtins)

/-- `str(x)`. -/
def toStr : Json → Text
  | .string s => s
  | x => B.str x

/-- `int(x)`. -/
def toInt : Json → Except WireError Int
  | .atom (.int n) => .ok n
  | x => B.int x

/-- `dict(x)`. -/
def toDict : Json → Except WireError EnvelopeMetadata
  | .object ms => .ok (ms.map fun m => (.string m.1, m.2))
  | .array xs => B.dict xs
  | .string _ => .error .valueError
  | .atom _ => .error .typeError

/-- `sorted(metadata.items())`, by the keys: keys that are no strings are the parameter's. -/
def sortItems (metadata : EnvelopeMetadata) : Except WireError EnvelopeMetadata :=
  if metadata.all (·.1.isString) then
    .ok (metadata.mergeSort fun x y => decide (x.1.text ≤ y.1.text))
  else B.sorted metadata

/-- The members `json.dumps(metadata, sort_keys=True)` writes. -/
def listing (metadata : EnvelopeMetadata) : Except WireError (List (Text × Json)) :=
  (B.sortItems metadata).map fun items => items.map fun m => (m.1.text, sortKeys m.2)

/-- `json.dumps` of the sorted items. -/
def dumps (metadata : EnvelopeMetadata) : Except WireError Text :=
  (B.listing metadata).map fun members => write (.object members)

end Builtins

/-! ## The envelope -/

/-- U+001F. -/
def SIGNING_SEPARATOR : Char := Char.ofNat 0x1f

/-- The version this code writes. -/
def GOSSIP_ENVELOPE_VERSION : Text := "1.0".toList

/-- An envelope as it is read from a request. -/
structure GossipEnvelope where
  senderReplicaId : Text
  sessionId : Text
  knowledgeStructureJson : Text
  metadata : EnvelopeMetadata
  /-- As it was on the wire, like `parentVersionId`: nothing checks that it is a string. -/
  parentSessionId : Json
  parentVersionId : Json
  nonce : Text
  seqNo : Int
  timestampMs : Int
  signature : Text
  version : Text := GOSSIP_ENVELOPE_VERSION

namespace GossipEnvelope

/-! ## From the wire -/

/-- `data[key]`. -/
def getItem (data : List (Text × Json)) (key : String) : Except WireError Json :=
  match data.lookup key.toList with
  | some x => .ok x
  | none => .error (.keyError key)

/-- The `metadata` of what is received, with a falsy one read as empty. -/
def metadataOf (B : Builtins) (data : List (Text × Json)) : Except WireError EnvelopeMetadata :=
  match data.lookup "metadata".toList with
  | some x => if truthy x then B.toDict x else .ok []
  | none => .ok []

/-- `from_dict`. -/
def fromDict (B : Builtins) (data : List (Text × Json)) : Except WireError GossipEnvelope := do
  let version := ((data.lookup "version".toList).map B.toStr).getD GOSSIP_ENVELOPE_VERSION
  let senderReplicaId ← getItem data "sender_replica_id"
  let sessionId ← getItem data "session_id"
  let knowledgeStructureJson ← getItem data "knowledge_structure_json"
  let metadata ← metadataOf B data
  let parentSessionId ← getItem data "parent_session_id"
  let parentVersionId ← getItem data "parent_version_id"
  let nonce ← getItem data "nonce"
  let seqNo ← getItem data "seq_no" >>= B.toInt
  let timestampMs ← getItem data "timestamp_ms" >>= B.toInt
  let signature ← getItem data "signature"
  return {
    version := version
    senderReplicaId := B.toStr senderReplicaId
    sessionId := B.toStr sessionId
    knowledgeStructureJson := B.toStr knowledgeStructureJson
    metadata := metadata
    parentSessionId := parentSessionId
    parentVersionId := parentVersionId
    nonce := B.toStr nonce
    seqNo := seqNo
    timestampMs := timestampMs
    signature := B.toStr signature }

/-! ## Signing -/

/-- `parent_id or ""`; the join raises at what is no string. -/
def orEmpty : Json → Except WireError Text
  | .string s => .ok s
  | x => if truthy x then .error .typeError else .ok []

/-- What is signed, field by field. -/
def parts (B : Builtins) (e : GossipEnvelope) : Except WireError (List Text) := do
  let metadataJson ← B.dumps e.metadata
  let parentSessionId ← orEmpty e.parentSessionId
  let parentVersionId ← orEmpty e.parentVersionId
  return [e.senderReplicaId, e.sessionId, e.knowledgeStructureJson, metadataJson, parentSessionId,
    parentVersionId, e.nonce, intText e.seqNo, intText e.timestampMs]

/-- The bytes that are signed. -/
def payload (B : Builtins) (e : GossipEnvelope) : Except WireError Text :=
  (e.parts B).map [SIGNING_SEPARATOR].intercalate

/-- `_sign`. -/
def sign (B : Builtins) (hmac : Text → Text) (e : GossipEnvelope) : Except WireError Text :=
  (e.payload B).map hmac

/-- `hmac.compare_digest`, which takes no text beyond ASCII. -/
def compareDigest (expected signature : Text) : Except WireError Bool :=
  if signature.all (·.toNat < 128) then .ok (expected = signature) else .error .typeError

/-- `verify`. -/
def verify (B : Builtins) (hmac : Text → Text) (e : GossipEnvelope) : Except WireError Bool :=
  if e.signature = [] then .ok false
  else do
    let expected ← e.sign B hmac
    compareDigest expected e.signature

/-! ## What a receiver acts on -/

/-- An envelope off the wire. -/
structure Parsed (B : Builtins) extends GossipEnvelope where
  data : List (Text × Json)
  parsed : fromDict B data = .ok toGossipEnvelope

/-- The texts in a field that may be any JSON. -/
def stringsOf : Json → List Text
  | .string s => [s]
  | _ => []

/-- The fields that are, or may be, texts. -/
def stringFields (e : GossipEnvelope) : List Text :=
  [e.senderReplicaId, e.sessionId, e.knowledgeStructureJson, e.nonce, e.signature, e.version] ++
    stringsOf e.parentSessionId ++ stringsOf e.parentVersionId

/-- The same keys with the same values, in any order. -/
def SameDict (m m' : EnvelopeMetadata) : Prop :=
  (m.map fun x => (x.1, sortKeys x.2)).Perm (m'.map fun x => (x.1, sortKeys x.2))

/-- `to_session` and the filter read the same from both. -/
structure SameContent (e e' : GossipEnvelope) : Prop where
  senderReplicaId : e.senderReplicaId = e'.senderReplicaId
  sessionId : e.sessionId = e'.sessionId
  knowledgeStructureJson : e.knowledgeStructureJson = e'.knowledgeStructureJson
  metadata : SameDict e.metadata e'.metadata
  parentSessionId : e.parentSessionId = e'.parentSessionId
  parentVersionId : e.parentVersionId = e'.parentVersionId
  nonce : e.nonce = e'.nonce
  seqNo : e.seqNo = e'.seqNo
  timestampMs : e.timestampMs = e'.timestampMs

/-- The same, or neither is there (a parent id `null`, empty, zero or false). -/
def SameOrFalsy (x x' : Json) : Prop := x = x' ∨ truthy x = false ∧ truthy x' = false

/-- The same but for two things: which falsy value a parent id is, and whether a metadata key is a
string or what that string spells. -/
structure SignedAlike (B : Builtins) (e e' : GossipEnvelope) : Prop where
  senderReplicaId : e.senderReplicaId = e'.senderReplicaId
  sessionId : e.sessionId = e'.sessionId
  knowledgeStructureJson : e.knowledgeStructureJson = e'.knowledgeStructureJson
  metadata : B.listing e.metadata = B.listing e'.metadata
  parentSessionId : SameOrFalsy e.parentSessionId e'.parentSessionId
  parentVersionId : SameOrFalsy e.parentVersionId e'.parentVersionId
  nonce : e.nonce = e'.nonce
  seqNo : e.seqNo = e'.seqNo
  timestampMs : e.timestampMs = e'.timestampMs

end GossipEnvelope

end CksRuntime
