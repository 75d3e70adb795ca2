import CksRuntime.Crdt.MerkleTree
import CksRuntime.Lib.Effect

/-!
# The object set

`object_id_for`, and the G-Set of `SQLiteCRDTStore` with its Merkle tree. An object's row and the
path of its id are committed one after the other, and the process may stop before either.
-/

set_option autoImplicit false

namespace CksRuntime.Crdt

/-- What a caller hands a store: an object of Core, a dict with the `id` it claims (if that is a
string) and the object its other fields rebuild (if they are well formed), or something else, of
which only the type is named. -/
inductive Payload (Obj : Type)
  | knowledgeObject (obj : Obj)
  | record (claimedId : Option Text) (content : Option Obj)
  | other (type : String)

/-- How `add_object` fails. -/
inductive StoreError
  | typeError (message : String)
  | objectIdentityMismatch (message : String)
  | valueError (message : String)
  /-- The process fails or crashes. -/
  | stopped
  deriving DecidableEq, Repr

/-- What `merge_objects` catches. -/
def StoreError.skipped : StoreError → Bool
  | .typeError _ | .objectIdentityMismatch _ => true
  | .valueError _ | .stopped => false

/-- `repr` of a hexadecimal text. -/
def quote (text : Text) : String := "'" ++ String.ofList text ++ "'"

variable {Obj : Type} (leafHash : Obj → Text)

/-- `leafHash` is the hex of Core's hash of an object. -/
def objectIdFor : Payload Obj → Except StoreError Text
  | .knowledgeObject obj => .ok (leafHash obj)
  | .record (some claimedId) (some obj) =>
    if claimedId.any (128 ≤ ·.toNat) then
      .error (.typeError "comparing strings with non-ASCII characters is not supported")
    else if leafHash obj ≠ claimedId then
      .error (.objectIdentityMismatch ("object_id_for: dict payload claims id " ++
        quote claimedId ++ " but its identity/structure hashes to " ++ quote (leafHash obj)))
    else .ok claimedId
  | .record (some claimedId) none =>
    .error (.typeError ("object_id_for: dict payload is missing a well-formed " ++
      "'identity'/'structure' to verify its claimed 'id' " ++ quote claimedId ++ " against"))
  | .record none _ => .error (.typeError ("object_id_for expects a cks.KnowledgeObject or a " ++
      "dict with a precomputed 'id', got <class 'dict'>"))
  | .other type => .error (.typeError ("object_id_for expects a cks.KnowledgeObject or a " ++
      "dict with a precomputed 'id', got " ++ type))

/-! ## SQLite -/

/-- The rows of `cks_knowledge_objects` by id, and the tree, as committed. -/
structure SQLiteCRDTStore where
  objects : List Text := []
  merkle : SQLiteMerkleTree := {}

/-- How far an insertion gets: to its end, or to one of its two commits. -/
inductive Fate
  | completes | stopsBeforeRow | stopsBeforePath
  deriving DecidableEq

/-- A call on a store. -/
abbrev StoreM := EStateM StoreError SQLiteCRDTStore

/-- An object offered to the store, and what becomes of the offer. -/
structure Offer (Obj : Type) where
  payload : Payload Obj
  fate : Fate

namespace SQLiteCRDTStore

variable (sha256 : Text → Text)

/-- `add_object`: the row of the object first, then the path to the root. -/
def addObject (offer : Offer Obj) : StoreM Bool := do
  match objectIdFor leafHash offer.payload with
  | .error e => throw e
  | .ok objectId =>
    if offer.fate = .stopsBeforeRow then throw .stopped
    let wasNew := decide (objectId ∉ (← get).objects)
    if wasNew then modify fun store => { store with objects := store.objects ++ [objectId] }
    if offer.fate = .stopsBeforePath then throw .stopped
    if wasNew then
      match (← get).merkle.updateMerklePath sha256 objectId with
      | .ok merkle => modify fun store => { store with merkle := merkle }
      | .error message => throw (.valueError message)
    pure wasNew

/-- How many were new. -/
def mergeObjects : List (Offer Obj) → StoreM Nat
  | [] => pure 0
  | offer :: offers => do
    let isNew ← tryCatch (addObject leafHash sha256 offer) fun e =>
      if e.skipped then pure false else throw e
    let count ← mergeObjects offers
    pure (if isNew then count + 1 else count)

end SQLiteCRDTStore

/-! ## Runs -/

/-- A call on a store. -/
inductive StoreCall (Obj : Type)
  | add (offer : Offer Obj)
  | merge (offers : List (Offer Obj))

namespace StoreCall

/-- The objects a call offers. -/
def offers : StoreCall Obj → List (Offer Obj)
  | .add offer => [offer]
  | .merge offers => offers

variable (sha256 : Text → Text)

/-- The store a call leaves. What a stopped process had committed is what the next one finds. -/
def run (store : SQLiteCRDTStore) : StoreCall Obj → SQLiteCRDTStore
  | .add offer => Effect.stateOf (SQLiteCRDTStore.addObject leafHash sha256 offer store)
  | .merge offers => Effect.stateOf (SQLiteCRDTStore.mergeObjects leafHash sha256 offers store)

end StoreCall

/-- What a list of calls leaves. -/
def runStore (sha256 : Text → Text) (store : SQLiteCRDTStore) (calls : List (StoreCall Obj)) :
    SQLiteCRDTStore := calls.foldl (StoreCall.run leafHash sha256) store

/-- Whether an insertion stops between the commit of a new row and that of its path. -/
def Offer.Interrupted (store : SQLiteCRDTStore) (offer : Offer Obj) : Prop :=
  offer.fate = .stopsBeforePath ∧
    ∃ objectId, objectIdFor leafHash offer.payload = .ok objectId ∧ objectId ∉ store.objects

/-- Whether one of a list of insertions does, that none before it stops. -/
def Interrupted (sha256 : Text → Text) : SQLiteCRDTStore → List (Offer Obj) → Prop
  | _, [] => False
  | store, offer :: offers =>
    offer.Interrupted leafHash store ∨
      ((objectIdFor leafHash offer.payload).isOk → offer.fate = .completes) ∧
        Interrupted sha256 (Effect.stateOf (SQLiteCRDTStore.addObject leafHash sha256 offer store))
          offers

/-- Whether a call of a run does. -/
def RunInterrupted (sha256 : Text → Text) : SQLiteCRDTStore → List (StoreCall Obj) → Prop
  | _, [] => False
  | store, call :: calls =>
    Interrupted leafHash sha256 store call.offers ∨
      RunInterrupted sha256 (call.run leafHash sha256 store) calls

end CksRuntime.Crdt
