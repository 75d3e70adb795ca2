import CksRuntime.Crdt.MerkleTree
import CksRuntime.Lib.ReplayWindow

/-!
# The gossip filter

`gossip/filter.py`: the replay, order and time checks on the fields of an incoming envelope. A
`seq_no` is let in once, and only within a window behind the highest one let in so far. The clock is
an argument, and the dicts read as empty where a sender is missing.
-/

set_option autoImplicit false

namespace CksRuntime

open ReplayWindow

/-! ## Arguments -/

/-- What `str.strip` takes off. -/
def isSpace (c : Char) : Bool :=
  (9 ≤ c.toNat ∧ c.toNat ≤ 13) ∨ (28 ≤ c.toNat ∧ c.toNat ≤ 32) ∨ c.toNat = 0x85 ∨
    c.toNat = 0xa0 ∨ c.toNat = 0x1680 ∨ (0x2000 ≤ c.toNat ∧ c.toNat ≤ 0x200a) ∨
    c.toNat = 0x2028 ∨ c.toNat = 0x2029 ∨ c.toNat = 0x202f ∨ c.toNat = 0x205f ∨ c.toNat = 0x3000

/-- `str.strip`. -/
def strip (s : Text) : Text := ((s.dropWhile isSpace).reverse.dropWhile isSpace).reverse

/-- What `int` makes of an argument, if it does not raise a `TypeError` or a `ValueError`. -/
abbrev IntArg := Option Int

/-! ## The filter -/

/-- How far behind the highest number one is still accepted. -/
def DEFAULT_SEQ_REORDER_WINDOW : Int := 64

/-- What the filter is configured with, and what it remembers. -/
structure GossipFilter where
  maxClockSkewMs : Int
  maxNonceCache : Nat
  maxSeqReorderWindow : Int
  window_pos : 0 < maxSeqReorderWindow
  /-- In insertion order. -/
  seenNonces : Text → List Text := fun _ => []
  lastSeq : Text → Option Int := fun _ => none
  seenSeq : Text → List Int := fun _ => []

namespace GossipFilter

/-- `__init__`. -/
def new (maxClockSkewMs : Int := 10000) (maxNonceCache : Int := 10000)
    (maxSeqReorderWindow : Int := DEFAULT_SEQ_REORDER_WINDOW) : GossipFilter where
  maxClockSkewMs := max 0 maxClockSkewMs
  maxNonceCache := (max 1 maxNonceCache).toNat
  maxSeqReorderWindow := max 1 maxSeqReorderWindow
  window_pos := by omega

/-- `_check_timestamp`. -/
def checkTimestamp (f : GossipFilter) (timestampMs : IntArg) (ttlMs : Option IntArg)
    (nowMs : Int) : Bool :=
  match timestampMs with
  | none => false
  | some ts =>
    if |nowMs - ts| > f.maxClockSkewMs then false
    else
      match ttlMs with
      | none => true
      | some none => false
      | some (some ttl) => if ttl < 0 then false else ¬nowMs > ts + ttl

/-- `_check_nonce`: the oldest nonces are evicted. -/
def checkNonce (f : GossipFilter) (sender nonce : Text) : Bool × GossipFilter :=
  let cleanNonce := strip nonce
  let seen := f.seenNonces sender
  if cleanNonce = [] ∨ cleanNonce ∈ seen then (false, f)
  else
    let seen := seen ++ [cleanNonce]
    (true, { f with seenNonces :=
      Function.update f.seenNonces sender (seen.drop (seen.length - f.maxNonceCache)) })

/-- `_check_sequence`. -/
def checkSequence (f : GossipFilter) (sender : Text) (seqNo : IntArg) : Bool × GossipFilter :=
  match seqNo with
  | none => (false, f)
  | some seq =>
    if seq < 0 then (false, f)
    else
      let lastSeq := (f.lastSeq sender).getD (-1)
      if seq ≤ lastSeq - f.maxSeqReorderWindow ∨ seq ∈ f.seenSeq sender then (false, f)
      else
        let highest := if seq > lastSeq then seq else lastSeq
        (true, { f with
          lastSeq := Function.update f.lastSeq sender (some highest)
          seenSeq := Function.update f.seenSeq sender
            ((f.seenSeq sender ++ [seq]).filter (highest - f.maxSeqReorderWindow < ·)) })

/-- The arguments of a `check`, and the clock when it is made. -/
structure Call where
  senderReplicaId : Text
  nonce : Option Text
  seqNo : Option IntArg
  timestampMs : Option IntArg
  ttlMs : Option IntArg := none
  nowMs : Int

/-- The sender, as the filter keeps it. -/
def Call.sender (c : Call) : Text := strip c.senderReplicaId

/-- The checks before the last one. -/
def passesTime (f : GossipFilter) (c : Call) : Bool :=
  c.sender ≠ [] ∧ c.timestampMs.all (f.checkTimestamp · c.ttlMs c.nowMs)

/-- `check`. -/
def check (f : GossipFilter) (c : Call) : Bool × GossipFilter :=
  if ¬f.passesTime c then (false, f)
  else
    let (fresh, f) := match c.nonce with
      | none => (true, f)
      | some nonce => f.checkNonce c.sender nonce
    if ¬fresh then (false, f)
    else
      match c.seqNo with
      | none => (true, f)
      | some seqNo => f.checkSequence c.sender seqNo

/-! ## Runs -/

/-- The filter after a sequence of calls. -/
def run (f : GossipFilter) (calls : List Call) : GossipFilter :=
  calls.foldl (fun f c => (f.check c).2) f

/-- The sequence number the call lets in from a sender, if any. -/
def letsIn (f : GossipFilter) (c : Call) (sender : Text) : List Int :=
  match c.seqNo with
  | some (some seq) => if (f.check c).1 ∧ c.sender = sender then [seq] else []
  | _ => []

/-- All that a sequence of calls lets in from a sender, the latest first. -/
def accepted (f : GossipFilter) : List Call → Text → List Int
  | [], _ => []
  | c :: calls, sender => (f.check c).2.accepted calls sender ++ f.letsIn c sender

/-- The call passes the time window and the nonce check. -/
def PassesOthers (f : GossipFilter) (c : Call) : Prop :=
  f.passesTime c ∧ ∀ nonce ∈ c.nonce, (f.checkNonce c.sender nonce).1

/-- What is kept of a sender's sequence numbers. -/
def window (f : GossipFilter) (sender : Text) : Window Int :=
  ⟨f.lastSeq sender, f.seenSeq sender⟩

end GossipFilter

end CksRuntime
