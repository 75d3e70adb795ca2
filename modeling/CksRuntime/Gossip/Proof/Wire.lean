import CksRuntime.Gossip.Wire
import CksRuntime.Gossip.Proof.Envelope

/-!
# What arrives over the wire

Read back, every dict has strings for keys (`stringKeys_ofJson`), so a session that arrives had no
others (`stringKeys_of_equal`). Of metadata with string keys only, the text that is read back is the
one that was signed: both are the sorted JSON (`sorted_eq`, `dumps_spelled`). So exactly the
sessions with string keys throughout arrive (`arrives_iff`).
-/

set_option autoImplicit false

namespace CksRuntime

open JsonText

/-! ## Keys -/

theorem Key.eq_string {k : Key} (h : k.isString) : k = .string k.text := by
  cases k with
  | string s => rfl
  | atom a => simp [Key.isString] at h

namespace PyValue

section
variable {P : List Key → Prop}

theorem everyDictItems_iff {items : List (Key × PyValue)} :
    EveryDictItems P items ↔ ∀ m ∈ items, EveryDict P m.2 := by
  induction items with
  | nil => simp [EveryDictItems]
  | cons m items ih => simp [EveryDictItems, ih]

theorem stringKeys_dict {items : List (Key × PyValue)} : StringKeys (.dict items) ↔
    (∀ m ∈ items, m.1.isString) ∧ ∀ m ∈ items, StringKeys m.2 := by
  simp only [StringKeys, EveryDict, everyDictItems_iff, List.forall_mem_map]

end

theorem toMembers_eq (items : List (Key × PyValue)) :
    toMembers items = items.map fun m => (m.1.text, m.2.toJson) := by
  induction items with
  | nil => rfl
  | cons m items ih => rw [toMembers, ih, List.map_cons]

theorem ofMembers_eq (ms : List (Text × Json)) :
    ofMembers ms = ms.map fun m => (.string m.1, ofJson m.2) := by
  induction ms with
  | nil => rfl
  | cons m ms ih => rw [ofMembers, ih, List.map_cons]

mutual

theorem stringKeys_ofJson : ∀ x, StringKeys (ofJson x)
  | .atom _ => trivial
  | .string _ => trivial
  | .array xs => stringKeys_ofElements xs
  | .object ms => by
    refine ⟨?_, stringKeys_ofMembers ms⟩
    rw [ofMembers_eq, List.map_map]
    exact List.forall_mem_map.2 fun _ _ => rfl

theorem stringKeys_ofElements : ∀ xs,
    EveryDictElements (fun keys => ∀ k ∈ keys, k.isString) (ofElements xs)
  | [] => trivial
  | x :: xs => ⟨stringKeys_ofJson x, stringKeys_ofElements xs⟩

theorem stringKeys_ofMembers : ∀ ms,
    EveryDictItems (fun keys => ∀ k ∈ keys, k.isString) (ofMembers ms)
  | [] => trivial
  | (_, x) :: ms => ⟨stringKeys_ofJson x, stringKeys_ofMembers ms⟩

end

mutual

/-- A value with another key in it equals none with strings only. -/
theorem stringKeys_of_equal : ∀ (v w : PyValue), Equal v w → StringKeys w → StringKeys v
  | .atom _, _, _, _ => trivial
  | .string _, _, _, _ => trivial
  | .list xs, w, h, hw => by
    obtain ⟨ys, rfl, hxs⟩ := h
    exact stringKeys_of_equalElements xs ys hxs hw
  | .dict items, w, h, hw => by
    obtain ⟨items', rfl, -, hitems⟩ := h
    obtain ⟨hkeys, hvalues⟩ := stringKeys_dict.1 hw
    exact stringKeys_dict.2 (stringKeys_of_equalItems items items' hitems hkeys hvalues)

theorem stringKeys_of_equalElements : ∀ xs ys : List PyValue, EqualElements xs ys →
    EveryDictElements (fun keys => ∀ k ∈ keys, k.isString) ys →
    EveryDictElements (fun keys => ∀ k ∈ keys, k.isString) xs
  | [], _, _, _ => trivial
  | x :: xs, _, h, hys => by
    obtain ⟨y, ys, rfl, hxy, hxs⟩ := h
    exact ⟨stringKeys_of_equal x y hxy hys.1, stringKeys_of_equalElements xs ys hxs hys.2⟩

theorem stringKeys_of_equalItems : ∀ items items' : List (Key × PyValue),
    EqualItems items items' → (∀ m ∈ items', m.1.isString) → (∀ m ∈ items', StringKeys m.2) →
    (∀ m ∈ items, m.1.isString) ∧ ∀ m ∈ items, StringKeys m.2
  | [], _, _, _, _ => by simp
  | (k, x) :: items, items', h, hkeys, hvalues => by
    obtain ⟨⟨y, hmem, hxy⟩, hrest⟩ := h
    have hx := stringKeys_of_equal x y hxy (hvalues (k, y) hmem)
    obtain ⟨hk, hv⟩ := stringKeys_of_equalItems items items' hrest hkeys hvalues
    exact ⟨List.forall_mem_cons.2 ⟨hkeys (k, y) hmem, hk⟩, List.forall_mem_cons.2 ⟨hx, hv⟩⟩

end

mutual

theorem equal_refl : ∀ v, Equal v v
  | .atom _ => rfl
  | .string _ => rfl
  | .list xs => ⟨xs, rfl, equalElements_refl xs⟩
  | .dict items => ⟨items, rfl, rfl, equalItems_of_subset items items fun _ h => h⟩

theorem equalElements_refl : ∀ xs, EqualElements xs xs
  | [] => rfl
  | x :: xs => ⟨x, xs, rfl, equal_refl x, equalElements_refl xs⟩

theorem equalItems_of_subset : ∀ items items' : List (Key × PyValue), items ⊆ items' →
    EqualItems items items'
  | [], _, _ => trivial
  | (k, x) :: items, items', h => by
    obtain ⟨hmem, hrest⟩ := List.cons_subset.1 h
    exact ⟨⟨x, hmem, equal_refl x⟩, equalItems_of_subset items items' hrest⟩

end

/-! ## Reading back -/

/-- What was spelled is told from the spelling. -/
theorem ofMembers_toMembers {items : List (Key × PyValue)} (hkeys : ∀ m ∈ items, m.1.isString)
    (hvalues : ∀ m ∈ items, ofJson m.2.toJson = m.2) : ofMembers (toMembers items) = items := by
  rw [ofMembers_eq, toMembers_eq, List.map_map]
  refine (List.map_congr_left fun m hm => ?_).trans (List.map_id items)
  show (Key.string m.1.text, ofJson m.2.toJson) = m
  rw [hvalues m hm, ← Key.eq_string (hkeys m hm)]

mutual

theorem ofJson_toJson : ∀ v : PyValue, StringKeys v → ofJson v.toJson = v
  | .atom _, _ => rfl
  | .string _, _ => rfl
  | .list xs, h => congrArg PyValue.list (ofElements_toElements xs h)
  | .dict items, h =>
    congrArg PyValue.dict (ofMembers_toMembers (stringKeys_dict.1 h).1 (ofJson_items items h.2))

theorem ofElements_toElements : ∀ xs : List PyValue,
    EveryDictElements (fun keys => ∀ k ∈ keys, k.isString) xs → ofElements (toElements xs) = xs
  | [], _ => rfl
  | x :: xs, h => by
    rw [toElements, ofElements, ofJson_toJson x h.1, ofElements_toElements xs h.2]

theorem ofJson_items : ∀ items : List (Key × PyValue),
    EveryDictItems (fun keys => ∀ k ∈ keys, k.isString) items →
    ∀ m ∈ items, ofJson m.2.toJson = m.2
  | [], _ => by simp
  | (_, x) :: items, h =>
    List.forall_mem_cons.2 ⟨ofJson_toJson x h.1, ofJson_items items h.2⟩

end

/-- Different string keys are spelled differently. -/
theorem nodup_spelled {items : List (Key × PyValue)} (hkeys : ∀ m ∈ items, m.1.isString)
    (hdistinct : ((items.map Prod.fst).filter Key.isString).Nodup) :
    ((toMembers items).map Prod.fst).Nodup := by
  rw [← List.forall_mem_map (f := Prod.fst) (P := fun k : Key => k.isString)] at hkeys
  rw [List.filter_eq_self.2 hkeys] at hdistinct
  have hspelled : (toMembers items).map Prod.fst = (items.map Prod.fst).map Key.text := by
    simp [toMembers_eq]
  rw [hspelled]
  refine hdistinct.map_on fun k hk k' hk' htext => ?_
  rw [Key.eq_string (hkeys k hk), Key.eq_string (hkeys k' hk'), htext]

mutual

/-- No member is lost. -/
theorem collapse_toJson : ∀ v : PyValue, StringKeys v → DistinctKeys v →
    collapse v.toJson = v.toJson
  | .atom _, _, _ => rfl
  | .string _, _, _ => rfl
  | .list xs, h, hd => congrArg Json.array (collapse_toElements xs h hd)
  | .dict items, h, hd => by
    have hmembers := collapse_toMembers items h.2 hd.2
    have hnodup := nodup_spelled (stringKeys_dict.1 h).1 hd.1
    exact collapse_object hnodup hmembers

theorem collapse_toElements : ∀ xs : List PyValue,
    EveryDictElements (fun keys => ∀ k ∈ keys, k.isString) xs →
    EveryDictElements (fun keys => (keys.filter Key.isString).Nodup) xs →
    collapseElements (toElements xs) = toElements xs
  | [], _, _ => rfl
  | x :: xs, h, hd => by
    rw [toElements, collapseElements, collapse_toJson x h.1 hd.1, collapse_toElements xs h.2 hd.2]

theorem collapse_toMembers : ∀ items : List (Key × PyValue),
    EveryDictItems (fun keys => ∀ k ∈ keys, k.isString) items →
    EveryDictItems (fun keys => (keys.filter Key.isString).Nodup) items →
    collapseMembers (toMembers items) = toMembers items
  | [], _, _ => rfl
  | (_, x) :: items, h, hd => by
    rw [toMembers, collapseMembers, collapse_toJson x h.1 hd.1, collapse_toMembers items h.2 hd.2]

end

end PyValue

/-! ## The signed text -/

namespace Builtins

variable (B : Builtins)

theorem sortItems_of_strings {metadata : EnvelopeMetadata} (h : ∀ m ∈ metadata, m.1.isString) :
    B.sortItems metadata =
      .ok (metadata.mergeSort fun x y => decide (x.1.text ≤ y.1.text)) :=
  if_pos (List.all_eq_true.2 h)

/-- Items in the order of their keys, spelled. -/
theorem spell_mergeSort (f : Json → Json) (metadata : EnvelopeMetadata) :
    (metadata.mergeSort fun x y => decide (x.1.text ≤ y.1.text)).map
        (fun m => (m.1.text, f m.2)) =
      (metadata.map fun m => (m.1.text, f m.2)).mergeSort fun x y => decide (x.1 ≤ y.1) :=
  List.map_mergeSort fun _ _ _ _ => rfl

/-- What is signed of metadata that came over the wire. -/
theorem dumps_spelled (ms : List (Text × Json)) :
    B.dumps (ms.map fun m => (.string m.1, m.2)) = .ok (write (sortKeys (.object ms))) := by
  have hkeys : ∀ m ∈ ms.map fun m => (Key.string m.1, m.2), m.1.isString :=
    List.forall_mem_map.2 fun _ _ => rfl
  rw [dumps, listing, sortItems_of_strings B hkeys]
  simp only [Except.map, spell_mergeSort, List.map_map, sortKeys, sortMembers_eq]
  rfl

end Builtins

namespace PyValue

variable (B : Builtins)

mutual

/-- What is signed of a value with string keys. -/
theorem sorted_eq : ∀ v : PyValue, StringKeys v → v.sorted B = .ok (sortKeys v.toJson)
  | .atom _, _ => rfl
  | .string _, _ => rfl
  | .list xs, h => by
    rw [sorted, sortedElements_eq xs h]
    rfl
  | .dict items, h => by
    have hkeys : ∀ m ∈ items.map fun m => (m.1, sortKeys m.2.toJson), m.1.isString :=
      List.forall_mem_map.2 (stringKeys_dict.1 h).1
    have hmembers : sortMembers (toMembers items) =
        items.map fun m => (m.1.text, sortKeys m.2.toJson) := by
      rw [sortMembers_eq, toMembers_eq, List.map_map]
      rfl
    rw [sorted, sortedItems_eq items h.2]
    dsimp only [bind, Except.bind]
    rw [B.sortItems_of_strings hkeys]
    dsimp only [pure, Except.pure]
    rw [Builtins.spell_mergeSort (fun x => x), toJson, sortKeys, hmembers, List.map_map]
    rfl

theorem sortedElements_eq : ∀ xs : List PyValue,
    EveryDictElements (fun keys => ∀ k ∈ keys, k.isString) xs →
    sortedElements B xs = .ok (sortElements (toElements xs))
  | [], _ => rfl
  | x :: xs, h => by
    rw [sortedElements, sorted_eq x h.1, sortedElements_eq xs h.2]
    rfl

theorem sortedItems_eq : ∀ items : List (Key × PyValue),
    EveryDictItems (fun keys => ∀ k ∈ keys, k.isString) items →
    sortedItems B items = .ok (items.map fun m => (m.1, sortKeys m.2.toJson))
  | [], _ => rfl
  | (_, x) :: items, h => by
    rw [sortedItems, sorted_eq x h.1, sortedItems_eq items h.2]
    rfl

end

end PyValue

/-! ## On the wire -/

namespace Outgoing

variable {B : Builtins} {hmac : Text → Text}

/-- The metadata as they are loaded. -/
def loaded (e : Outgoing) : List (Text × Json) :=
  dictOf (collapseMembers (PyValue.toMembers e.metadata))

/-- The message as it is loaded. -/
def data (e : Outgoing) : List (Text × Json) :=
  [("version".toList, .string e.version), ("sender_replica_id".toList, .string e.senderReplicaId),
    ("session_id".toList, .string e.sessionId),
    ("knowledge_structure_json".toList, .string e.knowledgeStructureJson),
    ("metadata".toList, .object e.loaded),
    ("parent_session_id".toList, ofParent e.parentSessionId),
    ("parent_version_id".toList, ofParent e.parentVersionId), ("nonce".toList, .string e.nonce),
    ("seq_no".toList, .atom (.int e.seqNo)), ("timestamp_ms".toList, .atom (.int e.timestampMs)),
    ("signature".toList, .string e.signature)]

theorem collapse_ofParent (p : Option Text) :
    collapse (PyValue.ofJson (ofParent p)).toJson = ofParent p := by
  cases p <;> rfl

theorem loads_toDict (e : Outgoing) :
    loads (PyValue.dict e.toDict).dumps = some (.object e.data) := by
  have hmembers : collapseMembers (PyValue.toMembers e.toDict) = e.data := by
    simp only [toDict, data, PyValue.toMembers, collapseMembers, collapse_ofParent]
    rfl
  have hnodup : (e.data.map Prod.fst).Nodup := by
    simp only [data, List.map_cons, List.map_nil]
    decide
  rw [PyValue.dumps, loads_write, PyValue.toJson, collapse, hmembers, dictOf_nodup hnodup]

/-- The envelope as it arrives. -/
def arrived (e : Outgoing) : GossipEnvelope where
  senderReplicaId := e.senderReplicaId
  sessionId := e.sessionId
  knowledgeStructureJson := e.knowledgeStructureJson
  metadata := e.loaded.map fun m => (.string m.1, m.2)
  parentSessionId := ofParent e.parentSessionId
  parentVersionId := ofParent e.parentVersionId
  nonce := e.nonce
  seqNo := e.seqNo
  timestampMs := e.timestampMs
  signature := e.signature
  version := e.version

theorem fromDict_data (e : Outgoing) : GossipEnvelope.fromDict B e.data = .ok e.arrived := by
  have hmetadata : GossipEnvelope.metadataOf B e.data = .ok e.arrived.metadata := by
    have hlookup : e.data.lookup "metadata".toList = some (.object e.loaded) := rfl
    rw [GossipEnvelope.metadataOf, hlookup, arrived]
    cases e.loaded <;> rfl
  rw [GossipEnvelope.fromDict, hmetadata]
  rfl

theorem orEmpty_ofParent (p : Option Text) :
    GossipEnvelope.orEmpty (ofParent p) = .ok (p.getD []) := by
  cases p <;> rfl

section
variable {e : Outgoing} (h : PyValue.StringKeys (.dict e.metadata))
  (hd : PyValue.DistinctKeys (.dict e.metadata))
include h hd

theorem object_loaded : Json.object e.loaded = (PyValue.dict e.metadata).toJson :=
  PyValue.collapse_toJson _ h hd

/-- String keys: what is verified is what was signed. -/
theorem payload_arrived : ∃ p, e.payload B = .ok p ∧ e.arrived.payload B = .ok p := by
  have hsigned := PyValue.sorted_eq B _ h
  have hread : B.dumps e.arrived.metadata =
      .ok (write (sortKeys (PyValue.dict e.metadata).toJson)) := by
    rw [arrived, B.dumps_spelled, object_loaded h hd]
  refine ⟨_, by rw [payload, parts, hsigned]; rfl, ?_⟩
  rw [GossipEnvelope.payload, GossipEnvelope.parts, hread]
  simp only [arrived, orEmpty_ofParent]
  rfl

end

/-! ## The session that arrives -/

/-- The metadata as the receiver has them. -/
def received (e : Outgoing) : List (Key × PyValue) := PyValue.ofMembers e.loaded

theorem received_eq {e : Outgoing} (h : PyValue.StringKeys (.dict e.metadata))
    (hd : PyValue.DistinctKeys (.dict e.metadata)) : e.received = e.metadata := by
  have hread := congrArg PyValue.ofJson (object_loaded h hd)
  rw [PyValue.ofJson_toJson _ h] at hread
  exact PyValue.dict.inj hread

theorem toSession_arrived {S : Type} (parse : Text → Option S) (e : Outgoing) :
    e.arrived.toSession parse = (parse e.knowledgeStructureJson).map fun knowledgeStructure => {
      knowledgeStructure := knowledgeStructure
      sessionId := e.sessionId
      metadata := e.received
      parentSessionId := ofParent e.parentSessionId
      parentVersionId := ofParent e.parentVersionId } := by
  rw [GossipEnvelope.toSession, received, PyValue.ofMembers_eq]
  simp only [arrived, List.map_map]
  rfl

end Outgoing

namespace GossipEnvelope

section
variable {S : Type} {parse : Text → Option S} {serialize : S → Text} {B : Builtins}
  {hmac : Text → Text} {sending : Sending}

/-! ## Arrival -/

theorem verify_of_payload {e : GossipEnvelope} {p : Text} (hhex : ∀ p, IsHexDigest (hmac p))
    (hp : e.payload B = .ok p) (hsignature : e.signature = hmac p) :
    e.verify B hmac = .ok true := by
  obtain ⟨hne, hdigits⟩ := hhex p
  have hascii : "0123456789abcdef".toList.all (·.toNat < 128) = true := by decide
  have hall : (hmac p).all (·.toNat < 128) = true := by
    refine List.all_eq_true.2 fun c hc => List.all_eq_true.1 hascii c ?_
    exact of_decide_eq_true (List.all_eq_true.1 hdigits c hc)
  rw [verify, hsignature, if_neg hne, sign, hp]
  show compareDigest (hmac p) (hmac p) = .ok true
  rw [compareDigest, if_pos hall]
  simp

theorem stringKeys_of_arrives {session : SessionSnapshot S (Option Text)}
    (h : Arrives parse serialize B hmac sending session) :
    PyValue.StringKeys (.dict session.metadata) := by
  obtain ⟨sent, data, e, received, -, hdata, he, -, hreceived, hsame⟩ := h
  rw [Outgoing.loads_toDict] at hdata
  cases hdata
  rw [Outgoing.fromDict_data] at he
  cases he
  rw [Outgoing.toSession_arrived] at hreceived
  obtain ⟨knowledgeStructure, -, rfl⟩ := Option.map_eq_some_iff.1 hreceived
  have hread : PyValue.StringKeys (.dict sent.received) :=
    PyValue.stringKeys_ofJson (.object sent.loaded)
  exact PyValue.stringKeys_of_equal _ _ hsame.metadata hread

theorem arrives_of_stringKeys (hparse : ∀ s, parse (serialize s) = some s)
    (hhex : ∀ p, IsHexDigest (hmac p)) (session : LocalSession S)
    (h : PyValue.StringKeys (.dict session.metadata)) :
    Arrives parse serialize B hmac sending session.toSessionSnapshot := by
  let e := Outgoing.unsigned serialize sending session.toSessionSnapshot
  obtain ⟨p, hsent, harrived⟩ := Outgoing.payload_arrived (B := B) (e := e) h session.distinct
  let sent : Outgoing := { e with signature := hmac p }
  have hfrom : Outgoing.fromSession serialize B hmac sending session.toSessionSnapshot =
      .ok sent := by
    rw [Outgoing.fromSession, Outgoing.sign, hsent]
    rfl
  have hreceived : sent.received = session.metadata :=
    Outgoing.received_eq (e := sent) h session.distinct
  have hto := Outgoing.toSession_arrived parse sent
  have hstructure : parse sent.knowledgeStructureJson = some session.knowledgeStructure :=
    hparse session.knowledgeStructure
  rw [hreceived, hstructure] at hto
  refine ⟨sent, sent.data, sent.arrived, _, hfrom, sent.loads_toDict, sent.fromDict_data,
    verify_of_payload hhex harrived rfl, hto, ?_⟩
  exact {
    knowledgeStructure := rfl
    sessionId := rfl
    metadata := PyValue.equal_refl _
    parentSessionId := rfl
    parentVersionId := rfl }

/-- Exactly the sessions with string keys in every dict of their metadata arrive as they were. -/
theorem arrives_iff (hparse : ∀ s, parse (serialize s) = some s)
    (hhex : ∀ p, IsHexDigest (hmac p)) (session : LocalSession S) :
    Arrives parse serialize B hmac sending session.toSessionSnapshot ↔
      PyValue.StringKeys (.dict session.metadata) :=
  ⟨stringKeys_of_arrives, arrives_of_stringKeys hparse hhex session⟩

end

/-- What an envelope is signed with. -/
def sendingSeven : Sending where
  senderReplicaId := ['a']
  nonce := ['n']
  seqNo := 7
  timestampMs := 9

/-- A session whose structure is its own text. -/
def flagged (value : PyValue) (h : value.DistinctKeys) : LocalSession Text where
  knowledgeStructure := "\x7b\x7d".toList
  sessionId := ['s']
  metadata := [(.string ['k'], value)]
  parentSessionId := none
  parentVersionId := none
  distinct := ⟨List.nodup_singleton (Key.string ['k']), h, trivial⟩

theorem digest_hex : IsHexDigest digest := ⟨by decide, by decide⟩

theorem arrives_flagged : Arrives some id strictBuiltins (fun _ => digest) sendingSeven
    (flagged (.atom (.int 1)) trivial).toSessionSnapshot :=
  (arrives_iff (fun _ => rfl) (fun _ => digest_hex) _).2 ⟨by simp [flagged, Key.isString],
    trivial, trivial⟩

/-- Builtins that leave the items of a dict where they are, as sorting does with a single one. -/
def singleItem : Builtins := { strictBuiltins with sorted := .ok }

/-- Metadata with a key that is no string. -/
def numbered : PyValue := .dict [(.atom (.int 1), .atom (.int 2))]

theorem distinctKeys_numbered : numbered.DistinctKeys := ⟨by simp [Key.isString], trivial, trivial⟩

/-- The key 1 comes back as the string "1". -/
theorem int_key_lost : ¬∀ session : LocalSession Text, Arrives some id singleItem
    (fun _ => digest) sendingSeven session.toSessionSnapshot := by
  intro h
  obtain ⟨-, ⟨hkeys, -⟩, -⟩ := stringKeys_of_arrives (h (flagged numbered distinctKeys_numbered))
  have hkey := hkeys (.atom (.int 1)) (List.mem_singleton_self _)
  simp [Key.isString] at hkey

end GossipEnvelope

end CksRuntime
