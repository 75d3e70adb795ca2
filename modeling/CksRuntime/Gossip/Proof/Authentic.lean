import CksRuntime.Gossip.Network
import CksRuntime.Gossip.Proof.Wire

/-!
# What carries a signed text

An envelope that verifies over a text that a replica has signed is that replica's envelope, whatever
the network has made of the rest: the signed parts hold no separator, so the same number of parts
with the same text are the same parts (`intercalate_inj`), and a key that no other JSON value is
spelled like can only have been a string. So the session it is taken for is a snapshot of the one
that was signed (`snapshotOf_of_signed`).
-/

set_option autoImplicit false

namespace CksRuntime

open JsonText

/-! ## Parts -/

theorem count_intercalate {α : Type} [DecidableEq α] (c : α) : ∀ {ps : List (List α)}, ps ≠ [] →
    ([c].intercalate ps).count c + 1 = (ps.map (·.count c)).sum + ps.length
  | [p], _ => by simp
  | p :: q :: ps, _ => by
    have ih := count_intercalate c (List.cons_ne_nil q ps)
    rw [List.intercalate_cons_cons]
    simp only [List.count_append, List.count_singleton_self, List.map_cons, List.sum_cons,
      List.length_cons] at ih ⊢
    omega

/-- Of two lists of as many parts that join to one text, none holds the separator if the other
does not: they are the same. -/
theorem intercalate_inj {α : Type} [DecidableEq α] {c : α} {ps qs : List (List α)}
    (hlen : ps.length = qs.length) (hne : ps ≠ []) (hps : ∀ p ∈ ps, c ∉ p)
    (h : [c].intercalate ps = [c].intercalate qs) : ps = qs := by
  have hne' : qs ≠ [] := by
    rintro rfl
    exact hne (List.length_eq_zero_iff.1 hlen)
  have hclean : (ps.map (·.count c)).sum = 0 := by
    rw [List.sum_eq_zero_iff_forall_eq_nat]
    exact List.forall_mem_map.2 fun p hp => List.count_eq_zero.2 (hps p hp)
  have hcount := count_intercalate c hne
  have hcount' := count_intercalate c hne'
  have hclean' : (qs.map (·.count c)).sum = 0 := by
    rw [h] at hcount
    omega
  have hqs : ∀ q ∈ qs, c ∉ q := fun q hq =>
    List.count_eq_zero.1 (List.sum_eq_zero_iff_forall_eq_nat.1 hclean' _ (List.mem_map_of_mem hq))
  rw [← List.splitOn_intercalate c hps hne, h, List.splitOn_intercalate c hqs hne']

namespace Outgoing

variable {B : Builtins} {o : Outgoing} {e : GossipEnvelope}

theorem separator_notMem_arrived (ho : o.Plain) {ps : List Text}
    (h : o.arrived.parts B = .ok ps) : ∀ s ∈ ps, SIGNING_SEPARATOR ∉ s := by
  obtain ⟨ms, a, b, -, ha, hb, rfl⟩ := GossipEnvelope.parts_eq_ok h
  rw [arrived, orEmpty_ofParent] at ha hb
  cases ha
  cases hb
  have htexts := ho.texts
  simp only [List.forall_mem_cons, arrived] at htexts ⊢
  obtain ⟨hsender, hsession, hstructure, hnonce, hparent, hversion, -⟩ := htexts
  exact ⟨hsender, hsession, hstructure, GossipEnvelope.separator_notMem_write _, hparent, hversion,
    hnonce, GossipEnvelope.separator_notMem_intText _, GossipEnvelope.separator_notMem_intText _,
    fun _ h => absurd h List.not_mem_nil⟩

/-- Over the text that was signed there is only what was signed. -/
theorem signedAlike_of_payload (ho : o.Plain) {p : Text} (hp : e.payload B = .ok p)
    (h : o.payload B = e.payload B) : GossipEnvelope.SignedAlike B o.arrived e := by
  obtain ⟨q, hq, harrived⟩ := payload_arrived (B := B) ho.keys ho.distinct
  have heq : q = p := Except.ok.inj (hq.symm.trans (h.trans hp))
  subst heq
  obtain ⟨ps, hps, hjoin⟩ := GossipEnvelope.payload_eq_ok harrived
  obtain ⟨qs, hqs, hjoin'⟩ := GossipEnvelope.payload_eq_ok hp
  have hlen : ps.length = 9 ∧ qs.length = 9 := by
    obtain ⟨_, _, _, -, -, -, rfl⟩ := GossipEnvelope.parts_eq_ok hps
    obtain ⟨_, _, _, -, -, -, rfl⟩ := GossipEnvelope.parts_eq_ok hqs
    exact ⟨rfl, rfl⟩
  have hne : ps ≠ [] := by
    rintro rfl
    exact absurd hlen.1 (by decide)
  have hsame := intercalate_inj (hlen.1.trans hlen.2.symm) hne (separator_notMem_arrived ho hps)
    (hjoin.trans hjoin'.symm)
  exact GossipEnvelope.signedAlike_of_parts hps (hsame ▸ hqs)

end Outgoing

/-! ## Metadata -/

theorem find?_perm {α : Type} {p : α → Bool} {l l' : List α} (h : l.Perm l')
    (hone : ∀ x ∈ l, ∀ y ∈ l, p x → p y → x = y) : l.find? p = l'.find? p := by
  cases hl : l.find? p with
  | none =>
    refine (List.find?_eq_none.2 fun x hx => ?_).symm
    exact List.find?_eq_none.1 hl x (h.mem_iff.2 hx)
  | some x =>
    have hx := List.mem_of_find?_eq_some hl
    have hpx := List.find?_some hl
    cases hl' : l'.find? p with
    | none => exact absurd hpx (List.find?_eq_none.1 hl' x (h.mem_iff.1 hx))
    | some y =>
      have hy := h.mem_iff.2 (List.mem_of_find?_eq_some hl')
      rw [hone x hx y hy hpx (List.find?_some hl')]

namespace Metadata

theorem names_iff {k : Key} {name : String} : k.names name = true ↔ k = .string name.toList := by
  cases k with
  | string s => simp [Key.names]
  | atom a => simp [Key.names]

theorem extraOf_key {m : Key × Json} {x : Sigma fun _ : String => MetadataValue}
    (h : extraOf m = some x) : m.1 = .string x.1.toList := by
  obtain ⟨k, v⟩ := m
  cases k with
  | atom a => simp [extraOf] at h
  | string s =>
    simp only [extraOf, Option.ite_none_left_eq_some, Option.some.injEq] at h
    obtain ⟨-, rfl⟩ := h
    simp

section
variable {items items' : List (Key × Json)} (hnodup : (items.map Prod.fst).Nodup)
  (hperm : items.Perm items')
include hnodup hperm

theorem valueAt_perm (name : String) : valueAt name items = valueAt name items' := by
  refine congrArg (Option.map Prod.snd) (find?_perm hperm fun x hx y hy hpx hpy => ?_)
  exact List.inj_on_of_nodup_map hnodup hx hy
    ((names_iff.1 hpx).trans (names_iff.1 hpy).symm)

theorem extra_perm : (items.filterMap extraOf).toFinmap = (items'.filterMap extraOf).toFinmap := by
  have hkeys : (items.filterMap extraOf).NodupKeys := by
    rw [List.nodupKeys_iff_pairwise]
    refine (List.pairwise_map.1 hnodup).filterMap _ fun m m' hne x hx x' hx' hsame => ?_
    exact hne (by rw [extraOf_key hx, extraOf_key hx', hsame])
  refine Finmap.ext_lookup fun k => ?_
  rw [Finmap.dlookup_list_toFinmap, Finmap.dlookup_list_toFinmap]
  exact List.perm_dlookup k hkeys (hperm.filterMap extraOf)

/-- The order of the items does not show. -/
theorem ofItems_perm : ofItems items = ofItems items' := by
  simp only [ofItems, valueAt_perm hnodup hperm, extra_perm hnodup hperm]

end

end Metadata

namespace GossipEnvelope

variable {B : Builtins} {o : Outgoing} {e : GossipEnvelope}

theorem listing_perm_of_sorts (hB : B.SortsItems) {m : EnvelopeMetadata} {ms : List (Text × Json)}
    (h : B.listing m = .ok ms) : ms.Perm (m.map fun x => (x.1.text, sortKeys x.2)) := by
  have hsorted : ∃ items, B.sortItems m = .ok items ∧ items.Perm m := by
    unfold Builtins.listing at h
    unfold Builtins.sortItems at h ⊢
    split
    · exact ⟨_, rfl, List.mergeSort_perm _ _⟩
    · rename_i hkeys
      rw [if_neg hkeys] at h
      cases hs : B.sorted m with
      | error exc => simp [hs, Except.map] at h
      | ok items => exact ⟨items, rfl, hB m items hs⟩
  obtain ⟨items, hitems, hperm⟩ := hsorted
  rw [Builtins.listing, hitems] at h
  rw [← Except.ok.inj h]
  exact hperm.map _

/-- The same keys with the same values, in some order. -/
theorem items_perm (hB : B.SortsItems) (ho : o.Plain) (h : SignedAlike B o.arrived e) :
    (o.metadata.map fun m => (m.1, sortKeys m.2.toJson)).Perm
      (e.metadata.map fun m => (m.1, sortKeys m.2)) := by
  have hloaded : o.loaded = PyValue.toMembers o.metadata :=
    Json.object.inj (Outgoing.object_loaded ho.keys ho.distinct)
  have hstrings : ∀ m ∈ o.metadata, m.1.isString := (PyValue.stringKeys_dict.1 ho.keys).1
  have harrived : o.arrived.metadata.map (fun x => (x.1.text, sortKeys x.2)) =
      o.metadata.map fun m => (m.1.text, sortKeys m.2.toJson) := by
    rw [Outgoing.arrived, hloaded, PyValue.toMembers_eq, List.map_map, List.map_map]
    rfl
  have hall : ∀ m ∈ o.arrived.metadata, m.1.isString :=
    List.forall_mem_map.2 fun _ _ => rfl
  obtain ⟨ms, hms, -⟩ := listing_perm (B := B) hall
  have hspelled := (listing_perm_of_sorts hB hms).symm.trans
    (listing_perm_of_sorts hB (h.metadata.symm.trans hms))
  rw [harrived] at hspelled
  -- no key is spelled like another value, so every key off the wire is a string
  have hstrings' : ∀ m ∈ e.metadata, m.1.isString := by
    intro m hm
    have hmem := hspelled.mem_iff.2 (List.mem_map_of_mem hm)
    obtain ⟨m', hm', heq⟩ := List.mem_map.1 hmem
    cases hk : m.1 with
    | string s => rfl
    | atom a =>
      rw [hk] at heq
      exact absurd (congrArg Prod.fst heq) (ho.worded m' hm' a)
  have hread := hspelled.map fun x : Text × Json => (Key.string x.1, x.2)
  rw [List.map_map, List.map_map] at hread
  have hleft : o.metadata.map (fun m => (m.1, sortKeys m.2.toJson)) = o.metadata.map
      ((fun x : Text × Json => (Key.string x.1, x.2)) ∘
        fun m => (m.1.text, sortKeys m.2.toJson)) :=
    List.map_congr_left fun m hm => congrArg (·, _) (Key.eq_string (hstrings m hm))
  have hright : e.metadata.map (fun m => (m.1, sortKeys m.2)) = e.metadata.map
      ((fun x : Text × Json => (Key.string x.1, x.2)) ∘ fun m => (m.1.text, sortKeys m.2)) :=
    List.map_congr_left fun m hm => congrArg (·, _) (Key.eq_string (hstrings' m hm))
  rw [hleft, hright]
  exact hread

end GossipEnvelope

/-! ## Sessions -/

namespace PyValue

mutual

theorem toJson_ofJson : ∀ x : Json, (ofJson x).toJson = x
  | .atom _ => rfl
  | .string _ => rfl
  | .array xs => congrArg Json.array (toElements_ofElements xs)
  | .object ms => congrArg Json.object (toMembers_ofMembers ms)

theorem toElements_ofElements : ∀ xs : List Json, toElements (ofElements xs) = xs
  | [] => rfl
  | x :: xs => by rw [ofElements, toElements, toJson_ofJson x, toElements_ofElements xs]

theorem toMembers_ofMembers : ∀ ms : List (Text × Json), toMembers (ofMembers ms) = ms
  | [] => rfl
  | (k, x) :: ms => by
    rw [ofMembers, toMembers, toJson_ofJson x, toMembers_ofMembers ms]
    rfl

end

end PyValue

variable {K : Core} {C : GossipCodec K}

/-- The envelope is one that was signed for the session. -/
structure Outgoing.Carries (C : GossipCodec K) (o : Outgoing) (s : Session K) : Prop where
  plain : o.Plain
  sessionId : o.sessionId = s.sessionId.toList
  knowledgeStructureJson : o.knowledgeStructureJson = C.serialize s.knowledgeStructure
  metadata : Metadata.ofDict o.metadata = s.metadata

/-- Whatever else came with the signed text, the session it is taken for is the one signed. -/
theorem snapshotOf_of_signed (hB : C.builtins.SortsItems)
    (hparse : ∀ x, C.parse (C.serialize x) = some x) {o : Outgoing} {s : Session K}
    (hs : o.Carries C s) {e : GossipEnvelope} (hver : e.verify C.builtins C.hmac = .ok true)
    (hsigned : o.payload C.builtins = e.payload C.builtins)
    {received : SessionSnapshot K.Structure Json} (hto : e.toSession C.parse = some received) :
    SnapshotOf s (Session.ofSnapshot received) := by
  obtain ⟨p, hp, -⟩ := GossipEnvelope.verify_eq_true hver
  have halike := Outgoing.signedAlike_of_payload hs.plain hp hsigned
  have hid : e.sessionId = s.sessionId.toList := halike.sessionId.symm.trans hs.sessionId
  have hjson : e.knowledgeStructureJson = C.serialize s.knowledgeStructure :=
    halike.knowledgeStructureJson.symm.trans hs.knowledgeStructureJson
  rw [GossipEnvelope.toSession, hjson, hparse, Option.map_some, Option.some.injEq] at hto
  subst hto
  have hnodup : ((o.metadata.map fun m => (m.1, sortKeys m.2.toJson)).map Prod.fst).Nodup := by
    have hkeys := (PyValue.stringKeys_dict.1 hs.plain.keys).1
    rw [← List.forall_mem_map (f := Prod.fst) (P := fun k : Key => k.isString)] at hkeys
    have hdistinct : ((o.metadata.map Prod.fst).filter Key.isString).Nodup :=
      hs.plain.distinct.1
    rw [List.filter_eq_self.2 hkeys] at hdistinct
    rw [List.map_map]
    exact hdistinct
  refine ⟨?_, rfl, ?_⟩
  · rw [Session.ofSnapshot, hid, String.ofList_toList]
  · have hread : Metadata.ofDict (e.metadata.map fun m => (m.1, PyValue.ofJson m.2)) =
        Metadata.ofItems (e.metadata.map fun m => (m.1, sortKeys m.2)) := by
      rw [Metadata.ofDict, List.map_map]
      exact congrArg _ (List.map_congr_left fun m _ => by
        rw [Function.comp_apply, PyValue.toJson_ofJson])
    rw [Session.ofSnapshot, hread, ← hs.metadata, Metadata.ofDict]
    exact (Metadata.ofItems_perm hnodup (GossipEnvelope.items_perm hB hs.plain halike)).symm

/-- What a replica signs carries the session it signs. -/
theorem carries_of_fromSession {env : EndEnv K} {replicaId : String} {s : Session K}
    (h : SignedPlainly C env replicaId s) {o : Outgoing}
    (ho : Outgoing.fromSession C.serialize C.builtins C.hmac (GossipEnd.sending env replicaId)
      (env.held s).toSessionSnapshot = .ok o) : o.Carries C s := by
  unfold Outgoing.fromSession at ho
  cases hsig : (Outgoing.unsigned C.serialize (GossipEnd.sending env replicaId)
      (env.held s).toSessionSnapshot).sign C.builtins C.hmac with
  | error exc => simp [hsig, bind, Except.bind] at ho
  | ok signature =>
    simp only [hsig, bind, Except.bind, pure, Except.pure, Except.ok.injEq] at ho
    subst ho
    have hplain := h.plain
    exact {
      plain := ⟨hplain.texts, hplain.keys, hplain.distinct, hplain.worded⟩
      sessionId := h.stands.sessionId
      knowledgeStructureJson := congrArg C.serialize h.stands.knowledgeStructure
      metadata := h.stands.metadata }

end CksRuntime
