import CksRuntime.Gossip.Envelope
import Mathlib.Data.List.Sort

/-!
# What the signature tells apart

The payload tells its parts (`parts_inj`): none of them holds the separator, the metadata because
its text is printable. A part tells what it was made from, but for what `SignedAlike` leaves open.
So a change that keeps the signature goes unseen if and only if it is of that kind.
-/

set_option autoImplicit false

namespace CksRuntime

open JsonText

namespace GossipEnvelope

section
variable {B : Builtins} {hmac : Text → Text} {e e' : GossipEnvelope}

/-! ## The parts -/

theorem parts_eq_ok {ps : List Text} (h : e.parts B = .ok ps) : ∃ ms a b,
    B.listing e.metadata = .ok ms ∧ orEmpty e.parentSessionId = .ok a ∧
    orEmpty e.parentVersionId = .ok b ∧ ps = [e.senderReplicaId, e.sessionId,
      e.knowledgeStructureJson, write (.object ms), a, b, e.nonce, intText e.seqNo,
      intText e.timestampMs] := by
  unfold parts Builtins.dumps at h
  cases hms : B.listing e.metadata with
  | error => simp [hms, Except.map, bind, Except.bind] at h
  | ok ms =>
    cases ha : orEmpty e.parentSessionId with
    | error => simp [hms, ha, Except.map, bind, Except.bind] at h
    | ok a =>
      cases hb : orEmpty e.parentVersionId with
      | error => simp [hms, ha, hb, Except.map, bind, Except.bind] at h
      | ok b =>
        refine ⟨ms, a, b, rfl, rfl, rfl, ?_⟩
        simpa [hms, ha, hb, Except.map, bind, Except.bind, pure, Except.pure, eq_comm] using h

theorem orEmpty_eq_ok {x : Json} {s : Text} (h : orEmpty x = .ok s) :
    x = .string s ∨ truthy x = false ∧ s = [] := by
  unfold orEmpty at h
  split at h
  · exact .inl (by rw [Except.ok.inj h])
  · split at h
    · cases h
    · rename_i hx
      exact .inr ⟨by simpa using hx, (Except.ok.inj h).symm⟩

theorem truthy_string_nil : truthy (.string []) = false := by decide

theorem sameOrFalsy_of_orEmpty {x x' : Json} {s : Text} (h : orEmpty x = .ok s)
    (h' : orEmpty x' = .ok s) : SameOrFalsy x x' := by
  obtain rfl | ⟨hx, rfl⟩ := orEmpty_eq_ok h
  · obtain rfl | ⟨hx', rfl⟩ := orEmpty_eq_ok h'
    · exact .inl rfl
    · exact .inr ⟨truthy_string_nil, hx'⟩
  · obtain rfl | ⟨hx', -⟩ := orEmpty_eq_ok h'
    · exact .inr ⟨hx, truthy_string_nil⟩
    · exact .inr ⟨hx, hx'⟩

theorem orEmpty_of_falsy {x : Json} (h : truthy x = false) : orEmpty x = .ok [] := by
  unfold orEmpty
  split
  · rename_i s
    simp only [truthy, ne_eq, decide_not, Bool.not_eq_eq_eq_not, Bool.not_false,
      decide_eq_true_eq] at h
    rw [h]
  · simp [h]

theorem SameOrFalsy.orEmpty_eq {x x' : Json} (h : SameOrFalsy x x') : orEmpty x = orEmpty x' := by
  obtain rfl | ⟨hx, hx'⟩ := h
  · rfl
  · rw [orEmpty_of_falsy hx, orEmpty_of_falsy hx']

/-- The parts tell all but what `SignedAlike` leaves open. -/
theorem signedAlike_of_parts {ps : List Text} (h : e.parts B = .ok ps) (h' : e'.parts B = .ok ps) :
    SignedAlike B e e' := by
  obtain ⟨ms, a, b, hms, ha, hb, hps⟩ := parts_eq_ok h
  obtain ⟨ms', a', b', hms', ha', hb', hps'⟩ := parts_eq_ok h'
  rw [hps] at hps'
  simp only [List.cons.injEq, and_true] at hps'
  obtain ⟨hsender, hsession, hstructure, hmetadata, haa, hbb, hnonce, hseq, hts⟩ := hps'
  subst haa hbb
  have hmembers : ms = ms' := Json.object.inj (write_injective hmetadata)
  exact {
    senderReplicaId := hsender
    sessionId := hsession
    knowledgeStructureJson := hstructure
    metadata := by rw [hms, hms', hmembers]
    parentSessionId := sameOrFalsy_of_orEmpty ha ha'
    parentVersionId := sameOrFalsy_of_orEmpty hb hb'
    nonce := hnonce
    seqNo := intText_injective hseq
    timestampMs := intText_injective hts }

theorem SignedAlike.payload_eq (h : SignedAlike B e e') : e.payload B = e'.payload B := by
  simp only [payload, parts, Builtins.dumps, h.senderReplicaId, h.sessionId,
    h.knowledgeStructureJson, h.metadata, h.parentSessionId.orEmpty_eq,
    h.parentVersionId.orEmpty_eq, h.nonce, h.seqNo, h.timestampMs]

/-! ## The payload -/

theorem separator_notMem_write (x : Json) : SIGNING_SEPARATOR ∉ write x := fun h =>
  absurd (write_printable x _ h) (by decide)

theorem separator_notMem_intText (n : Int) : SIGNING_SEPARATOR ∉ intText n := fun h => by
  obtain h | h := intText_chars h
  · exact absurd h (by decide)
  · exact absurd h (by decide)

theorem separator_notMem_orEmpty {x : Json} {s : Text} (h : orEmpty x = .ok s)
    (hx : ∀ s ∈ stringsOf x, SIGNING_SEPARATOR ∉ s) : SIGNING_SEPARATOR ∉ s := by
  obtain rfl | ⟨-, rfl⟩ := orEmpty_eq_ok h
  · exact hx s (List.mem_singleton_self s)
  · exact List.not_mem_nil

theorem separator_notMem_parts {ps : List Text} (h : e.parts B = .ok ps)
    (hfields : ∀ s ∈ e.stringFields, SIGNING_SEPARATOR ∉ s) : ∀ s ∈ ps, SIGNING_SEPARATOR ∉ s := by
  obtain ⟨ms, a, b, -, ha, hb, rfl⟩ := parts_eq_ok h
  simp only [stringFields, List.mem_append, List.mem_cons, List.not_mem_nil, or_false] at hfields
  have hpa := separator_notMem_orEmpty ha fun s hs => hfields s (.inl (.inr hs))
  have hpb := separator_notMem_orEmpty hb fun s hs => hfields s (.inr hs)
  intro s hs
  simp only [List.mem_cons, List.not_mem_nil, or_false] at hs
  obtain rfl | rfl | rfl | rfl | rfl | rfl | rfl | rfl | rfl := hs
  · exact hfields _ (by simp)
  · exact hfields _ (by simp)
  · exact hfields _ (by simp)
  · exact separator_notMem_write _
  · exact hpa
  · exact hpb
  · exact hfields _ (by simp)
  · exact separator_notMem_intText _
  · exact separator_notMem_intText _

/-- The payload tells its parts. -/
theorem parts_inj {ps ps' : List Text} (h : e.parts B = .ok ps) (h' : e'.parts B = .ok ps')
    (hfields : ∀ s ∈ e.stringFields ++ e'.stringFields, SIGNING_SEPARATOR ∉ s)
    (heq : [SIGNING_SEPARATOR].intercalate ps = [SIGNING_SEPARATOR].intercalate ps') :
    ps = ps' := by
  have hps := separator_notMem_parts h fun s hs => hfields s (List.mem_append_left _ hs)
  have hps' := separator_notMem_parts h' fun s hs => hfields s (List.mem_append_right _ hs)
  have hne : ps ≠ [] := by
    obtain ⟨_, _, _, -, -, -, rfl⟩ := parts_eq_ok h
    exact List.cons_ne_nil _ _
  have hne' : ps' ≠ [] := by
    obtain ⟨_, _, _, -, -, -, rfl⟩ := parts_eq_ok h'
    exact List.cons_ne_nil _ _
  rw [← List.splitOn_intercalate SIGNING_SEPARATOR hps hne, heq,
    List.splitOn_intercalate SIGNING_SEPARATOR hps' hne']

theorem payload_eq_ok {p : Text} (h : e.payload B = .ok p) :
    ∃ ps, e.parts B = .ok ps ∧ [SIGNING_SEPARATOR].intercalate ps = p := by
  unfold payload at h
  cases hps : e.parts B with
  | error => simp [hps, Except.map] at h
  | ok ps => exact ⟨ps, rfl, by simpa [hps, Except.map] using h⟩

theorem signedAlike_of_payload {p : Text} (h : e.payload B = .ok p) (h' : e'.payload B = .ok p)
    (hfields : ∀ s ∈ e.stringFields ++ e'.stringFields, SIGNING_SEPARATOR ∉ s) :
    SignedAlike B e e' := by
  obtain ⟨ps, hps, hp⟩ := payload_eq_ok h
  obtain ⟨ps', hps', hp'⟩ := payload_eq_ok h'
  have heq := parts_inj hps hps' hfields (hp.trans hp'.symm)
  exact signedAlike_of_parts hps (heq ▸ hps')

/-! ## Verification -/

theorem verify_eq_true (h : e.verify B hmac = .ok true) :
    ∃ p, e.payload B = .ok p ∧ hmac p = e.signature := by
  unfold verify sign at h
  split at h
  · simp at h
  · cases hp : e.payload B with
    | error => simp [hp, Except.map, bind, Except.bind] at h
    | ok p =>
      refine ⟨p, rfl, ?_⟩
      simp only [hp, Except.map, bind, Except.bind, compareDigest] at h
      split at h
      · simpa using h
      · cases h

theorem SignedAlike.verify_eq (h : SignedAlike B e e') (hsig : e.signature = e'.signature) :
    e.verify B hmac = e'.verify B hmac := by
  simp only [verify, sign, h.payload_eq, hsig]

/-- Two envelopes with one signature verify together if and only if they are signed alike. -/
theorem verify_iff_signedAlike (hsig : e.signature = e'.signature)
    (hver : e.verify B hmac = .ok true)
    (hfields : ∀ s ∈ e.stringFields ++ e'.stringFields, SIGNING_SEPARATOR ∉ s)
    (hinj : ∀ p p', e.payload B = .ok p → e'.payload B = .ok p' → hmac p = hmac p' → p = p') :
    e'.verify B hmac = .ok true ↔ SignedAlike B e e' := by
  constructor
  · intro hver'
    obtain ⟨p, hp, hmac_p⟩ := verify_eq_true hver
    obtain ⟨p', hp', hmac_p'⟩ := verify_eq_true hver'
    have heq := hinj p p' hp hp' (by rw [hmac_p, hmac_p', hsig])
    exact signedAlike_of_payload hp (heq ▸ hp') hfields
  · intro halike
    rw [← halike.verify_eq hsig]
    exact hver

end

theorem listing_perm {B : Builtins} {m : EnvelopeMetadata} (h : ∀ x ∈ m, x.1.isString) :
    ∃ ms, B.listing m = .ok ms ∧
      (ms.map fun x => (Key.string x.1, x.2)).Perm (m.map fun x => (x.1, sortKeys x.2)) := by
  have hall : m.all (·.1.isString) := List.all_eq_true.2 h
  refine ⟨_, by rw [Builtins.listing, Builtins.sortItems, if_pos hall]; rfl, ?_⟩
  rw [List.map_map]
  refine .trans ((List.mergeSort_perm _ _).map _) (.of_eq (List.map_congr_left ?_))
  intro x hx
  obtain ⟨k, v⟩ := x
  cases k with
  | string s => rfl
  | atom a => exact absurd (h _ hx) (by simp [Key.isString])

/-! ## What a receiver lets through -/

/-- A change goes unseen exactly if it is of the kind that is signed alike. -/
theorem change_rejected_iff {B : Builtins} {hmac : Text → Text} (e e' : Parsed B)
    (hsig : e.signature = e'.signature) (hver : e.verify B hmac = .ok true)
    (hfields : ∀ s ∈ e.stringFields ++ e'.stringFields, SIGNING_SEPARATOR ∉ s)
    (hinj : ∀ p p', e.payload B = .ok p → e'.payload B = .ok p' → hmac p = hmac p' → p = p') :
    (¬SameContent e.toGossipEnvelope e'.toGossipEnvelope → e'.verify B hmac ≠ .ok true) ↔
      (¬SameContent e.toGossipEnvelope e'.toGossipEnvelope →
        ¬SignedAlike B e.toGossipEnvelope e'.toGossipEnvelope) := by
  have hiff := verify_iff_signedAlike hsig hver hfields hinj
  constructor
  · intro h hdiffer halike
    exact h hdiffer (hiff.2 halike)
  · intro h hdiffer hver'
    exact h hdiffer (hiff.1 hver')

/-- Builtins that take nothing but what `to_dict` writes. -/
def strictBuiltins : Builtins where
  str _ := []
  int _ := .error .typeError
  dict _ := .error .typeError
  sorted _ := .error .typeError

/-- A snapshot on the wire. -/
def message (parentVersionId : Json) (nonce signature : Text) : List (Text × Json) :=
  [("sender_replica_id".toList, .string ['a']), ("session_id".toList, .string ['s']),
    ("knowledge_structure_json".toList, .string "\x7b\x7d".toList),
    ("metadata".toList, .object [(['k'], .atom (.int 1))]),
    ("parent_session_id".toList, .atom .null), ("parent_version_id".toList, parentVersionId),
    ("nonce".toList, .string nonce), ("seq_no".toList, .atom (.int 7)),
    ("timestamp_ms".toList, .atom (.int 9)), ("signature".toList, .string signature)]

/-- An envelope with one entry of metadata, as it arrives. -/
def received (parentVersionId : Json) (nonce signature : Text) : Parsed strictBuiltins where
  senderReplicaId := ['a']
  sessionId := ['s']
  knowledgeStructureJson := "\x7b\x7d".toList
  metadata := [(.string ['k'], .atom (.int 1))]
  parentSessionId := .atom .null
  parentVersionId := parentVersionId
  nonce := nonce
  seqNo := 7
  timestampMs := 9
  signature := signature
  data := message parentVersionId nonce signature
  parsed := rfl

/-- What is signed where there is no parent. -/
def signedText (nonce : Text) : Text :=
  "a\x1fs\x1f\x7b\x7d\x1f\x7b\"k\": 1\x7d\x1f\x1f\x1f".toList ++ nonce ++ "\x1f7\x1f9".toList

theorem received_payload {parentVersionId : Json} (h : truthy parentVersionId = false)
    (nonce signature : Text) :
    (received parentVersionId nonce signature).payload strictBuiltins = .ok (signedText nonce) := by
  have hlisting : strictBuiltins.listing [(.string ['k'], .atom (.int 1))] =
      .ok [(['k'], .atom (.int 1))] := by
    simp [Builtins.listing, Builtins.sortItems, Key.isString, Key.text, Except.map, sortKeys]
  have hdumps : strictBuiltins.dumps [(.string ['k'], .atom (.int 1))] =
      .ok "\x7b\"k\": 1\x7d".toList := by
    rw [Builtins.dumps, hlisting]
    rfl
  have hempty := orEmpty_of_falsy h
  simp only [payload, parts, received, hdumps, hempty]
  rfl

/-- The digest of `signedText ['n']` under the secret `b"secret"`. -/
def digest : Text := "08d253fb23d46a7db22959d0a74c5b8a9eb69f8b593a09467c8725bde9ed9a0c".toList

/-- HMAC-SHA256 under that secret on the two texts at hand. -/
def hmacSecret (payload : Text) : Text :=
  if payload = signedText ['n'] then digest
  else if payload = signedText ['m'] then
    "4753ac45e6ae35f2894b4e2fbae953e3827889c5f1a9f07d48b6d3b71ca98920".toList
  else 'x' :: payload

theorem digests_ne : digest ≠
    "4753ac45e6ae35f2894b4e2fbae953e3827889c5f1a9f07d48b6d3b71ca98920".toList := by
  decide

theorem hmacSecret_injective : Function.Injective hmacSecret := by
  intro p q h
  unfold hmacSecret at h
  split at h
  · rename_i hp
    split at h
    · rename_i hq
      rw [hp, hq]
    · split at h
      · exact absurd h digests_ne
      · exact absurd (List.cons.inj h).1 (by decide)
  · split at h
    · rename_i hp
      split at h
      · exact absurd h.symm digests_ne
      · split at h
        · rename_i hq
          rw [hp, hq]
        · exact absurd (List.cons.inj h).1 (by decide)
    · split at h
      · exact absurd (List.cons.inj h).1 (by decide)
      · split at h
        · exact absurd (List.cons.inj h).1 (by decide)
        · exact (List.cons.inj h).2

theorem separator_notMem_received (parentVersionId : Json) (nonce : Text)
    (hparent : ∀ s ∈ stringsOf parentVersionId, SIGNING_SEPARATOR ∉ s)
    (hnonce : SIGNING_SEPARATOR ∉ nonce) :
    ∀ s ∈ (received parentVersionId nonce digest).stringFields, SIGNING_SEPARATOR ∉ s := by
  have hsender : SIGNING_SEPARATOR ∉ ['a'] := by decide
  have hsession : SIGNING_SEPARATOR ∉ ['s'] := by decide
  have hstructure : SIGNING_SEPARATOR ∉ "\x7b\x7d".toList := by decide
  have hdigest : SIGNING_SEPARATOR ∉ digest := by decide
  have hversion : SIGNING_SEPARATOR ∉ GOSSIP_ENVELOPE_VERSION := by decide
  simp only [stringFields, received, stringsOf, List.forall_mem_append, List.forall_mem_cons]
  exact ⟨⟨⟨hsender, hsession, hstructure, hnonce, hdigest, hversion, nofun⟩, nofun⟩, hparent⟩

theorem received_verify {parentVersionId : Json} (h : truthy parentVersionId = false) :
    (received parentVersionId ['n'] digest).verify strictBuiltins hmacSecret = .ok true := by
  have hsign : (received parentVersionId ['n'] digest).sign strictBuiltins hmacSecret =
      .ok digest := by
    rw [sign, received_payload h]
    rfl
  rw [verify, hsign]
  rfl

theorem change_rejected_nonce :
    (received (.atom .null) ['m'] digest).verify strictBuiltins hmacSecret ≠ .ok true := by
  have hnonce : ['n'] ≠ ['m'] := by decide
  have hfields := List.forall_mem_append.2
    ⟨separator_notMem_received (.atom .null) ['n'] nofun (by decide),
      separator_notMem_received (.atom .null) ['m'] nofun (by decide)⟩
  have hiff := change_rejected_iff (received (.atom .null) ['n'] digest)
    (received (.atom .null) ['m'] digest) rfl (received_verify rfl) hfields
    fun p p' _ _ heq => hmacSecret_injective heq
  exact hiff.2 (fun _ halike => hnonce halike.nonce) fun hsame => hnonce hsame.nonce

/-- A parent id `null` made the empty string goes unseen. -/
theorem empty_parent_unseen : ¬∀ hmac : Text → Text, Function.Injective hmac →
    ∀ e e' : Parsed strictBuiltins, e.signature = e'.signature →
      (∀ s ∈ e.stringFields ++ e'.stringFields, SIGNING_SEPARATOR ∉ s) →
      e.verify strictBuiltins hmac = .ok true →
      ¬SameContent e.toGossipEnvelope e'.toGossipEnvelope →
      e'.verify strictBuiltins hmac ≠ .ok true := by
  intro hclaim
  have hfields := List.forall_mem_append.2
    ⟨separator_notMem_received (.atom .null) ['n'] nofun (by decide),
      separator_notMem_received (.string []) ['n'] (by decide) (by decide)⟩
  apply hclaim hmacSecret hmacSecret_injective (received (.atom .null) ['n'] digest)
    (received (.string []) ['n'] digest) rfl hfields (received_verify rfl)
  · intro hsame
    exact absurd hsame.parentVersionId nofun
  · exact received_verify rfl

end GossipEnvelope

end CksRuntime
