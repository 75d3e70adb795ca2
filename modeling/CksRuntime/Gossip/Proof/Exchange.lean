import CksRuntime.Gossip.Exchange
import CksRuntime.Gossip.Proof.Network
import CksRuntime.Pipeline.Proof.Results

/-!
# An exchange over HTTP is one in process

What arrives of a session lacks its history, which `apply_remote_session` reads only for the
operations that its versions have in the log of the replica (`LogsApart`). Where there are none, a
session that arrives does what the session itself does (`apply_eq`), and an exchange over HTTP
leaves both adapters as `gossip_exchange` does.
-/

set_option autoImplicit false

namespace CksRuntime

open JsonText Effect

variable {K : Core}

/-- Of the versions of a session, none has an operation in the log under the session's id. -/
def LogsApart (storage : Storage K) (s : Session K) : Prop :=
  ∀ l ∈ storage.operationLog, l.sessionId = s.sessionId →
    ∀ v ∈ s.versionHistory, l.operation.versionId ≠ some v.versionId

/-- The sessions differ in their history and in what is no part of a snapshot. -/
structure SameSnapshot (s s' : Session K) : Prop where
  sessionId : s.sessionId = s'.sessionId
  knowledgeStructure : s.knowledgeStructure = s'.knowledgeStructure
  metadata : s.metadata = s'.metadata
  parentVersionId : s.parentVersionId = s'.parentVersionId

theorem SameSnapshot.vector {s s' : Session K} (h : SameSnapshot s s') : s.vector = s'.vector :=
  congrArg VersionVector.fromMetadata h.metadata

/-! ## The merge -/

theorem opsSince_eq_nil {storage : Storage K} {s : Session K} (h : LogsApart storage s)
    {versions : List String} (hv : ∀ v ∈ versions, v ∈ s.versionHistory.map (·.versionId))
    (objectId : String) : opsSince storage s objectId versions = [] := by
  refine List.filter_eq_nil_iff.2 fun op hop hver => ?_
  obtain ⟨l, hl, rfl⟩ := List.mem_map.1 hop
  obtain ⟨hl, hid⟩ := List.mem_filter.1 hl
  simp only [Bool.and_eq_true, beq_iff_eq] at hid
  cases hop : l.operation.versionId with
  | none =>
    rw [hop] at hver
    cases hver
  | some v =>
    rw [hop] at hver
    obtain ⟨version, hmem, rfl⟩ := List.mem_map.1 (hv v (of_decide_eq_true hver))
    exact h l hl hid.1 version hmem hop

/-- The base that a source names is in its history or is its own fork point. -/
theorem versionsSince_parent {s : Session K} {base : String} (h : s.parentVersionId = some base) :
    ∃ versions, versionsSince base s = some versions ∧
      ∀ v ∈ versions, v ∈ s.versionHistory.map (·.versionId) := by
  unfold versionsSince
  dsimp only
  split
  · exact ⟨_, rfl, fun v hv => List.mem_of_mem_drop hv⟩
  · exact ⟨_, rfl, fun v hv => hv⟩

section
variable {storage : Storage K} {remote remote' : Session K} (h : SameSnapshot remote remote')
  (hlog : LogsApart storage remote) (hlog' : LogsApart storage remote')
include h hlog hlog'

theorem fieldLevelResolutions_eq (conflicts : List (MergeConflict K.Obj)) (session : Session K)
    {base : Option String} (hbase : ∀ b ∈ base, remote.parentVersionId = some b) :
    fieldLevelResolutions storage conflicts session remote base =
      fieldLevelResolutions storage conflicts session remote' base := by
  unfold fieldLevelResolutions
  cases base with
  | none => rfl
  | some b =>
    have hb := hbase b rfl
    obtain ⟨versions, hv, hmem⟩ := versionsSince_parent hb
    obtain ⟨versions', hv', hmem'⟩ := versionsSince_parent (h.parentVersionId.symm.trans hb)
    cases K.synthesizeMerge with
    | none => rfl
    | some synthesize =>
      dsimp only
      rw [hv, hv']
      cases versionsSince b session with
      | none => rfl
      | some own => simp only [opsSince_eq_nil hlog hmem, opsSince_eq_nil hlog' hmem']

theorem threeWay_eq (operationId : String) (session : Session K) :
    MergeArgs.threeWay { sourceSession := some remote } operationId storage remote session =
      MergeArgs.threeWay { sourceSession := some remote' } operationId storage remote' session := by
  have hresolve : MergeArgs.resolveBase { sourceSession := some remote } remote session =
      MergeArgs.resolveBase { sourceSession := some remote' } remote' session := by
    unfold MergeArgs.resolveBase
    rw [h.parentVersionId]
  unfold MergeArgs.threeWay
  rw [← hresolve, ← h.knowledgeStructure]
  cases hr : MergeArgs.resolveBase { sourceSession := some remote } remote session with
  | error exc => rfl
  | ok r =>
    obtain ⟨base, baseVersionId⟩ := r
    have hbase : ∀ b ∈ baseVersionId, remote.parentVersionId = some b := by
      unfold MergeArgs.resolveBase at hr
      dsimp only at hr
      rw [Option.none_or] at hr
      intro b hb
      cases hp : remote.parentVersionId with
      | none =>
        rw [hp] at hr
        cases hr
      | some b' =>
        rw [hp] at hr
        dsimp only at hr
        split_ifs at hr with hempty
        · cases hr
          exact hb
        · cases hs : session.getVersionState b' with
          | error exc =>
            rw [hs] at hr
            cases hr
          | ok state =>
            rw [hs] at hr
            cases hr
            exact hb
    dsimp only
    simp only [fieldLevelResolutions_eq h hlog hlog' _ session hbase]

theorem sameResult_merge : Pipeline.SameResult storage (GossipAdapter.mergeOperation remote)
    (GossipAdapter.mergeOperation remote') where
  operationId := rfl
  mutatesState := rfl
  execute session := by
    change MergeArgs.execute { sourceSession := some remote } "gossip-merge" storage session =
      MergeArgs.execute { sourceSession := some remote' } "gossip-merge" storage session
    unfold MergeArgs.execute
    dsimp only
    rw [← h.vector, ← h.knowledgeStructure, threeWay_eq h hlog hlog']

end

/-! ## Applying a snapshot -/

theorem onSession_eq {α : Type} {call : PipelineM K α} {sessionId : String} {s : Session K}
    {tx tx' : Transaction K} {n : Node K}
    (h : through Ctx.besides (call ⟨s, tx, n.shared⟩) =
      through Ctx.besides (call ⟨s, tx', n.shared⟩)) :
    Runtime.onSession sessionId s tx call n = Runtime.onSession sessionId s tx' call n := by
  unfold Runtime.onSession
  cases hc : call ⟨s, tx, n.shared⟩ with
  | ok a c =>
    cases hc' : call ⟨s, tx', n.shared⟩ with
    | ok a' c' =>
      rw [hc, hc'] at h
      injection h with ha hctx
      dsimp only
      rw [ha, Ctx.session_of_besides hctx, Ctx.shared_of_besides hctx]
    | error exc' c' =>
      rw [hc, hc'] at h
      cases h
  | error exc c =>
    cases hc' : call ⟨s, tx', n.shared⟩ with
    | ok a' c' =>
      rw [hc, hc'] at h
      cases h
    | error exc' c' =>
      rw [hc, hc'] at h
      injection h with hexc hctx
      dsimp only
      rw [hexc, Ctx.session_of_besides hctx, Ctx.shared_of_besides hctx]

namespace GossipAdapter

variable (env : GossipEnv K)

theorem commitTransaction_eq (s : Session K) {op op' : Operation K} {n : Node K}
    (h : Pipeline.SameResult n.shared.storage op op') :
    commitTransaction env s [op] n = commitTransaction env s [op'] n := by
  rw [commitTransaction_run, commitTransaction_run]
  split
  · rfl
  · exact onSession_eq (Pipeline.commit_eq (commitEnv env n.replicaId) h rfl rfl rfl rfl)

section
variable {remote remote' : Session K} (h : SameSnapshot remote remote')
include h

theorem registerConflictBranch_eq (s : Session K) :
    registerConflictBranch env s remote = registerConflictBranch env s remote' := by
  unfold registerConflictBranch
  rw [h.knowledgeStructure, h.parentVersionId]

theorem escalate_eq (s : Session K) {probe probe' : ExecutionResult K}
    (hprobe : probe.error = probe'.error) :
    escalate env s remote probe = escalate env s remote' probe' := by
  unfold escalate conflictsOf
  rw [h.sessionId, h.vector, hprobe, registerConflictBranch_eq env h]

theorem merge_eq (s : Session K) {a : Adapter K} (hlog : LogsApart a.node.shared.storage remote)
    (hlog' : LogsApart a.node.shared.storage remote') :
    merge env s remote a = merge env s remote' a := by
  have hsame := sameResult_merge h hlog hlog'
  have hexec := hsame.executor s
  rw [merge, merge, bind_get_run, bind_get_run]
  rw [hexec]
  cases OperationExecutor.execute (mergeOperation remote) a.node.shared.storage s with
  | mk probe s' =>
    dsimp only
    rw [bind_run, bind_run, runtime_run, Runtime.register_run]
    dsimp only
    split
    · exact congrFun (escalate_eq env h s' rfl) _
    · rw [h.sessionId]
      unfold resolved
      rw [bind_run, bind_run, runtime_run, runtime_run]
      dsimp only
      rw [commitTransaction_eq env s' (n := a.node.registered s') hsame]

theorem reconcile_eq (s : Session K) {a : Adapter K}
    (hlog : LogsApart a.node.shared.storage remote)
    (hlog' : LogsApart a.node.shared.storage remote') :
    reconcile env s remote a = reconcile env s remote' a := by
  have habsorbed : absorbed s remote = absorbed s remote' := by
    unfold absorbed
    rw [h.vector]
  have hvector : absorbVector env s remote = absorbVector env s remote' := by
    unfold absorbVector
    rw [habsorbed, h.vector]
  have hforward : fastForward env s remote = fastForward env s remote' := by
    unfold fastForward fastForwardOperation
    rw [habsorbed, h.knowledgeStructure]
  unfold reconcile
  rw [← h.knowledgeStructure, ← h.vector, ← h.sessionId, ← hvector, ← hforward]
  split
  · rfl
  · split
    · rfl
    · split
      · rfl
      · exact merge_eq env h s hlog hlog'

/-- A session that the replica tracks. -/
theorem apply_eq {a : Adapter K} (hs : (a.node.sessions remote.sessionId).isSome)
    (hlog : LogsApart a.node.shared.storage remote)
    (hlog' : LogsApart a.node.shared.storage remote') :
    applyRemoteSession env remote a = applyRemoteSession env remote' a := by
  obtain ⟨s, hs⟩ := Option.isSome_iff_exists.1 hs
  have hdup : duplicateIdDetected a.replicaId s remote ↔
      duplicateIdDetected a.replicaId s remote' := by
    unfold duplicateIdDetected
    rw [h.vector, h.knowledgeStructure]
  have hreport : reportDuplicateId env s remote = reportDuplicateId env s remote' := by
    unfold reportDuplicateId
    rw [h.sessionId, h.vector]
  have hreconcile := reconcile_eq env h s (a := { a with
    pendingDuplicateIds := Function.update a.pendingDuplicateIds remote.sessionId ∅ }) hlog hlog'
  rw [apply_run, apply_run, ← h.sessionId, hs]
  cases env.crdtFault with
  | some exc => rfl
  | none =>
    dsimp only [Option.elim]
    rw [← hreport, ← hreconcile]
    simp only [← hdup]

end

end GossipAdapter

/-! ## A session that arrives -/

/-- A session as Python holds it, all of whose keys are strings. -/
structure HeldPlainly (env : EndEnv K) (s : Session K) : Prop where
  stands : Stands (env.held s) s
  keys : PyValue.StringKeys (.dict (env.held s).metadata)

theorem parentOf_ofParent (p : Option String) :
    parentOf (ofParent (p.map String.toList)) = p := by
  cases p with
  | none => rfl
  | some id => exact congrArg some String.ofList_toList

/-- What the filter of one end is asked about an envelope of the other's. -/
def filterCallOf (receiving sending : EndEnv K) (replicaId : String) : GossipFilter.Call where
  senderReplicaId := replicaId.toList
  nonce := some sending.nonce
  seqNo := some (some sending.seqNo)
  timestampMs := some (some sending.timestampMs)
  nowMs := receiving.nowMs

/-- What is signed of a session arrives, verifies and is taken for the session. -/
structure Arrived (C : GossipCodec K) (env : EndEnv K) (replicaId : String) (s : Session K)
    (o : Outgoing) (received : SessionSnapshot K.Structure Json) : Prop where
  sessionId : o.arrived.sessionId = s.sessionId.toList
  carried : GossipTransport.carried o = some (.object o.data)
  fromDict : GossipEnd.fromDict C (.object o.data) = .ok o.arrived
  verify : o.arrived.verify C.builtins C.hmac = .ok true
  filterCall : ∀ receiving : EndEnv K,
    GossipEnd.filterCall receiving o.arrived = filterCallOf receiving env replicaId
  toSession : o.arrived.toSession C.parse = some received
  same : SameSnapshot (Session.ofSnapshot received) s

theorem sign_arrived {C : GossipCodec K} (hparse : ∀ x, C.parse (C.serialize x) = some x)
    (hhex : ∀ p, GossipEnvelope.IsHexDigest (C.hmac p)) {env : EndEnv K} {s : Session K}
    (hs : HeldPlainly env s) (x : GossipEnd K) : ∃ o received, GossipEnd.sign C env s x = .ok o x ∧
      Arrived C env x.adapter.replicaId s o received := by
  let unsigned := Outgoing.unsigned C.serialize (GossipEnd.sending env x.adapter.replicaId)
    (env.held s).toSessionSnapshot
  obtain ⟨p, hp, hp'⟩ := Outgoing.payload_arrived (B := C.builtins) (e := unsigned) hs.keys
    (env.held s).distinct
  let o : Outgoing := { unsigned with signature := C.hmac p }
  have hfrom : Outgoing.fromSession C.serialize C.builtins C.hmac
      (GossipEnd.sending env x.adapter.replicaId) (env.held s).toSessionSnapshot = .ok o := by
    rw [Outgoing.fromSession, Outgoing.sign, hp]
    rfl
  have hmetadata : o.received = (env.held s).metadata :=
    Outgoing.received_eq (e := o) hs.keys (env.held s).distinct
  have hstructure : C.parse o.knowledgeStructureJson = some (env.held s).knowledgeStructure :=
    hparse _
  have hto := Outgoing.toSession_arrived C.parse o
  rw [hstructure, hmetadata] at hto
  refine ⟨o, _, ?_, hs.stands.sessionId, o.loads_toDict, ?_,
    GossipEnvelope.verify_of_payload hhex hp' rfl, fun _ => rfl, hto, ?_⟩
  · rw [GossipEnd.sign_run, hfrom]
  · exact congrArg (Except.mapError GossipExc.wire) o.fromDict_data
  · exact {
      sessionId := by
        change String.ofList (env.held s).sessionId = s.sessionId
        rw [hs.stands.sessionId, String.ofList_toList]
      knowledgeStructure := hs.stands.knowledgeStructure
      metadata := hs.stands.metadata
      parentVersionId := by
        change parentOf (ofParent (env.held s).parentVersionId) = s.parentVersionId
        rw [hs.stands.parentVersionId, parentOf_ofParent] }

theorem logsApart_ofSnapshot (storage : Storage K) (received : SessionSnapshot K.Structure Json) :
    LogsApart storage (Session.ofSnapshot received) :=
  fun _ _ _ _ hv => absurd hv List.not_mem_nil

/-- The session that arrives does at an end that tracks it what the session itself does. -/
theorem Arrived.apply {C : GossipCodec K} {env : EndEnv K} {replicaId : String} {s : Session K}
    {o : Outgoing} {received : SessionSnapshot K.Structure Json}
    (h : Arrived C env replicaId s o received) (receiving : EndEnv K) {x : GossipEnd K}
    (hs : (x.adapter.node.sessions s.sessionId).isSome)
    (hlog : LogsApart x.adapter.node.shared.storage s) :
    GossipEnd.apply C receiving o.arrived x =
      GossipEnd.onAdapter (GossipAdapter.applyRemoteSession receiving.adapter s) x := by
  have heq := GossipAdapter.apply_eq receiving.adapter h.same (a := x.adapter)
    (by rw [h.same.sessionId]; exact hs) (logsApart_ofSnapshot _ _) hlog
  unfold GossipEnd.apply
  rw [h.toSession]
  unfold GossipEnd.onAdapter
  dsimp only
  rw [heq]

/-! ## The exchange -/

section
variable {C : GossipCodec K} {env : EndEnv K} {replicaId : String} {s : Session K}
  {o : Outgoing} {received : SessionSnapshot K.Structure Json}
  (h : Arrived C env replicaId s o received) {receiving : EndEnv K} {x : GossipEnd K}
  (hcheck : (x.filter.check (filterCallOf receiving env replicaId)).1 = true)
  (hs : (x.adapter.node.sessions s.sessionId).isSome)
  (hlog : LogsApart x.adapter.node.shared.storage s)
include h hcheck hs hlog

/-- A request with the session: it is applied, and answered. -/
theorem handleGossip_arrived :
    GossipServer.handleGossip C receiving ⟨o.sessionId, GossipTransport.carried o⟩ x =
      (GossipEnd.onAdapter (GossipAdapter.applyRemoteSession receiving.adapter s) >>= fun _ =>
        GossipServer.reply C receiving s.sessionId.toList)
        { x with filter := (x.filter.check (filterCallOf receiving env replicaId)).2 } := by
  have happly := h.apply receiving (x := { x with
    filter := (x.filter.check (filterCallOf receiving env replicaId)).2 }) hs hlog
  rw [GossipServer.handleGossip, h.carried]
  dsimp only
  rw [h.fromDict]
  dsimp only
  have hid : o.arrived.sessionId = o.sessionId := rfl
  rw [GossipServer.handleEnvelope, if_neg (not_not.2 hid), GossipEnd.verify, h.verify]
  dsimp only
  rw [bind_pure_run, if_neg (by decide), bind_run, GossipEnd.check_run, h.filterCall, hcheck]
  dsimp only
  rw [if_neg (by decide), bind_run, bind_run, happly, ← h.sessionId]
  rfl

/-- A reply with it. -/
theorem finish_arrived :
    (stateOf (GossipTransport.finish C receiving
      (.response 200 (GossipTransport.carried o)) x)).adapter =
      stateOf (GossipAdapter.applyRemoteSession receiving.adapter s x.adapter) := by
  have happly := h.apply receiving (x := { x with
    filter := (x.filter.check (filterCallOf receiving env replicaId)).2 }) hs hlog
  have hexchange : GossipTransport.exchange C (.response 200 (GossipTransport.carried o)) =
      .ok (some o.arrived) := by
    unfold GossipTransport.exchange
    dsimp only
    rw [if_neg (by decide), if_neg (by decide), h.carried]
    dsimp only
    rw [h.fromDict]
  rw [GossipTransport.finish, hexchange]
  dsimp only
  rw [GossipEnd.verify, h.verify]
  dsimp only
  rw [bind_pure_run, if_neg (by decide), bind_run, GossipEnd.check_run, h.filterCall, hcheck]
  dsimp only
  rw [if_neg (by decide), happly, GossipEnd.stateOf_onAdapter]

end

namespace GossipExchange

theorem gossipExchange_run (envA envB : GossipEnv K) {sessionId : String} {a b : Adapter K}
    {s : Session K} (ha : a.node.sessions sessionId = some s)
    (hb : (b.node.sessions sessionId).isSome) {s' : Session K}
    (hs' : (stateOf (GossipAdapter.applyRemoteSession envB s b)).node.sessions sessionId = some s') :
    stateOf (gossipExchange envA envB sessionId (a, b)) =
      (if returned (GossipAdapter.applyRemoteSession envB s b) then
        stateOf (GossipAdapter.applyRemoteSession envA s' a) else a,
        stateOf (GossipAdapter.applyRemoteSession envB s b)) := by
  obtain ⟨t, hb⟩ := Option.isSome_iff_exists.1 hb
  rw [gossipExchange, bind_get_run, bind_get_run]
  dsimp only
  rw [ha, hb]
  dsimp only
  rw [bind_run, onB]
  dsimp only
  cases hcall : GossipAdapter.applyRemoteSession envB s b with
  | error exc b' => rfl
  | ok r b' =>
    rw [hcall, stateOf_ok] at hs'
    dsimp only
    rw [bind_get_run, stateOf_bind_pure, onA]
    dsimp only
    rw [hs', Option.getD_some]
    cases GossipAdapter.applyRemoteSession envA s' a <;> rfl

end GossipExchange

namespace GossipTransport

variable {C : GossipCodec K} {sending serving receiving : EndEnv K} {sessionId : String}
  {client server : GossipEnd K} {s : Session K}

/-- A session that both replicas track: an exchange over HTTP, nothing lost and nothing refused,
leaves both as an exchange in process does. -/
theorem overHttp_eq_gossipExchange (hparse : ∀ x, C.parse (C.serialize x) = some x)
    (hhex : ∀ p, GossipEnvelope.IsHexDigest (C.hmac p)) (hkeyed : client.adapter.node.Keyed)
    (hkeyed' : server.adapter.node.Keyed) (hs : client.adapter.node.sessions sessionId = some s)
    (htracked : (server.adapter.node.sessions sessionId).isSome)
    (hheld : HeldPlainly sending s) (hlog : LogsApart server.adapter.node.shared.storage s)
    (hreply : ∀ s' ∈ (stateOf (GossipAdapter.applyRemoteSession serving.adapter s
      server.adapter)).node.sessions sessionId,
      HeldPlainly serving s' ∧ LogsApart client.adapter.node.shared.storage s')
    (hcheck : (server.filter.check
      (filterCallOf serving sending client.adapter.replicaId)).1 = true)
    (hcheck' : (client.filter.check
      (filterCallOf receiving serving server.adapter.replicaId)).1 = true) :
    let r := overHttp C sending serving receiving sessionId client server
    (r.1.adapter, r.2.adapter) = stateOf (GossipExchange.gossipExchange receiving.adapter
      serving.adapter sessionId (client.adapter, server.adapter)) := by
  have hid : s.sessionId = sessionId := hkeyed _ s hs
  subst hid
  have hmem : s.sessionId ∈ ({s.sessionId, serving.adapter.branchId} : Set String) := .inl rfl
  obtain ⟨hrep, htouches⟩ := GossipAdapter.apply_touches serving.adapter hmem (.inr rfl) hkeyed'
  -- the server goes on tracking the session
  obtain ⟨s', hs', hid'⟩ : ∃ s', (stateOf (GossipAdapter.applyRemoteSession serving.adapter s
      server.adapter)).node.sessions s.sessionId = some s' ∧ s'.sessionId = s.sessionId := by
    rcases htouches.sessions s.sessionId with hsame | ⟨-, s', hs', hid'⟩
    · obtain ⟨t, ht⟩ := Option.isSome_iff_exists.1 htracked
      exact ⟨t, hsame.trans ht, hkeyed' _ t ht⟩
    · exact ⟨s', hs', hid'⟩
  rw [GossipExchange.gossipExchange_run _ _ hs htracked hs']
  obtain ⟨hheld', hlog'⟩ := hreply s' hs'
  obtain ⟨o, received, hsign, ho⟩ := sign_arrived hparse hhex hheld client
  have hprepare : prepare C sending s.sessionId client = .ok (some o) client := by
    rw [prepare, bind_get_run, hs]
    exact bind_of_ok hsign _
  have hserved := handleGossip_arrived ho hcheck htracked hlog
  unfold overHttp
  rw [hprepare]
  dsimp only
  rw [hserved, bind_run, GossipEnd.onAdapter]
  dsimp only
  cases hcall : GossipAdapter.applyRemoteSession serving.adapter s server.adapter with
  | error exc b => rfl
  | ok r b =>
    rw [hcall, stateOf_ok] at hs' hrep
    dsimp only
    let server' : GossipEnd K :=
      ⟨b, (server.filter.check (filterCallOf serving sending client.adapter.replicaId)).2⟩
    obtain ⟨o', received', hsign', ho'⟩ := sign_arrived hparse hhex hheld' server'
    have hreplied : GossipServer.reply C serving s.sessionId.toList server' =
        .ok (.envelope o') server' := by
      rw [GossipServer.reply, bind_get_run, String.ofList_toList]
      have hfound : server'.adapter.node.sessions s.sessionId = some s' := hs'
      rw [hfound]
      exact bind_of_ok hsign' _
    rw [hreplied]
    have hcheck'' : (client.filter.check
        (filterCallOf receiving serving server'.adapter.replicaId)).1 = true := by
      change (client.filter.check (filterCallOf receiving serving b.replicaId)).1 = true
      rw [hrep]
      exact hcheck'
    have hfinish := finish_arrived ho' hcheck''
      (by rw [hid', hs, Option.isSome_some]) hlog'
    rw [stateOf_ok, answered, hfinish]
    rfl

/-! ## Two that exchange -/

/-- One commit of `a`'s. -/
def clockedOne : Metadata := { versionVector := some (.dict (Finmap.singleton "a" 1) ∅) }

/-- A session with these metadata, as Python holds it. -/
def heldClocked (s : Session Core.register) : LocalSession Core.register.Structure where
  knowledgeStructure := s.knowledgeStructure
  sessionId := s.sessionId.toList
  metadata := [(.string "version_vector".toList, .dict [(.string "a".toList, .atom (.int 1))])]
  parentSessionId := s.parentSessionId.map String.toList
  parentVersionId := s.parentVersionId.map String.toList
  distinct := ⟨List.nodup_singleton _, ⟨List.nodup_singleton _, trivial, trivial⟩, trivial⟩

theorem heldClocked_plainly {env : EndEnv Core.register} (henv : env.held = heldClocked)
    {s : Session Core.register} (hs : s.metadata = clockedOne) : HeldPlainly env s where
  stands := by
    rw [henv]
    refine ⟨rfl, rfl, ?_, rfl, rfl⟩
    rw [hs]
    change Metadata.ofDict [(.string "version_vector".toList,
      .dict [(.string "a".toList, .atom (.int 1))])] = clockedOne
    decide +kernel
  keys := by
    rw [henv]
    exact ⟨fun m hm => by rw [List.mem_singleton.1 hm]; rfl,
      ⟨fun m hm => by rw [List.mem_singleton.1 hm]; rfl, trivial, trivial⟩, trivial⟩

/-- An end whose sessions have these metadata. -/
def clockedEnd : EndEnv Core.register := { Network.pairEnd "m" with held := heldClocked }

/-- The session at `a`, which has set the register. -/
def aheadAtA : Session Core.register :=
  { knowledgeStructure := (5 : Nat), sessionId := "s", metadata := clockedOne }

/-- An end that has one session. -/
def tracking (replicaId : String) (s : Session Core.register) : GossipEnd Core.register where
  adapter := { node := { sessions := fun id => if id = "s" then some s else none }, replicaId }
  filter := .new

/-- The session at `b`, which knows of nothing. -/
def behindAtB : Session Core.register := { knowledgeStructure := (0 : Nat), sessionId := "s" }

theorem keyed_tracking {replicaId : String} {s : Session Core.register} (hs : s.sessionId = "s") :
    (tracking replicaId s).adapter.node.Keyed := by
  intro id t ht
  change t ∈ (if id = "s" then some s else none) at ht
  split_ifs at ht with hid
  · cases ht
    rw [hs, hid]
  · cases ht

/-- `b` takes the content of `a`. -/
theorem overHttp_clocked :
    (let r := overHttp Network.pairCodec clockedEnd clockedEnd clockedEnd "s" (tracking "a" aheadAtA)
      (tracking "b" behindAtB)
    (r.1.adapter, r.2.adapter) = stateOf (GossipExchange.gossipExchange clockedEnd.adapter
      clockedEnd.adapter "s" ((tracking "a" aheadAtA).adapter, (tracking "b" behindAtB).adapter))) ∧
      ((stateOf (GossipExchange.gossipExchange clockedEnd.adapter clockedEnd.adapter "s"
        ((tracking "a" aheadAtA).adapter, (tracking "b" behindAtB).adapter))).2.node.sessions
          "s").map (·.knowledgeStructure) = some (5 : Nat) := by
  have hfree : ∀ {storage : Storage Core.register} {s : Session Core.register},
      storage.operationLog = [] → LogsApart storage s := by
    intro storage s h l hl
    rw [h] at hl
    cases hl
  refine ⟨overHttp_eq_gossipExchange (fun n => congrArg some List.length_replicate)
    (fun _ => GossipEnvelope.digest_hex) (keyed_tracking rfl) (keyed_tracking rfl) (s := aheadAtA)
    rfl rfl (heldClocked_plainly rfl rfl) (hfree rfl) (fun s' hs' => ?_) (by decide) (by decide), ?_⟩
  · have hmetadata : ((stateOf (GossipAdapter.applyRemoteSession clockedEnd.adapter aheadAtA
        (tracking "b" behindAtB).adapter)).node.sessions "s").map (·.metadata) =
        some clockedOne := by
      decide +kernel
    rw [Option.mem_def.1 hs'] at hmetadata
    exact ⟨heldClocked_plainly rfl (Option.some.inj hmetadata), hfree rfl⟩
  · decide +kernel

end GossipTransport

end CksRuntime
