import CksRuntime.Gossip.Network
import CksRuntime.Gossip.Proof.Authentic
import CksRuntime.Gossip.Proof.Clocks
import CksRuntime.Gossip.Proof.Server

/-!
# The network refines the mesh

Every session of the mesh's that a network run holds is one that a mesh run holds: what an envelope
off the wire does to the mesh is a delivery of what the session has been at some replica, or nothing
at all (`mesh_reachable`). What an envelope says of another session leaves this one alone
(`Node.Touches`).
-/

set_option autoImplicit false

namespace CksRuntime

open JsonText Transition Effect

variable {K : Core} {R : Type}

/-! ## What a call leaves alone -/

/-- A call on the sessions `ids`: it leaves every other alone, and these registered under their
ids. -/
structure Node.Touches (ids : Set String) (n n' : Node K) : Prop where
  replicaId : n'.replicaId = n.replicaId
  sessions : ∀ k, n'.sessions k = n.sessions k ∨
    k ∈ ids ∧ ∃ s, n'.sessions k = some s ∧ s.sessionId = k
  reported : ∀ k, Reported k n' → Reported k n ∨ k ∈ ids

namespace Node

variable {ids : Set String} {n n₁ n' : Node K}

theorem Touches.refl (ids : Set String) (n : Node K) : Touches ids n n :=
  ⟨rfl, fun _ => .inl rfl, fun _ h => .inl h⟩

theorem Touches.trans (h : Touches ids n n₁) (h' : Touches ids n₁ n') : Touches ids n n' where
  replicaId := h'.replicaId.trans h.replicaId
  sessions k := by
    rcases h'.sessions k with hk | hk
    · rw [hk]
      exact h.sessions k
    · exact .inr hk
  reported k hr := by
    rcases h'.reported k hr with hr | hk
    · exact h.reported k hr
    · exact .inr hk

theorem Touches.session_eq (h : Touches ids n n') {k : String} (hk : k ∉ ids) :
    n'.sessions k = n.sessions k := by
  rcases h.sessions k with hsame | ⟨hmem, -⟩
  · exact hsame
  · exact absurd hmem hk

theorem Touches.keyed (h : Touches ids n n') (hn : n.Keyed) : n'.Keyed := by
  intro k s hs
  rcases h.sessions k with hsame | ⟨-, s', hs', hid⟩
  · rw [hsame] at hs
    exact hn k s hs
  · rw [hs'] at hs
    cases hs
    exact hid

/-- One session is replaced, and nothing published of a duplicate id. -/
theorem Touches.of_update {sessionId : String} {s : Session K} (hk : sessionId ∈ ids)
    (hid : s.sessionId = sessionId) (hrep : n'.replicaId = n.replicaId)
    (hses : n'.sessions = Function.update n.sessions sessionId (some s)) (hq : Quiet n n') :
    Touches ids n n' where
  replicaId := hrep
  sessions k := by
    rw [hses]
    by_cases h : k = sessionId
    · subst h
      exact .inr ⟨hk, s, Function.update_self _ _ _, hid⟩
    · exact .inl (Function.update_of_ne h _ _)
  reported _ hr := .inl (hq.reported hr)

theorem touches_registered {s : Session K} (hs : s.sessionId ∈ ids) :
    Touches ids n (n.registered s) := .of_update hs rfl rfl rfl (.refl _)

theorem touches_saved (s : Session K) : Touches ids n (n.saved s) :=
  ⟨rfl, fun _ => .inl rfl, fun _ h => .inl h⟩

theorem touches_published {event : Event} (h : ¬event.DuplicateReplicaId) :
    Touches ids n (n.published event) :=
  ⟨rfl, fun _ => .inl rfl, fun _ hr => .inl ((quiet_published h).reported hr)⟩

theorem touches_adopt (env : CallEnv K) {s : Session K} (hs : s.sessionId ∈ ids) :
    Touches ids n (stateOf (Runtime.adopt env s n)) := by
  obtain ⟨hses, hrep, hev⟩ := Runtime.stateOf_adopt env s n
  refine .of_update hs rfl hrep hses ?_
  rcases hev with hev | hev
  · exact ⟨[], by rw [hev, List.append_nil], fun e he => absurd he List.not_mem_nil⟩
  · refine ⟨_, hev, fun e he => ?_⟩
    rw [List.mem_singleton.1 he]
    exact id

theorem touches_commit {sessionId : String} {s : Session K} (hk : sessionId ∈ ids)
    (hid : s.sessionId = sessionId) (env : Env K) (tx : Transaction K) (n : Node K) :
    Touches ids n (stateOf (Runtime.onSession sessionId s tx (Pipeline.commit env) n)) := by
  obtain ⟨done, -, ks, metadata, ds, history, active, hses, -⟩ :=
    Pipeline.commit_session env ⟨s, tx, n.shared⟩
  obtain ⟨events, hev, hall⟩ := Pipeline.commit_events env ⟨s, tx, n.shared⟩
  rw [Runtime.stateOf_onSession]
  refine .of_update hk ?_ rfl rfl ⟨events, hev, fun e he => (hall e he).not_duplicate⟩
  rw [hses]
  exact hid

end Node

/-! ## A delivery of another session -/

namespace GossipAdapter

open Node

variable {ids : Set String} (env : GossipEnv K) {s remote : Session K}

theorem commitTransaction_touches (s : Session K) (hs : s.sessionId ∈ ids)
    (operations : List (Operation K)) (n : Node K) :
    Touches ids n (stateOf (commitTransaction env s operations n)) := by
  rw [commitTransaction_run]
  split
  · exact .refl _ _
  · have hbegun : Touches ids n (Runtime.begun env.transactionId s.sessionId s n) :=
      .of_update (s := { s with activeTransaction := some env.transactionId }) hs rfl rfl rfl
        (.refl _)
    exact hbegun.trans (touches_commit
      (s := { s with activeTransaction := some env.transactionId }) hs rfl _ _ _)

theorem bootstrap_touches (hremote : remote.sessionId ∈ ids) (n : Node K) :
    Touches ids n (stateOf (bootstrapRemoteSession env remote n)) := by
  set s := bootstrapped env.nodeId remote with hs
  have hrun : bootstrapRemoteSession env remote n =
      (Runtime.saveSession env.saveSessionFault s >>= fun _ =>
        commitTransaction env s [] >>= fun _ => pure true) (n.registered s) := rfl
  have hreg : Touches ids n (n.registered s) := touches_registered hremote
  rw [hrun, bind_run, Runtime.saveSession_run]
  cases env.saveSessionFault with
  | some exc => exact hreg
  | none =>
    dsimp only [Option.elim]
    rw [stateOf_bind_pure]
    exact (hreg.trans (touches_saved s)).trans (commitTransaction_touches env s hremote [] _)

theorem absorbVector_touches (hs : s.sessionId ∈ ids) (n : Node K) :
    Touches ids n (stateOf (absorbVector env s remote n)) := by
  unfold absorbVector
  split
  · exact .refl _ _
  · have hreg : Touches ids n (n.registered (absorbed s remote)) := touches_registered hs
    rw [bind_run, Runtime.register_run]
    dsimp only
    rw [Runtime.saveSession_run]
    cases env.saveSessionFault with
    | some exc => exact hreg
    | none => exact hreg.trans (touches_saved _)

theorem fastForward_touches (hs : s.sessionId ∈ ids) (n : Node K) :
    Touches ids n (stateOf (fastForward env s remote n)) := by
  rw [fastForward_run]
  have hreg : Touches ids n (n.registered (absorbed s remote)) := touches_registered hs
  exact hreg.trans (commitTransaction_touches env (absorbed s remote) hs _ _)

theorem escalate_touches (s remote : Session K) (hbranch : env.branchId ∈ ids)
    (probe : ExecutionResult K) (a : Adapter K) :
    (stateOf (escalate env s remote probe a)).replicaId = a.replicaId ∧
      Touches ids a.node (stateOf (escalate env s remote probe a)).node := by
  rw [escalate, bind_get_run]
  split
  · exact ⟨rfl, .refl _ _⟩
  · obtain ⟨branchId, hrun⟩ := registerConflictBranch_run env s remote a
    rw [bind_of_ok hrun, bind_modify_run, stateOf_bind_pure, stateOf_runtime,
      Runtime.stateOf_publish]
    exact ⟨rfl, (touches_adopt _ hbranch).trans (touches_published id)⟩

theorem resolved_touches {α : Type} (sessionId : String) {call : RuntimeM K α} {a : Adapter K}
    (h : Touches ids a.node (stateOf (call a.node))) :
    (stateOf (resolved sessionId call a)).replicaId = a.replicaId ∧
      Touches ids a.node (stateOf (resolved sessionId call a)).node := by
  obtain ⟨hnode, hrep, -⟩ := resolved_run sessionId call a
  rw [hnode]
  exact ⟨hrep, h⟩

theorem merge_touches (hs : s.sessionId ∈ ids) (hbranch : env.branchId ∈ ids)
    (hff : ¬remote.vector.dominates s.vector) (a : Adapter K) :
    (stateOf (merge env s remote a)).replicaId = a.replicaId ∧
      Touches ids a.node (stateOf (merge env s remote a)).node := by
  rw [merge, bind_get_run]
  have hprobe := probe_session hff a.node.shared.storage
  set r := OperationExecutor.execute (mergeOperation remote) a.node.shared.storage s with hr
  obtain ⟨probe, s'⟩ := r
  dsimp only at hprobe ⊢
  replace hprobe := hprobe.symm
  subst hprobe
  have hreg : Touches ids a.node (a.node.registered s) := touches_registered hs
  rw [bind_run, runtime_run, Runtime.register_run]
  dsimp only
  split
  · obtain ⟨hrep, ht⟩ := escalate_touches env s remote hbranch probe
      { a with node := a.node.registered s }
    exact ⟨hrep, hreg.trans ht⟩
  · obtain ⟨hrep, ht⟩ := resolved_touches remote.sessionId
      (a := { a with node := a.node.registered s })
      (commitTransaction_touches env s hs [mergeOperation remote] (a.node.registered s))
    exact ⟨hrep, hreg.trans ht⟩

theorem reconcile_touches (hs : s.sessionId ∈ ids) (hbranch : env.branchId ∈ ids)
    (a : Adapter K) :
    (stateOf (reconcile env s remote a)).replicaId = a.replicaId ∧
      Touches ids a.node (stateOf (reconcile env s remote a)).node := by
  unfold reconcile
  split
  · exact resolved_touches _ (absorbVector_touches env hs _)
  · split
    · exact resolved_touches _ (.refl _ _)
    · split
      · exact resolved_touches _ (fastForward_touches env hs _)
      · rename_i hff
        exact merge_touches env hs hbranch hff a

/-- A delivery touches the session it is of, and the branch a conflict is kept in. -/
theorem apply_touches (hremote : remote.sessionId ∈ ids) (hbranch : env.branchId ∈ ids)
    {a : Adapter K} (hkeyed : a.node.Keyed) :
    (stateOf (applyRemoteSession env remote a)).replicaId = a.replicaId ∧
      Touches ids a.node (stateOf (applyRemoteSession env remote a)).node := by
  rw [apply_run]
  cases env.crdtFault with
  | some exc => exact ⟨rfl, .refl _ _⟩
  | none =>
    dsimp only [Option.elim]
    cases hs : a.node.sessions remote.sessionId with
    | none =>
      dsimp only
      rw [stateOf_runtime]
      exact ⟨rfl, bootstrap_touches env hremote a.node⟩
    | some s =>
      have hid : s.sessionId ∈ ids := by
        rw [hkeyed _ s hs]
        exact hremote
      dsimp only
      split
      · rw [stateOf_bind_pure, reportDuplicateId, bind_get_run]
        split
        · exact ⟨rfl, .refl _ _⟩
        · rw [bind_modify_run, stateOf_runtime, Runtime.stateOf_publish]
          refine ⟨rfl, rfl, fun _ => .inl rfl, fun k hr => ?_⟩
          obtain ⟨own, localClock, remoteClock, hmem⟩ := hr
          rcases List.mem_append.1 hmem with hmem | hmem
          · exact .inl ⟨own, localClock, remoteClock, hmem⟩
          · cases List.mem_singleton.1 hmem
            exact .inr hremote
      · exact reconcile_touches env hid hbranch { a with
          pendingDuplicateIds := Function.update a.pendingDuplicateIds remote.sessionId ∅ }

end GossipAdapter

/-! ## The refinement -/

namespace Network

variable {C : GossipCodec K} {replicaId : R → String} {sessionId : String}

/-- What is signed of the session is of what it has been somewhere. -/
structure Inv (C : GossipCodec K) (sessionId : String) (w : Network K R) : Prop where
  keyed : ∀ r, (w.mesh.adapters r).node.Keyed
  signed : ∀ o ∈ w.signed, ∃ s, o.Carries C s ∧ (s.sessionId = sessionId → s ∈ w.mesh.history)

/-- What is signed next, of a session that a replica holds. -/
theorem signed_of_held {history : List (Session K)} {a : Adapter K} (hkeyed : a.node.Keyed)
    (hhist : ∀ s, a.node.sessions sessionId = some s → s ∈ history) {env : EndEnv K}
    {gossiped : String} {s : Session K} (hs : a.node.sessions gossiped = some s)
    (hplain : SignedPlainly C env a.replicaId s) {o : Outgoing}
    (ho : Outgoing.fromSession C.serialize C.builtins C.hmac
      (GossipEnd.sending env a.replicaId) (env.held s).toSessionSnapshot = .ok o) :
    ∃ s, o.Carries C s ∧ (s.sessionId = sessionId → s ∈ history) := by
  refine ⟨s, carries_of_fromSession hplain ho, fun hid => hhist s ?_⟩
  rw [hkeyed _ s hs] at hid
  subst hid
  exact hs

theorem snapshotOf_refl (s : Session K) : SnapshotOf s s := ⟨rfl, rfl, rfl⟩

variable [DecidableEq R]

/-- A step of the mesh that changes nothing at `r`. -/
theorem step_same (m : Mesh K R) (r : R) {a : Adapter K} (hrep : a.replicaId = (m.adapters r).replicaId)
    (hnode : a.node.replicaId = (m.adapters r).node.replicaId)
    (hsame : a.node.sessions sessionId = m.session sessionId r)
    (hreported : Reported sessionId a.node → Reported sessionId (m.adapters r).node) :
    Mesh.Step replicaId sessionId m (.elsewhere r a) (m.after sessionId r a) := by
  refine .elsewhere r a hrep hnode ?_ hreported
  rw [hsame]
  cases m.session sessionId r with
  | none => exact .none
  | some s => exact .some (snapshotOf_refl s)

variable {w : Network K R} {r : R} {env : EndEnv K} {x : GossipEnd K}

/-- What an envelope does to an adapter is a step of the mesh, and leaves the sessions keyed. -/
theorem taken_step (hB : C.builtins.SortsItems) (hparse : ∀ x, C.parse (C.serialize x) = some x)
    (h : Inv C sessionId w) (hfresh : FreshIds replicaId sessionId env.adapter)
    (hx : x.adapter = w.mesh.adapters r) {e : GossipEnvelope}
    (hsigned : e.verify C.builtins C.hmac = .ok true →
      ∃ o ∈ w.signed, o.payload C.builtins = e.payload C.builtins) {a : Adapter K}
    (ha : (GossipEnd.taken C env e x).adapter = a) :
    a.node.Keyed ∧ ∃ call, Mesh.Step replicaId sessionId w.mesh call (w.mesh.after sessionId r a) := by
  have hkeyed := h.keyed r
  have hsame : ∀ {a : Adapter K}, a = w.mesh.adapters r → a.node.Keyed ∧ ∃ call,
      Mesh.Step replicaId sessionId w.mesh call (w.mesh.after sessionId r a) := by
    intro a ha
    subst ha
    exact ⟨hkeyed, _, step_same w.mesh r rfl rfl rfl id⟩
  unfold GossipEnd.taken at ha
  cases hver : e.verify C.builtins C.hmac with
  | error exc =>
    rw [hver] at ha
    exact hsame (ha.symm.trans hx)
  | ok b =>
    rw [hver] at ha
    cases b with
    | false => exact hsame (ha.symm.trans hx)
    | true =>
      dsimp only at ha
      split at ha
      · unfold GossipEnd.applied at ha
        cases hto : e.toSession C.parse with
        | none =>
          rw [hto] at ha
          exact hsame (ha.symm.trans hx)
        | some received =>
          rw [hto, hx] at ha
          dsimp only at ha
          -- the session is one that was signed, whatever else came with it
          obtain ⟨o, ho, hpay⟩ := hsigned hver
          obtain ⟨s, hs, hhist⟩ := h.signed o ho
          have hsnap := snapshotOf_of_signed hB hparse hs hver hpay hto
          obtain ⟨hrep, ht⟩ := GossipAdapter.apply_touches env.adapter
            (Set.mem_insert (Session.ofSnapshot received).sessionId {env.adapter.branchId})
            (Set.mem_insert_of_mem _ rfl) hkeyed
          by_cases hid : s.sessionId = sessionId
          · subst ha
            exact ⟨ht.keyed hkeyed, _, .deliver r env.adapter _ (hhist hid) hsnap hfresh.nodeId
              hfresh.branchId rfl⟩
          · have hne : sessionId ∉
                ({(Session.ofSnapshot received).sessionId, env.adapter.branchId} : Set String) := by
              intro hmem
              rcases hmem with heq | heq
              · exact hid (hsnap.sessionId.symm.trans heq.symm)
              · exact hfresh.branchId (Set.mem_singleton_iff.1 heq).symm
            subst ha
            exact ⟨ht.keyed hkeyed, _, step_same w.mesh r hrep ht.replicaId (ht.session_eq hne)
              fun hr => (ht.reported _ hr).resolve_right hne⟩
      · exact hsame (ha.symm.trans hx)

theorem received_step (hB : C.builtins.SortsItems)
    (hparse : ∀ x, C.parse (C.serialize x) = some x) (h : Inv C sessionId w)
    (hfresh : FreshIds replicaId sessionId env.adapter) (hx : x.adapter = w.mesh.adapters r)
    {received : Option GossipEnvelope}
    (hsigned : ∀ e ∈ received, e.verify C.builtins C.hmac = .ok true →
      ∃ o ∈ w.signed, o.payload C.builtins = e.payload C.builtins) {a : Adapter K}
    (ha : (received.elim x (GossipEnd.taken C env · x)).adapter = a) :
    a.node.Keyed ∧
      ∃ call, Mesh.Step replicaId sessionId w.mesh call (w.mesh.after sessionId r a) := by
  cases received with
  | none =>
    have hsame : a = w.mesh.adapters r := ha.symm.trans hx
    subst hsame
    exact ⟨h.keyed r, _, step_same w.mesh r rfl rfl rfl id⟩
  | some e => exact taken_step hB hparse h hfresh hx (hsigned e rfl) ha

theorem keyed_after (h : ∀ q, (w.mesh.adapters q).node.Keyed) {a : Adapter K} (ha : a.node.Keyed)
    (q : R) : ((w.mesh.after sessionId r a).adapters q).node.Keyed := by
  by_cases hq : q = r
  · subst hq
    rw [Mesh.adapters_after_self]
    exact ha
  · rw [Mesh.adapters_after_ne hq]
    exact h q

/-- Another step of the mesh keeps the sessions keyed. -/
theorem inside_after (h : ∀ q, (w.mesh.adapters q).node.Keyed) {call : MeshCall K R}
    {m : Mesh K R} (hst : Mesh.Step replicaId sessionId w.mesh call m)
    (hdeliver : ∀ r env remote, call ≠ .deliver r env remote)
    (helse : ∀ r a, call = .elsewhere r a → a.node.Keyed) :
    ∃ r a, m = w.mesh.after sessionId r a ∧ a.node.Keyed := by
  cases hst with
  | create r env ks hhist hid henv hn =>
    refine ⟨r, _, rfl, ?_⟩
    rw [← hn]
    exact (Node.touches_adopt env (Set.mem_singleton
      (SessionManager.newSession env.sessionId env.nodeId ks).sessionId)).keyed (h r)
  | commit r env tx hs henv hsources hn =>
    refine ⟨r, _, rfl, ?_⟩
    rw [← hn]
    exact (Node.touches_commit (Set.mem_singleton sessionId) (h r _ _ hs) env tx _).keyed (h r)
  | deliver r env remote => exact absurd rfl (hdeliver r env remote)
  | elsewhere r a => exact ⟨r, a, rfl, helse r a rfl⟩

/-- After a step of the mesh at `r`, with what `r` has signed then. -/
theorem Inv.after (h : Inv C sessionId w) {a : Adapter K} (ha : a.node.Keyed)
    {sent : List Outgoing} (hsent : ∀ o ∈ sent, ∃ s, o.Carries C s ∧
      (s.sessionId = sessionId → s ∈ (w.mesh.after sessionId r a).history))
    {serverFilter serviceFilter : R → GossipFilter} :
    Inv C sessionId ⟨w.mesh.after sessionId r a, serverFilter, serviceFilter, w.signed ++ sent⟩ where
  keyed := keyed_after h.keyed ha
  signed o ho := by
    rcases List.mem_append.1 ho with ho | ho
    · obtain ⟨s, hs, hhist⟩ := h.signed o ho
      exact ⟨s, hs, fun hid => List.mem_append_left _ (hhist hid)⟩
    · exact hsent o ho

/-- After a step at `r` that sends nothing. -/
theorem Inv.after_nothing (h : Inv C sessionId w) {a : Adapter K} (ha : a.node.Keyed)
    (serverFilter serviceFilter : R → GossipFilter) :
    Inv C sessionId ⟨w.mesh.after sessionId r a, serverFilter, serviceFilter, w.signed⟩ := by
  rw [← List.append_nil w.signed]
  exact h.after ha fun o ho => absurd ho List.not_mem_nil

theorem inv_step (hinj : Function.Injective replicaId) (hB : C.builtins.SortsItems)
    (hparse : ∀ x, C.parse (C.serialize x) = some x)
    (hm : (Mesh.system K replicaId sessionId).Reachable w.mesh) (h : Inv C sessionId w)
    {l : NetworkCall K R} {w' : Network K R}
    (hst : ((system C replicaId sessionId).restrict (Unforged C)).step w l w') :
    Inv C sessionId w' ∧ (w'.mesh = w.mesh ∨
      ∃ call, (Mesh.system K replicaId sessionId).step w.mesh call w'.mesh) := by
  obtain ⟨hst, hunforged⟩ := hst
  cases hst with
  | inside call hcall hdeliver helse =>
    obtain ⟨r, a, rfl, ha⟩ := inside_after h.keyed hcall hdeliver helse
    exact ⟨h.after_nothing ha _ _, .inr ⟨_, hcall⟩⟩
  | @send r env gossiped result hplain hresult =>
    refine ⟨⟨h.keyed, fun o ho => ?_⟩, .inl rfl⟩
    rcases List.mem_append.1 ho with ho | ho
    · exact h.signed o ho
    · cases result with
      | error exc x => cases ho
      | ok sent x =>
        cases sent with
        | none => cases ho
        | some o' =>
          cases List.mem_singleton.1 ho
          obtain ⟨s, hs, hfrom⟩ := GossipTransport.prepare_envelope hresult
          -- what is sent is signed over a state the session has been in
          exact signed_of_held (h.keyed r) ((Mesh.inv_reachable hinj hm).recorded r) hs
            (hplain s hs) hfrom
  | @serve r env request result hfresh hresult hplain =>
    have hstate : stateOf (GossipServer.handleGossip C env request (w.server r)) = _ :=
      GossipServer.stateOf_handleGossip request (w.server r)
    rw [hresult] at hstate
    -- whatever verifies was signed, and so is a delivery in the mesh
    obtain ⟨hkeyed, call, hcall⟩ := received_step hB hparse h hfresh rfl (fun e he hver => by
      obtain ⟨data, hdata, hd⟩ := GossipServer.Request.fromDict_of_envelope? he
      exact hunforged data hdata e hd hver) (congrArg GossipEnd.adapter hstate.symm)
    refine ⟨h.after hkeyed fun o ho => ?_, .inr ⟨call, hcall⟩⟩
    cases result with
    | error exc x => cases ho
    | ok response x =>
      cases response with
      | error status message => cases ho
      | noSession => cases ho
      | envelope o' =>
        cases List.mem_singleton.1 ho
        obtain ⟨s, hs, hfrom⟩ := GossipServer.handleGossip_envelope hresult
        refine signed_of_held hkeyed (fun s hs => ?_) hs (hplain s hs) hfrom
        exact List.mem_append_right _ (by rw [hs]; exact List.mem_singleton_self s)
  | @receive r env reply result hfresh hresult =>
    have hstate : stateOf (GossipTransport.finish C env reply (w.service r)) = _ :=
      GossipTransport.stateOf_finish reply (w.service r)
    rw [hresult] at hstate
    obtain ⟨hkeyed, call, hcall⟩ := received_step hB hparse h hfresh rfl (fun e he hver => by
      obtain ⟨status, body, hreply, data, hdata, hd⟩ :=
        GossipTransport.HttpResult.fromDict_of_envelope? he
      subst hreply
      exact hunforged data hdata e hd hver) (congrArg GossipEnd.adapter hstate.symm)
    exact ⟨h.after_nothing hkeyed _ _, .inr ⟨call, hcall⟩⟩

/-- **The network refines the mesh.** Whatever the network loses, repeats, reorders and makes up,
as long as it forges no signature, a run over it does to the session what a run of the mesh does. -/
theorem mesh_reachable (hinj : Function.Injective replicaId) (hB : C.builtins.SortsItems)
    (hparse : ∀ x, C.parse (C.serialize x) = some x)
    (hw : ((system C replicaId sessionId).restrict (Unforged C)).Reachable w) :
    (Mesh.system K replicaId sessionId).Reachable w.mesh := by
  refine (hw.refines (I := Inv C sessionId) mesh (fun w hi => ?_) fun w l w' hm h hst => ?_).2
  · obtain ⟨hmesh, hkeyed, hsigned⟩ := hi
    refine ⟨⟨hkeyed, fun o ho => ?_⟩, hmesh⟩
    rw [hsigned] at ho
    cases ho
  · exact inv_step hinj hB hparse hm h hst

/-! ## A snapshot that arrives -/

open GossipEnvelope (strictBuiltins digest)

/-- A register is written in unary. -/
def pairCodec : GossipCodec Core.register where
  builtins := strictBuiltins
  hmac _ := digest
  serialize n := List.replicate (n : Nat) '.'
  parse text := some text.length

/-- A session without a vector, as Python holds it. -/
def heldUnclocked (s : Session Core.register) : LocalSession Core.register.Structure where
  knowledgeStructure := s.knowledgeStructure
  sessionId := s.sessionId.toList
  metadata := [(.string "node_id".toList, .string (s.metadata.nodeId.getD "").toList)]
  parentSessionId := s.parentSessionId.map String.toList
  parentVersionId := s.parentVersionId.map String.toList
  distinct := ⟨List.nodup_singleton _, trivial, trivial⟩

/-- What a call at either end meets. -/
def pairEnd (nodeId : String) : EndEnv Core.register where
  adapter := Mesh.pairGossip "v" nodeId
  nowMs := 9
  nonce := ['n']
  seqNo := 7
  timestampMs := 9
  held := heldUnclocked

/-- The two replicas, with nothing received. -/
def pairNetwork : Network Core.register Bool where
  mesh := Mesh.pair
  serverFilter _ := .new
  serviceFilter _ := .new

/-- What `a` signs of the session it has created. -/
def createdSigned : Outgoing :=
  { Outgoing.unsigned pairCodec.serialize (GossipEnd.sending (pairEnd "n") "a")
      (heldUnclocked Mesh.createdAtA).toSessionSnapshot with signature := digest }

/-- `b` is answered with it. -/
def createdReply : GossipTransport.HttpResult := .response 200 (some (.object createdSigned.data))

theorem createdSigned_keys : PyValue.StringKeys (.dict createdSigned.metadata) := by
  refine ⟨fun m hm => ?_, trivial, trivial⟩
  rw [List.mem_singleton.1 hm]
  rfl

theorem createdSigned_plainly :
    SignedPlainly pairCodec (pairEnd "n") "a" Mesh.createdAtA where
  stands := by
    refine ⟨rfl, rfl, ?_, rfl, rfl⟩
    decide
  plain := by
    refine ⟨by decide, createdSigned_keys, (heldUnclocked Mesh.createdAtA).distinct, ?_⟩
    intro m hm a
    cases List.mem_singleton.1 hm
    intro htext
    have hunderscore : '_' ∈ a.text := by
      rw [← htext]
      decide
    exact absurd (Atom.isWordChar hunderscore) (by decide)

theorem createdSigned_payload : ∃ p, createdSigned.payload strictBuiltins = .ok p ∧
    createdSigned.arrived.payload strictBuiltins = .ok p :=
  Outgoing.payload_arrived createdSigned_keys (heldUnclocked Mesh.createdAtA).distinct

theorem prepare_created {x : GossipEnd Core.register} (hrep : x.adapter.replicaId = "a")
    (hs : x.adapter.node.sessions "s" = some Mesh.createdAtA) :
    GossipTransport.prepare pairCodec (pairEnd "n") "s" x = .ok (some createdSigned) x := by
  obtain ⟨p, hp, -⟩ := createdSigned_payload
  have hp' : Outgoing.payload pairCodec.builtins (Outgoing.unsigned pairCodec.serialize
      (GossipEnd.sending (pairEnd "n") "a") ((pairEnd "n").held Mesh.createdAtA).toSessionSnapshot) =
      .ok p := hp
  have hfrom : Outgoing.fromSession pairCodec.serialize pairCodec.builtins pairCodec.hmac
      (GossipEnd.sending (pairEnd "n") "a") ((pairEnd "n").held Mesh.createdAtA).toSessionSnapshot =
      .ok createdSigned := by
    rw [Outgoing.fromSession, Outgoing.sign, hp']
    rfl
  have hsign : GossipEnd.sign pairCodec (pairEnd "n") Mesh.createdAtA x = .ok createdSigned x := by
    rw [GossipEnd.sign_run, hrep, hfrom]
  rw [GossipTransport.prepare, bind_get_run, hs]
  exact bind_of_ok hsign _

/-- The second has received what the first has created. -/
def pairReceived : Network Core.register Bool :=
  { pairNetwork with
    mesh := Mesh.pairCreated.after "s" false (stateOf (GossipTransport.finish pairCodec (pairEnd "m")
      createdReply ⟨Mesh.pairCreated.adapters false, .new⟩)).adapter
    serviceFilter := Function.update pairNetwork.serviceFilter false (stateOf
      (GossipTransport.finish pairCodec (pairEnd "m") createdReply
        ⟨Mesh.pairCreated.adapters false, .new⟩)).filter
    signed := [createdSigned] }

theorem sortsItems_strict : pairCodec.builtins.SortsItems := by
  intro items items' h
  cases h

theorem pairReceived_reachable :
    ((system pairCodec Mesh.pairId "s").restrict (Unforged pairCodec)).Reachable pairReceived := by
  have h₀ : ((system pairCodec Mesh.pairId "s").restrict (Unforged pairCodec)).Reachable
      pairNetwork := by
    refine .init ⟨⟨rfl, fun r => ⟨rfl, rfl, rfl, ?_⟩⟩, fun r k s hs => ?_, rfl⟩
    · rintro ⟨ownReplicaId, localClock, remoteClock, hmem⟩
      exact absurd hmem List.not_mem_nil
    · cases hs
  have h₁ := h₀.step ⟨Step.inside (.create true ⟨"s", "n", none, fun _ => none⟩ (0 : Nat))
    (Mesh.Step.create true _ _ rfl rfl (by decide) rfl) (fun r env remote h => by cases h)
    (fun r a h => by cases h), trivial⟩
  have h₂ := h₁.step ⟨Step.send true (pairEnd "n") "s"
    (fun s hs => by cases hs; exact createdSigned_plainly) (prepare_created rfl rfl), trivial⟩
  refine h₂.step ⟨Step.receive false (pairEnd "m") createdReply ⟨by decide, by decide⟩ rfl, ?_⟩
  intro data hdata e hd hver
  cases hdata
  rw [GossipEnd.fromDict, Outgoing.fromDict_data] at hd
  cases hd
  obtain ⟨p, hp, hp'⟩ := createdSigned_payload
  exact ⟨createdSigned, List.mem_singleton_self _, hp.trans hp'.symm⟩

/-- A reply brings `b` the session. -/
theorem mesh_reachable_received :
    (Mesh.system Core.register Mesh.pairId "s").Reachable pairReceived.mesh ∧
      (pairReceived.mesh.session "s" false).isSome :=
  ⟨mesh_reachable Mesh.pairId_injective sortsItems_strict
    (fun n => congrArg some List.length_replicate) pairReceived_reachable, by decide⟩

end Network

end CksRuntime
