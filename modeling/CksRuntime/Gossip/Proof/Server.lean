import CksRuntime.Gossip.Server
import CksRuntime.Gossip.Proof.Filter

/-!
# What comes off the wire

What a server and a service do with an envelope is the same: verified, checked by the filter and
applied, as far as it gets (`GossipEnd.taken`). Over a run, what is applied is genuine, and once
for each filter (`WireReplica.run_delivers`).
-/

set_option autoImplicit false

namespace CksRuntime

open JsonText Effect

variable {K : Core}

/-! ## What an end does with an envelope -/

namespace GossipEnd

variable (C : GossipCodec K) (env : EndEnv K)

/-- The adapter after `apply_remote_session(envelope.to_session())`. -/
def applied (e : GossipEnvelope) (a : Adapter K) : Adapter K :=
  match e.toSession C.parse with
  | none => a
  | some received =>
    stateOf (GossipAdapter.applyRemoteSession env.adapter (Session.ofSnapshot received) a)

/-- An end after an envelope: verified, checked and applied, as far as it gets. -/
def taken (e : GossipEnvelope) (x : GossipEnd K) : GossipEnd K :=
  match e.verify C.builtins C.hmac with
  | .ok true =>
    let r := x.filter.check (filterCall env e)
    { adapter := if r.1 then applied C env e x.adapter else x.adapter, filter := r.2 }
  | _ => x

variable {C env}

theorem stateOf_onAdapter {α : Type} (call : GossipM K α) (x : GossipEnd K) :
    stateOf (onAdapter call x) = { x with adapter := stateOf (call x.adapter) } := by
  unfold onAdapter
  cases call x.adapter <;> rfl

theorem stateOf_apply (e : GossipEnvelope) (x : GossipEnd K) :
    stateOf (apply C env e x) = { x with adapter := applied C env e x.adapter } := by
  unfold apply applied
  cases e.toSession C.parse with
  | none => rfl
  | some received => exact stateOf_onAdapter _ x

theorem check_run (e : GossipEnvelope) (x : GossipEnd K) :
    check env e x = .ok (x.filter.check (filterCall env e)).1
      { x with filter := (x.filter.check (filterCall env e)).2 } := rfl

theorem sign_run (s : Session K) (x : GossipEnd K) :
    sign C env s x = match Outgoing.fromSession C.serialize C.builtins C.hmac
        (sending env x.adapter.replicaId) (env.held s).toSessionSnapshot with
      | .ok o => .ok o x
      | .error exc => .error (.wire exc) x := by
  rw [sign, bind_get_run]
  cases Outgoing.fromSession C.serialize C.builtins C.hmac
    (sending env x.adapter.replicaId) (env.held s).toSessionSnapshot <;> rfl

end GossipEnd

namespace GossipServer

open GossipEnd

variable {C : GossipCodec K} {env : EndEnv K}

theorem stateOf_reply (sessionId : Text) (x : GossipEnd K) :
    stateOf (reply C env sessionId x) = x := by
  rw [reply, bind_get_run]
  cases x.adapter.node.sessions (String.ofList sessionId) with
  | none => rfl
  | some s =>
    dsimp only
    rw [bind_run, sign_run]
    cases Outgoing.fromSession C.serialize C.builtins C.hmac
      (sending env x.adapter.replicaId) (env.held s).toSessionSnapshot <;> rfl

/-- What is replied is signed for the session as it then is. -/
theorem reply_envelope {sessionId : Text} {x x' : GossipEnd K} {o : Outgoing}
    (h : reply C env sessionId x = .ok (.envelope o) x') :
    ∃ s, x'.adapter.node.sessions (String.ofList sessionId) = some s ∧
      Outgoing.fromSession C.serialize C.builtins C.hmac
        (sending env x'.adapter.replicaId) (env.held s).toSessionSnapshot = .ok o := by
  rw [reply, bind_get_run] at h
  cases hs : x.adapter.node.sessions (String.ofList sessionId) with
  | none =>
    rw [hs] at h
    cases h
  | some s =>
    rw [hs] at h
    dsimp only at h
    rw [bind_run, sign_run] at h
    cases ho : Outgoing.fromSession C.serialize C.builtins C.hmac
        (sending env x.adapter.replicaId) (env.held s).toSessionSnapshot with
    | error exc =>
      rw [ho] at h
      cases h
    | ok o' =>
      rw [ho] at h
      cases h
      exact ⟨s, hs, ho⟩

theorem handleEnvelope_of_ne {sessionId : Text} {e : GossipEnvelope} (h : e.sessionId ≠ sessionId)
    (x : GossipEnd K) : handleEnvelope C env sessionId e x =
      .ok (.error 400 "session_id in URL does not match envelope") x := by
  rw [handleEnvelope, if_pos h]
  rfl

theorem stateOf_handleEnvelope (e : GossipEnvelope) (x : GossipEnd K) :
    stateOf (handleEnvelope C env e.sessionId e x) = taken C env e x := by
  rw [handleEnvelope, if_neg (not_not.2 rfl), bind_run, GossipEnd.verify, taken]
  cases e.verify C.builtins C.hmac with
  | error exc => rfl
  | ok b =>
    cases b with
    | false => rfl
    | true =>
      simp only [pure_run, not_true_eq_false, if_false]
      rw [bind_run, check_run]
      dsimp only
      cases (x.filter.check (filterCall env e)).1 with
      | false => rfl
      | true =>
        simp only [not_true_eq_false, if_false, if_true]
        have happly : stateOf (GossipEnd.apply C env e
            { x with filter := (x.filter.check (filterCall env e)).2 }) = _ := stateOf_apply e _
        rw [bind_run]
        cases ha : GossipEnd.apply C env e
            { x with filter := (x.filter.check (filterCall env e)).2 } with
        | error exc x' =>
          rw [ha] at happly
          exact happly
        | ok b x' =>
          rw [ha] at happly
          exact (stateOf_reply _ x').trans happly

/-- The envelope that a request carries for its URL. -/
def Request.envelope? (C : GossipCodec K) (request : Request) : Option GossipEnvelope :=
  match request.body.map (fromDict C) with
  | some (.ok e) => if e.sessionId = request.sessionId then some e else none
  | _ => none

theorem Request.fromDict_of_envelope? {request : Request} {e : GossipEnvelope}
    (h : request.envelope? C = some e) :
    ∃ data ∈ request.body, fromDict C data = .ok e := by
  unfold Request.envelope? at h
  cases hb : request.body with
  | none =>
    rw [hb] at h
    cases h
  | some data =>
    rw [hb, Option.map_some] at h
    cases hd : fromDict C data with
    | error exc =>
      rw [hd] at h
      cases h
    | ok e' =>
      rw [hd] at h
      dsimp only at h
      split_ifs at h
      cases h
      exact ⟨data, rfl, hd⟩

theorem stateOf_handleGossip (request : Request) (x : GossipEnd K) :
    stateOf (handleGossip C env request x) = (request.envelope? C).elim x (taken C env · x) := by
  unfold handleGossip Request.envelope?
  cases request.body with
  | none => rfl
  | some data =>
    simp only [Option.map_some]
    cases fromDict C data with
    | error exc => cases exc <;> rfl
    | ok e =>
      dsimp only
      by_cases hid : e.sessionId = request.sessionId
      · rw [if_pos hid, ← hid]
        exact stateOf_handleEnvelope e x
      · rw [if_neg hid, handleEnvelope_of_ne hid]
        rfl

theorem handleGossip_envelope {request : Request} {x x' : GossipEnd K} {o : Outgoing}
    (h : handleGossip C env request x = .ok (.envelope o) x') :
    ∃ s, x'.adapter.node.sessions (String.ofList request.sessionId) = some s ∧
      Outgoing.fromSession C.serialize C.builtins C.hmac
        (sending env x'.adapter.replicaId) (env.held s).toSessionSnapshot = .ok o := by
  unfold handleGossip at h
  cases hb : request.body with
  | none =>
    rw [hb] at h
    cases h
  | some data =>
    simp only [hb] at h
    cases hd : fromDict C data with
    | error exc =>
      rw [hd] at h
      cases exc <;> cases h
    | ok e =>
      simp only [hd] at h
      unfold handleEnvelope at h
      split_ifs at h
      · cases h
      · obtain ⟨verified, x₁, -, h⟩ := bind_eq_ok.1 h
        cases verified with
        | false => cases h
        | true =>
          simp only [not_true_eq_false, if_false] at h
          obtain ⟨fresh, x₂, -, h⟩ := bind_eq_ok.1 h
          cases fresh with
          | false => cases h
          | true =>
            simp only [not_true_eq_false, if_false] at h
            obtain ⟨-, x₃, -, h⟩ := bind_eq_ok.1 h
            exact reply_envelope h

end GossipServer

namespace GossipTransport

open GossipEnd

variable {C : GossipCodec K} {env : EndEnv K}

/-- The envelope that a peer's reply is read as. -/
def HttpResult.envelope? (C : GossipCodec K) (result : HttpResult) : Option GossipEnvelope :=
  match exchange C result with
  | .ok reply => reply
  | .error _ => none

theorem HttpResult.fromDict_of_envelope? {reply : HttpResult} {e : GossipEnvelope}
    (h : reply.envelope? C = some e) : ∃ status body, reply = .response status body ∧
      ∃ data ∈ body, fromDict C data = .ok e := by
  unfold HttpResult.envelope? exchange at h
  cases reply with
  | failed => cases h
  | response status body =>
    refine ⟨status, body, rfl, ?_⟩
    dsimp only at h
    by_cases h404 : status = 404
    · rw [if_pos h404] at h
      cases h
    · rw [if_neg h404] at h
      by_cases h200 : status ≠ 200
      · rw [if_pos h200] at h
        cases h
      · rw [if_neg h200] at h
        cases body with
        | none => cases h
        | some data =>
          dsimp only at h
          cases hd : fromDict C data with
          | error exc =>
            rw [hd] at h
            cases exc <;> cases h
          | ok e' =>
            rw [hd] at h
            cases h
            exact ⟨data, rfl, hd⟩

theorem stateOf_finish (result : HttpResult) (x : GossipEnd K) :
    stateOf (finish C env result x) = (result.envelope? C).elim x (taken C env · x) := by
  unfold finish HttpResult.envelope?
  cases exchange C result with
  | error exc => rfl
  | ok reply =>
    cases reply with
    | none => rfl
    | some e =>
      dsimp only [Option.elim]
      rw [bind_run, GossipEnd.verify, taken]
      cases e.verify C.builtins C.hmac with
      | error exc => rfl
      | ok b =>
        cases b with
        | false => rfl
        | true =>
          simp only [pure_run, not_true_eq_false, if_false]
          rw [bind_run, check_run]
          dsimp only
          cases (x.filter.check (filterCall env e)).1 with
          | false => rfl
          | true => exact stateOf_apply e _

theorem prepare_envelope {sessionId : String} {x x' : GossipEnd K} {o : Outgoing}
    (h : prepare C env sessionId x = .ok (some o) x') :
    ∃ s, x.adapter.node.sessions sessionId = some s ∧
      Outgoing.fromSession C.serialize C.builtins C.hmac
        (sending env x.adapter.replicaId) (env.held s).toSessionSnapshot = .ok o := by
  rw [prepare, bind_get_run] at h
  cases hs : x.adapter.node.sessions sessionId with
  | none =>
    rw [hs] at h
    cases h
  | some s =>
    rw [hs] at h
    dsimp only at h
    rw [bind_run, sign_run] at h
    cases ho : Outgoing.fromSession C.serialize C.builtins C.hmac
        (sending env x.adapter.replicaId) (env.held s).toSessionSnapshot with
    | error exc =>
      rw [ho] at h
      cases h
    | ok o' =>
      rw [ho] at h
      cases h
      exact ⟨s, rfl, ho⟩

end GossipTransport

/-! ## Runs -/

/-- An envelope that an end has let in. -/
structure Delivered (K : Core) where
  side : Side
  env : EndEnv K
  envelope : GossipEnvelope

namespace Delivered

/-- The adapter after a delivery. -/
def apply (C : GossipCodec K) (a : Adapter K) (d : Delivered K) : Adapter K :=
  GossipEnd.applied C d.env d.envelope a

/-- What the filter knows it by. -/
def key (d : Delivered K) : Text × Int := (strip d.envelope.senderReplicaId, d.envelope.seqNo)

end Delivered

namespace WireCall

variable (C : GossipCodec K)

/-- The envelope of a message, where it parses. -/
def envelope? : WireCall K → Option GossipEnvelope
  | .serve _ request => request.envelope? C
  | .receive _ result => result.envelope? C

/-- What is delivered by it, and at which end. -/
def delivery (call : WireCall K) (e : GossipEnvelope) : Delivered K :=
  match call with
  | .serve env _ => ⟨.server, env, e⟩
  | .receive env _ => ⟨.service, env, e⟩

/-- There is an envelope, and its signature is valid. -/
def genuine (call : WireCall K) : Bool :=
  (call.envelope? C).any fun e =>
    match e.verify C.builtins C.hmac with
    | .ok verified => verified
    | .error _ => false

end WireCall

namespace WireReplica

variable (C : GossipCodec K)

/-- The delivery that a call makes, if its envelope is let in. -/
def lets (p : WireReplica K) (call : WireCall K) : Option (Delivered K) :=
  (call.envelope? C).bind fun e =>
    let d := call.delivery e
    if call.genuine C ∧ ((p.filter d.side).check (GossipEnd.filterCall d.env e)).1 then some d
    else none

/-- What a run delivers. -/
def delivered (p : WireReplica K) : List (WireCall K) → List (Delivered K)
  | [] => []
  | call :: calls => (p.lets C call).toList ++ (p.step C call).delivered calls

variable {C} {p : WireReplica K} {call : WireCall K}

theorem left_endAt (p : WireReplica K) (side : Side) : p.left side (p.endAt side) = p := by
  rw [left, endAt, Function.update_eq_self]

theorem step_of_none (h : call.envelope? C = none) : p.step C call = p := by
  cases call with
  | serve env request =>
    rw [step, GossipServer.stateOf_handleGossip,
      show request.envelope? C = none from h]
    exact left_endAt p .server
  | receive env result =>
    rw [step, GossipTransport.stateOf_finish, show result.envelope? C = none from h]
    exact left_endAt p .service

theorem step_of_some {e : GossipEnvelope} (h : call.envelope? C = some e) :
    p.step C call = p.left (call.delivery e).side
      (GossipEnd.taken C (call.delivery e).env e (p.endAt (call.delivery e).side)) := by
  cases call with
  | serve env request =>
    rw [step, GossipServer.stateOf_handleGossip,
      show request.envelope? C = some e from h]
    rfl
  | receive env result =>
    rw [step, GossipTransport.stateOf_finish, show result.envelope? C = some e from h]
    rfl

/-- What is no envelope, or has no valid signature, changes nothing. -/
theorem step_of_not_genuine (h : call.genuine C = false) : p.step C call = p := by
  unfold WireCall.genuine at h
  cases he : call.envelope? C with
  | none => exact step_of_none he
  | some e =>
    rw [he, Option.any_some] at h
    rw [step_of_some he, GossipEnd.taken]
    cases hver : e.verify C.builtins C.hmac with
    | error exc => exact left_endAt p _
    | ok verified =>
      rw [hver] at h
      dsimp only at h
      subst h
      exact left_endAt p _

theorem step_of_genuine (h : call.genuine C = true) : ∃ e, call.envelope? C = some e ∧
    e.verify C.builtins C.hmac = .ok true ∧
    p.step C call = p.left (call.delivery e).side
      { adapter := (p.lets C call).elim p.adapter (Delivered.apply C p.adapter)
        filter := ((p.filter (call.delivery e).side).check
          (GossipEnd.filterCall (call.delivery e).env e)).2 } := by
  have hgen := h
  unfold WireCall.genuine at h
  cases he : call.envelope? C with
  | none =>
    rw [he] at h
    cases h
  | some e =>
    rw [he, Option.any_some] at h
    have hver : e.verify C.builtins C.hmac = .ok true := by
      cases hver : e.verify C.builtins C.hmac with
      | error exc =>
        rw [hver] at h
        cases h
      | ok verified =>
        rw [hver] at h
        exact congrArg Except.ok h
    refine ⟨e, rfl, hver, ?_⟩
    rw [step_of_some he, GossipEnd.taken, hver, lets, he, Option.bind_some]
    dsimp only [endAt]
    cases hcheck : ((p.filter (call.delivery e).side).check
        (GossipEnd.filterCall (call.delivery e).env e)).1 with
    | false => simp
    | true =>
      have henvelope : (call.delivery e).envelope = e := by cases call <;> rfl
      simp [hgen, Delivered.apply, henvelope]

/-! ## What a run delivers -/

theorem step_adapter (p : WireReplica K) (call : WireCall K) :
    (p.step C call).adapter = (p.lets C call).toList.foldl (Delivered.apply C) p.adapter := by
  cases hgen : call.genuine C with
  | false =>
    have hnone : p.lets C call = none := by
      unfold lets
      cases call.envelope? C <;> simp [hgen]
    rw [step_of_not_genuine hgen, hnone]
    rfl
  | true =>
    obtain ⟨e, -, -, hstep⟩ := step_of_genuine (p := p) hgen
    rw [hstep]
    cases p.lets C call <;> rfl

theorem run_adapter (p : WireReplica K) (calls : List (WireCall K)) :
    (p.run C calls).adapter = (p.delivered C calls).foldl (Delivered.apply C) p.adapter := by
  induction calls generalizing p with
  | nil => rfl
  | cons call calls ih =>
    rw [delivered, List.foldl_append, ← step_adapter]
    exact ih (p.step C call)

/-- Without what is not genuine, the run is the same. -/
theorem run_genuine (p : WireReplica K) (calls : List (WireCall K)) :
    p.run C calls = p.run C (calls.filter (WireCall.genuine C)) := by
  induction calls generalizing p with
  | nil => rfl
  | cons call calls ih =>
    cases hgen : call.genuine C with
    | false =>
      rw [List.filter_cons_of_neg (by simp [hgen]), ← ih p]
      exact congrArg (fun p => run C p calls) (step_of_not_genuine hgen)
    | true =>
      rw [List.filter_cons_of_pos hgen]
      exact ih (p.step C call)

theorem of_mem_lets {d : Delivered K} (h : d ∈ p.lets C call) : ∃ e, call.envelope? C = some e ∧
    call.genuine C = true ∧ d = call.delivery e ∧
    ((p.filter d.side).check (GossipEnd.filterCall d.env e)).1 = true := by
  obtain ⟨e, he, hd⟩ := Option.bind_eq_some_iff.1 h
  dsimp only at hd
  split_ifs at hd with hcond
  cases hd
  exact ⟨e, he, hcond.1, rfl, hcond.2⟩

/-- A step lets in, at its side, a number that side has not let in. -/
theorem step_keeps {accepted : Side → Text → List Int}
    (h : ∀ side, (p.filter side).Keeps (accepted side)) (call : WireCall K) :
    ∃ accepted' : Side → Text → List Int,
      (∀ side, ((p.step C call).filter side).Keeps (accepted' side)) ∧
      (∀ side s, accepted side s ⊆ accepted' side s) ∧
      ∀ d ∈ p.lets C call, d.key.2 ∈ accepted' d.side d.key.1 ∧
        d.key.2 ∉ accepted d.side d.key.1 := by
  cases hgen : call.genuine C with
  | false =>
    refine ⟨accepted, ?_, fun _ _ => List.Subset.refl _, fun d hd => ?_⟩
    · rw [step_of_not_genuine hgen]
      exact h
    · obtain ⟨e, -, hgen', -⟩ := of_mem_lets hd
      rw [hgen] at hgen'
      cases hgen'
  | true =>
    obtain ⟨e, he, -, hstep⟩ := step_of_genuine (p := p) hgen
    set side := (call.delivery e).side with hside
    set c := GossipEnd.filterCall (call.delivery e).env e with hc
    -- only the filter of the end that is called has changed
    have hchecked := (h side).check c
    refine ⟨Function.update accepted side fun s => (p.filter side).letsIn c s ++ accepted side s,
      fun side' => ?_, fun side' s => ?_, fun d hd => ?_⟩
    · rw [hstep, left]
      dsimp only
      by_cases hs : side' = side
      · subst hs
        rw [Function.update_self, Function.update_self]
        exact hchecked
      · rw [Function.update_of_ne hs, Function.update_of_ne hs]
        exact h side'
    · by_cases hs : side' = side
      · subst hs
        rw [Function.update_self]
        exact List.subset_append_right _ _
      · rw [Function.update_of_ne hs]
        exact List.Subset.refl _
    · obtain ⟨e', he', -, rfl, hin⟩ := of_mem_lets hd
      rw [he] at he'
      cases he'
      have henvelope : (call.delivery e).envelope = e := by cases call <;> rfl
      have hkey : (call.delivery e).key = (strip e.senderReplicaId, e.seqNo) := by
        rw [Delivered.key, henvelope]
      have hlets : (p.filter side).letsIn c (strip e.senderReplicaId) = [e.seqNo] := by
        unfold GossipFilter.letsIn
        exact if_pos ⟨hin, rfl⟩
      -- numbers let in are distinct, so this one had not been
      have hnodup := hchecked.nodup (strip e.senderReplicaId)
      rw [hlets] at hnodup
      rw [hkey, ← hside, Function.update_self, hlets]
      exact ⟨List.mem_append_left _ (List.mem_singleton_self _), (List.nodup_cons.1 hnodup).1⟩

/-- The keys of what is delivered at a side. -/
def keysAt (side : Side) (ds : List (Delivered K)) : List (Text × Int) :=
  (ds.filter fun d => d.side = side).map Delivered.key

theorem delivered_fresh (calls : List (WireCall K)) {p : WireReplica K}
    {accepted : Side → Text → List Int} (h : ∀ side, (p.filter side).Keeps (accepted side))
    (side : Side) : (keysAt side (p.delivered C calls)).Nodup ∧
      ∀ k ∈ keysAt side (p.delivered C calls), k.2 ∉ accepted side k.1 := by
  induction calls generalizing p accepted with
  | nil => exact ⟨List.nodup_nil, fun k hk => absurd hk List.not_mem_nil⟩
  | cons call calls ih =>
    obtain ⟨accepted', hkeeps, hsub, hnew⟩ := step_keeps h call
    obtain ⟨hnodup, hfresh⟩ := ih hkeeps
    have hrest : ∀ k ∈ keysAt side ((p.step C call).delivered C calls), k.2 ∉ accepted side k.1 :=
      fun k hk hmem => hfresh k hk (hsub side k.1 hmem)
    rw [delivered]
    cases hlets : p.lets C call with
    | none => exact ⟨hnodup, hrest⟩
    | some d =>
      obtain ⟨hin, hnotin⟩ := hnew d hlets
      by_cases hside : d.side = side
      · subst hside
        have hkeys : keysAt d.side ((some d).toList ++ (p.step C call).delivered C calls) =
            d.key :: keysAt d.side ((p.step C call).delivered C calls) := by
          simp [keysAt]
        rw [hkeys]
        refine ⟨List.nodup_cons.2 ⟨fun hmem => hfresh _ hmem hin, hnodup⟩, fun k hk => ?_⟩
        rcases List.mem_cons.1 hk with rfl | hk
        · exact hnotin
        · exact hrest k hk
      · have hkeys : keysAt side ((some d).toList ++ (p.step C call).delivered C calls) =
            keysAt side ((p.step C call).delivered C calls) := by
          simp [keysAt, hside]
        rw [hkeys]
        exact ⟨hnodup, hrest⟩

/-- What is delivered came off the wire, with a valid signature. -/
theorem delivered_genuine (calls : List (WireCall K)) {p : WireReplica K} {d : Delivered K}
    (hd : d ∈ p.delivered C calls) : ∃ call ∈ calls, ∃ e, call.envelope? C = some e ∧
      d = call.delivery e ∧ e.verify C.builtins C.hmac = .ok true := by
  induction calls generalizing p with
  | nil => cases hd
  | cons call calls ih =>
    rcases List.mem_append.1 hd with hd | hd
    · obtain ⟨e, he, hgen, hd, -⟩ := of_mem_lets (Option.mem_toList.1 hd)
      obtain ⟨e', he', hver, -⟩ := step_of_genuine (p := p) hgen
      rw [he] at he'
      cases he'
      exact ⟨call, List.mem_cons_self, e, he, hd, hver⟩
    · obtain ⟨call', hcall, hrest⟩ := ih hd
      exact ⟨call', List.mem_cons_of_mem _ hcall, hrest⟩

/-- **What comes off the wire.** A replica sent anything, in any order, does what it does of the
genuine envelopes alone: it applies some of them, and of each sender no number twice at one side. -/
theorem run_delivers (a : Adapter K) (maxClockSkewMs maxNonceCache maxSeqReorderWindow : Side → Int)
    (calls : List (WireCall K)) :
    let p : WireReplica K := ⟨a, fun side => .new (maxClockSkewMs side) (maxNonceCache side)
      (maxSeqReorderWindow side)⟩
    p.run C calls = p.run C (calls.filter (WireCall.genuine C)) ∧
      (p.run C calls).adapter = (p.delivered C calls).foldl (Delivered.apply C) a ∧
      (∀ d ∈ p.delivered C calls, ∃ call ∈ calls, ∃ e, call.envelope? C = some e ∧
        d = call.delivery e ∧ e.verify C.builtins C.hmac = .ok true) ∧
      ∀ side, (keysAt side (p.delivered C calls)).Nodup := by
  intro p
  have hkeeps : ∀ side, (p.filter side).Keeps (fun _ => []) :=
    fun side => GossipFilter.keeps_new _ _ _
  exact ⟨run_genuine p calls, run_adapter p calls, fun d hd => delivered_genuine calls hd,
    fun side => (delivered_fresh calls hkeeps side).1⟩

end WireReplica

end CksRuntime
