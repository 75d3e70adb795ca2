import CksRuntime.Core.Laws
import CksRuntime.Gossip.Proof.Clocks
import CksRuntime.Lib.Clocked

/-!
# Equal vectors, equal contents

The adapter never compares contents behind a vector that dominates. What a vector of a mesh stands
for is a log of the session's contents (`Explained`): each step that moves a replica's own clock
appends what the session has become, and a session holds the last content that its clocks know of.
A step that takes a snapshot's clocks without its content takes them over equivalent content
(`Clocked.current_join`).
-/

set_option autoImplicit false

namespace CksRuntime

open Transition Effect VersionVector GossipAdapter Clocked

variable {K : Core} {R : Type}

namespace Mesh

/-- How far a session has seen each replica. -/
def seen (replicaId : R → String) (s : Session K) (q : R) : Int := s.vector.get (replicaId q)

/-- The log's entries are commits already made, and it explains the content of everything the
session has been by the clocks alone. -/
structure Explained (replicaId : R → String) (sessionId : String) (w : Mesh K R)
    (log : List (Entry R Int K.Structure)) (initial : K.Structure) : Prop where
  clocks : ∀ e ∈ log, 0 < e.clock ∧ e.clock ≤ w.own replicaId sessionId e.writer
  contents : ∀ s ∈ w.history,
    K.structurallyEquivalent s.knowledgeStructure (current log initial (seen replicaId s))

variable {replicaId : R → String} {sessionId : String} {w : Mesh K R} {r : R}
  {log : List (Entry R Int K.Structure)} {initial : K.Structure}

/-- Whoever has absorbed a snapshot knows what it did, and what the snapshot did. -/
theorem knows_absorbed {s t : Session K} {e : Entry R Int K.Structure} (he : 0 < e.clock) :
    Knows (seen replicaId (GossipAdapter.absorbed s t)) e ↔
      Knows (seen replicaId s) e ∨ Knows (seen replicaId t) e := by
  have hget : seen replicaId (GossipAdapter.absorbed s t) e.writer =
      (s.vector.absorb t.vector).get (replicaId e.writer) := rfl
  unfold Knows
  rw [hget]
  by_cases hk : replicaId e.writer ∈ t.vector.clocks
  · rw [get_absorb_of_mem _ hk]
    exact le_max_iff
  · have hzero : seen replicaId t e.writer = 0 := get_of_notMem hk
    rw [get_absorb_of_notMem _ hk, hzero]
    exact ⟨.inl, fun h => h.resolve_right (by omega)⟩

/-- Vectors that dominate each other know the same commits. -/
theorem seen_eq_of_dominates {s t : Session K} (hst : s.vector.dominates t.vector)
    (hts : t.vector.dominates s.vector) (q : R) (hs : 0 ≤ seen replicaId s q)
    (ht : 0 ≤ seen replicaId t q) : seen replicaId s q = seen replicaId t q := by
  have hle := (dominates_iff.1 hst).2 (replicaId q)
  have hge := (dominates_iff.1 hts).2 (replicaId q)
  unfold seen at *
  by_cases hks : replicaId q ∈ s.vector.clocks <;> by_cases hkt : replicaId q ∈ t.vector.clocks
  · exact le_antisymm (hge hks) (hle hkt)
  · have := hge hks
    rw [get_of_notMem hkt] at *
    omega
  · have := hle hkt
    rw [get_of_notMem hks] at *
    omega
  · rw [get_of_notMem hks, get_of_notMem hkt]

/-- What the session has been is decided by the clocks it had of the replicas. -/
theorem Explained.equivalent (hK : K.EquivalenceLaw)
    (h : Explained replicaId sessionId w log initial) {s t : Session K} (hs : s ∈ w.history)
    (ht : t ∈ w.history) (hseen : seen replicaId s = seen replicaId t) :
    K.structurallyEquivalent s.knowledgeStructure t.knowledgeStructure := by
  have hcs := h.contents s hs
  rw [hseen] at hcs
  exact hK.trans hcs (hK.symm (h.contents t ht))

/-! ## The steps -/

variable [DecidableEq R] {a : Adapter K}

/-- A new state of the session whose own clock has not moved. -/
theorem Explained.same (h : Explained replicaId sessionId w log initial)
    (hle : ∀ q, w.own replicaId sessionId q ≤ (w.after sessionId r a).own replicaId sessionId q)
    (hnew : ∀ s' ∈ a.node.sessions sessionId,
      K.structurallyEquivalent s'.knowledgeStructure (current log initial (seen replicaId s'))) :
    Explained replicaId sessionId (w.after sessionId r a) log initial := by
  refine ⟨fun e he => ⟨(h.clocks e he).1, (h.clocks e he).2.trans (hle e.writer)⟩, fun s hs => ?_⟩
  rcases List.mem_append.1 hs with hs | hs
  · exact h.contents s hs
  · exact hnew s (Option.mem_toList.1 hs)

/-- A commit: an entry nobody else knows. -/
theorem Explained.committed (hK : K.EquivalenceLaw)
    (h : Explained replicaId sessionId w log initial) (hinv : Inv replicaId sessionId w)
    (hle : ∀ q, w.own replicaId sessionId q ≤ (w.after sessionId r a).own replicaId sessionId q)
    {s' : Session K} (hs' : a.node.sessions sessionId = some s')
    (hlt : w.own replicaId sessionId r < s'.vector.get (replicaId r)) :
    Explained replicaId sessionId (w.after sessionId r a)
      (log ++ [⟨r, s'.vector.get (replicaId r), s'.knowledgeStructure⟩]) initial := by
  have hown : (w.after sessionId r a).own replicaId sessionId r = s'.vector.get (replicaId r) :=
    own_of_some (session_after_self.trans hs')
  refine ⟨fun e he => ?_, fun s hs => ?_⟩
  · rcases List.mem_append.1 he with he | he
    · exact ⟨(h.clocks e he).1, (h.clocks e he).2.trans (hle e.writer)⟩
    · rw [List.mem_singleton.1 he]
      exact ⟨(hinv.own_nonneg r).trans_lt hlt, hown.ge⟩
  · rcases List.mem_append.1 hs with hs | hs
    · rw [current_snoc_of_not]
      · exact h.contents s hs
      · intro hknows
        exact absurd (hknows.trans ((hinv.held s hs).2 r).2.2) (not_le.2 hlt)
    · rw [Option.mem_toList, hs'] at hs
      cases hs
      rw [current_snoc_of_knows le_rfl]
      exact hK.refl _

/-- Whatever the session has been is explained: nothing, before it is created. -/
def Explicable (replicaId : R → String) (sessionId : String) (w : Mesh K R) : Prop :=
  w.history = [] ∨ ∃ log initial, Explained replicaId sessionId w log initial

theorem Moved.explicable (hK : K.EquivalenceLaw) (hinv : Inv replicaId sessionId w)
    (hm : Moved replicaId sessionId w r (a.node.sessions sessionId) true)
    (h : Explicable replicaId sessionId w) :
    Explicable replicaId sessionId (w.after sessionId r a) := by
  have hle := hm.own_le hinv
  cases hnew : a.node.sessions sessionId with
  | none =>
    have hnone : ∀ s' ∈ a.node.sessions sessionId, False := by
      rw [hnew]
      exact fun s' hs' => by cases hs'
    rcases h with hnil | ⟨log, initial, h⟩
    · refine .inl ?_
      rw [after, hnil, hnew]
      rfl
    · exact .inr ⟨log, initial, h.same hle fun s' hs' => (hnone s' hs').elim⟩
  | some s' =>
    -- a session nobody has had is explained by any first content
    have hempty : w.history = [] → Explained replicaId sessionId w [] s'.knowledgeStructure := by
      intro hnil
      refine ⟨fun e he => absurd he List.not_mem_nil, fun s hs => ?_⟩
      rw [hnil] at hs
      exact absurd hs List.not_mem_nil
    have hw : ∃ log initial, Explained replicaId sessionId w log initial :=
      h.elim (fun hnil => ⟨_, _, hempty hnil⟩) id
    have hsame : ∀ {log initial}, Explained replicaId sessionId w log initial →
        K.structurallyEquivalent s'.knowledgeStructure (current log initial (seen replicaId s')) →
        Explicable replicaId sessionId (w.after sessionId r a) := by
      intro log initial h hs'
      refine .inr ⟨log, initial, h.same hle fun s hs => ?_⟩
      rw [hnew] at hs
      cases hs
      exact hs'
    rw [hnew] at hm
    cases hm with
    | created hnil => exact hsame (hempty hnil) (hK.refl _)
    | @kept _ s _ hs hsnap =>
      obtain ⟨log, initial, h⟩ := hw
      refine hsame h ?_
      have hseen : seen replicaId s' = seen replicaId s := by
        funext q
        rw [seen, hsnap.vector, seen]
      rw [hsnap.knowledgeStructure, hseen]
      exact h.contents s (hinv.recorded r s hs)
    | @absorbed _ s _ t hs ht heq hid hks hmeta =>
      obtain ⟨log, initial, h⟩ := hw
      refine hsame h ?_
      have hseen : seen replicaId s' = seen replicaId (GossipAdapter.absorbed s t) := by
        funext q
        rw [seen, Session.vector, hmeta, seen, Session.vector]
      have hcs := h.contents s (hinv.recorded r s hs)
      rw [hks, hseen]
      have hjoin : current log initial (seen replicaId (GossipAdapter.absorbed s t)) =
            current log initial (seen replicaId s) ∨
          current log initial (seen replicaId (GossipAdapter.absorbed s t)) =
            current log initial (seen replicaId t) :=
        current_join fun e he => knows_absorbed (h.clocks e he).1
      rcases hjoin with hcur | hcur
      · rw [hcur]
        exact hcs
      · rw [hcur]
        exact hK.trans heq (h.contents t ht)
    | committed hid hc =>
      obtain ⟨log, initial, h⟩ := hw
      have hlt : w.own replicaId sessionId r < s'.vector.get (replicaId r) := hc.own
      exact .inr ⟨_, _, h.committed hK hinv hle hnew hlt⟩

theorem explicable_reachable (hK : K.EquivalenceLaw) (hinj : Function.Injective replicaId)
    (hr : ((system K replicaId sessionId).restrict (Returns sessionId)).Reachable w) :
    Explicable replicaId sessionId w := by
  refine hr.invariant (fun w hi => .inl hi.1) fun w l w' hw h hst => ?_
  have hinv := inv_reachable hinj hw.of_restrict
  obtain ⟨r, a, b, rfl, -, -, hmoved, hret, -⟩ := step_moved hinj hinv hst.1
  rw [hret hst.2] at hmoved
  exact hmoved.explicable hK hinv h

theorem equivalent_of_seen (hK : K.EquivalenceLaw) (hinj : Function.Injective replicaId)
    (hr : ((system K replicaId sessionId).restrict (Returns sessionId)).Reachable w)
    {s t : Session K} (hs : s ∈ w.history) (ht : t ∈ w.history)
    (hseen : seen replicaId s = seen replicaId t) :
    K.structurallyEquivalent s.knowledgeStructure t.knowledgeStructure := by
  rcases explicable_reachable hK hinj hr with hnil | ⟨log, initial, h⟩
  · rw [hnil] at hs
    exact absurd hs List.not_mem_nil
  · exact h.equivalent hK hs ht hseen

end Mesh

/-! ## A delivery that changes nothing -/

namespace GossipAdapter

variable {env : GossipEnv K} {s remote : Session K} {a a' : Adapter K}

theorem escalate_ok {probe : ExecutionResult K} {b : Bool}
    (h : escalate env s remote probe a = .ok b a') : b = false := by
  rw [escalate, bind_get_run] at h
  split at h
  · cases h
    rfl
  · rw [bind_eq_ok] at h
    obtain ⟨branchId, a₁, -, h⟩ := h
    rw [bind_modify_run, bind_eq_ok] at h
    obtain ⟨u, a₂, -, h⟩ := h
    cases h
    rfl

/-- A merge that returns `True` has committed. -/
theorem merge_true (hreg : a.node.sessions s.sessionId = some s)
    (hff : ¬remote.vector.dominates s.vector) (h : merge env s remote a = .ok true a') :
    ∃ s', a'.node.sessions s.sessionId = some s' ∧
      s'.metadata = Pipeline.bumpMetadata a.node.replicaId s.metadata := by
  rw [merge, bind_get_run] at h
  have hprobe := probe_session hff a.node.shared.storage
  set r := OperationExecutor.execute (mergeOperation remote) a.node.shared.storage s with hr
  obtain ⟨probe, s'⟩ := r
  dsimp only at hprobe h
  replace hprobe := hprobe.symm
  subst hprobe
  have hsame : a.node.registered s = a.node := by
    rw [Node.registered, Function.update_eq_self_iff.2 hreg.symm]
  rw [bind_run, runtime_run, Runtime.register_run, hsame] at h
  dsimp only at h
  split at h
  · cases escalate_ok h
  · obtain ⟨hnode, -, hret⟩ := resolved_run remote.sessionId
      (commitTransaction env s [mergeOperation remote]) a
    have hleaves := commitTransaction_leaves env [mergeOperation remote] hreg fun op hop hf => by
      rw [List.mem_singleton] at hop
      subst hop
      exact not_fastForwards_merge hff hf
    rw [← hnode, ← hret, h] at hleaves
    obtain ⟨s', hs', -, hm⟩ := hleaves.session
    refine ⟨s', hs', hm.resolve_right fun hm => ?_⟩
    cases hm.1

/-- A delivery that returns `True` and leaves the session as it was has found the contents
equivalent, or the snapshot's vector dominated. -/
theorem reconcile_idle (hreg : a.node.sessions s.sessionId = some s)
    (hrep : a.node.replicaId.isSome) (h : reconcile env s remote a = .ok true a')
    (hsame : a'.node.sessions s.sessionId = some s) :
    K.structurallyEquivalent s.knowledgeStructure remote.knowledgeStructure ∨
      s.vector.dominates remote.vector := by
  by_contra hne
  rw [not_or] at hne
  unfold reconcile at h
  rw [if_neg hne.1, if_neg hne.2] at h
  split at h
  · rename_i hdom
    obtain ⟨hnode, -, hret⟩ := resolved_run remote.sessionId (fastForward env s remote) a
    have hleaves := fastForward_metadata env s remote a.node
    rw [← hnode, ← hret, h] at hleaves
    obtain ⟨s', hs', -, hm⟩ := hleaves.session
    rw [stateOf_ok, hsame] at hs'
    cases hs'
    have hlt : s.vector < fromMetadata (absorbed s remote).metadata := lt_absorb ⟨hne.2, hdom⟩
    rcases hm with hm | hm
    · have hbump := hlt.trans_le (le_bumpMetadata a.node.replicaId _)
      rw [← hm] at hbump
      exact lt_irrefl _ hbump
    · cases hm.1
  · rename_i hdom
    obtain ⟨s', hs', hm⟩ := merge_true hreg hdom h
    rw [hsame] at hs'
    cases hs'
    have hlt : s.vector < fromMetadata (Pipeline.bumpMetadata a.node.replicaId s.metadata) :=
      lt_bumpMetadata (.inr hrep)
    rw [← hm] at hlt
    exact lt_irrefl _ hlt

theorem apply_idle (hs : a.node.sessions remote.sessionId = some s)
    (hid : s.sessionId = remote.sessionId) (hrep : a.node.replicaId.isSome)
    (h : applyRemoteSession env remote a = .ok true a')
    (hsame : a'.node.sessions remote.sessionId = some s) :
    K.structurallyEquivalent s.knowledgeStructure remote.knowledgeStructure ∨
      s.vector.dominates remote.vector := by
  rw [apply_run] at h
  cases hcrdt : env.crdtFault with
  | some exc =>
    rw [hcrdt] at h
    cases h
  | none =>
    rw [hcrdt, hs] at h
    dsimp only [Option.elim] at h
    rw [← hid] at hs hsame
    split at h
    · rw [bind_eq_ok] at h
      obtain ⟨u, a₁, -, h⟩ := h
      cases h
    · exact reconcile_idle (a := { a with
        pendingDuplicateIds := Function.update a.pendingDuplicateIds remote.sessionId ∅ })
        hs hrep h hsame

end GossipAdapter

/-! ## Main result -/

namespace Mesh

variable {replicaId : R → String} {sessionId : String} {w : Mesh K R}

theorem ignores_cases (h : Inv replicaId sessionId w) {r q : R} {s t : Session K}
    (hs : w.session sessionId r = some s) (ht : w.session sessionId q = some t)
    (hi : Ignores sessionId w r q) :
    K.structurallyEquivalent s.knowledgeStructure t.knowledgeStructure ∨
      s.vector.dominates t.vector := by
  obtain ⟨s', hs', t', ht', env, remote, a, hsnap, happly, hsame⟩ := hi
  rw [hs] at hs'
  rw [ht] at ht'
  cases hs'
  cases ht'
  have hremote : remote.sessionId = sessionId :=
    hsnap.sessionId.trans (h.held t (h.recorded q t ht)).1
  rw [← hsnap.knowledgeStructure, ← hsnap.vector]
  refine apply_idle ?_ ?_ ?_ happly ?_
  · rw [hremote]
    exact hs
  · exact (h.held s (h.recorded r s hs)).1.trans hremote.symm
  · rw [(h.replica r).2]
    rfl
  · rw [hremote]
    exact hsame

variable [DecidableEq R]

/-- **No silent divergence.** Whatever the session has been anywhere, at equal vectors it was the
same; so two replicas that have nothing left to tell each other hold the same. -/
theorem no_silent_divergence (hK : K.EquivalenceLaw) (hinj : Function.Injective replicaId)
    (hr : ((system K replicaId sessionId).restrict (Returns sessionId)).Reachable w) :
    (∀ s ∈ w.history, ∀ t ∈ w.history, s.vector = t.vector →
      K.structurallyEquivalent s.knowledgeStructure t.knowledgeStructure) ∧
    ∀ r q, ∀ s ∈ w.session sessionId r, ∀ t ∈ w.session sessionId q,
      Ignores sessionId w r q → Ignores sessionId w q r →
        K.structurallyEquivalent s.knowledgeStructure t.knowledgeStructure := by
  have h := inv_reachable hinj hr.of_restrict
  refine ⟨fun s hs t ht hv => equivalent_of_seen hK hinj hr hs ht ?_,
    fun r q s hs t ht hrq hqr => ?_⟩
  · funext k
    rw [seen, hv, seen]
  · have hs' := h.recorded r s hs
    have ht' := h.recorded q t ht
    rcases ignores_cases h hs ht hrq with heq | hst
    · exact heq
    · rcases ignores_cases h ht hs hqr with heq | hts
      · exact hK.symm heq
      · refine equivalent_of_seen hK hinj hr hs' ht' (funext fun k => ?_)
        exact seen_eq_of_dominates hst hts k ((h.held s hs').2 k).2.1 ((h.held t ht').2 k).2.1

/-! ## Two replicas in step -/

/-- What `a` holds. -/
def inStepAtA : Session Core.register := (pairInStep.session "s" true).get (by decide)

/-- Their vectors are equal, and so are their registers. -/
theorem no_silent_divergence_inStep :
    inStepAtA.vector = adoptedAtB.vector ∧
      Core.register.structurallyEquivalent inStepAtA.knowledgeStructure
        adoptedAtB.knowledgeStructure = true := by
  have hr := pairInStep_reachable.mono fun _ _ h => h.2
  have h := inv_reachable pairId_injective hr.of_restrict
  have ha : pairInStep.session "s" true = some inStepAtA := (Option.some_get _).symm
  have hb : pairInStep.session "s" false = some adoptedAtB :=
    (session_after_ne (by decide)).trans pairAdopted_session
  have hclocks : inStepAtA.vector.clocks = adoptedAtB.vector.clocks := by decide
  have hv : inStepAtA.vector = adoptedAtB.vector := congrArg VersionVector.mk hclocks
  exact ⟨hv, (no_silent_divergence register_equivalenceLaw pairId_injective hr).1 inStepAtA
    (h.recorded true _ ha) adoptedAtB (h.recorded false _ hb) hv⟩

end Mesh

end CksRuntime
