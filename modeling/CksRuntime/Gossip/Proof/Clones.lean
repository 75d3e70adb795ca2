import CksRuntime.Gossip.Clones
import CksRuntime.Gossip.Proof.Clocks

/-!
# The guard and clones

A clone's own clock only goes up, by one with every commit that merges nothing in (`Path.clock_le`,
`Path.clock_eq`). The guard looks for a clock ahead of its own, or level with it: so it sees the
other clone from both sides exactly when the two are level (`clones_refused_iff`).
-/

set_option autoImplicit false

namespace CksRuntime

open Transition Effect VersionVector GossipAdapter

variable {K : Core}

namespace GossipAdapter

variable {env : GossipEnv K} {s remote : Session K} {a : Adapter K}

/-! ## A delivery -/

theorem resolved_pendingDuplicateIds {α : Type} (sessionId : String) (call : RuntimeM K α)
    (a : Adapter K) :
    (stateOf (resolved sessionId call a)).pendingDuplicateIds = a.pendingDuplicateIds := by
  rw [resolved, bind_run, runtime_run]
  cases call a.node <;> rfl

theorem escalate_pendingDuplicateIds (probe : ExecutionResult K) (a : Adapter K) :
    (stateOf (escalate env s remote probe a)).pendingDuplicateIds = a.pendingDuplicateIds := by
  rw [escalate, bind_get_run]
  split
  · rfl
  · obtain ⟨branchId, hrun⟩ := registerConflictBranch_run env s remote a
    rw [bind_of_ok hrun, bind_modify_run, stateOf_bind_pure, stateOf_runtime]

theorem reconcile_pendingDuplicateIds (env : GossipEnv K) (s remote : Session K) (a : Adapter K) :
    (stateOf (reconcile env s remote a)).pendingDuplicateIds = a.pendingDuplicateIds := by
  unfold reconcile
  split
  · exact resolved_pendingDuplicateIds _ _ a
  split
  · exact resolved_pendingDuplicateIds _ _ a
  split
  · exact resolved_pendingDuplicateIds _ _ a
  rw [merge, bind_get_run]
  obtain ⟨probe, s'⟩ := OperationExecutor.execute (mergeOperation remote) a.node.shared.storage s
  dsimp only
  rw [bind_run, runtime_run, Runtime.register_run]
  dsimp only
  split
  · exact escalate_pendingDuplicateIds probe _
  · exact resolved_pendingDuplicateIds _ _ _

/-- The guard refuses what it detects, and nothing else is refused as a duplicate. -/
theorem refusedAsDuplicate_iff (hs : a.node.sessions remote.sessionId = some s) :
    RefusedAsDuplicate env remote a ↔
      duplicateIdDetected a.replicaId s remote ∧ Tells env s remote a := by
  unfold RefusedAsDuplicate Tells
  rw [apply_run]
  cases hcrdt : env.crdtFault with
  | some exc => simp
  | none =>
    rw [hs]
    dsimp only [Option.elim]
    by_cases hdup : duplicateIdDetected a.replicaId s remote
    · rw [if_pos hdup, reportDuplicateId, bind_run, bind_get_run]
      by_cases hold : remote.vector.get a.replicaId ∈ a.pendingDuplicateIds remote.sessionId
      · simp only [pure_run, hold, hdup, true_or, and_self, iff_true]
        exact ⟨a, rfl, rfl, hold⟩
      · rw [if_neg hold, bind_modify_run, runtime_run, Runtime.publish_run]
        cases env.pipeline.subscriber (.duplicateReplicaIdDetected remote.sessionId a.replicaId
            (s.vector.get a.replicaId) (remote.vector.get a.replicaId)) with
        | none => simp [hdup, Node.published]
        | some exc => simp [hold]
    · rw [if_neg hdup]
      refine iff_of_false ?_ fun h => hdup h.1
      rintro ⟨a', hrun, -, hmem⟩
      have hpending := reconcile_pendingDuplicateIds env s remote { a with
        pendingDuplicateIds := Function.update a.pendingDuplicateIds remote.sessionId ∅ }
      rw [hrun, stateOf_ok] at hpending
      rw [hpending] at hmem
      simp at hmem

end GossipAdapter

/-! ## A run -/

/-- What a call leaves of the session `s`. -/
structure CloneMoved (replicaId sessionId : String) (a : Adapter K) (s : Session K)
    (call : CloneCall K) (a' : Adapter K) (s' : Session K) : Prop where
  replica : a'.replicaId = a.replicaId ∧ a'.node.replicaId = a.node.replicaId
  session : a'.node.sessions sessionId = some s'
  sessionId : s'.sessionId = s.sessionId
  nodeId : s'.metadata.nodeId = s.metadata.nodeId
  clock_le : s.vector.get replicaId + call.commits.toNat ≤ s'.vector.get replicaId
  clock_eq : call.Plain → s.metadata.nodeId ≠ some replicaId →
    s'.vector.get replicaId = s.vector.get replicaId + call.commits.toNat

/-- Items that merge nothing in leave the metadata alone. -/
theorem itemsMetadata_of_no_sources {registry : OperationRegistry K} {tx : Transaction K}
    (hsources : ∀ source, ¬tx.Sources registry source) {done : List (Item K)}
    (hdone : ∀ x ∈ done, x ∈ tx.items) (m : Metadata) : itemsMetadata registry done m = m := by
  refine itemsMetadata_of_not fun x hx hf => ?_
  obtain ⟨op, hop, source, hsource, -⟩ := hf
  exact hsources source ⟨x, hdone x hx, op, hop, hsource⟩

theorem CloneStep.moved {replicaId sessionId : String} {a a' : Adapter K} {call : CloneCall K}
    (h : CloneStep sessionId a call a') (hrep : a.node.replicaId = some replicaId) {s : Session K}
    (hs : a.node.sessions sessionId = some s) :
    ∃ s', CloneMoved replicaId sessionId a s call a' s' := by
  cases h with
  | elsewhere hrep' hnode hsame =>
    rw [hs] at hsame
    cases hnew : a'.node.sessions sessionId with
    | none => rw [hnew] at hsame; cases hsame
    | some s' =>
      rw [hnew] at hsame
      cases hsame with
      | some hsnap =>
        have hvec := hsnap.vector
        exact ⟨s', ⟨hrep', hnode⟩, hnew, hsnap.sessionId, by rw [hsnap.metadata],
          by simp [hvec, CloneCall.commits], fun _ _ => by simp [hvec, CloneCall.commits]⟩
  | @commit env tx s₀ n b hs₀ henv hn hb =>
    cases hs.symm.trans hs₀
    rw [Runtime.stateOf_onSession] at hn
    rw [returned_onSession] at hb
    obtain ⟨done, hdone, ks, metadata, ds, history, active, hses, hmeta⟩ :=
      Pipeline.commit_session env ⟨s, tx, a.node.shared⟩
    subst hn hb
    rw [henv, hrep] at hmeta
    dsimp only at hmeta
    set s' := (stateOf (Pipeline.commit env ⟨s, tx, a.node.shared⟩)).session
    have hvec : s'.vector = fromMetadata metadata := by rw [Session.vector, hses]
    have hle : s.vector.get replicaId ≤
        (fromMetadata (itemsMetadata env.registry done s.metadata)).get replicaId :=
      get_mono (le_itemsMetadata env.registry done s.metadata) replicaId
    refine ⟨s', ⟨rfl, rfl⟩, Function.update_self _ _ _, by rw [hses], ?_, ?_, ?_⟩
    · rw [hses]
      rcases hmeta with rfl | ⟨-, rfl⟩
      · rw [nodeId_bumpMetadata, nodeId_itemsMetadata]
      · rw [nodeId_itemsMetadata]
    · rw [hvec, CloneCall.commits]
      rcases hmeta with rfl | ⟨hret, rfl⟩
      -- the bump counts, also where the commit then raises
      · have hone := Bool.toNat_le (returned (Pipeline.commit env ⟨s, tx, a.node.shared⟩))
        rw [vector_bumpMetadata, get_bumpVector, if_pos rfl]
        split <;> omega
      · rw [hret]
        simpa using hle
    -- a plain commit counts once, if it bumps the replica's component
    · rintro ⟨hret, hsources⟩ hnode
      rw [itemsMetadata_of_no_sources hsources hdone] at hmeta
      rw [hvec, CloneCall.commits, hret]
      rcases hmeta with rfl | ⟨hret', -⟩
      · rw [vector_bumpMetadata, get_bumpVector, if_pos rfl, if_neg hnode, Int.add_zero]
        rfl
      · rw [hret] at hret'
        cases hret'

variable {replicaId : String} {snapshot : Session K} {a a' b b' : Adapter K}
  {ls ms : List (CloneCall K)}

/-- A clone after a run, by what it started with. -/
structure CloneRun (replicaId : String) (snapshot : Session K) (ls : List (CloneCall K))
    (a : Adapter K) (s : Session K) : Prop where
  replica : a.replicaId = replicaId ∧ a.node.replicaId = some replicaId
  session : a.node.sessions snapshot.sessionId = some s
  sessionId : s.sessionId = snapshot.sessionId
  clock_le : snapshot.vector.get replicaId + ls.countP CloneCall.commits ≤ s.vector.get replicaId
  clock_eq : (∀ call ∈ ls, call.Plain) → s.metadata.nodeId ≠ some replicaId →
    s.vector.get replicaId = snapshot.vector.get replicaId + ls.countP CloneCall.commits

theorem clone_run (hi : (clone replicaId snapshot).init a)
    (h : (clone replicaId snapshot).Path a ls a') : ∃ s, CloneRun replicaId snapshot ls a' s := by
  induction h with
  | refl =>
    obtain ⟨hrep, hnode, s, hs, hid, -, hvec⟩ := hi
    exact ⟨s, ⟨hrep, hnode⟩, hs, hid, by simp [hvec], fun _ _ => by simp [hvec]⟩
  | @tail _ _ ls call _ hst ih =>
    obtain ⟨s, ih⟩ := ih
    obtain ⟨s', hmoved⟩ := CloneStep.moved hst ih.replica.2 ih.session
    have hcount : (ls ++ [call]).countP CloneCall.commits =
        ls.countP CloneCall.commits + call.commits.toNat := by
      rw [List.countP_append, List.countP_singleton]
      cases call.commits <;> rfl
    refine ⟨s', ⟨hmoved.replica.1.trans ih.replica.1, hmoved.replica.2.trans ih.replica.2⟩,
      hmoved.session, hmoved.sessionId.trans ih.sessionId, ?_, fun hplain hnode => ?_⟩
    · have hle := hmoved.clock_le
      have hle' := ih.clock_le
      rw [hcount]
      omega
    · rw [hmoved.nodeId] at hnode
      have heq := hmoved.clock_eq (hplain call (by simp)) hnode
      have heq' := ih.clock_eq (fun call hcall => hplain call (by simp [hcall])) hnode
      rw [hcount]
      omega

/-! ## Both directions -/

theorem clones_refused_iff (hK : K.EquivalenceLaw) (hstart : 0 ≤ snapshot.vector.get replicaId)
    (ha : (clone replicaId snapshot).init a) (hb : (clone replicaId snapshot).init b)
    (hrun : (clone replicaId snapshot).Path a ls a')
    (hrun' : (clone replicaId snapshot).Path b ms b')
    (hcommits : 0 < ls.countP CloneCall.commits)
    {s t : Session K} (hs : a'.node.sessions snapshot.sessionId = some s)
    (ht : b'.node.sessions snapshot.sessionId = some t)
    (hdiff : ¬K.structurallyEquivalent s.knowledgeStructure t.knowledgeStructure)
    {env env' : GossipEnv K} {remote remote' : Session K} (hremote : SnapshotOf t remote)
    (hremote' : SnapshotOf s remote') :
    (RefusedAsDuplicate env remote a' ∧ RefusedAsDuplicate env' remote' b' ↔
      s.vector.get replicaId = t.vector.get replicaId ∧
        Tells env s remote a' ∧ Tells env' t remote' b') ∧
    ((∀ call ∈ ls ++ ms, call.Plain) → s.metadata.nodeId ≠ some replicaId →
      t.metadata.nodeId ≠ some replicaId →
        (s.vector.get replicaId = t.vector.get replicaId ↔
          ls.countP CloneCall.commits = ms.countP CloneCall.commits)) := by
  obtain ⟨s₁, hA⟩ := clone_run ha hrun
  cases hs.symm.trans hA.session
  obtain ⟨t₁, hB⟩ := clone_run hb hrun'
  cases ht.symm.trans hB.session
  have hdiff' : ¬K.structurallyEquivalent t.knowledgeStructure s.knowledgeStructure := fun h =>
    hdiff (hK.symm h)
  have hA' : a'.node.sessions remote.sessionId = some s := by
    rw [hremote.sessionId, hB.sessionId]
    exact hs
  have hB' : b'.node.sessions remote'.sessionId = some t := by
    rw [hremote'.sessionId, hA.sessionId]
    exact ht
  have hle := hA.clock_le
  have hle' := hB.clock_le
  refine ⟨?_, fun hplain hnode hnode' => ?_⟩
  · rw [refusedAsDuplicate_iff hA', refusedAsDuplicate_iff hB', duplicateIdDetected,
      duplicateIdDetected, hremote.vector, hremote'.vector, hremote.knowledgeStructure,
      hremote'.knowledgeStructure, hA.replica.1, hB.replica.1]
    constructor
    · rintro ⟨⟨hdup, htells⟩, hdup', htells'⟩
      refine ⟨?_, htells, htells'⟩
      -- each is at least as far as the other, so neither refusal is of the first kind
      rcases hdup with hlt | ⟨-, heq, -⟩
      · rcases hdup' with hlt' | ⟨-, heq', -⟩ <;> omega
      · exact heq.symm
    · rintro ⟨heq, htells, htells'⟩
      exact ⟨⟨.inr ⟨by omega, heq.symm, hdiff⟩, htells⟩, .inr ⟨by omega, heq, hdiff'⟩, htells'⟩
  · have heq := hA.clock_eq (fun call hcall => hplain call (List.mem_append_left _ hcall)) hnode
    have heq' := hB.clock_eq (fun call hcall => hplain call (List.mem_append_right _ hcall)) hnode'
    omega

/-! ## Two clones -/

/-- The session both were cloned with; its `node_id` is the clone's own. -/
def clonedSession (nodeId : String) : Session Core.register :=
  { SessionManager.newSession "s" nodeId (0 : Nat) with
    parentVersionId := some EMPTY_STATE_VERSION_ID }

/-- A clone that has done nothing. -/
def clonedAdapter (nodeId : String) : Adapter Core.register where
  node := {
    replicaId := some "a"
    sessions := Function.update (fun _ => none) "s" (some (clonedSession nodeId)) }
  replicaId := "a"

/-- A clone that holds `s` has set the register. -/
def cloneSet (a : Adapter Core.register) (s : Session Core.register) (versionId : String) (n : Nat) :
    Adapter Core.register :=
  { a with
    node := stateOf (Runtime.onSession "s" s (Mesh.setTo n)
      (Pipeline.commit (Mesh.pairEnv true versionId)) a.node) }

/-- The first has set the register. -/
def cloneA : Adapter Core.register := cloneSet (clonedAdapter "n") (clonedSession "n") "v1" 5

/-- What it holds. -/
def heldByA : Session Core.register := (cloneA.node.sessions "s").get (by decide)

/-- It has set the register back. -/
def cloneA' : Adapter Core.register := cloneSet cloneA heldByA "v2" 0

/-- What it holds then. -/
def heldByA' : Session Core.register := (cloneA'.node.sessions "s").get (by decide)

/-- The second has set it to another value. -/
def cloneB : Adapter Core.register := cloneSet (clonedAdapter "m") (clonedSession "m") "v3" 7

/-- What it holds. -/
def heldByB : Session Core.register := (cloneB.node.sessions "s").get (by decide)

theorem clonedAdapter_init (nodeId : String) :
    (clone "a" (clonedSession "n")).init (clonedAdapter nodeId) :=
  ⟨rfl, rfl, clonedSession nodeId, rfl, rfl, rfl, rfl⟩

theorem cloneA_path : (clone "a" (clonedSession "n")).Path (clonedAdapter "n")
    [.commit (Mesh.pairEnv true "v1") (Mesh.setTo 5) true] cloneA :=
  .tail (.refl _) (.commit _ _ rfl rfl rfl (by decide))

theorem cloneA'_path : (clone "a" (clonedSession "n")).Path (clonedAdapter "n")
    [.commit (Mesh.pairEnv true "v1") (Mesh.setTo 5) true,
      .commit (Mesh.pairEnv true "v2") (Mesh.setTo 0) true] cloneA' :=
  .tail cloneA_path (.commit (s := heldByA) _ _ (Option.some_get _).symm rfl rfl (by decide))

theorem cloneB_path : (clone "a" (clonedSession "n")).Path (clonedAdapter "m")
    [.commit (Mesh.pairEnv true "v3") (Mesh.setTo 7) true] cloneB :=
  .tail (.refl _) (.commit _ _ rfl rfl rfl (by decide))

theorem cloneA_session : cloneA.node.sessions "s" = some heldByA := (Option.some_get _).symm

theorem cloneA'_session : cloneA'.node.sessions "s" = some heldByA' := (Option.some_get _).symm

theorem cloneB_session : cloneB.node.sessions "s" = some heldByB := (Option.some_get _).symm

/-- Of one commit each, both directions are refused. -/
theorem clones_refused_level :
    RefusedAsDuplicate (Mesh.pairGossip "v4" "k") heldByB cloneA ∧
      RefusedAsDuplicate (Mesh.pairGossip "v5" "l") heldByA cloneB :=
  (clones_refused_iff register_equivalenceLaw (by decide) (clonedAdapter_init "n")
    (clonedAdapter_init "m") cloneA_path cloneB_path (by decide) cloneA_session
    cloneB_session (by decide) ⟨rfl, rfl, rfl⟩ ⟨rfl, rfl, rfl⟩).1.2
    ⟨by decide, ⟨rfl, .inr rfl⟩, rfl, .inr rfl⟩

/-- A clone that has committed twice merges in what the other has committed once. -/
theorem clone_merged :
    (∃ ls, (clone "a" (clonedSession "n")).Path (clonedAdapter "n") ls cloneA' ∧
      0 < ls.countP CloneCall.commits) ∧
    (∃ ms, (clone "a" (clonedSession "n")).Path (clonedAdapter "m") ms cloneB ∧
      0 < ms.countP CloneCall.commits) ∧
    cloneA'.node.sessions "s" = some heldByA' ∧ cloneB.node.sessions "s" = some heldByB ∧
    ¬Core.register.structurallyEquivalent heldByA'.knowledgeStructure heldByB.knowledgeStructure ∧
    ¬RefusedAsDuplicate (Mesh.pairGossip "v4" "k") heldByB cloneA' ∧
    ((stateOf (applyRemoteSession (Mesh.pairGossip "v4" "k") heldByB
      cloneA')).node.sessions "s").map (·.knowledgeStructure) = some heldByB.knowledgeStructure := by
  have hmerged : ((stateOf (applyRemoteSession (Mesh.pairGossip "v4" "k") heldByB
      cloneA')).node.sessions "s").map (·.knowledgeStructure) =
      some heldByB.knowledgeStructure := by decide +kernel
  refine ⟨⟨_, cloneA'_path, by decide⟩, ⟨_, cloneB_path, by decide⟩, cloneA'_session,
    cloneB_session, by decide, ?_, hmerged⟩
  rintro ⟨a, hrun, hsame, -⟩
  rw [hrun, stateOf_ok, hsame] at hmerged
  exact absurd hmerged (by decide)

end CksRuntime
