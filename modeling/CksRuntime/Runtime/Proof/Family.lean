import CksRuntime.Pipeline.Proof.Commit
import CksRuntime.Runtime.Family
import CksRuntime.Runtime.Proof.Desk
import CksRuntime.Runtime.Proof.Runtime

/-!
# What vectors say about the sessions of a Runtime

A session's clocks are its own and its Runtime's (`Regular.keys`); it has none (`Regular.clocks`)
until a commit of it makes a version, and its own is positive from then on. So between two sessions
of one Runtime a source with clocks is never dominated, a target with clocks never fast-forwarded,
and the only fast path into a committed target is from a session without clocks.
-/

set_option autoImplicit false

namespace CksRuntime

open Transition VersionVector Effect

variable {K : Core}

/-! ## One session -/

/-- The clocks and the history of a session of a Runtime with this replica id. -/
structure Regular (replicaId : Option String) (s : Session K) : Prop where
  node : ∃ nodeId, s.metadata.nodeId = some nodeId ∧ replicaId ≠ some nodeId
  keys : ∀ k ∈ s.vector.clocks, s.metadata.nodeId = some k ∨ replicaId = some k
  clocks : s.vector.clocks ≠ ∅ → ∀ nodeId ∈ s.metadata.nodeId, 1 ≤ s.vector.get nodeId
  committed : s.versionHistory ≠ [] → s.vector.clocks ≠ ∅
  nonempty : ∀ v ∈ s.versionHistory, v.versionId ≠ EMPTY_STATE_VERSION_ID

/-- A session just made is regular. -/
theorem regular_new {replicaId : Option String} {s : Session K} {nodeId : String}
    (hn : s.metadata.nodeId = some nodeId) (hr : replicaId ≠ some nodeId)
    (hv : s.metadata.versionVector = none) (hh : s.versionHistory = []) :
    Regular replicaId s := by
  have hvec : s.vector.clocks = ∅ := by
    rw [Session.vector, fromMetadata, hv]
  refine ⟨⟨nodeId, hn, hr⟩, ?_, fun h => absurd hvec h, fun h => absurd hh h, ?_⟩
  · rw [hvec]
    exact fun k hk => absurd hk Finmap.notMem_empty
  · rw [hh]
    exact fun v hv => absurd hv List.not_mem_nil

/-- Nothing else of a session is looked at. -/
theorem Regular.congr {replicaId : Option String} {s s' : Session K} (h : Regular replicaId s)
    (hm : s'.metadata = s.metadata) (hh : s'.versionHistory = s.versionHistory) :
    Regular replicaId s' := by
  obtain ⟨hnode, hkeys, hclocks, hcommitted, hnonempty⟩ := h
  rw [Session.vector, ← hm] at hkeys hclocks hcommitted
  rw [← hm] at hnode
  rw [← hh] at hcommitted hnonempty
  exact ⟨hnode, hkeys, hclocks, hcommitted, hnonempty⟩

/-- Between regular sessions with different node ids one with clocks is not dominated. -/
theorem Regular.not_dominates {replicaId : Option String} {s t : Session K}
    (hs : Regular replicaId s) (ht : Regular replicaId t)
    (hne : s.metadata.nodeId ≠ t.metadata.nodeId) (hc : s.vector.clocks ≠ ∅) :
    ¬t.vector.dominates s.vector := by
  intro hd
  obtain ⟨nodeId, hn, hr⟩ := hs.node
  have hget := hs.clocks hc nodeId hn
  have hmem : nodeId ∈ s.vector.clocks := by
    by_contra hnot
    rw [get_of_notMem hnot] at hget
    omega
  have hle := (dominates_iff.1 hd).2 nodeId hmem
  have hmem' : nodeId ∈ t.vector.clocks := by
    by_contra hnot
    rw [get_of_notMem hnot] at hle
    omega
  rcases ht.keys nodeId hmem' with h | h
  · exact hne (hn.trans h.symm)
  · exact hr h

/-- A merge from a regular session does not fast-forward, unless it takes a source with clocks into
a target without. -/
theorem Regular.not_fastForwards {replicaId : Option String} {s t : Session K}
    (hs : Regular replicaId s) (ht : Regular replicaId t)
    (hne : s.metadata.nodeId ≠ t.metadata.nodeId)
    (hc : s.vector.clocks ≠ ∅ → t.vector.clocks ≠ ∅) :
    ¬VersionVector.FastForwards t.vector s.vector := by
  intro hf
  by_cases hsc : s.vector.clocks = ∅
  · exact not_dominates_of_empty hsc hf.2
  · exact ht.not_dominates hs hne.symm (hc hsc) hf.2

/-- What a call that begins or finishes a transaction leaves of a session. -/
structure Continues (s s' : Session K) : Prop where
  sessionId : s'.sessionId = s.sessionId
  nodeId : s'.metadata.nodeId = s.metadata.nodeId
  parentSessionId : s'.parentSessionId = s.parentSessionId
  parentVersionId : s'.parentVersionId = s.parentVersionId
  versionHistory : s.versionHistory <+: s'.versionHistory

/-- The clocks after a bump are the session's own, its Runtime's and those before. -/
theorem Regular.bumped {replicaId : Option String} {s s' : Session K} (h : Regular replicaId s)
    (hm : s'.metadata = Pipeline.bumpMetadata replicaId s.metadata)
    (hh : ∀ v ∈ s'.versionHistory, v.versionId ≠ EMPTY_STATE_VERSION_ID) :
    Regular replicaId s' := by
  have hnode : s'.metadata.nodeId = s.metadata.nodeId := by
    rw [hm]
    exact nodeId_bumpMetadata _ _
  have hvec : s'.vector = Pipeline.bumpVector s.metadata.nodeId replicaId s.vector := by
    rw [Session.vector, hm]
    exact vector_bumpMetadata _ _
  obtain ⟨nodeId, hn, hr⟩ := h.node
  have hpos : 1 ≤ s'.vector.get nodeId := by
    rw [hvec, get_bumpVector, if_pos hn]
    have hold : 0 ≤ s.vector.get nodeId := by
      by_cases hnil : s.vector.clocks = ∅
      · rw [get_of_notMem (by rw [hnil]; exact Finmap.notMem_empty)]
      · have := h.clocks hnil nodeId hn
        omega
    split <;> omega
  refine ⟨⟨nodeId, hnode.trans hn, hr⟩, ?_, fun _ m hm' => ?_, fun _ hnil => ?_, hh⟩
  · intro k hk
    rw [hvec, mem_bumpVector] at hk
    rw [hnode]
    rcases hk with hk | hk | hk
    · exact .inl hk
    · exact .inr hk
    · exact h.keys k hk
  · rw [hnode, hn, Option.mem_some_iff] at hm'
    rwa [← hm']
  · rw [get_of_notMem (by rw [hnil]; exact Finmap.notMem_empty)] at hpos
    omega

/-- A commit that fast-forwards nothing keeps a session regular, however it ends. -/
theorem Regular.commit {env : Env K} {s : Session K} {tx : Transaction K} {shared : Shared K}
    (h : Regular env.replicaId s) (hempty : env.versionId ≠ EMPTY_STATE_VERSION_ID)
    (hff : ∀ x ∈ tx.items, ¬x.FastForwards env.registry s.vector) :
    Regular env.replicaId (stateOf (Pipeline.commit env ⟨s, tx, shared⟩)).session ∧
      Continues s (stateOf (Pipeline.commit env ⟨s, tx, shared⟩)).session := by
  obtain ⟨done, hdone, ks, metadata, ds, history, active, hs, hmeta⟩ :=
    Pipeline.commit_session env ⟨s, tx, shared⟩
  have hitems : ∀ items : List (Item K), (∀ x ∈ items, x ∈ tx.items) →
      itemsMetadata env.registry items s.metadata = s.metadata :=
    fun items hsub => itemsMetadata_of_not fun x hx => hff x (hsub x hx)
  rw [hitems done hdone] at hmeta
  have hnode : metadata.nodeId = s.metadata.nodeId := by
    rcases hmeta with rfl | ⟨-, rfl⟩
    · exact nodeId_bumpMetadata _ _
    · rfl
  have hcontinues : s.versionHistory <+: history →
      Continues s (stateOf (Pipeline.commit env ⟨s, tx, shared⟩)).session := by
    intro hprefix
    rw [hs]
    exact ⟨rfl, hnode, rfl, rfl, hprefix⟩
  -- a commit either appends no version or bumps the clocks and appends one
  rcases Pipeline.commit_history env ⟨s, tx, shared⟩ with hsame | ⟨v, hv, hgrown, hbumped⟩
  · rw [hs] at hsame
    dsimp only at hsame
    refine ⟨?_, hcontinues (hsame ▸ List.prefix_refl _)⟩
    rw [hs]
    rcases hmeta with rfl | ⟨-, rfl⟩
    · refine h.bumped rfl fun v hv => h.nonempty v ?_
      rwa [hsame] at hv
    · exact h.congr rfl hsame
  · refine ⟨h.bumped (hbumped.trans ?_) fun w hw => ?_, hcontinues ?_⟩
    · rw [hitems tx.items fun x hx => hx]
    · rw [hgrown, List.mem_append, List.mem_singleton] at hw
      rcases hw with hw | rfl
      · exact h.nonempty w hw
      · rwa [hv]
    · rw [hs] at hgrown
      exact ⟨[v], hgrown.symm⟩

/-- However a transaction is finished. -/
theorem Regular.finish {env : Env K} {s : Session K} {tx : Transaction K}
    (h : Regular env.replicaId s) (shared : Shared K)
    (hempty : env.versionId ≠ EMPTY_STATE_VERSION_ID) (how : Finish)
    (hff : how = .commit → ∀ x ∈ tx.items, ¬x.FastForwards env.registry s.vector) :
    Regular env.replicaId (how.run env ⟨s, tx, shared⟩).session ∧
      Continues s (how.run env ⟨s, tx, shared⟩).session := by
  cases how with
  | commit => exact h.commit hempty (hff rfl)
  | rollback =>
    rw [Finish.run, (Pipeline.rollback_rolledBack env ⟨s, tx, shared⟩).session]
    exact ⟨h.congr rfl rfl, rfl, rfl, rfl, rfl, List.prefix_refl _⟩
  | abort =>
    rw [Finish.run, abort_session env ⟨s, tx, shared⟩]
    exact ⟨h.congr rfl rfl, rfl, rfl, rfl, rfl, List.prefix_refl _⟩

/-! ## All sessions -/

namespace Family

/-- Sessions are what their histories make them, and no two have one `node_id`. -/
structure Inv (f : Family K) : Prop where
  sessionId : ∀ sessionId, ∀ s ∈ f.node.sessions sessionId, s.sessionId = sessionId
  regular : ∀ sessionId, ∀ s ∈ f.node.sessions sessionId, Regular f.node.replicaId s
  distinct : ∀ sessionId, ∀ s ∈ f.node.sessions sessionId, ∀ sessionId',
    ∀ s' ∈ f.node.sessions sessionId', s.metadata.nodeId = s'.metadata.nodeId →
      sessionId = sessionId'
  parent : ∀ sessionId, ∀ s ∈ f.node.sessions sessionId, ∀ parentId ∈ s.parentSessionId,
    f.node.sessions parentId ≠ none ∧ parentId ≠ sessionId
  /-- A branch no transaction was begun on still has the state of its fork point. -/
  forked : ∀ sessionId, ∀ s ∈ f.node.sessions sessionId, f.untouched sessionId = true →
    ∀ parentId ∈ s.parentSessionId, ∀ versionId ∈ s.parentVersionId,
      ∀ parent ∈ f.node.sessions parentId,
        parent.getVersionState versionId = .ok s.knowledgeStructure

theorem mem_update {sessions : String → Option (Session K)} {sessionId sessionId' : String}
    {s s' : Session K} (h : s' ∈ Function.update sessions sessionId (some s) sessionId') :
    sessionId' = sessionId ∧ s' = s ∨ sessionId' ≠ sessionId ∧ s' ∈ sessions sessionId' := by
  by_cases he : sessionId' = sessionId
  · subst he
    rw [Function.update_self] at h
    exact .inl ⟨rfl, (Option.some.inj h).symm⟩
  · rw [Function.update_of_ne he] at h
    exact .inr ⟨he, h⟩

/-- A registered session changes as a call that begins or finishes a transaction changes it. -/
theorem Inv.update {f : Family K} (h : Inv f) {sessionId : String} {s s' : Session K}
    (hs : f.node.sessions sessionId = some s) (hcont : Continues s s')
    (hreg : Regular f.node.replicaId s') {n : Node K}
    (hn : n.sessions = Function.update f.node.sessions sessionId (some s'))
    (hr : n.replicaId = f.node.replicaId) : Inv (f.after n sessionId false) := by
  -- whatever is said of a registered session is said of the one it was
  have hwas : ∀ i, ∀ t' ∈ n.sessions i, ∃ t ∈ f.node.sessions i, Continues t t' := by
    intro i t' ht'
    rw [hn] at ht'
    obtain ⟨rfl, rfl⟩ | ⟨-, ht'⟩ := mem_update ht'
    · exact ⟨s, hs, hcont⟩
    · exact ⟨t', ht', rfl, rfl, rfl, rfl, List.prefix_refl _⟩
  refine ⟨?_, ?_, ?_, ?_, ?_⟩
  · intro i t' ht'
    obtain ⟨t, ht, hc⟩ := hwas i t' ht'
    rw [hc.sessionId]
    exact h.sessionId i t ht
  · intro i t' ht'
    change t' ∈ n.sessions i at ht'
    change Regular n.replicaId t'
    rw [hr]
    rw [hn] at ht'
    obtain ⟨rfl, rfl⟩ | ⟨-, ht'⟩ := mem_update ht'
    · exact hreg
    · exact h.regular i t' ht'
  · intro i t' ht' j u' hu' he
    obtain ⟨t, ht, hct⟩ := hwas i t' ht'
    obtain ⟨u, hu, hcu⟩ := hwas j u' hu'
    exact h.distinct i t ht j u hu (hct.nodeId.symm.trans (he.trans hcu.nodeId))
  · intro i t' ht' parentId hp
    obtain ⟨t, ht, hc⟩ := hwas i t' ht'
    rw [hc.parentSessionId] at hp
    obtain ⟨hreg, hne⟩ := h.parent i t ht parentId hp
    refine ⟨?_, hne⟩
    change n.sessions parentId ≠ none
    rw [hn]
    by_cases he : parentId = sessionId
    · subst he
      rw [Function.update_self]
      exact Option.some_ne_none _
    · rwa [Function.update_of_ne he]
  · intro i t' ht' hun parentId hp versionId hv parent' hparent'
    -- a session still untouched is not the one called on
    have hne : i ≠ sessionId := by
      rintro rfl
      change Function.update f.untouched i false i = true at hun
      rw [Function.update_self] at hun
      cases hun
    change Function.update f.untouched sessionId false i = true at hun
    rw [Function.update_of_ne hne] at hun
    change t' ∈ n.sessions i at ht'
    rw [hn, Function.update_of_ne hne] at ht'
    obtain ⟨p, hpar, hc⟩ := hwas parentId parent' hparent'
    obtain ⟨more, hmore⟩ := hc.versionHistory
    exact getVersionState_append hmore.symm (h.forked i t' ht' hun parentId hp versionId hv p hpar)

/-- A new session joins. -/
theorem Inv.join {f : Family K} (h : Inv f) {env : CallEnv K} (hfresh : Fresh f.node env)
    {s : Session K} (hid : s.sessionId = env.sessionId)
    (hnode : s.metadata.nodeId = some env.nodeId) (hvec : s.metadata.versionVector = none)
    (hhist : s.versionHistory = [])
    (hparent : ∀ parentId ∈ s.parentSessionId, f.node.sessions parentId ≠ none) {untouched : Bool}
    (hforked : untouched = true → ∀ parentId ∈ s.parentSessionId,
      ∀ versionId ∈ s.parentVersionId, ∀ parent ∈ f.node.sessions parentId,
        parent.getVersionState versionId = .ok s.knowledgeStructure) :
    Inv (f.after (stateOf (Runtime.adopt env s f.node)) env.sessionId untouched) := by
  obtain ⟨hn, hr, -⟩ := Runtime.stateOf_adopt env s f.node
  rw [hid] at hn
  generalize stateOf (Runtime.adopt env s f.node) = n at hn hr
  -- the new session is no one else's
  have hold : ∀ {i}, f.node.sessions i ≠ none → i ≠ env.sessionId := by
    rintro i hi rfl
    exact hi hfresh.sessionId
  refine ⟨?_, ?_, ?_, ?_, ?_⟩
  · intro i t ht
    change t ∈ n.sessions i at ht
    rw [hn] at ht
    obtain ⟨rfl, rfl⟩ | ⟨-, ht⟩ := mem_update ht
    · exact hid
    · exact h.sessionId i t ht
  · intro i t ht
    change t ∈ n.sessions i at ht
    change Regular n.replicaId t
    rw [hn] at ht
    rw [hr]
    obtain ⟨rfl, rfl⟩ | ⟨-, ht⟩ := mem_update ht
    · exact regular_new hnode hfresh.replicaId hvec hhist
    · exact h.regular i t ht
  -- `uuid4`: its `node_id` is no one else's either
  · intro i t ht j u hu he
    change t ∈ n.sessions i at ht
    change u ∈ n.sessions j at hu
    rw [hn] at ht hu
    rcases mem_update ht with ⟨hi, hts⟩ | ⟨-, ht'⟩
    · rcases mem_update hu with ⟨hj, -⟩ | ⟨-, hu'⟩
      · exact hi.trans hj.symm
      · rw [hts] at he
        exact absurd (he.symm.trans hnode) (hfresh.nodeId j u hu')
    · rcases mem_update hu with ⟨-, hus⟩ | ⟨-, hu'⟩
      · rw [hus] at he
        exact absurd (he.trans hnode) (hfresh.nodeId i t ht')
      · exact h.distinct i t ht' j u hu' he
  · intro i t ht parentId hp
    change t ∈ n.sessions i at ht
    change n.sessions parentId ≠ none ∧ _
    rw [hn] at ht ⊢
    have hreg : f.node.sessions parentId ≠ none ∧ parentId ≠ i := by
      obtain ⟨rfl, rfl⟩ | ⟨-, ht⟩ := mem_update ht
      · exact ⟨hparent parentId hp, hold (hparent parentId hp)⟩
      · exact h.parent i t ht parentId hp
    refine ⟨?_, hreg.2⟩
    rw [Function.update_of_ne (hold hreg.1)]
    exact hreg.1
  · intro i t ht hun parentId hp versionId hv parent hpar
    change t ∈ n.sessions i at ht
    change Function.update f.untouched env.sessionId untouched i = true at hun
    change parent ∈ n.sessions parentId at hpar
    rw [hn] at ht hpar
    obtain ⟨rfl, rfl⟩ | ⟨hne, ht⟩ := mem_update ht
    · rw [Function.update_self] at hun
      rw [Function.update_of_ne (hold (hparent parentId hp))] at hpar
      exact hforked hun parentId hp versionId hv parent hpar
    · rw [Function.update_of_ne (hold (h.parent i t ht parentId hp).1)] at hpar
      rw [Function.update_of_ne hne] at hun
      exact h.forked i t ht hun parentId hp versionId hv parent hpar

theorem inv_init {f : Family K} (h : (system K).init f) : Inv f := by
  obtain ⟨replicaId, shared, rfl⟩ := h
  refine ⟨?_, ?_, ?_, ?_, ?_⟩ <;>
  · intro i s hs
    cases hs

/-- Where a branch forks has the state it starts from. -/
theorem forkPoint_state {parent : Session K} {versionId : Option String}
    (hexact : versionId = none → ForkPointExact parent) {ks : K.Structure}
    {forkVersionId : Option String}
    (hf : Runtime.forkPoint parent versionId = .ok (ks, forkVersionId)) :
    ∀ v ∈ forkVersionId, parent.getVersionState v = .ok ks := by
  intro v hv
  cases versionId with
  | some u =>
    cases hs : parent.getVersionState u with
    | error exc => simp [Runtime.forkPoint, hs, Except.map] at hf
    | ok t =>
      simp only [Runtime.forkPoint, hs, Except.map, Except.ok.injEq, Prod.mk.injEq] at hf
      obtain ⟨rfl, rfl⟩ := hf
      cases hv
      exact hs
  | none =>
    -- while a transaction is active no fork point is recorded
    have hnone : parent.activeTransaction = none := by
      cases ha : parent.activeTransaction with
      | none => rfl
      | some t =>
        simp only [Runtime.forkPoint, Session.hasActiveTransaction, ha, Option.isSome_some,
          if_true, Except.ok.injEq, Prod.mk.injEq] at hf
        rw [← hf.2] at hv
        cases hv
    rw [Option.mem_def.1 hv] at hf
    exact (hexact rfl hnone).2 ks v hf

theorem inv_branch {f : Family K} (h : Inv f) {env : CallEnv K} (hfresh : Fresh f.node env)
    {parentId : String} {parent : Session K} (hpar : f.node.sessions parentId = some parent)
    {versionId : Option String} (hexact : versionId = none → ForkPointExact parent) :
    Inv (f.after (stateOf (Runtime.createBranch env parent versionId f.node)) env.sessionId
      true) := by
  have hpid : parent.sessionId = parentId := h.sessionId _ parent hpar
  unfold Runtime.createBranch
  cases hf : Runtime.forkPoint parent versionId with
  | error exc =>
    -- nothing is registered, under an id that no session has
    refine ⟨h.sessionId, h.regular, h.distinct, h.parent, fun i t ht hun => ?_⟩
    have hne : i ≠ env.sessionId := by
      rintro rfl
      change t ∈ f.node.sessions env.sessionId at ht
      rw [hfresh.sessionId] at ht
      cases ht
    change Function.update f.untouched env.sessionId true i = true at hun
    rw [Function.update_of_ne hne] at hun
    exact h.forked i t ht hun
  | ok r =>
    obtain ⟨ks, forkVersionId⟩ := r
    refine h.join hfresh rfl rfl rfl rfl ?_ ?_
    · intro i hi
      cases hi
      rw [hpid, hpar]
      exact Option.some_ne_none _
    · intro _ i hi v hv p hp'
      cases hi
      rw [hpid, hpar] at hp'
      cases hp'
      exact forkPoint_state hexact hf v hv

theorem inv_step {f f' : Family K} {l : FamilyCall K} (h : Inv f) (hst : Step f l f')
    (hc : Orderly f l) : Inv f' := by
  cases hst with
  | create env ks hfresh =>
    refine h.join hfresh rfl rfl rfl rfl ?_ ?_
    · intro parentId hp
      cases hp
    · intro hun
      cases hun
  | @branch env parentId parent versionId hfresh hpar =>
    refine inv_branch h hfresh hpar ?_
    rintro rfl
    exact hc.forksExactly parent hpar
  | @foreign env parentId parent ks parentVersionId metadata hfresh hpar =>
    have hpid : parent.sessionId = parentId := h.sessionId _ parent hpar
    obtain ⟨hnode, hvec⟩ := hc.keepsIdentity
    refine h.join hfresh rfl ?_ ?_ rfl ?_ ?_
    · simp [Metadata.update, hnode, SessionManager.newBranch]
    · simp [Metadata.update, hvec, SessionManager.newBranch]
    · intro i hi
      cases hi
      rw [hpid, hpar]
      exact Option.some_ne_none _
    · intro hun
      cases hun
  | @begin transactionId sessionId s hs =>
    have hreg := h.regular _ s hs
    rw [Runtime.beginTransaction_run]
    split
    · refine h.update hs ⟨rfl, rfl, rfl, rfl, List.prefix_refl _⟩ hreg ?_ rfl
      exact (Function.update_eq_self_iff.2 hs.symm).symm
    · have hcont : Continues s { s with activeTransaction := some transactionId } :=
        ⟨rfl, rfl, rfl, rfl, List.prefix_refl _⟩
      exact h.update hs hcont (hreg.congr rfl rfl) rfl rfl
  | @finish how env sessionId tx s hs hrep hempty hsources =>
    have hreg := h.regular _ s hs
    rw [← hrep] at hreg
    have hff : how = .commit → ∀ x ∈ tx.items, ¬x.FastForwards env.registry s.vector := by
      rintro rfl x hx ⟨op, hop, source, hsource, hf⟩
      have hsrc : tx.Sources env.registry source := ⟨x, hx, op, hop, hsource⟩
      obtain ⟨hne, hreg'⟩ := hsources rfl source hsrc
      have hreg'' := h.regular _ source hreg'
      rw [← hrep] at hreg''
      -- a source with a vector ahead would be this very session, or one merged out of order
      refine hreg''.not_fastForwards hreg (fun he => hne ?_)
        (fun hsc => hc.mergesForward source hsrc hsc s hs) hf
      exact h.distinct _ source hreg' _ s hs he
    obtain ⟨hreg', hcont⟩ := hreg.finish f.node.shared hempty how hff
    rw [hrep] at hreg'
    exact h.update hs hcont hreg' rfl rfl
  | elsewhere shared => exact ⟨h.sessionId, h.regular, h.distinct, h.parent, h.forked⟩

theorem reachable_inv {f : Family K} (h : ((system K).restrict Orderly).Reachable f) : Inv f :=
  h.invariant (fun _ h0 => inv_init h0) fun _ _ _ _ hi hst => inv_step hi hst.1 hst.2

end Family

/-! ## Fast paths -/

namespace Family

/-- A Runtime with no session. -/
def root : Family Core.register := { node := { replicaId := some "r" } }

/-- What a call meets. -/
def callEnv (sessionId nodeId : String) : CallEnv Core.register :=
  { sessionId := sessionId, nodeId := nodeId }

/-- A transaction that writes this, or that raises, on a session. -/
def setTo (s : Session Core.register) (transactionId : String) (v : Option Nat) :
    Transaction Core.register where
  transactionId := transactionId
  operations := [⟨"set", .replaceState v⟩]
  initialState := s.knowledgeStructure

theorem setTo_sources {s : Session Core.register} {transactionId : String} {v : Option Nat}
    {registry : OperationRegistry Core.register} {source : Session Core.register} :
    ¬(setTo s transactionId v).Sources registry source := by
  rintro ⟨x, hx, op, hop, hs⟩
  rw [List.mem_singleton.1 hx] at hop
  cases hop
  cases hs

/-- It is begun. -/
def beginOn (f : Family Core.register) (s : Session Core.register) (transactionId : String) :
    Family Core.register :=
  f.after (stateOf (Runtime.beginTransaction transactionId s.sessionId s f.node)) s.sessionId false

/-- It is begun and committed. -/
def commitOn (f : Family Core.register) (s : Session Core.register)
    (transactionId versionId : String) (v : Option Nat) : Family Core.register :=
  let opened := f.beginOn s transactionId
  opened.leave s.sessionId (Finish.commit.run (Desk.runEnv versionId)
    ⟨{ s with activeTransaction := some transactionId }, setTo s transactionId v,
      opened.node.shared⟩)

/-- A session is created at zero. -/
def created : Family Core.register :=
  root.after (stateOf (Runtime.createSession (callEnv "s" "n") (0 : Nat) root.node)) "s" false

/-- The session, created. -/
def createdSession : Session Core.register := SessionManager.newSession "s" "n" (0 : Nat)

/-- What a commit on a session leaves of it. -/
def committed (s : Session Core.register) (transactionId versionId : String) (v : Option Nat) :
    Session Core.register :=
  (Finish.commit.run (Desk.runEnv versionId)
    ⟨{ s with activeTransaction := some transactionId }, setTo s transactionId v, {}⟩).session

/-- It commits `5`, and the next commit raises and is rolled back. -/
def trunk : Family Core.register :=
  (created.commitOn createdSession "t" "v1" (some 5)).commitOn
    (committed createdSession "t" "v1" (some 5)) "t'" "v" none

/-- The session after two commits. -/
def trunkSession : Session Core.register :=
  committed (committed createdSession "t" "v1" (some 5)) "t'" "v" none

/-- A branch of it, at its last version, after which it commits `7`. -/
def forked : Family Core.register :=
  (trunk.after (stateOf (Runtime.createBranch (callEnv "b" "m") trunkSession none trunk.node)) "b"
    true).commitOn trunkSession "t''" "v2" (some 7)

end Family

end CksRuntime
