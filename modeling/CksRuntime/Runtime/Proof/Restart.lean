import CksRuntime.Runtime.Proof.Durable
import CksRuntime.Runtime.Restart

/-!
# What a restart changes

A registered session and what is stored of it agree (`InSync`), but for what an open transaction has
done to its content: every sound call keeps it so, and so does every restart (`step_advances`). No
call takes a version away, and neither does a transaction that is lost: what a version reconstructs
to stays (`version_state_survives`).
-/

set_option autoImplicit false

namespace CksRuntime

open Transition Effect

variable {K : Core}

/-! ## Restoring -/

/-- The session a restore registers. -/
def Storage.openSession (st : Storage K) (sessionId : String) : Option (Session K) :=
  (st.loadSession sessionId).filter fun s => !s.closed

theorem SessionManager.restore_run (s : Session K) (n : Node K) :
    SessionManager.restore s n =
      .ok () (if s.closed then n else n.registered s) := by
  unfold restore
  split <;> rfl

theorem Storage.sessionId_of_loadSession {st : Storage K} {id : String} {s : Session K}
    (h : st.loadSession id = some s) : s.sessionId = id := by
  obtain ⟨row, -, rfl⟩ := Option.map_eq_some_iff.1 h
  rfl

/-- What is registered once the rows of `ids` are restored. -/
def Storage.restored (st : Storage K) (ids : List String)
    (sessions : String → Option (Session K)) (id : String) : Option (Session K) :=
  if id ∈ ids then (st.openSession id).or (sessions id) else sessions id

theorem Storage.restored_cons {st : Storage K} {a : String} {ids : List String}
    {sessions sessions' : String → Option (Session K)}
    (h : sessions' = Function.update sessions a ((st.openSession a).or (sessions a))) :
    st.restored ids sessions' = st.restored (a :: ids) sessions := by
  subst h
  funext id
  unfold restored
  by_cases ha : id = a
  · subst ha
    rw [Function.update_self, if_pos List.mem_cons_self]
    split
    · cases st.openSession id <;> rfl
    · rfl
  · rw [Function.update_of_ne ha]
    simp only [List.mem_cons, ha, false_or]

theorem restore_listSessions (st : Storage K) (ids : List String) (n : Node K) :
    forM (st.listSessions ids) SessionManager.restore n =
      .ok ⟨⟩ { n with sessions := st.restored ids n.sessions } := by
  induction ids generalizing n with
  | nil => rfl
  | cons a ids ih =>
    unfold Storage.listSessions
    cases ha : st.loadSession a with
    | none =>
      have heq : n.sessions =
          Function.update n.sessions a ((st.openSession a).or (n.sessions a)) := by
        rw [Storage.openSession, ha, Option.filter_none, Option.none_or, Function.update_eq_self]
      rw [List.filterMap_cons_none ha, ← Storage.restored_cons heq]
      exact ih n
    | some s =>
      have hid := Storage.sessionId_of_loadSession ha
      rw [List.filterMap_cons_some ha, List.forM_cons, bind_of_ok (SessionManager.restore_run s n)]
      cases hclosed : s.closed with
      | true =>
        have heq : n.sessions =
            Function.update n.sessions a ((st.openSession a).or (n.sessions a)) := by
          rw [Storage.openSession, ha, Option.filter_some, hclosed]
          exact (Function.update_eq_self a n.sessions).symm
        rw [← Storage.restored_cons heq]
        exact ih n
      | false =>
        have heq : (n.registered s).sessions =
            Function.update n.sessions a ((st.openSession a).or (n.sessions a)) := by
          rw [Storage.openSession, ha, Option.filter_some, hclosed, ← hid]
          rfl
        rw [← Storage.restored_cons heq]
        exact ih (n.registered s)

namespace Process

variable {p : Process K}

/-- The next process has every row that is not closed. -/
theorem restart_node {ids : List String} (h : p.Lists ids) : (p.restart ids).node =
    { replicaId := p.node.replicaId
      sessions := p.node.shared.storage.openSession
      shared := { storage := p.node.shared.storage } } := by
  unfold restart Runtime.restoreFromStorage
  rw [bind_get_run, restore_listSessions, stateOf_ok]
  have hsessions : p.node.shared.storage.restored ids (fun _ => none) =
      p.node.shared.storage.openSession := by
    funext id
    unfold Storage.restored
    split
    · rw [Option.or_none]
    · rename_i hid
      rw [h id, Option.isSome_iff_ne_none, not_not] at hid
      rw [Storage.openSession, Storage.loadSession, hid]
      rfl
  rw [← hsessions]

end Process

/-! ## The session and what is stored of it -/

/-- The store. -/
def Process.storage (p : Process K) : Storage K := p.node.shared.storage

/-- The versions of the session `id`, in the order they were saved. -/
def Storage.versionsOf (st : Storage K) (id : String) : List (Version K) :=
  st.versions.filter (·.sessionId == id)

/-- The stored versions are the history, and the row is the session's but for its content. -/
structure Session.Stored (st : Storage K) (id : String) (s : Session K) : Prop where
  sessionId : s.sessionId = id
  stable : s.metadata.Stable
  history : st.versionsOf id = s.versionHistory
  sorted : s.versionHistory.Pairwise fun a b => a.createdAt ≤ b.createdAt
  row : ∃ ks m, m.Stable ∧
    st.sessions id = some ({ s with knowledgeStructure := ks, metadata := m } : Session K).toRow

/-- What the store has of each session that somebody holds, and who holds what it has. -/
structure InSync (p : Process K) : Prop where
  stored : ∀ id, ∀ s ∈ p.object id, s.Stored p.storage id
  unclosed : ∀ id, ∀ s ∈ p.node.sessions id, s.closed = false
  registered : ∀ id, ∀ row ∈ p.storage.sessions id, row.closed = false →
    (p.node.sessions id).isSome

/-- A registered session that is attached to no transaction is stored as it is. -/
def Process.Saved (p : Process K) : Prop :=
  ∀ id, ∀ s ∈ p.node.sessions id, s.activeTransaction = none →
    p.storage.sessions id = some s.toRow

/-- What is not about the session `id` is as it was. -/
structure SameElsewhere (id : String) (p p' : Process K) : Prop where
  object : ∀ id' ≠ id, p'.object id' = p.object id'
  session : ∀ id' ≠ id, p'.node.sessions id' = p.node.sessions id'
  row : ∀ id' ≠ id, p'.storage.sessions id' = p.storage.sessions id'
  versions : ∀ id' ≠ id, p'.storage.versionsOf id' = p.storage.versionsOf id'

theorem Session.Stored.congr {st st' : Storage K} {id : String} {s : Session K}
    (h : s.Stored st id) (hrow : st'.sessions id = st.sessions id)
    (hversions : st'.versionsOf id = st.versionsOf id) : s.Stored st' id where
  sessionId := h.sessionId
  stable := h.stable
  history := hversions.trans h.history
  sorted := h.sorted
  row := by
    rw [hrow]
    exact h.row

/-- A saved session whose history the store has. -/
theorem Session.Stored.of_saved {st : Storage K} {id : String} {s : Session K}
    (hid : s.sessionId = id) (hstable : s.metadata.Stable)
    (hhistory : st.versionsOf id = s.versionHistory)
    (hsorted : s.versionHistory.Pairwise fun a b => a.createdAt ≤ b.createdAt)
    (hrow : st.sessions id = some s.toRow) : s.Stored st id :=
  ⟨hid, hstable, hhistory, hsorted, s.knowledgeStructure, s.metadata, hstable, hrow⟩

/-- What a call on one session has to keep. -/
theorem InSync.of_sameElsewhere {p p' : Process K} (h : InSync p) (id : String)
    (hsame : SameElsewhere id p p') (hstored : ∀ s ∈ p'.object id, s.Stored p'.storage id)
    (hunclosed : ∀ s ∈ p'.node.sessions id, s.closed = false)
    (hregistered : ∀ row ∈ p'.storage.sessions id, row.closed = false →
      (p'.node.sessions id).isSome) : InSync p' := by
  constructor
  · intro id' s hs
    by_cases hid : id' = id
    · subst hid
      exact hstored s hs
    · rw [hsame.object id' hid] at hs
      exact (h.stored id' s hs).congr (hsame.row id' hid) (hsame.versions id' hid)
  · intro id' s hs
    by_cases hid : id' = id
    · subst hid
      exact hunclosed s hs
    · rw [hsame.session id' hid] at hs
      exact h.unclosed id' s hs
  · intro id' row hrow hclosed
    by_cases hid : id' = id
    · subst hid
      exact hregistered row hrow hclosed
    · rw [hsame.row id' hid] at hrow
      rw [hsame.session id' hid]
      exact h.registered id' row hrow hclosed

theorem Process.Saved.of_sameElsewhere {p p' : Process K} (h : p.Saved) (id : String)
    (hsame : SameElsewhere id p p')
    (hsaved : ∀ s ∈ p'.node.sessions id, s.activeTransaction = none →
      p'.storage.sessions id = some s.toRow) : p'.Saved := by
  intro id' s hs
  by_cases hid : id' = id
  · subst hid
    exact hsaved s hs
  · rw [hsame.session id' hid] at hs
    rw [hsame.row id' hid]
    exact h id' s hs

/-! ## Every call keeps them in step -/

/-- Where a call that was sound ends; what is saved stays so if the call's transaction, should it
have one, is the one its session is attached to. -/
structure Advances (attached : Prop) (p p' : Process K) : Prop where
  inSync : InSync p'
  versions : p.storage.versions <+: p'.storage.versions
  saved : attached → p.Saved → p'.Saved

theorem Advances.refl {p : Process K} (h : InSync p) {attached : Prop} : Advances attached p p :=
  ⟨h, List.prefix_refl _, fun _ => id⟩

namespace Process

variable {p : Process K} {attached : Prop}

theorem object_of_registered {id : String} {s : Session K} (hs : p.node.sessions id = some s) :
    p.object id = some s := by
  rw [object, hs, Option.some_or]

theorem object_of_unregistered {id : String} (hs : p.node.sessions id = none) :
    p.object id = p.closed id := by
  rw [object, hs, Option.none_or]

theorem stored_of_registered (h : InSync p) {id : String} {s : Session K}
    (hs : p.node.sessions id = some s) : s.Stored p.storage id :=
  h.stored id s (object_of_registered hs)

/-- A session that is not closed is registered. -/
theorem registered_of_object (h : InSync p) {id : String} {s : Session K}
    (hs : p.object id = some s) (hopen : s.closed = false) : (p.node.sessions id).isSome := by
  obtain ⟨ks, m, -, hrow⟩ := (h.stored id s hs).row
  exact h.registered id _ hrow hopen

/-! ### Session objects -/

theorem object_setObject (id : String) (s : Session K) (id' : String) :
    (p.setObject id s).object id' = if id' = id then some s else p.object id' := by
  unfold setObject object
  cases hs : p.node.sessions id with
  | none =>
    rw [if_neg (by simp)]
    dsimp only
    by_cases hid : id' = id
    · subst hid
      rw [hs, Function.update_self, if_pos rfl, Option.none_or]
    · rw [Function.update_of_ne hid, if_neg hid]
  | some s₀ =>
    rw [if_pos (by simp)]
    dsimp only
    by_cases hid : id' = id
    · subst hid
      rw [Function.update_self, if_pos rfl, Option.some_or]
    · rw [Function.update_of_ne hid, if_neg hid]

theorem sessions_setObject (id : String) (s : Session K) (id' : String) :
    (p.setObject id s).node.sessions id' =
      if id' = id then (p.node.sessions id).map fun _ => s else p.node.sessions id' := by
  unfold setObject
  cases hs : p.node.sessions id with
  | none =>
    rw [if_neg (by simp), Option.map_none]
    split
    · rename_i hid
      rw [hid, hs]
    · rfl
  | some s₀ =>
    rw [if_pos (by simp), Option.map_some]
    dsimp only
    by_cases hid : id' = id
    · subst hid
      rw [Function.update_self, if_pos rfl]
    · rw [Function.update_of_ne hid, if_neg hid]

theorem shared_setObject (id : String) (s : Session K) :
    (p.setObject id s).node.shared = p.node.shared := by
  unfold setObject
  split <;> rfl

/-- The session has been put back into a process that is otherwise as it was but for the rows and
versions of that session. -/
theorem put_advances (h : InSync p) {p' : Process K} {id : String} {s s' : Session K}
    (hs : p.object id = some s) (hclosed : s'.closed = s.closed)
    (hobject : ∀ id', p'.object id' = (p.setObject id s').object id')
    (hsessions : ∀ id', p'.node.sessions id' = (p.setObject id s').node.sessions id')
    (hrow : ∀ id' ≠ id, p'.storage.sessions id' = p.storage.sessions id') (vs : List (Version K))
    (hversions : p'.storage.versions = p.storage.versions ++ vs) (hvs : ∀ v ∈ vs, v.sessionId = id)
    (hstored : s'.Stored p'.storage id)
    (hsaved : attached → s'.activeTransaction = none → p'.storage.sessions id = some s'.toRow) :
    Advances attached p p' := by
  have hsame : SameElsewhere id p p' := by
    refine ⟨fun id' hid => ?_, fun id' hid => ?_, hrow, fun id' hid => ?_⟩
    · rw [hobject, object_setObject, if_neg hid]
    · rw [hsessions, sessions_setObject, if_neg hid]
    · have hnone : vs.filter (·.sessionId == id') = [] := by
        refine List.filter_eq_nil_iff.2 fun v hv he => hid ?_
        rw [← beq_iff_eq.1 he, hvs v hv]
      rw [Storage.versionsOf, hversions, List.filter_append, hnone, List.append_nil]
      rfl
  -- it is registered if it was
  have hself : p'.node.sessions id = (p.node.sessions id).map fun _ => s' := by
    rw [hsessions, sessions_setObject, if_pos rfl]
  refine ⟨h.of_sameElsewhere id hsame (fun t ht => ?_) (fun t ht => ?_) (fun row hr hopen => ?_),
    ?_, fun hattached hp => hp.of_sameElsewhere id hsame fun t ht hnone => ?_⟩
  · rw [hobject, object_setObject, if_pos rfl] at ht
    cases ht
    exact hstored
  · rw [hself] at ht
    obtain ⟨s₀, hs₀, rfl⟩ := Option.map_eq_some_iff.1 ht
    rw [object_of_registered hs₀] at hs
    cases hs
    exact hclosed.trans (h.unclosed id s hs₀)
  · obtain ⟨ks, m, -, hr'⟩ := hstored.row
    rw [hr] at hr'
    cases hr'
    rw [hself, Option.isSome_map]
    exact registered_of_object h hs (hclosed.symm.trans hopen)
  · rw [hversions]
    exact List.prefix_append _ _
  · rw [hself] at ht
    obtain ⟨s₀, -, rfl⟩ := Option.map_eq_some_iff.1 ht
    exact hsaved hattached hnone

/-! ### Calls on sessions -/

theorem answer_snd {α : Type} (f : α → Answer K) (r : EStateM.Result (Err K.Obj) (Node K) α) :
    (p.answer f r).2 = { p with node := stateOf r } := by
  cases r <;> rfl

theorem withObject_of_some {id : String} {s : Session K} (hs : p.object id = some s)
    (k : Session K → Answer K × Process K) : p.withObject id k = k s := by
  unfold withObject
  rw [hs]

theorem withObject_of_none {id : String} (hs : p.object id = none)
    (k : Session K → Answer K × Process K) : p.withObject id k = (.absent, p) := by
  unfold withObject
  rw [hs]

theorem withObject_advances (h : InSync p) {id : String} {k : Session K → Answer K × Process K}
    (hk : ∀ s, p.object id = some s → Advances attached p (k s).2) :
    Advances attached p (p.withObject id k).2 := by
  cases hs : p.object id with
  | none =>
    rw [withObject_of_none hs]
    exact .refl h
  | some s =>
    rw [withObject_of_some hs]
    exact hk s hs

/-- A new session is registered and saved. -/
theorem adopt_advances (h : InSync p) {env : CallEnv K} {s : Session K}
    (hfault : env.saveSessionFault = none) (hfresh : p.FreshSession s.sessionId)
    (hclosed : s.closed = false) (hstable : s.metadata.Stable) (hhistory : s.versionHistory = []) :
    Advances attached p { p with node := stateOf (Runtime.adopt env s p.node) } := by
  have hrun : stateOf (Runtime.adopt env s p.node) =
      ((p.node.registered s).saved s).published (.sessionCreated s.sessionId) := by
    rw [Runtime.adopt_run, hfault]
    cases env.subscriber (.sessionCreated s.sessionId) <;> rfl
  have hversions : p.storage.versionsOf s.sessionId = [] :=
    List.filter_eq_nil_iff.2 fun v hv he => hfresh.2 v hv (beq_iff_eq.1 he)
  have hself : ((p.node.registered s).saved s).sessions s.sessionId = some s :=
    Function.update_self _ _ _
  have hrow : ((p.node.registered s).saved s).shared.storage.sessions s.sessionId = some s.toRow :=
    Function.update_self _ _ _
  rw [hrun]
  have hsame : SameElsewhere s.sessionId p { p with
      node := ((p.node.registered s).saved s).published (.sessionCreated s.sessionId) } := by
    refine ⟨fun id hid => ?_, fun id hid => Function.update_of_ne hid _ _,
      fun id hid => Function.update_of_ne hid _ _, fun _ _ => rfl⟩
    exact congrArg (Option.or · (p.closed id)) (Function.update_of_ne hid _ _)
  refine ⟨h.of_sameElsewhere s.sessionId hsame (fun s' hs' => ?_) (fun s' hs' => ?_)
    (fun row hrow hopen => Option.isSome_iff_exists.2 ⟨s, hself⟩), List.prefix_refl _,
    fun _ hp => hp.of_sameElsewhere s.sessionId hsame fun s' hs' _ => ?_⟩
  · cases (object_of_registered hself).symm.trans hs'
    refine .of_saved rfl hstable (hversions.trans hhistory.symm) ?_ hrow
    rw [hhistory]
    exact List.Pairwise.nil
  · cases hself.symm.trans hs'
    exact hclosed
  · cases hself.symm.trans hs'
    exact hrow

theorem close_advances (h : InSync p) {env : CallEnv K} (hfault : env.saveSessionFault = none)
    (id : String) : Advances attached p (p.call (.close env id)).2 := by
  rw [call, answer_snd]
  cases hs : p.node.sessions id with
  | none =>
    have hnode : stateOf (Runtime.closeSession env id p.node) = p.node := by
      rw [Runtime.closeSession, bind_get_run, hs]
      rfl
    rw [hnode, closing, hs]
    exact .refl h
  | some s =>
    have hrun : stateOf (Runtime.closeSession env id p.node) =
        (({ p.node with sessions := Function.update p.node.sessions id none } : Node K).saved
          { s with closed := true }).published (.sessionClosed id) := by
      rw [Runtime.closeSession_run env hs, hfault]
      cases env.subscriber (.sessionClosed id) <;> rfl
    have hstored := stored_of_registered h hs
    obtain rfl : s.sessionId = id := hstored.sessionId
    rw [hrun, closing, hs]
    -- the object is no longer registered, and the row says that it is closed
    let closed : Session K := { s with closed := true }
    have hsame : SameElsewhere s.sessionId p { p with
        node := (({ p.node with sessions := Function.update p.node.sessions s.sessionId none } :
          Node K).saved closed).published (.sessionClosed s.sessionId)
        closed := Function.update p.closed s.sessionId (some closed) } := by
      refine ⟨fun id hid => ?_, fun id hid => Function.update_of_ne hid _ _,
        fun id hid => Function.update_of_ne hid _ _, fun _ _ => rfl⟩
      exact congrArg₂ Option.or (Function.update_of_ne hid _ _) (Function.update_of_ne hid _ _)
    have hgone : Function.update p.node.sessions s.sessionId none s.sessionId = none :=
      Function.update_self _ _ _
    have hrow : Function.update p.storage.sessions s.sessionId (some closed.toRow) s.sessionId =
      some closed.toRow := Function.update_self _ _ _
    refine ⟨h.of_sameElsewhere s.sessionId hsame (fun s' hs' => ?_) (fun s' hs' => ?_)
      (fun row hr hopen => ?_), List.prefix_refl _,
      fun _ hp => hp.of_sameElsewhere s.sessionId hsame fun s' hs' _ => ?_⟩
    · rw [object_of_unregistered hgone] at hs'
      cases (Function.update_self _ _ _).symm.trans hs'
      exact .of_saved rfl hstored.stable hstored.history hstored.sorted hrow
    · cases hgone.symm.trans hs'
    · cases hrow.symm.trans hr
      cases hopen
    · cases hgone.symm.trans hs'

theorem begin_advances (h : InSync p) (transactionId id : String) :
    Advances attached p (p.call (.begin transactionId id)).2 := by
  refine withObject_advances h fun s hs => ?_
  cases hb : TransactionManager.begin transactionId s with
  | error exc => exact .refl h
  | ok begun =>
    obtain ⟨tx, s'⟩ := begun
    obtain ⟨-, -, rfl⟩ := begin_ok hb
    have hstored := h.stored id s hs
    let s' : Session K := { s with activeTransaction := some transactionId }
    have hstorage : (p.begun transactionId id tx s').storage = p.storage := by
      show (p.setObject id s').node.shared.storage = p.node.shared.storage
      rw [shared_setObject]
    have hstored' : s'.Stored p.storage id :=
      ⟨hstored.sessionId, hstored.stable, hstored.history, hstored.sorted, hstored.row⟩
    show Advances attached p (p.begun transactionId id tx s')
    rw [← hstorage] at hstored'
    exact put_advances h hs (show s'.closed = s.closed from rfl) (fun _ => rfl) (fun _ => rfl)
      (fun id' _ => by rw [hstorage]) [] (by rw [hstorage, List.append_nil])
      (fun v hv => absurd hv List.not_mem_nil) hstored' fun _ hnone => by cases hnone

/-! ### Calls on a transaction -/

variable {id : String} {s : Session K} {held : Held K} {c : Ctx K}

/-- The session is stored as the call has left it, and no other has been written. -/
theorem leave_advances (h : InSync p) (hs : p.object held.sessionId = some s)
    (transactionId : String) (vs : List (Version K)) (hclosed : c.session.closed = s.closed)
    (hstored : c.session.Stored c.shared.storage held.sessionId)
    (hrow : ∀ id ≠ held.sessionId, c.shared.storage.sessions id = p.storage.sessions id)
    (hversions : c.shared.storage.versions = p.storage.versions ++ vs)
    (hvs : ∀ v ∈ vs, v.sessionId = held.sessionId)
    (hsaved : attached → c.session.activeTransaction = none →
      c.shared.storage.sessions held.sessionId = some c.session.toRow) :
    Advances attached p (p.leave transactionId held c) :=
  put_advances h hs hclosed (fun _ => rfl) (fun _ => rfl) hrow vs hversions hvs hstored hsaved

theorem steady_advances (h : InSync p) (hs : p.object held.sessionId = some s)
    (transactionId : String) (hattached : attached → s.activeTransaction = some transactionId)
    (hc : Steady (p.ctx s held) c) : Advances attached p (p.leave transactionId held c) := by
  obtain ⟨⟨ks, m, ds, hm, hsession⟩, hstorage⟩ := hc
  have hstored := h.stored held.sessionId s hs
  refine leave_advances h hs transactionId [] ?_ ?_ (fun id _ => by rw [hstorage]; rfl) ?_
    (fun v hv => absurd hv List.not_mem_nil) fun ha hnone => ?_
  · rw [hsession]
    rfl
  · rw [hsession, hstorage]
    exact ⟨hstored.sessionId, hm hstored.stable, hstored.history, hstored.sorted, hstored.row⟩
  · rw [hstorage, List.append_nil]
    rfl
  · -- the session has stayed attached
    rw [hsession] at hnone
    cases (hattached ha).symm.trans hnone

theorem ended_advances (h : InSync p) (hs : p.object held.sessionId = some s)
    (transactionId : String) (hc : Ended (p.ctx s held) c) :
    Advances attached p (p.leave transactionId held c) := by
  obtain ⟨⟨ks, m, ds, hm, hsession⟩, hstorage⟩ := hc
  have hstored := h.stored held.sessionId s hs
  have hid : c.session.sessionId = held.sessionId := by rw [hsession]; exact hstored.sessionId
  have hrow : c.shared.storage.sessions held.sessionId = some c.session.toRow := by
    rw [hstorage, hid]
    exact Function.update_self _ _ _
  refine leave_advances h hs transactionId [] ?_ (.of_saved hid ?_ ?_ ?_ hrow) (fun id hne => ?_) ?_
    (fun v hv => absurd hv List.not_mem_nil) fun _ _ => hrow
  · rw [hsession]
    rfl
  · rw [hsession]
    exact hm hstored.stable
  · rw [hsession, hstorage]
    exact hstored.history
  · rw [hsession]
    exact hstored.sorted
  · rw [hstorage, hid]
    exact Function.update_of_ne hne _ _
  · rw [hstorage, List.append_nil]
    rfl

theorem extended_advances (h : InSync p) (hs : p.object held.sessionId = some s)
    (transactionId : String) {env : Env K} (hc : Extended env (p.ctx s held) c)
    (hclock : ∀ v ∈ s.versionHistory, v.createdAt ≤ env.now) :
    Advances attached p (p.leave transactionId held c) := by
  obtain ⟨⟨v, hvid, hnow, ⟨ks, m, ds, active, hm, hsession⟩, hversions⟩, hrows⟩ := hc
  have hstored := h.stored held.sessionId s hs
  have hid : c.session.sessionId = held.sessionId := by rw [hsession]; exact hstored.sessionId
  have hv : v.sessionId = held.sessionId := hvid.trans hstored.sessionId
  have hrow : c.shared.storage.sessions held.sessionId = some c.session.toRow := by
    rw [hrows, hid]
    exact Function.update_self _ _ _
  refine leave_advances h hs transactionId [v] ?_ (.of_saved hid ?_ ?_ ?_ hrow) (fun id hne => ?_)
    hversions (fun w hw => by rw [List.mem_singleton.1 hw, hv]) fun _ _ => hrow
  · rw [hsession]
    rfl
  · rw [hsession]
    exact hm hstored.stable
  · rw [Storage.versionsOf, hversions, List.filter_append, hsession]
    refine congrArg₂ (· ++ ·) hstored.history ?_
    exact List.filter_eq_self.2 fun w hw => beq_iff_eq.2 (by rw [List.mem_singleton.1 hw, hv])
  · rw [hsession]
    refine List.pairwise_append.2 ⟨hstored.sorted, List.pairwise_singleton _ _, ?_⟩
    intro w hw v' hv'
    rw [List.mem_singleton.1 hv', hnow]
    exact hclock w hw
  · rw [hrows, hid]
    exact Function.update_of_ne hne _ _

theorem onTransaction_advances {α : Type} (h : InSync p) {transactionId : String}
    {call : PipelineM K α} {f : α → Answer K}
    (hcall : ∀ held s, p.transactions transactionId = some held →
      p.object held.sessionId = some s →
        Advances attached p (p.leave transactionId held (stateOf (call (p.ctx s held))))) :
    Advances attached p (p.onTransaction transactionId call f).2 := by
  unfold onTransaction
  cases ht : p.transactions transactionId with
  | none => exact .refl h
  | some held =>
    refine withObject_advances h fun s hs => ?_
    have hadvances := hcall held s ht hs
    cases hr : call (p.ctx s held) with
    | ok r c =>
      rw [hr] at hadvances
      exact hadvances
    | error exc c =>
      rw [hr] at hadvances
      exact hadvances

theorem add_advances (h : InSync p) (transactionId : String) (edits : List (Edit K))
    (requests : List (DispatchRequest K)) :
    Advances attached p (p.call (.add transactionId edits requests)).2 := by
  rw [call]
  cases p.transactions transactionId with
  | none => exact .refl h
  | some held =>
    dsimp only
    split
    · exact ⟨⟨h.stored, h.unclosed, h.registered⟩, List.prefix_refl _, fun _ hp => hp⟩
    · exact .refl h

/-- What is known of a sound call. -/
theorem call_advances (h : InSync p) (call : ProcessCall K) (hsound : p.Sound (.call call)) :
    Advances (p.OnAttached (.call call)) p (p.call call).2 := by
  cases call with
  | create env ks =>
    rw [Process.call, answer_snd]
    exact adopt_advances h hsound.1 hsound.2 rfl (Metadata.stable_new _) rfl
  | branch env parentId versionId =>
    refine withObject_advances h fun parent _ => ?_
    rw [answer_snd, Runtime.createBranch]
    cases Runtime.forkPoint parent versionId with
    | error exc => exact .refl h
    | ok fork => exact adopt_advances h hsound.1 hsound.2 rfl (Metadata.stable_new _) rfl
  | foreign env parentId ks parentVersionId metadata =>
    refine withObject_advances h fun parent _ => ?_
    rw [answer_snd]
    exact adopt_advances h hsound.1 hsound.2.1 rfl (hsound.2.2.update _) rfl
  | get id =>
    rw [Process.call]
    split <;> exact .refl h
  | close env id => exact close_advances h hsound id
  | begin transactionId id => exact begin_advances h transactionId id
  | add transactionId edits requests => exact add_advances h transactionId edits requests
  | commit env transactionId =>
    refine onTransaction_advances h fun held s ht hs => ?_
    obtain ⟨hversion, hsession, hsubscriber, hfresh, hclock⟩ := hsound
    -- the row is this object's own, so its last version is the stored one
    have hsaves : Pipeline.Saves { env with replicaId := p.node.replicaId } (p.ctx s held) := by
      refine ⟨hversion, hsession, hsubscriber, hfresh, .inr fun row hrow => ?_⟩
      obtain ⟨ks, m, -, hrow'⟩ := (h.stored held.sessionId s hs).row
      change p.storage.sessions s.sessionId = some row at hrow
      rw [(h.stored held.sessionId s hs).sessionId, hrow'] at hrow
      cases hrow
      rfl
    rcases Pipeline.commit_leaves hsaves with hc | hc | hc
    · exact steady_advances h hs transactionId (fun ha => ha held ht s hs) hc
    · exact ended_advances h hs transactionId hc
    · exact extended_advances h hs transactionId hc (hclock held ht s hs)
  | rollback env transactionId =>
    exact onTransaction_advances h fun held s _ hs =>
      ended_advances h hs transactionId (Pipeline.rollback_ended hsound (p.ctx s held))
  | abort env transactionId =>
    exact onTransaction_advances h fun held s _ hs =>
      ended_advances h hs transactionId (Pipeline.abort_ended hsound (p.ctx s held))

end Process

/-! ## A restart keeps them in step -/

/-- The session a restore registers in place of a stored one: with its history, its content as the
row has it, and attached to nothing. -/
theorem Session.Stored.openSession {st : Storage K} {id : String} {s : Session K}
    (h : s.Stored st id) (hopen : s.closed = false) {ks : K.Structure} {m : Metadata}
    (hm : m.Stable)
    (hrow : st.sessions id = some ({ s with knowledgeStructure := ks, metadata := m } :
      Session K).toRow) : st.openSession id = some
        { s with
          knowledgeStructure := ks
          metadata := m
          diagnostics := []
          activeTransaction := none } := by
  have hsorted : (st.versions.filter (·.sessionId == id)).mergeSort
      (fun a b => decide (a.createdAt ≤ b.createdAt)) = s.versionHistory := by
    refine Eq.trans ?_ h.history
    refine List.mergeSort_of_pairwise ?_
    change (st.versionsOf id).Pairwise _
    rw [h.history]
    exact h.sorted.imp fun hle => decide_eq_true hle
  have hload : st.loadSession id = some
      { s with
        knowledgeStructure := ks
        metadata := m
        diagnostics := []
        activeTransaction := none } := by
    rw [Storage.loadSession, hrow, Option.map_some, hsorted, h.sessionId, Session.toRow, hm.reload]
  rw [Storage.openSession, hload, Option.filter_some, hopen]
  rfl

theorem Storage.row_of_openSession {st : Storage K} {id : String} {s : Session K}
    (h : st.openSession id = some s) :
    ∃ row, st.sessions id = some row ∧ row.closed = false := by
  obtain ⟨hload, hclosed⟩ := Option.filter_eq_some_iff.1 h
  obtain ⟨row, hrow, rfl⟩ := Option.map_eq_some_iff.1 hload
  exact ⟨row, hrow, by simpa using hclosed⟩

namespace Process

variable {p : Process K}

theorem registered_of_openSession (h : InSync p) {id : String} {s : Session K}
    (hs : p.storage.openSession id = some s) : ∃ s₀, p.node.sessions id = some s₀ := by
  obtain ⟨row, hrow, hclosed⟩ := Storage.row_of_openSession hs
  exact Option.isSome_iff_exists.1 (h.registered id row hrow hclosed)

theorem restart_object {ids : List String} (hids : p.Lists ids) (id : String) :
    (p.restart ids).object id = p.storage.openSession id := by
  rw [object, restart_node hids]
  exact Option.or_none

theorem restart_advances (h : InSync p) {ids : List String} (hids : p.Lists ids)
    {attached : Prop} : Advances attached p (p.restart ids) := by
  have hnode := restart_node hids
  have hsessions : ∀ id, (p.restart ids).node.sessions id = p.storage.openSession id := by
    rw [hnode]
    exact fun id => rfl
  have hstorage : (p.restart ids).storage = p.storage := by
    rw [Process.storage, hnode]
    rfl
  -- what is restored has been registered, and is as its row has it
  have hrestored : ∀ id s, p.storage.openSession id = some s →
      s.closed = false ∧ s.Stored p.storage id ∧ p.storage.sessions id = some s.toRow := by
    intro id s hs
    obtain ⟨s₀, hs₀⟩ := registered_of_openSession h hs
    have hstored := stored_of_registered h hs₀
    obtain ⟨ks, m, hm, hrow⟩ := hstored.row
    have hopen := h.unclosed id s₀ hs₀
    cases hs.symm.trans (hstored.openSession hopen hm hrow)
    exact ⟨hopen, .of_saved hstored.sessionId hm hstored.history hstored.sorted hrow, hrow⟩
  refine ⟨⟨fun id s hs => ?_, fun id s hs => ?_, fun id row hrow hclosed => ?_⟩, ?_,
    fun _ _ id s hs _ => ?_⟩
  · rw [restart_object hids] at hs
    rw [hstorage]
    exact (hrestored id s hs).2.1
  · rw [hsessions] at hs
    exact (hrestored id s hs).1
  · rw [hstorage] at hrow
    obtain ⟨s, hs⟩ := Option.isSome_iff_exists.1 (h.registered id row hrow hclosed)
    have hstored := stored_of_registered h hs
    obtain ⟨ks, m, hm, hrow'⟩ := hstored.row
    rw [hsessions, hstored.openSession (h.unclosed id s hs) hm hrow']
    rfl
  · rw [hstorage]
  · rw [hsessions] at hs
    rw [hstorage]
    exact (hrestored id s hs).2.2

/-! ## Runs -/

theorem step_advances (h : InSync p) {e : LifeEvent K} {p' : Process K} (hst : Step p e p')
    (hsound : p.Sound e) : Advances (p.OnAttached e) p p' := by
  cases hst with
  | call call => exact call_advances h call hsound
  | restart ids hids => exact restart_advances h hids

theorem inSync_init (h : (system K).init p) : InSync p := by
  obtain ⟨replicaId, supportsOperationLog, rfl⟩ := h
  exact ⟨fun id s hs => (by cases hs), fun id s hs => (by cases hs),
    fun id row hrow => (by cases hrow)⟩

theorem inSync_of_reachable (h : ((system K).restrict Sound).Reachable p) : InSync p :=
  h.invariant (fun _ => inSync_init) fun _ _ _ _ hi hst => (step_advances hi hst.1 hst.2).inSync

theorem versions_prefix_of_path {p' : Process K} {es : List (LifeEvent K)}
    (h : ((system K).restrict Sound).Reachable p)
    (hp : ((system K).restrict Sound).Path p es p') :
    p.storage.versions <+: p'.storage.versions :=
  hp.invariant (P := fun p' => p.storage.versions <+: p'.storage.versions) h
    (List.prefix_refl _) fun _ _ _ _ hr hpre hst =>
      hpre.trans (step_advances (inSync_of_reachable hr) hst.1 hst.2).versions

end Process

/-- **What a version reconstructs to stays**, whatever is called later and however often the process
ends, in the middle of transactions too, wherever the process has the session, registered or
closed. -/
theorem version_state_survives {p p' : Process K} {es : List (LifeEvent K)} {id versionId : String}
    {s s' : Session K} {ks : K.Structure}
    (h : ((Process.system K).restrict Process.Sound).Reachable p)
    (hp : ((Process.system K).restrict Process.Sound).Path p es p')
    (hs : p.object id = some s) (hs' : p'.object id = some s')
    (hstate : s.getVersionState versionId = .ok ks) : s'.getVersionState versionId = .ok ks := by
  have hstored := (Process.inSync_of_reachable h).stored id s hs
  have hstored' := (Process.inSync_of_reachable (hp.reachable h)).stored id s' hs'
  obtain ⟨more, hmore⟩ := (Process.versions_prefix_of_path h hp).filter (·.sessionId == id)
  change p.storage.versionsOf id ++ more = p'.storage.versionsOf id at hmore
  rw [hstored.history, hstored'.history] at hmore
  exact getVersionState_append hmore.symm hstate

/-! ## A run of the register -/

namespace Process

/-- The process the calls leave, of one started on an empty store. -/
def afterCalls (calls : List (ProcessCall Core.register)) : Process Core.register :=
  calls.foldl (fun p call => (p.call call).2) { node := { replicaId := some "a" } }

/-- A session whose content one commit replaces. -/
def commitCalls : List (ProcessCall Core.register) :=
  [.create ⟨"s", "n", none, fun _ => none⟩ (0 : Nat), .begin "t1" "s",
    .add "t1" [.operation ⟨"o1", .replaceState (some (5 : Nat))⟩] [],
    .commit { replicaId := none, versionId := "v1" } "t1"]

/-- The process after those calls. -/
def committed : Process Core.register := afterCalls commitCalls

/-- A second transaction has been begun, and then the first, long finished, is rolled back. -/
def late : Process Core.register :=
  ((committed.call (.begin "t2" "s")).2.call (.rollback { replicaId := none, versionId := "v2" } "t1")).2

/-- The session it has. -/
def sessionOf (p : Process Core.register) : Session Core.register :=
  (p.object "s").getD (SessionManager.newSession "s" "n" (0 : Nat))

theorem object_eq {p : Process Core.register} (h : (p.object "s").isSome) :
    p.object "s" = some p.sessionOf := by
  obtain ⟨s, hs⟩ := Option.isSome_iff_exists.1 h
  rw [sessionOf, hs]
  rfl

theorem call_reachable {p : Process K}
    (h : (((system K).restrict Sound).restrict OnAttached).Reachable p) (call : ProcessCall K)
    (hsound : p.Sound (.call call)) (hattached : p.OnAttached (.call call)) :
    (((system K).restrict Sound).restrict OnAttached).Reachable (p.call call).2 :=
  .step h ⟨⟨.call call, hsound⟩, hattached⟩

theorem committed_reachable :
    (((system Core.register).restrict Sound).restrict OnAttached).Reachable committed := by
  have hstart : (((system Core.register).restrict Sound).restrict OnAttached).Reachable
      (afterCalls []) := .init ⟨some "a", true, rfl⟩
  have hcreated := call_reachable hstart (.create ⟨"s", "n", none, fun _ => none⟩ (0 : Nat))
    ⟨rfl, rfl, fun v hv => by cases hv⟩ trivial
  have hbegun := call_reachable hcreated (.begin "t1" "s") rfl trivial
  have hadded := call_reachable hbegun
    (.add "t1" [.operation ⟨"o1", .replaceState (some (5 : Nat))⟩] []) trivial trivial
  refine call_reachable hadded (.commit { replicaId := none, versionId := "v1" } "t1")
    ⟨rfl, rfl, fun _ _ _ => rfl, fun v hv => (by cases hv), fun held ht s hs v hv => ?_⟩
    fun held ht s hs => ?_
  · cases ht
    cases hs
    cases hv
  · cases ht
    cases hs
    rfl

theorem committed_row {id : String} (hid : id ≠ "s") :
    committed.node.shared.storage.sessions id = none :=
  (Function.update_of_ne hid _ _).trans (Function.update_of_ne hid _ _)

/-- The one row is stored anew. -/
theorem late_row {id : String} (hid : id ≠ "s") : late.node.shared.storage.sessions id = none := by
  have hrows : late.node.shared.storage.sessions =
      Function.update committed.node.shared.storage.sessions "s" (some late.sessionOf.toRow) := rfl
  rw [hrows, Function.update_of_ne hid, committed_row hid]

theorem late_lists : late.Lists ["s"] := by
  intro id
  by_cases hid : id = "s"
  · subst hid
    exact iff_of_true List.mem_cons_self rfl
  · rw [late_row hid]
    exact iff_of_false (fun hmem => hid (List.mem_singleton.1 hmem)) Bool.false_ne_true

theorem late_reopened : ∃ s, (late.restart ["s"]).object "s" = some s ∧
    s.knowledgeStructure = (0 : Nat) := by
  have hrow : late.storage.sessions "s" = some late.sessionOf.toRow := rfl
  rw [restart_object late_lists, Storage.openSession, Storage.loadSession, hrow]
  exact ⟨_, rfl, rfl⟩

end Process

/-- The late rollback has put the first content back and saved it, and the process has ended in the
second transaction. -/
theorem version_state_survives_crash : ∃ s, (Process.late.restart ["s"]).object "s" = some s ∧
    s.knowledgeStructure = (0 : Nat) ∧ s.getVersionState "v1" = .ok (5 : Nat) := by
  have hp : ((Process.system Core.register).restrict Process.Sound).Path Process.committed
      ([] ++ [.call (.begin "t2" "s")] ++
        [.call (.rollback { replicaId := none, versionId := "v2" } "t1")] ++ [.restart ["s"]])
      (Process.late.restart ["s"]) :=
    .tail (.tail (.tail (.refl _) ⟨.call _, rfl⟩) ⟨.call _, rfl⟩)
      ⟨.restart _ Process.late_lists, trivial⟩
  obtain ⟨s, hs, hcontent⟩ := Process.late_reopened
  exact ⟨s, hs, hcontent, version_state_survives Process.committed_reachable.of_restrict hp
    (Process.object_eq rfl) hs rfl⟩

end CksRuntime
