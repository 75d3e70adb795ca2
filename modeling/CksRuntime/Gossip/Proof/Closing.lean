import CksRuntime.Gossip.Proof.Effect

/-!
# Deliveries after a close

`close_session` takes the session out of the registry, where `apply_remote_session` looks to see
whether it has it: the next snapshot of the session is adopted as one never seen before, open, and
written over the row that says it is closed. `staysClosed_iff`: short of that are only deliveries
that raise before the registry is looked at.
-/

set_option autoImplicit false

namespace CksRuntime

open Effect GossipAdapter

variable {K : Core}

/-- A snapshot of the session `sessionId`, and what applying it meets. -/
structure Delivery (K : Core) (sessionId : String) where
  env : GossipEnv K
  remote : Session K
  about : remote.sessionId = sessionId

/-- The adapter after the deliveries, whether they return or raise. -/
def deliverAll {sessionId : String} : List (Delivery K sessionId) → Adapter K → Adapter K
  | [], a => a
  | d :: ds, a => deliverAll ds (stateOf (applyRemoteSession d.env d.remote a))

/-- The adapter after `close_session`. -/
def Adapter.close (env : CallEnv K) (sessionId : String) (a : Adapter K) : Adapter K :=
  { a with node := stateOf (Runtime.closeSession env sessionId a.node) }

/-- What `close_session` did to the session in `a` still stands in `a'`. -/
structure StaysClosed (sessionId : String) (a a' : Adapter K) : Prop where
  registry : a'.node.sessions sessionId = none
  row : ∀ row, a.node.shared.storage.sessions sessionId = some row → row.closed = true →
    ∃ row', a'.node.shared.storage.sessions sessionId = some row' ∧ row'.closed = true

theorem StaysClosed.refl {sessionId : String} {a : Adapter K}
    (h : a.node.sessions sessionId = none) : StaysClosed sessionId a a :=
  ⟨h, fun row hrow hclosed => ⟨row, hrow, hclosed⟩⟩

/-- Whether it saves and publishes or raises, a close unregisters. -/
theorem close_registry (env : CallEnv K) (sessionId : String) (a : Adapter K) :
    (a.close env sessionId).node.sessions sessionId = none := by
  change (stateOf (Runtime.closeSession env sessionId a.node)).sessions sessionId = none
  cases hs : a.node.sessions sessionId with
  | none =>
    rw [Runtime.closeSession, bind_get_run, hs]
    exact hs
  | some s =>
    rw [Runtime.closeSession_run env hs]
    cases env.saveSessionFault with
    | some exc => exact Function.update_self _ _ _
    | none =>
      dsimp only [Option.elim]
      cases env.subscriber (.sessionClosed sessionId) <;> exact Function.update_self _ _ _

theorem deliver_of_fault {sessionId : String} {d : Delivery K sessionId} {a : Adapter K}
    (h : d.env.crdtFault.isSome = true) :
    stateOf (applyRemoteSession d.env d.remote a) = a := by
  obtain ⟨exc, hexc⟩ := Option.isSome_iff_exists.1 h
  rw [apply_run, hexc]
  rfl

/-- A delivery that gets to the registry and does not find the session registers it. -/
theorem deliver_registers {sessionId : String} {d : Delivery K sessionId} {a : Adapter K}
    (h : d.env.crdtFault = none) (hs : a.node.sessions sessionId = none) :
    (stateOf (applyRemoteSession d.env d.remote a)).node.sessions sessionId ≠ none := by
  obtain ⟨env, remote, rfl⟩ := d
  obtain ⟨s, hs', -⟩ := (bootstrap_leaves env remote a.node).session
  rw [apply_run, h, hs]
  dsimp only [Option.elim]
  rw [stateOf_runtime, hs']
  exact Option.some_ne_none s

theorem deliverAll_of_faults {sessionId : String} {a : Adapter K} :
    ∀ {ds : List (Delivery K sessionId)}, (∀ d ∈ ds, d.env.crdtFault.isSome = true) →
      deliverAll ds a = a
  | [], _ => rfl
  | d :: ds, h => by
    rw [deliverAll, deliver_of_fault (h d List.mem_cons_self)]
    exact deliverAll_of_faults fun d' hd' => h d' (List.mem_cons_of_mem _ hd')

/-- From a registry without the session: it stays without it as long as the deliveries raise. -/
theorem faults_of_registry {sessionId : String} : ∀ {ds : List (Delivery K sessionId)}
    {a : Adapter K}, a.node.sessions sessionId = none →
      (∀ k, (deliverAll (ds.take k) a).node.sessions sessionId = none) →
        ∀ d ∈ ds, d.env.crdtFault.isSome = true
  | [], _, _, _ => fun d hd => absurd hd List.not_mem_nil
  | d :: ds, a, hs, h => by
    have hfault : d.env.crdtFault.isSome = true := by
      by_contra hnone
      rw [Bool.not_eq_true, Option.isSome_eq_false_iff, Option.isNone_iff_eq_none] at hnone
      exact deliver_registers hnone hs (h 1)
    have hrest : ∀ d' ∈ ds, d'.env.crdtFault.isSome = true := by
      refine faults_of_registry hs fun k => ?_
      have hk := h (k + 1)
      rw [List.take_succ_cons, deliverAll, deliver_of_fault hfault] at hk
      exact hk
    intro d' hd'
    rcases List.mem_cons.1 hd' with rfl | hd'
    · exact hfault
    · exact hrest d' hd'

/-- **A closed session stays closed** through the deliveries exactly when every one of them raises
while the snapshot's objects are merged. -/
theorem staysClosed_iff (env : CallEnv K) (sessionId : String) (a : Adapter K)
    (ds : List (Delivery K sessionId)) :
    (∀ k, StaysClosed sessionId (a.close env sessionId)
        (deliverAll (ds.take k) (a.close env sessionId))) ↔
      ∀ d ∈ ds, d.env.crdtFault.isSome = true := by
  have hclosed := close_registry env sessionId a
  constructor
  · intro h
    exact faults_of_registry hclosed fun k => (h k).registry
  · intro h k
    rw [deliverAll_of_faults fun d hd => h d (List.mem_of_mem_take hd)]
    exact .refl hclosed

/-! ## A session reopened -/

/-- A session that is open. -/
def openSession : Session Core.register := { knowledgeStructure := (1 : Nat), sessionId := "s" }

/-- The replica that has it. -/
def openAdapter : Adapter Core.register where
  node := { sessions := Function.update (fun _ => none) "s" (some openSession) }
  replicaId := "here"

/-- What the call that closes it meets. -/
def closeEnv : CallEnv Core.register := { sessionId := "", nodeId := "" }

/-- A snapshot another replica made before the session was closed here. -/
def lateSnapshot : Delivery Core.register "s" where
  env := {
    pipeline := { replicaId := none, versionId := "v" }
    transactionId := "tx"
    nodeId := "n"
    branchId := "b"
    branchNodeId := "bn" }
  remote := { knowledgeStructure := (2 : Nat), sessionId := "s" }
  about := rfl

/-- The close has returned and is stored; one delivery later the session is registered, and its row
says it is open. -/
theorem delivery_reopens :
    (∃ n, Runtime.closeSession closeEnv "s" openAdapter.node = .ok () n) ∧
      ((openAdapter.close closeEnv "s").node.shared.storage.sessions "s").map (·.closed) =
        some true ∧
      ((deliverAll [lateSnapshot] (openAdapter.close closeEnv "s")).node.sessions "s").isSome ∧
      ((deliverAll [lateSnapshot]
        (openAdapter.close closeEnv "s")).node.shared.storage.sessions "s").map (·.closed) =
          some false :=
  ⟨⟨_, rfl⟩, rfl, rfl, rfl⟩

end CksRuntime
