import CksRuntime.Pipeline.Proof.Items
import CksRuntime.Pipeline.Proof.Probe

/-!
# What a failed commit restores

A transaction whose item number `k` fails is rolled back, and rollback restores the content only.
`asBegun_iff` says when nothing else was left to restore: no merge before `k` fast-forwarded, and
the failure was one the pipeline handles, not an exception out of the dispatcher.
-/

set_option autoImplicit false

namespace CksRuntime

open VersionVector Effect

variable {K : Core}

/-- `c` is where a transaction begun on `s` is committed: `begin_transaction`, and then only
operations and requests were added. -/
def Begun (s : Session K) (c : Ctx K) : Prop :=
  ∃ transactionId tx, TransactionManager.begin transactionId s = .ok (tx, c.session) ∧
    c.transaction =
      { tx with operations := c.transaction.operations, requests := c.transaction.requests }

/-- The commit in `c` runs the items `done` and fails at the next one, `x`, with `e`. -/
structure FailsAt (env : Env K) (c : Ctx K) (done : List (Item K)) (x : Item K) (e : Err K.Obj)
    (c' : Ctx K) : Prop where
  items : ∃ rest, c.transaction.items = done ++ x :: rest
  ran : ∃ c₁, forM done (Item.execute env) c = .ok ⟨⟩ c₁ ∧ x.execute env c₁ = .error e c'
  commit : Pipeline.commit env c = .error e c'

/-- The session is as it was at `begin_transaction`, and the transaction is rolled back. -/
structure AsBegun (s : Session K) (c' : Ctx K) : Prop where
  knowledgeStructure : c'.session.knowledgeStructure = s.knowledgeStructure
  metadata : c'.session.metadata = s.metadata
  versionHistory : c'.session.versionHistory = s.versionHistory
  activeTransaction : c'.session.activeTransaction = none
  status : c'.transaction.status = .rolledBack

theorem begin_ok {transactionId : String} {s s' : Session K} {tx : Transaction K}
    (h : TransactionManager.begin transactionId s = .ok (tx, s')) :
    s.activeTransaction = none ∧
      tx = { transactionId := transactionId, initialState := s.knowledgeStructure } ∧
      s' = { s with activeTransaction := some transactionId } := by
  unfold TransactionManager.begin at h
  split at h
  · cases h
  · rename_i hn
    cases h
    exact ⟨by simpa [Session.hasActiveTransaction] using hn, rfl, rfl⟩

/-- An item that raises after the ones before it have run is what the commit fails at. -/
theorem FailsAt.of_ran {env : Env K} {c c₁ c' : Ctx K} {done rest : List (Item K)} {x : Item K}
    {e : Err K.Obj} (hitems : c.transaction.items = done ++ x :: rest)
    (hdone : forM done (Item.execute env) c = .ok ⟨⟩ c₁) (hx : x.execute env c₁ = .error e c') :
    FailsAt env c done x e c' := by
  have hstage : Pipeline.executeStage env c = .error e c' := by
    have hne : ¬(c.transaction.operations.isEmpty ∧ c.transaction.requests.isEmpty : Prop) := by
      rw [← Pipeline.items_eq_nil, hitems]
      simp
    rw [Pipeline.executeStage, bind_get_run, if_neg hne, Pipeline.executeOperations_run, hitems,
      List.forM_append, bind_of_ok hdone, List.forM_cons, bind_of_error hx]
  refine ⟨⟨rest, hitems⟩, ⟨c₁, hdone, hx⟩, ?_⟩
  rw [Pipeline.commit, bind_get_run, bind_of_error hstage]

/-- However the item fails, the metadata stays as the items before it left it. -/
theorem FailsAt.metadata {env : Env K} {s : Session K} {c c' : Ctx K} {done : List (Item K)}
    {x : Item K} {e : Err K.Obj} (hf : FailsAt env c done x e c') (hb : Begun s c) :
    c'.session.metadata = itemsMetadata env.registry done s.metadata := by
  obtain ⟨tid, tx, hbegin, -⟩ := hb
  obtain ⟨-, -, hs⟩ := begin_ok hbegin
  obtain ⟨c₁, hdone, hx⟩ := hf.ran
  obtain ⟨⟨ks, ds, hs₁⟩, -, -⟩ := Pipeline.forM_items_ok hdone
  obtain ⟨-, rfl⟩ | ⟨-, hrb⟩ := Item.execute_error hx
  · rw [hs₁, hs]
  · rw [hrb.session, hs₁, hs]

/-- **When a failed commit leaves no trace**: exactly when the failing item's construction did not
raise and no item before it is a merge that fast-forwards on the vector the session began with. -/
theorem asBegun_iff {env : Env K} {s : Session K} {c c' : Ctx K} {done : List (Item K)}
    {x : Item K} {e : Err K.Obj} (hb : Begun s c) (hf : FailsAt env c done x e c') :
    AsBegun s c' ↔ x.escapes env.registry = none ∧
      ∀ y ∈ done, ¬y.FastForwards env.registry s.vector := by
  have hmeta := hf.metadata hb
  obtain ⟨tid, tx, hbegin, htx⟩ := hb
  obtain ⟨-, rfl, hs⟩ := begin_ok hbegin
  obtain ⟨c₁, hdone, hx⟩ := hf.ran
  obtain ⟨⟨ks, ds, hs₁⟩, ⟨rs, ht₁⟩, -⟩ := Pipeline.forM_items_ok hdone
  obtain ⟨hesc, rfl⟩ | ⟨hesc, hrb⟩ := Item.execute_error hx
  · -- the exception went through: the session still holds the transaction
    refine iff_of_false (fun h => ?_) fun h => by rw [hesc] at h; cases h.1
    have hact := h.activeTransaction
    rw [hs₁, hs] at hact
    cases hact
  · constructor
    · intro h
      exact ⟨hesc, itemsMetadata_eq_iff.1 (hmeta.symm.trans h.metadata)⟩
    · rintro ⟨-, hnot⟩
      obtain ⟨rs', ht'⟩ := hrb.transaction
      refine ⟨?_, hmeta.trans (itemsMetadata_eq_iff.2 hnot), ?_, ?_, ?_⟩
      · rw [hrb.session, ht₁, htx]
      · rw [hrb.session, hs₁, hs]
      · rw [hrb.session]
      · rw [ht', ht₁, htx]
        rfl

/-! ## A merge that outlives its rollback -/

/-- A `ReplaceStateOperation` without a structure: it reports FAILED. -/
def failingReplace : Operation Core.register := ⟨"replace", .replaceState none⟩

/-- `probeTarget`'s session before its transaction. -/
def mergeTarget : Session Core.register := { probeTarget.session with activeTransaction := none }

/-- The transaction that runs `operations` on `mergeTarget`. -/
def mergeCtx (operations : List (Operation Core.register)) : Ctx Core.register :=
  { probeTarget with transaction := { probeTarget.transaction with operations := operations } }

/-- What the commit meets. -/
def mergeEnv : Env Core.register := { replicaId := none, versionId := "v" }

theorem mergeCtx_begun (operations : List (Operation Core.register)) :
    Begun mergeTarget (mergeCtx operations) := ⟨"tx", _, rfl, rfl⟩

/-- Whatever succeeds first, the replace after it fails. -/
theorem mergeCtx_failsAt (op : Operation Core.register) {c₁ : Ctx Core.register}
    (h : (Item.operation op).execute mergeEnv (mergeCtx [op, failingReplace]) = .ok ⟨⟩ c₁) :
    ∃ e c', FailsAt mergeEnv (mergeCtx [op, failingReplace]) [.operation op]
      (.operation failingReplace) e c' := by
  have hdone : forM [Item.operation op] (Item.execute mergeEnv)
      (mergeCtx [op, failingReplace]) = .ok ⟨⟩ c₁ := by
    rw [List.forM_cons, bind_of_ok h]
    rfl
  exact ⟨_, _, .of_ran rfl hdone rfl⟩

/-- A commit of `[MergeOperation, ReplaceStateOperation]` that fails in the second: the content is
restored, the vector is not. -/
theorem merge_survives_rollback :
    ∃ e c', Begun mergeTarget (mergeCtx [probeMerge, failingReplace]) ∧
      FailsAt mergeEnv (mergeCtx [probeMerge, failingReplace]) [.operation probeMerge]
        (.operation failingReplace) e c' ∧ ¬AsBegun mergeTarget c' := by
  obtain ⟨e, c', hf⟩ := mergeCtx_failsAt probeMerge rfl
  refine ⟨e, c', mergeCtx_begun _, hf, fun h => ?_⟩
  have hff : (Item.operation probeMerge).FastForwards mergeEnv.registry mergeTarget.vector :=
    ⟨probeMerge, rfl, by decide⟩
  have hmeta := (hf.metadata (mergeCtx_begun _)).symm.trans h.metadata
  exact itemsMetadata_eq_iff.1 hmeta _ List.mem_cons_self hff

/-- Behind a replace that succeeded instead, the rollback leaves no trace. -/
theorem replace_rolledBack :
    ∃ e c', FailsAt mergeEnv (mergeCtx [⟨"set", .replaceState (some 5)⟩, failingReplace])
      [.operation ⟨"set", .replaceState (some 5)⟩] (.operation failingReplace) e c' ∧
        AsBegun mergeTarget c' := by
  obtain ⟨e, c', hf⟩ := mergeCtx_failsAt ⟨"set", .replaceState (some 5)⟩ rfl
  refine ⟨e, c', hf, (asBegun_iff (mergeCtx_begun _) hf).2 ⟨rfl, ?_⟩⟩
  intro y hy
  rw [List.mem_singleton.1 hy]
  rintro ⟨op, hop, hff⟩
  cases hop
  revert hff
  decide

end CksRuntime
