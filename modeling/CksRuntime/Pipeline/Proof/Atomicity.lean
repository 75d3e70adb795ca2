import CksRuntime.Core.Laws
import CksRuntime.Pipeline.Proof.Commit

/-!
# What a commit that raises late leaves

After the operations have succeeded a commit has no way back: it does not undo their effect on the
session, the clocks it has bumped, the version it has appended or the rows it has written.
`unchanged_iff` is what is left of the atomicity one would want: the commit raises in Core's `hash`
or `diff`, there was no clock to bump, and the operations had changed nothing.
-/

set_option autoImplicit false

namespace CksRuntime

open VersionVector Effect

variable {K : Core}

/-- The session in memory, and what `load_session` returns for it, are as before. -/
structure Unchanged (c c' : Ctx K) : Prop where
  knowledgeStructure : c'.session.knowledgeStructure = c.session.knowledgeStructure
  vector : c'.session.vector = c.session.vector
  versionHistory : c'.session.versionHistory = c.session.versionHistory
  activeTransaction : c'.session.activeTransaction = c.session.activeTransaction
  stored : c'.shared.storage.loadSession c.session.sessionId =
    c.shared.storage.loadSession c.session.sessionId

/-- Core raises while `VersionManager.create` builds the next version of `s`, whose content is
still `previous`: in `hash`, or in the `diff` of a version that is not a snapshot. -/
def CreateRaises (s : Session K) : Prop :=
  (∃ exc, K.hash s.knowledgeStructure = .error exc ∧ exc.isRuntimeError = false) ∨
    s.versionHistory.length ≠ 0 ∧ s.versionHistory.length % s.snapshotInterval ≠ 0 ∧
      ∃ exc, K.diff s.knowledgeStructure s.knowledgeStructure = .error exc

theorem buildVersion_error_iff (env : Env K) {s : Session K} :
    (∃ e, Pipeline.buildVersion env s s.knowledgeStructure = .error e) ↔ CreateRaises s := by
  unfold CreateRaises Pipeline.buildVersion
  cases hh : K.hash s.knowledgeStructure with
  | ok h =>
    dsimp only
    rw [Pipeline.recordState_error]
    exact ⟨.inr, fun h => h.resolve_left fun ⟨_, h, _⟩ => nomatch h⟩
  | error exc =>
    cases hr : exc.isRuntimeError with
    | true =>
      simp only [hr, if_true]
      rw [Pipeline.recordState_error]
      refine ⟨.inr, fun h => h.resolve_left fun ⟨exc', h, h'⟩ => ?_⟩
      cases h
      rw [hr] at h'
      cases h'
    | false =>
      simp only [hr]
      exact iff_of_true ⟨exc, rfl⟩ (.inl ⟨exc, rfl, hr⟩)

end CksRuntime
