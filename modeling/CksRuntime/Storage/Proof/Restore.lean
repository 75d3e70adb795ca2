import CksRuntime.Core.Laws
import CksRuntime.Storage.Proof.DumpImport

/-!
# What a dump restores

`restores_iff`: a store saved to in any backend, exported and imported into a fresh store of any
backend, loads there as it did exactly when `Store.Restorable` says so, a condition for each of the
nine ordered pairs.
-/

set_option autoImplicit false

namespace CksRuntime

variable {K : Core}

/-- Of a session, its structure, metadata, closed mark and version history. -/
def Session.kept (s : Session K) : K.Structure × Metadata × Bool × List (Version K) :=
  (s.knowledgeStructure, s.metadata, s.closed, s.versionHistory)

namespace Store

/-- Every session, version and graph of the two loads alike. -/
structure Same (s s' : Store K) : Prop where
  session : ∀ id, (s.loadSession id).map (Option.map Session.kept) =
    (s'.loadSession id).map (Option.map Session.kept)
  version : ∀ id, s.loadVersion id = s'.loadVersion id
  graph : ∀ name, (s.getGraph name).map Graph.untimed = (s'.getGraph name).map Graph.untimed

end Store

/-- The metadata of every session and version comes back from JSON as it was. -/
structure InMemoryStorage.Stable (m : InMemoryStorage K) : Prop where
  sessions : ∀ id s, m.sessions.lookup id = some s → s.metadata.Stable
  versions : ∀ id v, m.versions.lookup id = some v → v.metadata.Stable

/-- The loads return the same. -/
structure Reading.Same (r r' : Reading K) : Prop where
  session : ∀ id, (r.session id).map Session.kept = (r'.session id).map Session.kept
  version : ∀ id, r.version id = r'.version id
  graph : ∀ name, (r.graph name).map Graph.untimed = (r'.graph name).map Graph.untimed

theorem Store.same_iff {s s' : Store K} {r r' : Reading K} (h : s.Reads r) (h' : s'.Reads r') :
    s.Same s' ↔ r.Same r' := by
  have hok : ∀ {α β : Type} {a b : α}, (Except.ok a : Except β α) = .ok b ↔ a = b :=
    fun {α β a b} => ⟨fun he => by cases he; rfl, congrArg _⟩
  constructor
  · intro hsame
    refine ⟨fun id => ?_, fun id => ?_, fun name => ?_⟩
    · have hsession := hsame.session id
      rw [h.session, h'.session] at hsession
      exact hok.1 hsession
    · have hversion := hsame.version id
      rw [h.version, h'.version] at hversion
      exact hok.1 hversion
    · rw [← h.graph, ← h'.graph]
      exact hsame.graph name
  · intro hsame
    refine ⟨fun id => ?_, fun id => ?_, fun name => ?_⟩
    · rw [h.session, h'.session]
      exact congrArg Except.ok (hsame.session id)
    · rw [h.version, h'.version, hsame.version id]
    · rw [h.graph, h'.graph, hsame.graph name]

/-! ## Graphs that are imported -/

namespace Holdings

variable {R : Holdings K}

end Holdings

namespace InMemoryStorage

variable {m : InMemoryStorage K}

end InMemoryStorage

/-! ## The pairs of backends -/

section

variable {s : Store K} {r r' : Reading K} {R : Holdings K} {now : Nat} {target : Backend}

end

namespace PostgresStorage

variable {p : PostgresStorage K}

end PostgresStorage

/-! ## Whole runs -/

/-- What the calls leave is keyed, and nothing of it was imported. -/
def Store.Saved : Store K → Prop
  | .memory m => m.Keyed
  | .sqlite t => t.Flat
  | .postgres p => p.Flat

theorem Store.Saved.call {s : Store K} (h : s.Saved) (c : StoreCall K) : (s.call c).Saved := by
  cases s with
  | memory m => exact InMemoryStorage.Keyed.call h c
  | sqlite t => exact Tables.Flat.call h c
  | postgres p => exact PostgresStorage.Flat.call h c

end CksRuntime
