import CksRuntime.Crdt.PostgresMerkle
import CksRuntime.Crdt.Proof.MerkleSync

/-!
# Concurrent insertions into the tree

A transaction hashes each node of its path from the children it has read (`NodeInv`), and changes
nothing else. If what it has read is still there when it commits, each node of the path is hashed
from the children it then has, which adds the id to the tree of the ids stored
(`HashTrie.represents_of_path`).
-/

set_option autoImplicit false

namespace CksRuntime.Crdt.PgMerkle

open Merkle HashTrie ReadCommitted Transition

variable {sha256 : Text → Text} {s s' : PgMerkle} {c : ObjectId}

/-! ## A transaction on its path -/

/-- Hashes of some children of a node, as read. -/
def ReadFrom (sha256 : Text → Text) (reads : List (Text × Option Text)) (p nibbles : Text)
    (childHashes : List Text) : Prop :=
  List.Forall₂ (fun nibble hash => ∃ v, (p ++ [nibble], v) ∈ reads ∧
    hash = v.getD (EMPTY_SUBTREE_HASH sha256)) nibbles childHashes

/-- The leaf and the levels from `todo` up to it are written, of the next one some children are
read, and nothing else is changed. -/
structure NodeInv (sha256 : Text → Text) (k : Text) (changes : Changes Text Text)
    (reads : List (Text × Option Text)) (todo : Nat) (childHashes : List Text) : Prop where
  todo_le : todo ≤ ID_HEX_LENGTH
  leaf : changes k = some (some k)
  written : ∀ level, todo ≤ level → level < ID_HEX_LENGTH → ∃ hashes,
    ReadFrom sha256 reads (k.take level) NIBBLES hashes ∧
      changes (k.take level) = some (some (nodeHash sha256 (k.take level) hashes))
  untouched : ∀ x, (x <+: k → x.length < todo) → changes x = none
  reading : ∀ level, todo = level + 1 →
    ReadFrom sha256 reads (k.take level) (NIBBLES.take childHashes.length) childHashes

/-- What a transaction has changed, by where its call is. -/
def PathInv (sha256 : Text → Text) (k : Text) (changes : Changes Text Text)
    (reads : List (Text × Option Text)) : PathPhase → Prop
  | .idle | .leaf _ | .finished => ∀ x, changes x = none
  | .node _ todo childHashes => NodeInv sha256 k changes reads todo childHashes

section
variable {k : Text} {changes changes' : Changes Text Text} {reads : List (Text × Option Text)}
  {level : Nat} {childHashes : List Text}

theorem ReadFrom.mono {reads' : List (Text × Option Text)} {p nibbles : Text}
    (h : ReadFrom sha256 reads p nibbles childHashes) (hsub : ∀ r ∈ reads, r ∈ reads') :
    ReadFrom sha256 reads' p nibbles childHashes :=
  h.imp fun _ _ ⟨v, hv, heq⟩ => ⟨v, hsub _ hv, heq⟩

/-- Rows that are as they were read hash the same. -/
theorem ReadFrom.eq_map {p nibbles : Text} {rows : Text → Option Text}
    (h : ReadFrom sha256 reads p nibbles childHashes) (hcur : ∀ r ∈ reads, rows r.1 = r.2) :
    childHashes = nibbles.map fun a => childHash (hashing sha256) rows (p ++ [a]) := by
  induction h with
  | nil => rfl
  | cons hhead _ ih =>
    obtain ⟨v, hv, rfl⟩ := hhead
    rw [List.map_cons, ← ih, childHash, hcur _ hv]
    rfl

theorem NodeInv.start (hk : IsId k) (hnone : ∀ x, changes x = none)
    (hself : changes' k = some (some k)) (hother : ∀ x, x ≠ k → changes' x = changes x) :
    NodeInv sha256 k changes' reads ID_HEX_LENGTH [] where
  todo_le := le_rfl
  leaf := hself
  written level hle hlt := absurd hlt (Nat.not_lt.2 hle)
  untouched x hx := by
    rw [hother x, hnone x]
    rintro rfl
    exact absurd (hx List.prefix_rfl) (by rw [hk.1]; exact lt_irrefl _)
  reading _ _ := List.Forall₂.nil

theorem NodeInv.read {nibble : Char} {v : Option Text}
    (h : NodeInv sha256 k changes reads (level + 1) childHashes)
    (hn : NIBBLES[childHashes.length]? = some nibble) :
    NodeInv sha256 k changes ((k.take level ++ [nibble], v) :: reads) (level + 1)
      (childHashes ++ [v.getD (EMPTY_SUBTREE_HASH sha256)]) where
  todo_le := h.todo_le
  leaf := h.leaf
  written l hle hlt := by
    obtain ⟨hashes, hread, hch⟩ := h.written l hle hlt
    exact ⟨hashes, hread.mono fun _ => List.mem_cons_of_mem _, hch⟩
  untouched := h.untouched
  reading l hl := by
    obtain rfl : level = l := by omega
    have hprev := (h.reading level rfl).mono
      (fun _ => List.mem_cons_of_mem (k.take level ++ [nibble], v))
    rw [List.length_append, List.length_singleton, List.take_add_one, hn]
    exact List.rel_append hprev (.cons ⟨v, List.mem_cons_self, rfl⟩ .nil)

theorem NodeInv.write (h : NodeInv sha256 k changes reads (level + 1) childHashes) (hk : IsId k)
    (hall : childHashes.length = NIBBLES.length)
    (hself : changes' (k.take level) =
      some (some (nodeHash sha256 (k.take level) childHashes)))
    (hother : ∀ x, x ≠ k.take level → changes' x = changes x) :
    NodeInv sha256 k changes' reads level [] where
  todo_le := by have := h.todo_le; omega
  leaf := by
    rw [hother, h.leaf]
    intro he
    have hlen := congrArg List.length he
    rw [List.length_take, hk.1] at hlen
    have := h.todo_le
    omega
  written l hle hlt := by
    by_cases hl : l = level
    · subst hl
      have hread := h.reading l rfl
      rw [hall, List.take_length] at hread
      exact ⟨childHashes, hread, hself⟩
    · obtain ⟨hashes, hread, hch⟩ := h.written l (by omega) hlt
      refine ⟨hashes, hread, ?_⟩
      rw [hother, hch]
      intro he
      have hlen := congrArg List.length he
      rw [List.length_take, List.length_take, hk.1] at hlen
      have := h.todo_le
      omega
  untouched x hx := by
    rw [hother, h.untouched x fun hp => (hx hp).trans (Nat.lt_succ_self _)]
    rintro rfl
    have hlen := hx (List.take_prefix _ _)
    rw [List.length_take, hk.1] at hlen
    have := h.todo_le
    omega
  reading _ _ := List.Forall₂.nil

end

/-! ## One call at a time -/

/-- From `s` to `s'` the other calls are where they were. -/
structure Others (c : ObjectId) (s s' : PgMerkle) : Prop where
  phase : ∀ c' ≠ c, s'.phase c' = s.phase c'
  reads : ∀ c' ≠ c, s'.reads c' = s.reads c'
  changes : ∀ c' ≠ c, s'.db.changes c' = s.db.changes c'

/-- And nothing is committed. -/
structure Alone (c : ObjectId) (s s' : PgMerkle) : Prop extends Others c s s' where
  rows : s'.db.rows = s.db.rows
  objects : s'.objects = s.objects

theorem Others.trans {s'' : PgMerkle} (h : Others c s s') (h' : Others c s' s'') :
    Others c s s'' where
  phase c' hc := (h'.phase c' hc).trans (h.phase c' hc)
  reads c' hc := (h'.reads c' hc).trans (h.reads c' hc)
  changes c' hc := (h'.changes c' hc).trans (h.changes c' hc)

theorem Others.commit (stage : PathStage) : Others c s (s.commit c stage) where
  phase _ hc := Function.update_of_ne hc _ _
  reads _ hc := Function.update_of_ne hc _ _
  changes _ := DB.commit_changes_other

theorem setPhase_self (phase : PathPhase) : (s.setPhase c phase).phase c = phase :=
  Function.update_self _ _ _

theorem setPhase_of_ne {c' : ObjectId} (hc : c' ≠ c) (phase : PathPhase) :
    (s.setPhase c phase).phase c' = s.phase c' :=
  Function.update_of_ne hc _ _

theorem commit_phase (stage : PathStage) : (s.commit c stage).phase c = match stage with
    | .trigger => .leaf .updateMerklePath
    | .updateMerklePath => .finished := Function.update_self _ _ _

theorem commit_reads (stage : PathStage) : (s.commit c stage).reads c = [] :=
  Function.update_self _ _ _

theorem readRow_reads (p : Text) :
    (s.readRow c p).reads c = (p, s.db.view c p) :: s.reads c := Function.update_self _ _ _

namespace Alone

theorem refl : Alone c s s where
  rows := rfl
  objects := rfl
  phase _ _ := rfl
  reads _ _ := rfl
  changes _ _ := rfl

theorem trans {s'' : PgMerkle} (h : Alone c s s') (h' : Alone c s' s'') : Alone c s s'' where
  toOthers := h.toOthers.trans h'.toOthers
  rows := h'.rows.trans h.rows
  objects := h'.objects.trans h.objects

theorem setPhase (h : Alone c s s') (phase : PathPhase) : Alone c s (s'.setPhase c phase) :=
  { h with phase := fun c' hc => (Function.update_of_ne hc _ _).trans (h.phase c' hc) }

theorem readRow (p : Text) : Alone c s (s.readRow c p) :=
  { refl (c := c) (s := s) with reads := fun _ hc => Function.update_of_ne hc _ _ }

theorem write (p hash : Text) : Alone c s (s.write c p hash) :=
  { refl (c := c) (s := s) with changes := fun _ => DB.write_changes_other }

theorem abort (stage : PathStage) : Alone c s (s.abort c stage) where
  rows := rfl
  objects := rfl
  phase _ hc := Function.update_of_ne hc _ _
  reads _ hc := Function.update_of_ne hc _ _
  changes _ := DB.abort_changes_other

end Alone

/-! ## The invariant -/

/-- The stage a call is in, if it is in a transaction. -/
def stageOf : PathPhase → Option PathStage
  | .leaf stage | .node stage _ _ => some stage
  | .idle | .finished => none

/-- The committed rows are the tree of the committed objects, and each open path is on its way up
it. -/
structure Inv (sha256 : Text → Text) (s : PgMerkle) : Prop where
  isId : ∀ x ∈ s.objects, IsId x
  tree : Represents (hashing sha256) ID_HEX_LENGTH {x | x ∈ s.objects} s.db.rows
  path : ∀ c, PathInv sha256 c.1 (s.db.changes c) (s.reads c) (s.phase c)
  stored : ∀ c, stageOf (s.phase c) = some .updateMerklePath → c.1 ∈ s.objects

/-- A statement of one call that commits nothing. -/
theorem Inv.local_step (h : Inv sha256 s) (ha : Alone c s s')
    (hpath : PathInv sha256 c.1 (s'.db.changes c) (s'.reads c) (s'.phase c))
    (hstage : stageOf (s'.phase c) = some .updateMerklePath →
      stageOf (s.phase c) = some .updateMerklePath) : Inv sha256 s' where
  isId := by
    rw [ha.objects]
    exact h.isId
  tree := by
    rw [ha.objects, ha.rows]
    exact h.tree
  path c' := by
    by_cases hc : c' = c
    · subst hc
      exact hpath
    · rw [ha.phase c' hc, ha.reads c' hc, ha.changes c' hc]
      exact h.path c'
  stored c' hc' := by
    rw [ha.objects]
    by_cases hc : c' = c
    · subst hc
      exact h.stored c' (hstage hc')
    · rw [ha.phase c' hc] at hc'
      exact h.stored c' hc'

theorem Inv.node (h : Inv sha256 s) {stage : PathStage} {todo : Nat}
    {childHashes : List Text} (hphase : s.phase c = .node stage todo childHashes) :
    NodeInv sha256 c.1 (s.db.changes c) (s.reads c) todo childHashes := by
  have := h.path c
  rwa [hphase] at this

theorem Inv.call (h : Inv sha256 s) (hphase : s.phase c = .idle) :
    Inv sha256 (s.setPhase c (.leaf .trigger)) := by
  refine h.local_step (.setPhase .refl _) ?_ ?_
  · have := h.path c
    rw [hphase] at this
    rw [setPhase_self]
    exact this
  · rw [setPhase_self]
    rintro ⟨⟩

theorem Inv.upsertLeaf (h : Inv sha256 s) {stage : PathStage}
    (hphase : s.phase c = .leaf stage) :
    Inv sha256 ((s.write c c.1 c.1).setPhase c (.node stage ID_HEX_LENGTH [])) := by
  refine h.local_step (.setPhase (.write _ _) _) ?_ ?_
  · have hnone := h.path c
    rw [hphase] at hnone
    rw [setPhase_self]
    exact .start c.2 hnone DB.write_changes_self fun _ => DB.write_changes_of_ne
  · rw [setPhase_self, hphase]
    exact id

theorem Inv.readChild (h : Inv sha256 s) {stage : PathStage} {level : Nat}
    {childHashes : List Text} {nibble : Char}
    (hphase : s.phase c = .node stage (level + 1) childHashes)
    (hn : NIBBLES[childHashes.length]? = some nibble) :
    Inv sha256 ((s.readRow c (c.1.take level ++ [nibble])).setPhase c
      (.node stage (level + 1) (childHashes ++
        [(s.db.view c (c.1.take level ++ [nibble])).getD (EMPTY_SUBTREE_HASH sha256)]))) := by
  refine h.local_step (.setPhase (.readRow _) _) ?_ ?_
  · rw [setPhase_self]
    change NodeInv _ _ _ ((s.readRow c _).reads c) _ _
    rw [readRow_reads]
    exact (h.node hphase).read hn
  · rw [setPhase_self, hphase]
    exact id

theorem Inv.upsertNode (h : Inv sha256 s) {stage : PathStage} {level : Nat}
    {childHashes : List Text} (hphase : s.phase c = .node stage (level + 1) childHashes)
    (hall : childHashes.length = NIBBLES.length) :
    Inv sha256 ((s.write c (c.1.take level) (nodeHash sha256 (c.1.take level) childHashes)).setPhase
      c (.node stage level [])) := by
  refine h.local_step (.setPhase (.write _ _) _) ?_ ?_
  · rw [setPhase_self]
    exact (h.node hphase).write c.2 hall DB.write_changes_self fun _ => DB.write_changes_of_ne
  · rw [setPhase_self, hphase]
    exact id

theorem Inv.abort (h : Inv sha256 s) {stage : PathStage}
    (hstage : stageOf (s.phase c) = some stage) : Inv sha256 (s.abort c stage) := by
  refine h.local_step (.abort stage) ?_ ?_
  · change PathInv _ _ _ _ (Function.update s.phase c _ c)
    rw [Function.update_self]
    exact fun _ => DB.abort_changes_self
  · change stageOf (Function.update s.phase c _ c) = _ → _
    rw [Function.update_self, hstage]
    exact id

/-- A commit of what is still current adds the id to the tree. -/
theorem view_represents (h : Inv sha256 s) {stage : PathStage}
    (hphase : s.phase c = .node stage 0 []) (hcur : ReadsCurrent s (.commit c)) :
    Represents (hashing sha256) ID_HEX_LENGTH (insert c.1 {x | x ∈ s.objects})
      (s.db.view c) := by
  have hnode := h.node hphase
  refine represents_of_path h.tree (fun x hx => (h.isId x hx).1) c.2.1 ?_ ?_ ?_
  · exact fun p hp => DB.view_of_unchanged (hnode.untouched p fun hpk => absurd hpk hp)
  · exact DB.view_of_changed hnode.leaf
  · intro p hp hlt
    obtain ⟨hashes, hread, hch⟩ := hnode.written p.length (Nat.zero_le _) hlt
    rw [← List.prefix_iff_eq_take.1 hp] at hread hch
    rw [DB.view_of_changed hch, hread.eq_map hcur]
    rfl

theorem Inv.commit (h : Inv sha256 s) {stage : PathStage}
    (hphase : s.phase c = .node stage 0 []) (hcur : ReadsCurrent s (.commit c)) :
    Inv sha256 (s.commit c stage) := by
  -- the row is committed now or was before
  have hobjects : ∀ x, x ∈ (s.commit c stage).objects ↔
      x = c.1 ∨ x ∈ s.objects := by
    intro x
    cases stage with
    | trigger => simp [PgMerkle.commit, or_comm]
    | updateMerklePath =>
      have hin := h.stored c (by rw [hphase]; rfl)
      exact (or_iff_right_of_imp fun he => he ▸ hin).symm
  have hother : ∀ c' ≠ c, (s.commit c stage).phase c' = s.phase c' :=
    fun c' hc => Function.update_of_ne hc _ _
  refine ⟨?_, ?_, ?_, ?_⟩
  · intro x hx
    rcases (hobjects x).1 hx with rfl | hx
    exacts [c.2, h.isId x hx]
  · rw [show {x | x ∈ (s.commit c stage).objects} =
      insert c.1 {x | x ∈ s.objects} from Set.ext hobjects]
    exact view_represents h hphase hcur
  · intro c'
    by_cases hc : c' = c
    · subst hc
      change PathInv _ _ _ _ (Function.update s.phase c' _ c')
      rw [Function.update_self]
      cases stage <;> exact fun _ => DB.commit_changes_self
    · rw [hother c' hc]
      change PathInv _ _ ((s.db.commit c).changes c') (Function.update s.reads c [] c') _
      rw [DB.commit_changes_other hc, Function.update_of_ne hc]
      exact h.path c'
  · intro c' hc'
    rw [hobjects]
    by_cases hc : c' = c
    · subst hc
      exact .inl rfl
    · rw [hother c' hc] at hc'
      exact .inr (h.stored c' hc')

theorem inv_step {l : PathStatement} (h : Inv sha256 s) (hcur : ReadsCurrent s l)
    (hs : Step sha256 s l s') : Inv sha256 s' := by
  cases hs with
  | call hphase => exact h.call hphase
  | upsertLeaf hphase => exact h.upsertLeaf hphase
  | readChild hphase hn => exact h.readChild hphase hn
  | upsertNode hphase hall => exact h.upsertNode hphase hall
  | commit hphase => exact h.commit hphase hcur
  | abort hphase =>
    refine h.abort ?_
    rcases hphase with hleaf | ⟨todo, childHashes, hnode⟩
    · rw [hleaf]; rfl
    · rw [hnode]; rfl

/-- A table of the ids stored is consistent and has their root. -/
theorem Inv.consistent (h : Inv sha256 s) :
    s.Consistent sha256 ∧
      s.getRootHash sha256 = InMemoryMerkleTree.getRootHash sha256 s.objects := by
  constructor
  · intro p hash hp hlt
    have hocc : Occurs {x | x ∈ s.objects} p := by
      by_contra hnot
      rw [h.tree p, stored_of_not hnot] at hp
      cases hp
    rw [h.tree p, stored_of_children hocc hlt fun a _ => h.tree _] at hp
    exact (Option.some.inj hp).symm
  · rw [getRootHash, h.tree, InMemoryMerkleTree.getRootHash,
      InMemoryMerkleTree.rebuildTree_getD h.isId]

/-! ## A transaction that runs alone -/

/-- The runs in which what is committed is current. -/
def currentRuns (sha256 : Text → Text) : System PgMerkle PathStatement :=
  (system sha256).restrict ReadsCurrent

/-- The transaction sees what it has read, all of it at level `todo` or below. -/
def Current (c : ObjectId) (todo : Nat) (s : PgMerkle) : Prop :=
  ∀ read ∈ s.reads c, todo ≤ read.1.length ∧ s.db.view c read.1 = read.2

/-- No other transaction holds a row of the path. -/
def PathFree (c : ObjectId) (s : PgMerkle) : Prop := ∀ p, p <+: c.1 → s.db.Free c p

theorem PathFree.others (h : PathFree c s) (ho : Others c s s') : PathFree c s' :=
  fun p hp c' hc => (congrFun (ho.changes c' hc) p).trans (h p hp c' hc)

theorem length_take_id {level : Nat} (h : level ≤ ID_HEX_LENGTH) :
    (c.1.take level).length = level := by
  rw [List.length_take, c.2.1]
  exact min_eq_left h

theorem Current.readRow {level : Nat} {nibble : Char} (h : Current c (level + 1) s)
    (hle : level ≤ ID_HEX_LENGTH) :
    Current c (level + 1) (s.readRow c (c.1.take level ++ [nibble])) := by
  intro read hread
  rw [readRow_reads] at hread
  rcases List.mem_cons.1 hread with rfl | hread
  · refine ⟨?_, rfl⟩
    rw [List.length_append, length_take_id hle, List.length_singleton]
  · exact h read hread

/-- A write above everything that is read. -/
theorem Current.write {level : Nat} {hash : Text} (h : Current c (level + 1) s)
    (hle : level ≤ ID_HEX_LENGTH) : Current c level (s.write c (c.1.take level) hash) := by
  intro read hread
  obtain ⟨hlen, hview⟩ := h read hread
  refine ⟨Nat.le_of_succ_le hlen, ?_⟩
  change (s.db.write c _ _).view c read.1 = read.2
  rw [DB.view_write, Function.update_of_ne, hview]
  intro he
  rw [he, length_take_id hle] at hlen
  exact absurd hlen (Nat.not_succ_le_self _)

/-- The children of a node are read one by one. -/
theorem run_reads {stage : PathStage} {level n : Nat} (hn : n ≤ NIBBLES.length)
    (hle : level ≤ ID_HEX_LENGTH) (hr : (currentRuns sha256).Reachable s)
    (hphase : s.phase c = .node stage (level + 1) []) (hcur : Current c (level + 1) s) :
    ∃ s' childHashes, (currentRuns sha256).Reachable s' ∧ Alone c s s' ∧
      s'.phase c = .node stage (level + 1) childHashes ∧ childHashes.length = n ∧
      Current c (level + 1) s' := by
  induction n with
  | zero => exact ⟨s, [], hr, .refl, hphase, rfl, hcur⟩
  | succ n ih =>
    obtain ⟨s', childHashes, hr', ha, hphase', rfl, hcur'⟩ := ih (Nat.le_of_succ_le hn)
    have hnibble := List.getElem?_eq_getElem hn
    exact ⟨_, _, .step (l := .readChild c) hr' ⟨.readChild hphase' hnibble, trivial⟩,
      ha.trans (.setPhase (.readRow _) _), setPhase_self _, List.length_append, hcur'.readRow hle⟩

/-- A level is read and written. -/
theorem run_level {stage : PathStage} {level : Nat} (hle : level ≤ ID_HEX_LENGTH)
    (hr : (currentRuns sha256).Reachable s) (hphase : s.phase c = .node stage (level + 1) [])
    (hcur : Current c (level + 1) s) (hfree : PathFree c s) :
    ∃ s', (currentRuns sha256).Reachable s' ∧ Alone c s s' ∧ s'.phase c = .node stage level [] ∧
      Current c level s' := by
  obtain ⟨s', childHashes, hr', ha, hphase', hlen, hcur'⟩ :=
    run_reads le_rfl hle hr hphase hcur
  have hfree' := hfree.others ha.toOthers _ (List.take_prefix level c.1)
  exact ⟨_, .step (l := .upsertNode c) hr' ⟨.upsertNode hphase' hlen hfree', trivial⟩,
    ha.trans (.setPhase (.write _ _) _), setPhase_self _, hcur'.write hle⟩

theorem run_levels {stage : PathStage} {m n : Nat} (hle : m + n ≤ ID_HEX_LENGTH)
    (hr : (currentRuns sha256).Reachable s) (hphase : s.phase c = .node stage (m + n) [])
    (hcur : Current c (m + n) s) (hfree : PathFree c s) :
    ∃ s', (currentRuns sha256).Reachable s' ∧ Alone c s s' ∧ s'.phase c = .node stage m [] ∧
      Current c m s' := by
  induction n generalizing s with
  | zero => exact ⟨s, hr, .refl, hphase, hcur⟩
  | succ n ih =>
    obtain ⟨s₁, hr₁, ha₁, hphase₁, hcur₁⟩ :=
      run_level (Nat.le_of_succ_le hle) hr hphase hcur hfree
    obtain ⟨s₂, hr₂, ha₂, hphase₂, hcur₂⟩ :=
      ih (Nat.le_of_succ_le hle) hr₁ hphase₁ hcur₁ (hfree.others ha₁.toOthers)
    exact ⟨s₂, hr₂, ha₁.trans ha₂, hphase₂, hcur₂⟩

/-- A transaction gets to any level of its path. -/
theorem run_path {stage : PathStage} {m : Nat} (hle : m ≤ ID_HEX_LENGTH)
    (hr : (currentRuns sha256).Reachable s) (hphase : s.phase c = .leaf stage)
    (hreads : s.reads c = []) (hfree : PathFree c s) :
    ∃ s', (currentRuns sha256).Reachable s' ∧ Alone c s s' ∧ s'.phase c = .node stage m [] ∧
      Current c m s' := by
  obtain ⟨n, hn⟩ := Nat.exists_eq_add_of_le hle
  have ha₁ : Alone c s ((s.write c c.1 c.1).setPhase c (.node stage ID_HEX_LENGTH [])) :=
    .setPhase (.write _ _) _
  have hr₁ : (currentRuns sha256).Reachable
      ((s.write c c.1 c.1).setPhase c (.node stage ID_HEX_LENGTH [])) :=
    .step (l := .upsertLeaf c) hr ⟨.upsertLeaf hphase (hfree _ List.prefix_rfl), trivial⟩
  have hcur₁ : Current c (m + n)
      ((s.write c c.1 c.1).setPhase c (.node stage ID_HEX_LENGTH [])) := by
    intro read hread
    change read ∈ s.reads c at hread
    rw [hreads] at hread
    cases hread
  obtain ⟨s₂, hr₂, ha₂, hphase₂, hcur₂⟩ :=
    run_levels hn.ge hr₁ (by rw [setPhase_self, hn]) hcur₁ (hfree.others ha₁.toOthers)
  exact ⟨s₂, hr₂, ha₁.trans ha₂, hphase₂, hcur₂⟩

/-- A transaction gets to its commit with what it has read still current. -/
theorem run_transaction {stage : PathStage} (hr : (currentRuns sha256).Reachable s)
    (hphase : s.phase c = .leaf stage) (hreads : s.reads c = []) (hfree : PathFree c s) :
    ∃ s', (currentRuns sha256).Reachable (s'.commit c stage) ∧ Alone c s s' := by
  obtain ⟨s', hr', ha, hphase', hcur⟩ := run_path (Nat.zero_le _) hr hphase hreads hfree
  have hreads' : ReadsCurrent s' (.commit c) := fun read hread => (hcur read hread).2
  exact ⟨s', .step (l := .commit c) hr' ⟨.commit hphase', hreads'⟩, ha⟩

/-- A call that runs alone commits its id and finishes. -/
theorem run_call (hr : (currentRuns sha256).Reachable s) (hphase : s.phase c = .idle)
    (hreads : s.reads c = []) (hfree : PathFree c s) :
    ∃ s', (currentRuns sha256).Reachable s' ∧ Others c s s' ∧ s'.phase c = .finished ∧
      s'.objects = s.objects ++ [c.1] := by
  have hr₀ : (currentRuns sha256).Reachable (s.setPhase c (.leaf .trigger)) :=
    .step (l := .call c) hr ⟨.call hphase, trivial⟩
  have ha₀ : Alone c s (s.setPhase c (.leaf .trigger)) := .setPhase .refl _
  obtain ⟨s₁, hr₁, ha₁⟩ :=
    run_transaction hr₀ (setPhase_self _) hreads (hfree.others ha₀.toOthers)
  have ho₁ := (ha₀.trans ha₁).toOthers.trans (.commit .trigger)
  obtain ⟨s₂, hr₂, ha₂⟩ := run_transaction hr₁ (commit_phase _) (commit_reads _) (hfree.others ho₁)
  refine ⟨_, hr₂, ho₁.trans (ha₂.toOthers.trans (.commit _)), commit_phase _, ?_⟩
  exact ha₂.objects.trans (congrArg (· ++ [c.1]) (ha₀.trans ha₁).objects)

/-- A call that is in no transaction holds no row. -/
theorem Inv.unchanged (h : Inv sha256 s) (hstage : stageOf (s.phase c) = none) (p : Text) :
    s.db.changes c p = none := by
  have hpath := h.path c
  cases hphase : s.phase c with
  | idle | finished =>
    rw [hphase] at hpath
    exact hpath p
  | leaf | node =>
    rw [hphase] at hstage
    cases hstage

theorem Inv.of_reachable (h : (currentRuns sha256).Reachable s) : Inv sha256 s := by
  refine h.invariant (P := Inv sha256) ?_ fun _ _ _ _ hs hst => inv_step hs hst.2 hst.1
  rintro _ rfl
  refine ⟨fun _ hx => absurd hx List.not_mem_nil, ?_, fun _ _ => rfl, fun _ hc => by cases hc⟩
  have hnil : {x | x ∈ ([] : List Text)} = ∅ := by
    ext x
    simp
  change Represents _ _ {x | x ∈ ([] : List Text)} _
  rw [hnil]
  exact represents_empty

/-- In every run whose transactions commit with what they have read still current, the committed
tree is consistent and its root is that of the stored ids. -/
theorem concurrent_insertions_consistent (sha256 : Text → Text)
    (h : ((system sha256).restrict ReadsCurrent).Reachable s) :
    s.Consistent sha256 ∧
      s.getRootHash sha256 = InMemoryMerkleTree.getRootHash sha256 s.objects :=
  (Inv.of_reachable h).consistent

/-! ## Two calls -/

/-- An id on one side of the root. -/
def zeroId : ObjectId := ⟨List.replicate ID_HEX_LENGTH '0', isId_replicate (by decide)⟩

/-- An id on the other side. -/
def tenId : ObjectId := ⟨List.replicate ID_HEX_LENGTH 'a', isId_replicate (by decide)⟩

/-- The two paths have the root in common. -/
theorem length_lt_of_both {p : Text} (h : p <+: tenId.1) (h' : p <+: zeroId.1) : p.length < 1 := by
  cases p with
  | nil => exact Nat.one_pos
  | cons a p =>
    have ha : a = 'a' := List.eq_of_mem_replicate (h.subset List.mem_cons_self)
    have h0 : a = '0' := List.eq_of_mem_replicate (h'.subset List.mem_cons_self)
    exact absurd (ha.symm.trans h0) (by decide)

/-- Nothing stored, and no transaction open. -/
def emptyStore : PgMerkle := { db := ⟨fun _ => none, fun _ _ => none⟩ }

theorem tenId_ne_zeroId : tenId ≠ zeroId := by
  intro h
  have hhead := congrArg (fun c : ObjectId => c.1.head?) h
  revert hhead
  decide

/-- No transaction has written anything yet. -/
def Between (s : PgMerkle) : Prop := ∀ c p, s.db.changes c p = none

/-- From there any transaction may run to its end, and nobody has written anything again. -/
theorem run_stage (c : ObjectId) (stage : PathStage) (hr : (currentRuns sha256).Reachable s)
    (hphase : s.phase c = .leaf stage) (hreads : s.reads c = []) (hb : Between s) :
    ∃ s' : PgMerkle, (currentRuns sha256).Reachable (s'.commit c stage) ∧
      Others c s (s'.commit c stage) ∧ s'.objects = s.objects ∧ Between (s'.commit c stage) := by
  obtain ⟨s', hr', ha⟩ := run_transaction hr hphase hreads fun p _ c' _ => hb c' p
  have ho := ha.toOthers.trans (.commit stage)
  refine ⟨s', hr', ho, ha.objects, fun c' p => ?_⟩
  by_cases hc : c' = c
  · subst hc
    exact DB.commit_changes_self
  · rw [ho.changes c' hc]
    exact hb c' p

/-- Both calls have begun. -/
def bothBegun : PgMerkle :=
  (emptyStore.setPhase zeroId (.leaf .trigger)).setPhase tenId (.leaf .trigger)

/-- Both trigger transactions come before either of the others. -/
theorem concurrent_insertions_consistent_in_turn :
    ∃ s : PgMerkle, s.phase zeroId = .finished ∧ s.phase tenId = .finished ∧
      s.objects = [zeroId.1, tenId.1] ∧ s.Consistent SQLiteMerkleTree.markedDigest ∧
      s.getRootHash SQLiteMerkleTree.markedDigest =
        InMemoryMerkleTree.getRootHash SQLiteMerkleTree.markedDigest s.objects := by
  have hne := tenId_ne_zeroId
  have hzero : bothBegun.phase zeroId = .leaf .trigger := by
    rw [bothBegun, setPhase_of_ne hne.symm, setPhase_self]
  have hidle : (emptyStore.setPhase zeroId (.leaf .trigger)).phase tenId = .idle := by
    rw [setPhase_of_ne hne]
    rfl
  have hr₀ : (currentRuns SQLiteMerkleTree.markedDigest).Reachable bothBegun :=
    .step (l := .call tenId) (.step (l := .call zeroId) (.init rfl) ⟨.call rfl, trivial⟩)
      ⟨.call hidle, trivial⟩
  -- the trigger of the one, and of the other
  obtain ⟨s₁, hr₁, ho₁, hobj₁, hb₁⟩ := run_stage zeroId .trigger hr₀ hzero rfl fun _ _ => rfl
  obtain ⟨s₂, hr₂, ho₂, hobj₂, hb₂⟩ := run_stage tenId .trigger hr₁
    ((ho₁.phase tenId hne).trans (setPhase_self _)) (ho₁.reads tenId hne) hb₁
  -- the path of the one, and of the other
  obtain ⟨s₃, hr₃, ho₃, hobj₃, hb₃⟩ := run_stage zeroId .updateMerklePath hr₂
    ((ho₂.phase zeroId hne.symm).trans (commit_phase _))
    ((ho₂.reads zeroId hne.symm).trans (commit_reads _)) hb₂
  obtain ⟨s₄, hr₄, ho₄, hobj₄, -⟩ := run_stage tenId .updateMerklePath hr₃
    ((ho₃.phase tenId hne).trans (commit_phase _)) ((ho₃.reads tenId hne).trans (commit_reads _)) hb₃
  refine ⟨_, (ho₄.phase zeroId hne.symm).trans (commit_phase _), commit_phase _, ?_,
    concurrent_insertions_consistent _ hr₄⟩
  change s₄.objects = _
  rw [hobj₄]
  change s₃.objects = _
  rw [hobj₃]
  change s₂.objects ++ [tenId.1] = _
  rw [hobj₂]
  change (s₁.objects ++ [zeroId.1]) ++ [tenId.1] = _
  rw [hobj₁]
  rfl

/-- The root hashed from children that are current is that of the stored ids and the call's own. -/
theorem root_of_reads (h : Inv sha256 s) {stage : PathStage} {childHashes : List Text}
    (hphase : s.phase c = .node stage 1 childHashes) (hall : childHashes.length = NIBBLES.length)
    (hcur : Current c 1 s) : nodeHash sha256 [] childHashes =
      digest (hashing sha256) (insert c.1 {x | x ∈ s.objects}) ID_HEX_LENGTH [] := by
  have hcur' : Current c 0 (s.write c (c.1.take 0) (nodeHash sha256 [] childHashes)) :=
    hcur.write (Nat.zero_le _)
  have hview := view_represents (h.upsertNode hphase hall) (setPhase_self _)
    (fun read hread => (hcur' read hread).2) []
  rw [stored_of_occurs ⟨_, Set.mem_insert _ _, List.nil_prefix⟩] at hview
  refine Option.some.inj (Eq.trans ?_ hview)
  exact (DB.view_of_changed DB.write_changes_self).symm

variable (sha256) in
/-- The first call is in its second transaction, and has read the children of the root. -/
theorem stale_reads : ∃ s childHashes, (currentRuns sha256).Reachable s ∧
    s.phase zeroId = .node .updateMerklePath 1 childHashes ∧
    childHashes.length = NIBBLES.length ∧ s.objects = [zeroId.1] ∧ Others zeroId emptyStore s ∧
    nodeHash sha256 [] childHashes = InMemoryMerkleTree.getRootHash sha256 [zeroId.1] := by
  have hr₀ : (currentRuns sha256).Reachable (emptyStore.setPhase zeroId (.leaf .trigger)) :=
    .step (l := .call zeroId) (.init rfl) ⟨.call rfl, trivial⟩
  have ha₀ : Alone zeroId emptyStore (emptyStore.setPhase zeroId (.leaf .trigger)) :=
    .setPhase .refl _
  have hfree₀ : PathFree zeroId emptyStore := fun _ _ _ _ => rfl
  obtain ⟨s₁, hr₁, ha₁⟩ :=
    run_transaction hr₀ (setPhase_self _) rfl (hfree₀.others ha₀.toOthers)
  have ho₁ := (ha₀.trans ha₁).toOthers.trans (.commit .trigger)
  obtain ⟨s₂, hr₂, ha₂, hphase₂, hcur₂⟩ := run_path (m := 1) (by decide) hr₁ (commit_phase _)
    (commit_reads _) (hfree₀.others ho₁)
  obtain ⟨s₃, childHashes, hr₃, ha₃, hphase₃, hlen, hcur₃⟩ :=
    run_reads le_rfl (Nat.zero_le _) hr₂ hphase₂ hcur₂
  have hobj : s₃.objects = [zeroId.1] :=
    (ha₂.trans ha₃).objects.trans (congrArg (· ++ [zeroId.1]) (ha₀.trans ha₁).objects)
  refine ⟨s₃, childHashes, hr₃, hphase₃, hlen, hobj, ho₁.trans (ha₂.trans ha₃).toOthers, ?_⟩
  rw [root_of_reads (Inv.of_reachable hr₃) hphase₃ hlen hcur₃, hobj, rebuilt_root_eq]
  · congr 1
    ext x
    simp
  · intro x hx
    rw [List.mem_singleton.1 hx]
    exact zeroId.2

variable (sha256) in
/-- The second call runs between these reads and the root they are for. -/
theorem stale_root : ∃ s, (system sha256).Reachable s ∧
    (∀ c, s.phase c = .idle ∨ s.phase c = .finished) ∧ s.objects = [zeroId.1, tenId.1] ∧
    s.db.rows [] = some (InMemoryMerkleTree.getRootHash sha256 [zeroId.1]) ∧
    s.db.rows ['a'] = some (digest (hashing sha256) {x | x ∈ [zeroId.1, tenId.1]} 63 ['a']) := by
  obtain ⟨s₁, childHashes, hr₁, hphase₁, hlen, hobj₁, ho₁, hroot⟩ := stale_reads sha256
  -- the first call has the row of the root still to write, and no other of this path
  have hfree₁ : PathFree tenId s₁ := by
    intro p hp c' hc
    by_cases h0 : c' = zeroId
    · subst h0
      exact ((Inv.of_reachable hr₁).node hphase₁).untouched p (length_lt_of_both hp)
    · exact congrFun (ho₁.changes c' h0) p
  obtain ⟨s₂, hr₂, ho₂, hphase₂, hobj₂⟩ := run_call hr₁ (ho₁.phase tenId tenId_ne_zeroId)
    (ho₁.reads tenId tenId_ne_zeroId) hfree₁
  -- the second call has run, and the first still has the hashes it read before
  have hzero : s₂.phase zeroId = .node .updateMerklePath 1 childHashes :=
    (ho₂.phase zeroId tenId_ne_zeroId.symm).trans hphase₁
  have hinv₂ := Inv.of_reachable hr₂
  have hother : ∀ c, c ≠ zeroId → s₂.phase c = .idle ∨ s₂.phase c = .finished := by
    intro c hc
    by_cases h1 : c = tenId
    · subst h1
      exact .inr hphase₂
    · exact .inl ((ho₂.phase c h1).trans (ho₁.phase c hc))
  have hfree₂ : s₂.db.Free zeroId [] := by
    intro c hc
    refine hinv₂.unchanged ?_ []
    rcases hother c hc with h | h
    · rw [h]; rfl
    · rw [h]; rfl
  refine ⟨((s₂.write zeroId [] (nodeHash sha256 [] childHashes)).setPhase zeroId
    (.node .updateMerklePath 0 [])).commit zeroId .updateMerklePath, ?_, ?_, ?_, ?_, ?_⟩
  · exact .step (l := .commit zeroId) (.step (l := .upsertNode zeroId) hr₂.of_restrict
      (.upsertNode hzero hlen hfree₂)) (.commit (setPhase_self _))
  · intro c
    by_cases hc : c = zeroId
    · subst hc
      exact .inr (commit_phase _)
    · have ho := ((Alone.write (c := zeroId) (s := s₂) [] (nodeHash sha256 [] childHashes)).setPhase
        (.node .updateMerklePath 0 [])).toOthers.trans (.commit .updateMerklePath)
      rw [ho.phase c hc]
      exact hother c hc
  · exact hobj₂.trans (by rw [hobj₁]; rfl)
  -- what the first call writes is the node of what it read
  · have hview : (s₂.db.write zeroId [] (some (nodeHash sha256 [] childHashes))).view zeroId [] =
        some (nodeHash sha256 [] childHashes) := DB.view_of_changed DB.write_changes_self
    rw [← hroot]
    exact hview
  · have hunchanged : s₂.db.changes zeroId ['a'] = none :=
      (hinv₂.node hzero).untouched _ fun hp => by revert hp; decide
    have hocc : Occurs {x | x ∈ [zeroId.1, tenId.1]} ['a'] :=
      ⟨tenId.1, List.mem_cons_of_mem _ List.mem_cons_self, by decide⟩
    change (s₂.db.write zeroId [] (some (nodeHash sha256 [] childHashes))).view zeroId ['a'] = _
    rw [DB.view_write, Function.update_of_ne (by decide), DB.view_of_unchanged hunchanged,
      hinv₂.tree, hobj₂, hobj₁]
    exact stored_of_occurs hocc

/-- A digest that tells whether there is an `a` in the payload. -/
def tenDigest (payload : Text) : Text :=
  List.replicate ID_HEX_LENGTH (if 'a' ∈ payload then 'a' else '0')

theorem mem_tenDigest {payload : Text} : 'a' ∈ tenDigest payload ↔ 'a' ∈ payload := by
  rw [tenDigest, List.mem_replicate]
  split <;> simp_all [ID_HEX_LENGTH]

theorem notMem_digest_zero (n : Nat) (p : Text) :
    'a' ∉ digest (hashing tenDigest) {x | x ∈ [zeroId.1]} n p := by
  have hempty : 'a' ∉ EMPTY_SUBTREE_HASH tenDigest := by
    rw [EMPTY_SUBTREE_HASH, mem_tenDigest]
    decide
  have hpath : ∀ q : Text, Occurs {x | x ∈ [zeroId.1]} q → 'a' ∉ q := by
    rintro q ⟨x, hx, hq⟩ ha
    have hzero : 'a' ∈ zeroId.1 := List.mem_singleton.1 hx ▸ hq.subset ha
    exact absurd (List.eq_of_mem_replicate hzero) (by decide)
  induction n generalizing p with
  | zero =>
    by_cases hocc : Occurs {x | x ∈ [zeroId.1]} p
    · rw [digest_zero hocc]
      exact hpath p hocc
    · rw [digest_of_not hocc]
      exact hempty
  | succ n ih =>
    by_cases hocc : Occurs {x | x ∈ [zeroId.1]} p
    · rw [digest_succ hocc]
      intro ha
      rcases List.mem_append.1 (mem_tenDigest.1 ha) with hp | hc
      · exact hpath p hocc hp
      · obtain ⟨hash, hhash, ha⟩ := List.mem_flatten.1 hc
        obtain ⟨a, -, rfl⟩ := List.mem_map.1 hhash
        exact ih _ ha
    · rw [digest_of_not hocc]
      exact hempty

/-- A child's `a` is passed on. -/
theorem mem_nodeHash {p hash : Text} {childHashes : List Text} (h : hash ∈ childHashes)
    (ha : 'a' ∈ hash) : 'a' ∈ nodeHash tenDigest p childHashes :=
  mem_tenDigest.2 (List.mem_append_right _ (List.mem_flatten.2 ⟨hash, h, ha⟩))

theorem tenId_mem : tenId.1 ∈ ({x | x ∈ [zeroId.1, tenId.1]} : Set Text) :=
  List.mem_cons_of_mem _ List.mem_cons_self

theorem mem_digest_child (n : Nat) :
    'a' ∈ digest (hashing tenDigest) {x | x ∈ [zeroId.1, tenId.1]} (n + 1) ['a'] := by
  rw [digest_succ ⟨tenId.1, tenId_mem, by decide⟩]
  exact mem_tenDigest.2 List.mem_cons_self

theorem mem_digest_root (n : Nat) :
    'a' ∈ digest (hashing tenDigest) {x | x ∈ [zeroId.1, tenId.1]} (n + 1 + 1) [] := by
  rw [digest_succ ⟨tenId.1, tenId_mem, List.nil_prefix⟩]
  exact mem_nodeHash (List.mem_map.2 ⟨'a', by decide, rfl⟩) (mem_digest_child n)

/-- Two calls, all of whose transactions commit, and a root that is not that of its children. -/
theorem concurrent_insertions_stale : ∃ s, (system tenDigest).Reachable s ∧
    (∀ c, s.phase c = .idle ∨ s.phase c = .finished) ∧ s.objects = [zeroId.1, tenId.1] ∧
    ¬s.Consistent tenDigest ∧
    s.getRootHash tenDigest ≠ InMemoryMerkleTree.getRootHash tenDigest s.objects := by
  obtain ⟨s, hr, hended, hobj, hroot, hrow⟩ := stale_root tenDigest
  have hstale : 'a' ∉ InMemoryMerkleTree.getRootHash tenDigest [zeroId.1] := by
    rw [rebuilt_root_eq fun x hx => List.mem_singleton.1 hx ▸ zeroId.2]
    exact notMem_digest_zero _ _
  have hids : ∀ x ∈ [zeroId.1, tenId.1], IsId x := by
    simp only [List.mem_cons, List.not_mem_nil, or_false, forall_eq_or_imp, forall_eq]
    exact ⟨zeroId.2, tenId.2⟩
  refine ⟨s, hr, hended, hobj, fun h => hstale ?_, fun h => hstale ?_⟩
  · rw [h [] _ hroot (by decide)]
    refine mem_nodeHash (List.mem_map.2 ⟨'a', by decide, rfl⟩) ?_
    rw [List.nil_append, hrow]
    exact mem_digest_child 62
  · rw [getRootHash, hroot, Option.getD_some, hobj, rebuilt_root_eq hids] at h
    rw [h]
    exact mem_digest_root 62

end CksRuntime.Crdt.PgMerkle
