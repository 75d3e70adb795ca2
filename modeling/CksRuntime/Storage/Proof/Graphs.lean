import CksRuntime.Lib.Lockstep
import CksRuntime.Storage.Graphs

/-!
# The two registries side by side

`sameGraphs_iff`: in memory and in SQLite the registry answers every call of a run alike, timestamps
aside, exactly when no call runs into one of the three differences: an empty lifecycle state; a
graph that never had a lifecycle state and changes between public and not; a tag that matches a
stored graph as a `LIKE` pattern and is not in its tags.
-/

set_option autoImplicit false

namespace CksRuntime

/-- A graph without its timestamps. -/
def Graph.untimed {τ : Type} (g : Graph τ) : Graph Unit :=
  { g with createdAt := (), updatedAt := () }

/-- The calls on a registry; the two backends read clocks of their own. -/
inductive GraphCall
  | register (memoryNow sqliteNow : Nat) (a : GraphArgs)
  | unregister (name : String)
  | get (name : String)
  | list (f : GraphFilter)

namespace InMemoryStorage

/-- What a call leaves. -/
def graphStep (t : Registry) : GraphCall → Registry
  | .register now _ a => registerGraph t now a
  | .unregister name => (unregisterGraph t name).1
  | .get _ | .list _ => t

end InMemoryStorage

namespace SQLiteStorage

/-- What a call leaves. -/
def graphStep (q : Registry) : GraphCall → Registry
  | .register _ now a => registerGraph q now a
  | .unregister name => (unregisterGraph q name).1
  | .get _ | .list _ => q

end SQLiteStorage

namespace GraphCall

open InMemoryStorage (hasTag)
open SQLiteStorage (likeTag)

/-- Both answer the call alike; a listing in any order. -/
def SameAnswer (t : InMemoryStorage.Registry) (q : SQLiteStorage.Registry) : GraphCall → Prop
  | .register _ _ _ => True
  | .unregister name =>
    (InMemoryStorage.unregisterGraph t name).2 = (SQLiteStorage.unregisterGraph q name).2
  | .get name => (InMemoryStorage.getGraph t name).map Graph.untimed =
      (SQLiteStorage.getGraph id q name).map Graph.untimed
  | .list f => ((InMemoryStorage.listGraphs t f).map Graph.untimed).Perm
      ((SQLiteStorage.listGraphs id q f).map Graph.untimed)

/-- Every graph is answered alike. -/
def SameGraphs (t : InMemoryStorage.Registry) (q : SQLiteStorage.Registry) : Prop :=
  ∀ name, SameAnswer t q (.get name)

/-- Both answer the call alike, and hold the same graphs after it. -/
def Agrees (t : InMemoryStorage.Registry) (q : SQLiteStorage.Registry) (c : GraphCall) : Prop :=
  SameAnswer t q c ∧ SameGraphs (InMemoryStorage.graphStep t c) (SQLiteStorage.graphStep q c)

/-- A lifecycle state is given and not empty, or not given; and when the graph is registered without
one, again without one, it stays public or stays not public. A tag is in the tags of every graph in
scope that it matches as a pattern. -/
def Plain (_ : InMemoryStorage.Registry) (q : SQLiteStorage.Registry) : GraphCall → Prop
  | .register _ _ a => a.lifecycleState ≠ some "" ∧
      (a.lifecycleState = none → ∀ row, q.lookup a.name = some row → row.lifecycleState = none →
        (row.visibility = "public" ↔ a.resolvedVisibility = "public"))
  | .list f => ∀ tag, f.tag = some tag → ∀ name row, q.lookup name = some row →
      f.inScope row.visibility row.team = true → likeTag tag row.tags = true →
        hasTag tag row.tags = true
  | .unregister _ | .get _ => True

end GraphCall

/-! ## What the rows are like -/

theorem orDefault_of_ne {s default : String} (h : s ≠ "") : orDefault (some s) default = s :=
  if_neg h

theorem GraphArgs.resolvedVisibility_ne (a : GraphArgs) : a.resolvedVisibility ≠ "" := by
  have hdefault : (if a.isPublic then "public" else "private") ≠ "" := by
    split <;> decide
  unfold resolvedVisibility orDefault
  split
  · split
    · exact hdefault
    · assumption
  · exact hdefault

/-- The row says in `public` what it says in `visibility`, and no lifecycle state is empty. -/
structure GraphRow.Tidy (row : GraphRow) : Prop where
  visibility : row.visibility ≠ ""
  lifecycleState : row.lifecycleState ≠ some ""

/-- The registries hold the same graphs, in tidy rows. -/
structure InStep (t : InMemoryStorage.Registry) (q : SQLiteStorage.Registry) : Prop where
  same : GraphCall.SameGraphs t q
  tidy : ∀ name row, q.lookup name = some row → row.Tidy

/-- What the graph of a tidy row says. -/
theorem GraphRow.Tidy.toGraph {row : GraphRow} (h : row.Tidy) {τ : Type} (render : Nat → τ) :
    (row.toGraph render).visibility = row.visibility ∧
      (row.toGraph render).lifecycleState =
        row.lifecycleState.getD (defaultLifecycle row.visibility) := by
  have hvis : orDefault (some row.visibility) (if row.isPublic then "public" else "private") =
      row.visibility := orDefault_of_ne h.visibility
  refine ⟨hvis, ?_⟩
  unfold GraphRow.toGraph
  dsimp only
  rw [hvis]
  cases hl : row.lifecycleState with
  | none => rfl
  | some s => exact orDefault_of_ne fun hs => h.lifecycleState (by rw [hl, hs])

namespace InStep

variable {t : InMemoryStorage.Registry} {q : SQLiteStorage.Registry}

/-- Either both have the graph, or neither has. -/
theorem lookup (h : InStep t q) (name : String) :
    t.lookup name = none ∧ q.lookup name = none ∨
      ∃ g row, t.lookup name = some g ∧ q.lookup name = some row ∧
        g.untimed = (row.toGraph id).untimed := by
  have hsame := h.same name
  rw [GraphCall.SameAnswer, InMemoryStorage.getGraph, SQLiteStorage.getGraph] at hsame
  cases ht : t.lookup name with
  | none =>
    cases hq : q.lookup name with
    | none => exact .inl ⟨rfl, rfl⟩
    | some row =>
      rw [ht, hq] at hsame
      cases hsame
  | some g =>
    cases hq : q.lookup name with
    | none =>
      rw [ht, hq] at hsame
      cases hsame
    | some row =>
      rw [ht, hq] at hsame
      exact .inr ⟨g, row, rfl, rfl, Option.some.inj hsame⟩

/-- What both have registered reads alike exactly when the lifecycle states do. -/
theorem register_self_iff (h : InStep t q) (now now' : Nat) (a : GraphArgs) :
    GraphCall.SameAnswer (InMemoryStorage.registerGraph t now a)
        (SQLiteStorage.registerGraph q now' a) (.get a.name) ↔
      (a.lifecycleState.or ((t.lookup a.name).map (·.lifecycleState))).getD
          (defaultLifecycle a.resolvedVisibility) =
        orDefault (a.lifecycleState.or ((q.lookup a.name).bind (·.lifecycleState)))
          (defaultLifecycle a.resolvedVisibility) := by
  have hvis : ∀ default, orDefault (some a.resolvedVisibility) default = a.resolvedVisibility :=
    fun default => orDefault_of_ne a.resolvedVisibility_ne
  have hsource : (t.lookup a.name).bind (·.sourceGraphName) =
      (q.lookup a.name).bind (·.sourceGraphName) := by
    obtain ⟨ht, hq⟩ | ⟨g, row, ht, hq, hg⟩ := h.lookup a.name
    · rw [ht, hq]
      rfl
    · rw [ht, hq]
      exact congrArg (·.sourceGraphName) hg
  rw [GraphCall.SameAnswer, InMemoryStorage.getGraph, SQLiteStorage.getGraph,
    InMemoryStorage.registerGraph, SQLiteStorage.registerGraph, Table.lookup_set,
    Table.lookup_set, if_pos rfl, if_pos rfl, hsource]
  simp only [Option.map_some, Option.some.injEq, Graph.untimed, GraphRow.toGraph, hvis,
    Graph.mk.injEq, true_and]

theorem lifecycle_iff (h : InStep t q) (now now' : Nat) (a : GraphArgs) :
    (a.lifecycleState.or ((t.lookup a.name).map (·.lifecycleState))).getD
          (defaultLifecycle a.resolvedVisibility) =
        orDefault (a.lifecycleState.or ((q.lookup a.name).bind (·.lifecycleState)))
          (defaultLifecycle a.resolvedVisibility) ↔
      GraphCall.Plain t q (.register now now' a) := by
  -- the defaults are the same when both are public or neither is
  have hdefault : ∀ v w : String,
      defaultLifecycle v = defaultLifecycle w ↔ (v = "public" ↔ w = "public") := by
    intro v w
    unfold defaultLifecycle
    by_cases hv : v = "public" <;> by_cases hw : w = "public" <;> simp [hv, hw]
  have hne : ∀ v : String, defaultLifecycle v ≠ "" := by
    intro v
    unfold defaultLifecycle
    split <;> decide
  rw [GraphCall.Plain]
  cases ha : a.lifecycleState with
  | some l =>
    by_cases hl : l = ""
    · subst hl
      refine iff_of_false (fun he => ?_) fun hp => hp.1 rfl
      exact hne _ (show "" = _ from he).symm
    · refine iff_of_true ?_ ⟨fun he => hl (Option.some.inj he), fun he => ?_⟩
      · exact (orDefault_of_ne hl).symm
      · cases he
  | none =>
    rw [Option.none_or, Option.none_or]
    obtain ⟨ht, hq⟩ | ⟨g, row, ht, hq, hg⟩ := h.lookup a.name
    · rw [ht, hq]
      refine iff_of_true rfl ⟨by simp, fun _ row hrow => ?_⟩
      cases hrow
    -- SQLite has the default in the place of a lifecycle that was not given
    · have htidy := h.tidy _ row hq
      have hlife : g.lifecycleState =
          row.lifecycleState.getD (defaultLifecycle row.visibility) :=
        (congrArg (·.lifecycleState) hg).trans (htidy.toGraph id).2
      rw [ht, hq]
      simp only [Option.map_some, Option.getD_some, Option.bind_some, hlife, ne_eq,
        reduceCtorEq, not_false_eq_true, forall_const, true_and, Option.some.injEq,
        forall_eq']
      cases hl : row.lifecycleState with
      | none => simpa [orDefault] using hdefault row.visibility a.resolvedVisibility
      | some l =>
        refine iff_of_true ?_ fun he => ?_
        · exact (orDefault_of_ne fun hs => htidy.lifecycleState (hl.trans (congrArg some hs))).symm
        · cases he

/-- A registration changes what is read under its own name only. -/
theorem register_other (now now' : Nat) (a : GraphArgs) {name : String} (hname : name ≠ a.name) :
    GraphCall.SameAnswer (InMemoryStorage.registerGraph t now a)
        (SQLiteStorage.registerGraph q now' a) (.get name) ↔
      GraphCall.SameAnswer t q (.get name) := by
  rw [GraphCall.SameAnswer, GraphCall.SameAnswer, InMemoryStorage.getGraph,
    SQLiteStorage.getGraph, InMemoryStorage.registerGraph, SQLiteStorage.registerGraph,
    Table.lookup_set, Table.lookup_set, if_neg hname, if_neg hname]
  rfl

theorem register_iff (h : InStep t q) (now now' : Nat) (a : GraphArgs) :
    GraphCall.SameGraphs (InMemoryStorage.registerGraph t now a)
        (SQLiteStorage.registerGraph q now' a) ↔ GraphCall.Plain t q (.register now now' a) := by
  rw [← h.lifecycle_iff now now' a, ← h.register_self_iff now now' a]
  constructor
  · intro hs
    exact hs a.name
  · intro hs name
    by_cases hname : name = a.name
    · rw [hname]
      exact hs
    · exact (register_other now now' a hname).2 (h.same name)

/-- The row a registration writes is tidy, if its lifecycle state is not empty. -/
theorem register (h : InStep t q) {now now' : Nat} {a : GraphArgs}
    (hp : GraphCall.Plain t q (.register now now' a)) :
    InStep (InMemoryStorage.registerGraph t now a) (SQLiteStorage.registerGraph q now' a) := by
  refine ⟨(h.register_iff now now' a).2 hp, fun name row hrow => ?_⟩
  rw [SQLiteStorage.registerGraph, Table.lookup_set] at hrow
  split at hrow
  · cases hrow
    refine ⟨a.resolvedVisibility_ne, ?_⟩
    dsimp only
    cases ha : a.lifecycleState with
    | some l =>
      rw [Option.some_or, ← ha]
      exact hp.1
    | none =>
      rw [Option.none_or]
      intro hl
      obtain ⟨row, hq, hl⟩ := Option.bind_eq_some_iff.1 hl
      exact (h.tidy _ row hq).lifecycleState hl
  · exact h.tidy name row hrow

theorem unregister (h : InStep t q) (name : String) :
    (InMemoryStorage.unregisterGraph t name).2 = (SQLiteStorage.unregisterGraph q name).2 ∧
      InStep (InMemoryStorage.unregisterGraph t name).1
        (SQLiteStorage.unregisterGraph q name).1 := by
  have hmem : name ∈ t ↔ name ∈ q := by
    rw [← AList.lookup_isSome, ← AList.lookup_isSome]
    obtain ⟨ht, hq⟩ | ⟨g, row, ht, hq, -⟩ := h.lookup name
    · rw [ht, hq]
      exact iff_of_false Bool.false_ne_true Bool.false_ne_true
    · rw [ht, hq]
      exact iff_of_true rfl rfl
  refine ⟨?_, fun name' => ?_, fun name' row hrow => ?_⟩
  · rw [InMemoryStorage.unregisterGraph, SQLiteStorage.unregisterGraph]
    exact decide_eq_decide.2 hmem
  · have hsame := h.same name'
    rw [GraphCall.SameAnswer, InMemoryStorage.getGraph, SQLiteStorage.getGraph,
      InMemoryStorage.unregisterGraph, SQLiteStorage.unregisterGraph] at *
    dsimp only
    rw [Table.lookup_erase_eq, Table.lookup_erase_eq]
    split
    · rfl
    · exact hsame
  · rw [SQLiteStorage.unregisterGraph] at hrow
    dsimp only at hrow
    rw [Table.lookup_erase_eq] at hrow
    split at hrow
    · cases hrow
    · exact h.tidy name' row hrow

/-! ## Listings -/

/-- What a listing keeps, of a graph without its timestamps. -/
def listed (matchesTag : String → String → Bool) (f : GraphFilter) (g : Graph Unit) : Bool :=
  f.tag.all (matchesTag · g.tags) && f.inScope g.visibility g.team

theorem listGraphs_memory (t : InMemoryStorage.Registry) (f : GraphFilter) :
    ((InMemoryStorage.listGraphs t f).map Graph.untimed).Perm
      ((t.rows.map fun r => r.2.untimed).filter (listed InMemoryStorage.hasTag f)) := by
  rw [InMemoryStorage.listGraphs]
  refine ((List.mergeSort_perm _ _).map _).trans (.of_eq ?_)
  rw [List.filter_filter, List.filter_map, List.map_map, List.filter_map]
  refine congrArg _ (List.filter_congr fun r _ => ?_)
  exact Bool.and_comm _ _

theorem listGraphs_sqlite (h : ∀ name row, q.lookup name = some row → row.Tidy) (f : GraphFilter) :
    ((SQLiteStorage.listGraphs id q f).map Graph.untimed).Perm
      ((q.rows.map fun r => (r.2.toGraph id).untimed).filter
        (listed SQLiteStorage.likeTag f)) := by
  rw [SQLiteStorage.listGraphs, List.map_map]
  refine ((List.mergeSort_perm _ _).map _).trans (.of_eq ?_)
  rw [List.filter_map, List.map_map, List.filter_map]
  refine congrArg _ (List.filter_congr fun r hr => ?_)
  have hvis := ((h r.1 r.2 (Table.mem_rows.1 hr)).toGraph id).1
  change _ = (f.tag.all _ && f.inScope (r.2.toGraph id).visibility r.2.team)
  rw [hvis]
  rfl

/-- A tag that is in the tags matches them as a pattern. -/
theorem likeTag_of_hasTag {tag tags : String} (h : InMemoryStorage.hasTag tag tags = true) :
    SQLiteStorage.likeTag tag tags = true := by
  rw [InMemoryStorage.hasTag, decide_eq_true_eq] at h
  have hsame : ∀ c, SQLiteStorage.sameLetter c c = true := fun c => decide_eq_true rfl
  show Like.like SQLiteStorage.sameLetter '%' '_' _ _ = true
  exact Like.like_of_infix hsame h

theorem filter_perm_iff {α : Type} {l l' : List α} {p p' : α → Bool} (hl : l.Perm l')
    (hp : ∀ x, p x = true → p' x = true) :
    (l.filter p).Perm (l'.filter p') ↔ ∀ x ∈ l', p' x = true → p x = true := by
  constructor
  · intro h x hx hx'
    have hmem := h.mem_iff.2 (List.mem_filter.2 ⟨hx, hx'⟩)
    exact (List.mem_filter.1 hmem).2
  · intro h
    refine (hl.filter p).trans (.of_eq (List.filter_congr fun x hx => ?_))
    rw [Bool.eq_iff_iff]
    exact ⟨hp x, h x hx⟩

theorem list_iff (h : InStep t q) (f : GraphFilter) :
    GraphCall.SameAnswer t q (.list f) ↔ GraphCall.Plain t q (.list f) := by
  have hrows : (t.rows.map fun r => r.2.untimed).Perm
      (q.rows.map fun r => (r.2.toGraph id).untimed) := by
    refine Table.rows_perm (t := t) (q := q) (f := Graph.untimed)
      (g := fun row => (row.toGraph id).untimed) fun name => ?_
    have hsame := h.same name
    rw [GraphCall.SameAnswer, InMemoryStorage.getGraph, SQLiteStorage.getGraph,
      Option.map_map] at hsame
    exact hsame
  have hle : ∀ g : Graph Unit, listed InMemoryStorage.hasTag f g = true →
      listed SQLiteStorage.likeTag f g = true := by
    intro g hg
    rw [listed, Bool.and_eq_true, Option.all_eq_true] at hg ⊢
    exact ⟨fun tag htag => likeTag_of_hasTag (hg.1 tag htag), hg.2⟩
  have hiff := filter_perm_iff hrows hle
  rw [GraphCall.SameAnswer]
  constructor
  · intro hs tag htag name row hrow hscope hlike
    have hall := hiff.1 (((listGraphs_memory t f).symm.trans hs).trans (listGraphs_sqlite h.tidy f))
    have hvis := ((h.tidy name row hrow).toGraph id).1
    have hlisted := hall _ (List.mem_map_of_mem (Table.mem_rows.2 hrow)) (by
      change (f.tag.all _ && f.inScope (row.toGraph id).visibility row.team) = true
      rw [hvis, hscope, htag, Bool.and_true]
      exact hlike)
    rw [listed, Bool.and_eq_true, Option.all_eq_true] at hlisted
    exact hlisted.1 tag htag
  · intro hp
    refine ((listGraphs_memory t f).trans (hiff.2 fun g hg hlisted => ?_)).trans
      (listGraphs_sqlite h.tidy f).symm
    obtain ⟨⟨name, row⟩, hr, rfl⟩ := List.mem_map.1 hg
    have hrow := Table.mem_rows.1 hr
    have hvis := ((h.tidy name row hrow).toGraph id).1
    rw [listed, Bool.and_eq_true, Option.all_eq_true] at hlisted ⊢
    refine ⟨fun tag htag => ?_, hlisted.2⟩
    refine hp tag htag name row hrow ?_ (hlisted.1 tag htag)
    rw [← hvis]
    exact hlisted.2

end InStep

/-! ## Whole runs -/

theorem GraphCall.agrees_iff {t : InMemoryStorage.Registry} {q : SQLiteStorage.Registry}
    (c : GraphCall) (h : InStep t q) : c.Agrees t q ↔ c.Plain t q := by
  cases c with
  | register now now' a => exact (and_iff_right trivial).trans (h.register_iff now now' a)
  | unregister name =>
    obtain ⟨hreply, hstep⟩ := h.unregister name
    exact iff_of_true ⟨hreply, hstep.same⟩ trivial
  | get name => exact iff_of_true ⟨h.same name, h.same⟩ trivial
  | list f => exact (and_iff_left h.same).trans (h.list_iff f)

theorem GraphCall.inStep {t : InMemoryStorage.Registry} {q : SQLiteStorage.Registry}
    (c : GraphCall) (h : InStep t q) (hp : c.Plain t q) :
    InStep (InMemoryStorage.graphStep t c) (SQLiteStorage.graphStep q c) := by
  cases c with
  | register now now' a => exact h.register hp
  | unregister name => exact (h.unregister name).2
  | get name => exact h
  | list f => exact h

/-- **The registries agree** along a run exactly when every call of it is plain. -/
theorem sameGraphs_iff (calls : List GraphCall) :
    Lockstep.Along InMemoryStorage.graphStep SQLiteStorage.graphStep
        (fun t q c => GraphCall.Agrees t q c) calls ∅ ∅ ↔
      Lockstep.Along InMemoryStorage.graphStep SQLiteStorage.graphStep
        (fun t q c => GraphCall.Plain t q c) calls ∅ ∅ := by
  have hempty : InStep (∅ : InMemoryStorage.Registry) (∅ : SQLiteStorage.Registry) := by
    refine ⟨fun name => rfl, fun name row hrow => ?_⟩
    cases hrow
  have hiff : ∀ t q c, InStep t q → (GraphCall.Agrees t q c ↔ GraphCall.Plain t q c) :=
    fun t q c => GraphCall.agrees_iff c
  exact Lockstep.along_iff hiff (fun t q c => GraphCall.inStep c) calls ∅ ∅ hempty

/-- A graph tagged `ML` is listed for the tag `ml` by SQLite only. -/
theorem tag_matched_as_pattern :
    ¬∀ calls : List GraphCall,
      Lockstep.Along InMemoryStorage.graphStep SQLiteStorage.graphStep
        (fun t q c => GraphCall.Agrees t q c) calls ∅ ∅ := by
  intro h
  obtain ⟨-, ⟨hplain, -⟩⟩ := (sameGraphs_iff _).1
    (h [.register 0 0 { name := "g", sessionId := "s", tags := "ML" }, .list { tag := some "ml" }])
  have hin := hplain "ml" rfl "g" _ rfl rfl (by decide)
  revert hin
  decide

end CksRuntime
