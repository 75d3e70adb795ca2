import CksRuntime.Lib.Lockstep
import CksRuntime.Reasoning.Freshness

/-!
# What the freshness sweeper escalates

`complete_iff`: throughout a run each outdated graph has one task for its registration exactly when
at each sweep it expires as `Expires` asks, of the times of registrations and sweeps alone; in
Postgres it never does, as a `datetime` is not parsed. What a sweep adds is told by `step_sweep`,
what that comes to in terms of registrations by `mem_added_sqlite`, and `Tracked` is what the
sweeper's names and the tasks come to in terms of the sweeps before.
-/

set_option autoImplicit false

namespace CksRuntime

open Effect IsoTime Lockstep

/-! ## Timestamps -/

namespace GraphBackend

/-- SQLite's text is read as the second that was stored. -/
theorem parse_render_sqlite (seconds : Nat) :
    GraphFreshnessSweeper.parseTimestamp (render .sqlite seconds) =
      some (.aware (seconds * SECOND)) := by
  unfold render GraphFreshnessSweeper.parseTimestamp
  dsimp only
  rw [IsoText.readUtc_some, if_pos (.inl rfl)]
  have hsum : ((seconds / 86400 : Nat) : Int) * (86400 * 1000000) +
      (seconds % 86400 * 1000000 : Nat) = seconds * 1000000 := by omega
  exact congrArg (fun instant => some (PyDatetime.aware instant)) hsum

theorem parse_render_postgres (micros : Nat) :
    GraphFreshnessSweeper.parseTimestamp (render .postgres micros) = none := rfl

theorem parse_render_ne_naive (b : GraphBackend) (stored : Nat) (l : Int) :
    GraphFreshnessSweeper.parseTimestamp (b.render stored) ≠ some (.naive l) := by
  cases b with
  | sqlite =>
    rw [parse_render_sqlite]
    intro h
    cases h
  | postgres =>
    rw [parse_render_postgres]
    intro h
    cases h

end GraphBackend

/-! ## A sweep -/

namespace GraphFreshnessSweeper

variable {b : GraphBackend} {ttlSeconds : Nat} {cutoff : Int}

/-- Named, and parsed as older than the cutoff. -/
def isStale (cutoff : Int) (graph : Graph Rendered) : Bool :=
  graph.name ≠ "" && match parseTimestamp graph.updatedAt with
    | some (.aware updatedAt) => updatedAt < cutoff
    | _ => false

theorem isStale_iff {graph : Graph Rendered} : isStale cutoff graph = true ↔ graph.name ≠ "" ∧
    ∃ updatedAt, parseTimestamp graph.updatedAt = some (.aware updatedAt) ∧ updatedAt < cutoff := by
  unfold isStale
  rw [Bool.and_eq_true, decide_eq_true_eq]
  refine and_congr_right fun _ => ?_
  cases parseTimestamp graph.updatedAt with
  | none => simp
  | some d => cases d <;> simp

/-- What a sweep adds a task for. -/
def added (cutoff : Int) (knownStale : List String) (graphs : List (Graph Rendered)) :
    List (Graph Rendered) :=
  graphs.filter fun graph => isStale cutoff graph && graph.name ∉ knownStale

variable (b ttlSeconds) in
/-- What a round leaves: the task it adds, and the name it keeps. -/
theorem visit_run {graph : Graph Rendered}
    (hparse : ∀ l, parseTimestamp graph.updatedAt ≠ some (.naive l))
    (acc : List String × List GraphPayload) (s : FreshnessState) :
    ∃ acc', visit b ttlSeconds cutoff acc graph s = .ok acc' { s with
        enqueued := s.enqueued ++ (added cutoff s.knownStale [graph]).map (task ttlSeconds) } ∧
      ∀ name, name ∈ acc'.1 ↔ name ∈ acc.1 ∨ isStale cutoff graph = true ∧ graph.name = name := by
  by_cases hstale : isStale cutoff graph = true
  · obtain ⟨hname, updatedAt, hd, hold⟩ := isStale_iff.1 hstale
    have hmem : ∀ name, name ∈ acc.1.insert graph.name ↔
        name ∈ acc.1 ∨ isStale cutoff graph = true ∧ graph.name = name := by
      intro name
      rw [List.mem_insert_iff, or_comm, eq_comm (a := name)]
      simp [hstale]
    unfold visit
    rw [if_neg hname, hd]
    dsimp only
    rw [if_neg (by omega), bind_get_run]
    by_cases hknown : graph.name ∈ s.knownStale
    · have hnone : added cutoff s.knownStale [graph] = [] := by simp [added, hknown]
      rw [if_pos hknown, hnone, List.map_nil, List.append_nil]
      exact ⟨_, rfl, hmem⟩
    · have hone : added cutoff s.knownStale [graph] = [graph] := by simp [added, hknown, hstale]
      rw [if_neg hknown, hone]
      cases b <;> exact ⟨_, rfl, hmem⟩
  -- a graph that is fresh, or has no name, is passed over
  · have hnone : added cutoff s.knownStale [graph] = [] := by simp [added, hstale]
    rw [hnone, List.map_nil, List.append_nil]
    refine ⟨acc, ?_, fun name => by simp [hstale]⟩
    rw [isStale_iff] at hstale
    unfold visit
    by_cases hname : graph.name = ""
    · rw [if_pos hname]
      rfl
    · rw [if_neg hname]
      cases hd : parseTimestamp graph.updatedAt with
      | none => rfl
      | some d =>
        cases d with
        | naive l => exact absurd hd (hparse l)
        | aware updatedAt =>
          have hfresh : cutoff ≤ updatedAt := by
            by_contra hold
            exact hstale ⟨hname, updatedAt, hd, by omega⟩
          dsimp only
          rw [if_pos hfresh]
          rfl

variable (b ttlSeconds) in
theorem foldlM_visit {graphs : List (Graph Rendered)}
    (hparse : ∀ graph ∈ graphs, ∀ l, parseTimestamp graph.updatedAt ≠ some (.naive l))
    (acc : List String × List GraphPayload) (s : FreshnessState) :
    ∃ acc', graphs.foldlM (visit b ttlSeconds cutoff) acc s = .ok acc' { s with
        enqueued := s.enqueued ++ (added cutoff s.knownStale graphs).map (task ttlSeconds) } ∧
      ∀ name, name ∈ acc'.1 ↔
        name ∈ acc.1 ∨ ∃ graph ∈ graphs, isStale cutoff graph = true ∧ graph.name = name := by
  induction graphs generalizing acc s with
  | nil => exact ⟨acc, by simp [added], by simp⟩
  | cons graph graphs ih =>
    obtain ⟨acc₁, hvisit, hmem₁⟩ := visit_run b ttlSeconds
      (hparse graph List.mem_cons_self) acc s
    obtain ⟨acc₂, hrest, hmem₂⟩ := ih (fun g hg => hparse g (List.mem_cons_of_mem _ hg)) acc₁ { s with
      enqueued := s.enqueued ++ (added cutoff s.knownStale [graph]).map (task ttlSeconds) }
    refine ⟨acc₂, ?_, fun name => ?_⟩
    · have hsplit : added cutoff s.knownStale (graph :: graphs) =
          added cutoff s.knownStale [graph] ++ added cutoff s.knownStale graphs :=
        List.filter_append [graph] graphs
      rw [List.foldlM_cons, bind_of_ok hvisit, hrest, hsplit, List.map_append, List.append_assoc]
    · simp only [hmem₂, hmem₁, or_assoc, List.mem_cons, exists_eq_or_imp]

variable (b ttlSeconds) in
/-- **A sweep** adds a task for each graph that is stale and not known, and keeps the stale ones. -/
theorem sweepOnce_run {graphs : List (Graph Rendered)} (now : Nat)
    (hparse : ∀ graph ∈ graphs, ∀ l, parseTimestamp graph.updatedAt ≠ some (.naive l))
    (s : FreshnessState) : ∃ payloads known, sweepOnce b ttlSeconds graphs now s =
        .ok payloads { s with
          knownStale := known
          enqueued := s.enqueued ++
            (added (now - ttlSeconds * SECOND) s.knownStale graphs).map (task ttlSeconds) } ∧
      ∀ name, name ∈ known ↔
        ∃ graph ∈ graphs, isStale (now - ttlSeconds * SECOND) graph = true ∧ graph.name = name := by
  obtain ⟨acc, hloop, hmem⟩ := foldlM_visit b ttlSeconds hparse ([], []) s
  have hend := bind_of_ok hloop fun acc => do
    modify fun s : FreshnessState => { s with knownStale := acc.1 }
    pure acc.2
  refine ⟨acc.2, acc.1, hend, fun name => (hmem name).trans ?_⟩
  simp

end GraphFreshnessSweeper

/-! ## Registrations -/

namespace SQLiteStorage

theorem mem_listGraphs {τ : Type} {render : Nat → τ} {t : Registry} {g : Graph τ} :
    g ∈ listGraphs render t {} ↔ ∃ name row, t.lookup name = some row ∧ row.toGraph render = g := by
  simp only [listGraphs, List.mem_map, List.mem_mergeSort, List.mem_filter, Prod.exists,
    Table.mem_rows]
  constructor
  · intro h
    obtain ⟨row, ⟨⟨name, row', hrow, heq⟩, -⟩, hg⟩ := h
    subst heq
    exact ⟨name, row', hrow, hg⟩
  · intro h
    obtain ⟨name, row, hrow, hg⟩ := h
    exact ⟨row, ⟨⟨name, row, hrow, rfl⟩, rfl⟩, hg⟩

/-- A table that keeps each row under its name lists every name once. -/
theorem nodup_listGraphs {τ : Type} {render : Nat → τ} {t : Registry}
    (hnames : ∀ name row, t.lookup name = some row → row.name = name) :
    ((listGraphs render t {}).map (·.name)).Nodup := by
  have hrows : (t.rows.map (·.2.name)).Nodup := by
    have heq : t.rows.map (·.2.name) = t.rows.map (·.1) :=
      List.map_congr_left fun r hr => hnames r.1 r.2 (Table.mem_rows.1 hr)
    rw [heq]
    exact t.nodup_rows
  unfold listGraphs
  dsimp only
  rw [List.map_map]
  refine ((List.mergeSort_perm _ _).map _).nodup_iff.2 ?_
  refine List.Nodup.sublist (List.filter_sublist.map _) ?_
  rw [List.map_map]
  exact hrows

end SQLiteStorage

namespace FreshnessWorld

variable {b : GraphBackend} {ttlSeconds : Nat} {world : FreshnessWorld}

/-- Each row is that of its graph's last registration, what the sweeper knows is what its last sweep
found outdated, and what it escalated is what expired. -/
structure Tracked (b : GraphBackend) (ttlSeconds : Nat) (world : FreshnessWorld) : Prop where
  rows : ∀ name, (world.registry.lookup name).map (fun row => (row.name, row.updatedAt)) =
    (world.registered.lookup name).map fun r => (name, b.stored r.registeredAt)
  once : world.escalated.Nodup
  none : b = .postgres → world.escalated = []
  known : b = .sqlite → ∀ name, name ∈ world.sweeper.knownStale ↔
    name ≠ "" ∧ LastSaw ttlSeconds world.sweeps name
  expired : b = .sqlite → ∀ name r, world.Escalated name r ↔
    name ≠ "" ∧ Expired ttlSeconds world.sweeps name r

/-- The graphs a sweep adds a task for. -/
def added (b : GraphBackend) (ttlSeconds : Nat) (world : FreshnessWorld) (now : Nat) :
    List (Graph Rendered) :=
  GraphFreshnessSweeper.added (now - ttlSeconds * SECOND) world.sweeper.knownStale
    (SQLiteStorage.listGraphs b.render world.registry {})

variable (b ttlSeconds world) in
/-- A sweep escalates the last registration of each graph it adds, and knows the stale ones. -/
theorem step_sweep (now : Nat) : ∃ s, world.step b ttlSeconds (.sweep now) = { world with
      sweeper := s
      escalated := world.escalated ++
        (world.added b ttlSeconds now).map fun graph => (graph.name, world.registered.lookup graph.name)
      sweeps := ⟨now, world.registered⟩ :: world.sweeps } ∧
    ∀ name, name ∈ s.knownStale ↔ ∃ graph ∈ SQLiteStorage.listGraphs b.render world.registry {},
      GraphFreshnessSweeper.isStale (now - ttlSeconds * SECOND) graph = true ∧
        graph.name = name := by
  have hparse : ∀ graph ∈ SQLiteStorage.listGraphs b.render world.registry {},
      ∀ l, GraphFreshnessSweeper.parseTimestamp graph.updatedAt ≠ some (.naive l) := by
    intro graph hgraph l
    obtain ⟨name, row, -, rfl⟩ := SQLiteStorage.mem_listGraphs.1 hgraph
    exact b.parse_render_ne_naive row.updatedAt l
  obtain ⟨payloads, known, hrun, hknown⟩ := GraphFreshnessSweeper.sweepOnce_run b
    ttlSeconds now hparse world.sweeper
  have hstep : world.step b ttlSeconds (.sweep now) = world.swept now { world.sweeper with
      knownStale := known
      enqueued := world.sweeper.enqueued ++
        (world.added b ttlSeconds now).map (GraphFreshnessSweeper.task ttlSeconds) } := by
    unfold step
    dsimp only
    rw [hrun]
    rfl
  rw [hstep, swept, List.drop_left, List.map_map]
  exact ⟨_, rfl, hknown⟩

theorem Tracked.registered (h : world.Tracked b ttlSeconds) {name : String} {row : GraphRow}
    (hrow : world.registry.lookup name = some row) : row.name = name ∧
      ∃ r, world.registered.lookup name = some r ∧ row.updatedAt = b.stored r.registeredAt := by
  have hsame := h.rows name
  rw [hrow, Option.map_some] at hsame
  cases hr : world.registered.lookup name with
  | none =>
    rw [hr] at hsame
    cases hsame
  | some r =>
    rw [hr, Option.map_some] at hsame
    have hpair := Option.some.inj hsame
    exact ⟨congrArg Prod.fst hpair, r, rfl, congrArg Prod.snd hpair⟩

theorem Tracked.row (h : world.Tracked b ttlSeconds) {name : String} {r : Registration}
    (hr : world.registered.lookup name = some r) : ∃ row, world.registry.lookup name = some row ∧
      row.name = name ∧ row.updatedAt = b.stored r.registeredAt := by
  have hsame := h.rows name
  rw [hr, Option.map_some] at hsame
  obtain ⟨row, hrow, hpair⟩ := Option.map_eq_some_iff.1 hsame
  exact ⟨row, hrow, congrArg Prod.fst hpair, congrArg Prod.snd hpair⟩

theorem nodup_added (h : world.Tracked b ttlSeconds) (now : Nat) :
    ((world.added b ttlSeconds now).map (·.name)).Nodup :=
  (SQLiteStorage.nodup_listGraphs fun _ _ hrow => (h.registered hrow).1).sublist
    (List.filter_sublist.map _)

/-- A row of SQLite is stale when its graph is named and seen outdated. -/
theorem isStale_sqlite {now : Nat} {row : GraphRow} {r : Registration}
    (hrow : row.updatedAt = GraphBackend.sqlite.stored r.registeredAt) :
    GraphFreshnessSweeper.isStale (now - ttlSeconds * SECOND)
        (row.toGraph GraphBackend.sqlite.render) = true ↔
      row.name ≠ "" ∧ SeenOutdated ttlSeconds now r := by
  have hparse : GraphFreshnessSweeper.parseTimestamp
      (row.toGraph GraphBackend.sqlite.render).updatedAt = some (.aware (row.updatedAt * SECOND)) :=
    GraphBackend.parse_render_sqlite row.updatedAt
  rw [GraphFreshnessSweeper.isStale, hparse, hrow, Bool.and_eq_true, decide_eq_true_eq,
    decide_eq_true_eq]
  exact Iff.rfl

variable (ttlSeconds) in
/-- In SQLite these are the graphs seen outdated and not known. -/
theorem mem_added_sqlite (h : world.Tracked .sqlite ttlSeconds) (now : Nat) {name : String} :
    (∃ graph ∈ world.added .sqlite ttlSeconds now, graph.name = name) ↔
      ∃ r, world.registered.lookup name = some r ∧ SeenOutdated ttlSeconds now r ∧
        name ≠ "" ∧ name ∉ world.sweeper.knownStale := by
  constructor
  · intro hadded
    obtain ⟨graph, hgraph, hname⟩ := hadded
    obtain ⟨hlisted, hadd⟩ := List.mem_filter.1 hgraph
    rw [Bool.and_eq_true, decide_eq_true_eq] at hadd
    obtain ⟨name', row, hrow, rfl⟩ := SQLiteStorage.mem_listGraphs.1 hlisted
    obtain ⟨hrowname, r, hr, hupdated⟩ := h.registered hrow
    have hsame : name' = name := hrowname.symm.trans hname
    subst hsame
    obtain ⟨hnamed, hseen⟩ := (isStale_sqlite hupdated).1 hadd.1
    rw [hrowname] at hnamed
    rw [hname] at hadd
    exact ⟨r, hr, hseen, hnamed, hadd.2⟩
  · intro hseen
    obtain ⟨r, hr, hseen, hnamed, hknown⟩ := hseen
    obtain ⟨row, hrow, hrowname, hupdated⟩ := h.row hr
    refine ⟨row.toGraph GraphBackend.sqlite.render, List.mem_filter.2 ⟨?_, ?_⟩, hrowname⟩
    · exact SQLiteStorage.mem_listGraphs.2 ⟨name, row, hrow, rfl⟩
    · rw [← hrowname] at hnamed hknown
      rw [Bool.and_eq_true, decide_eq_true_eq]
      exact ⟨(isStale_sqlite hupdated).2 ⟨hnamed, hseen⟩, hknown⟩

variable (ttlSeconds) in
/-- And it knows the graphs seen outdated. -/
theorem mem_known_sqlite (h : world.Tracked .sqlite ttlSeconds) (now : Nat) {name : String} :
    name ∈ (world.step .sqlite ttlSeconds (.sweep now)).sweeper.knownStale ↔
      ∃ r, world.registered.lookup name = some r ∧ SeenOutdated ttlSeconds now r ∧
        name ≠ "" := by
  obtain ⟨s, hstep, hknown⟩ := world.step_sweep .sqlite ttlSeconds now
  rw [hstep, hknown]
  constructor
  · intro hstale
    obtain ⟨graph, hlisted, hstale, hname⟩ := hstale
    obtain ⟨name', row, hrow, rfl⟩ := SQLiteStorage.mem_listGraphs.1 hlisted
    obtain ⟨hrowname, r, hr, hupdated⟩ := h.registered hrow
    have hsame : name' = name := hrowname.symm.trans hname
    subst hsame
    obtain ⟨hnamed, hseen⟩ := (isStale_sqlite hupdated).1 hstale
    rw [hrowname] at hnamed
    exact ⟨r, hr, hseen, hnamed⟩
  · intro hseen
    obtain ⟨r, hr, hseen, hnamed⟩ := hseen
    obtain ⟨row, hrow, hrowname, hupdated⟩ := h.row hr
    rw [← hrowname] at hnamed
    exact ⟨_, SQLiteStorage.mem_listGraphs.2 ⟨name, row, hrow, rfl⟩,
      (isStale_sqlite hupdated).2 ⟨hnamed, hseen⟩, hrowname⟩

theorem added_postgres {now : Nat} : world.added .postgres ttlSeconds now = [] := by
  refine List.filter_eq_nil_iff.2 fun graph hgraph => ?_
  obtain ⟨name, row, -, rfl⟩ := SQLiteStorage.mem_listGraphs.1 hgraph
  simp [GraphFreshnessSweeper.isStale, GraphRow.toGraph, GraphBackend.parse_render_postgres]

/-- What was outdated is seen so: the stored time is no later. -/
theorem SeenOutdated.of_outdated {now : Nat} {r : Registration} (h : Outdated ttlSeconds now r) :
    SeenOutdated ttlSeconds now r := by
  unfold Outdated SECOND at h
  unfold SeenOutdated SECOND
  omega

theorem lastSaw_cons {sweep : PastSweep} {earlier : List PastSweep} {name : String} :
    LastSaw ttlSeconds (sweep :: earlier) name ↔ ∃ r, Saw ttlSeconds name r sweep := by
  simp [LastSaw]

theorem expired_cons {sweep : PastSweep} {earlier : List PastSweep} {name : String}
    {r : Registration} : Expired ttlSeconds (sweep :: earlier) name r ↔
      Expired ttlSeconds earlier name r ∨
        Saw ttlSeconds name r sweep ∧ ¬LastSaw ttlSeconds earlier name := by
  constructor
  · intro hexpired
    obtain ⟨later, sweep', earlier', hsplit, hsaw, hnot⟩ := hexpired
    -- either it expired at the last sweep, or before it
    cases later with
    | nil =>
      obtain ⟨hsweep, hearlier⟩ := List.cons.inj hsplit
      subst hsweep hearlier
      exact .inr ⟨hsaw, hnot⟩
    | cons _ later => exact .inl ⟨later, sweep', earlier', (List.cons.inj hsplit).2, hsaw, hnot⟩
  · intro hexpired
    obtain ⟨later, sweep', earlier', hsplit, hsaw, hnot⟩ | ⟨hsaw, hnot⟩ := hexpired
    · exact ⟨sweep :: later, sweep', earlier', congrArg (sweep :: ·) hsplit, hsaw, hnot⟩
    · exact ⟨[], sweep, earlier, rfl, hsaw, hnot⟩

/-! ## Whether a sweep is complete -/

theorem escalated_sweep_iff (h : world.Tracked .sqlite ttlSeconds) {now : Nat} {name : String}
    {r : Registration} :
    (world.step .sqlite ttlSeconds (.sweep now)).Escalated name r ↔ world.Escalated name r ∨
      world.registered.lookup name = some r ∧ SeenOutdated ttlSeconds now r ∧ name ≠ "" ∧
        name ∉ world.sweeper.knownStale := by
  obtain ⟨s, hstep, -⟩ := world.step_sweep .sqlite ttlSeconds now
  rw [hstep]
  unfold Escalated
  rw [List.mem_append, List.mem_map]
  refine or_congr_right ⟨fun hadded => ?_, fun hseen => ?_⟩
  · obtain ⟨graph, hgraph, hpair⟩ := hadded
    have hname : graph.name = name := congrArg Prod.fst hpair
    have hlookup := congrArg Prod.snd hpair
    rw [hname] at hlookup
    obtain ⟨r', hr', hseen⟩ := (mem_added_sqlite ttlSeconds h now).1 ⟨graph, hgraph, hname⟩
    -- the task is for the registration the sweep found
    obtain rfl : r' = r := Option.some.inj (hr'.symm.trans hlookup)
    exact ⟨hr', hseen⟩
  · obtain ⟨hr, hseen⟩ := hseen
    obtain ⟨graph, hgraph, hname⟩ := (mem_added_sqlite ttlSeconds h now).2 ⟨r, hr, hseen⟩
    refine ⟨graph, hgraph, ?_⟩
    rw [hname, hr]

theorem nodup_sweep_iff (h : world.Tracked .sqlite ttlSeconds) (now : Nat) :
    (world.step .sqlite ttlSeconds (.sweep now)).escalated.Nodup ↔
      ∀ name r, world.registered.lookup name = some r → SeenOutdated ttlSeconds now r →
        name ≠ "" → world.Escalated name r → name ∈ world.sweeper.knownStale := by
  obtain ⟨s, hstep, -⟩ := world.step_sweep .sqlite ttlSeconds now
  rw [hstep]
  dsimp only
  have hnew : ((world.added .sqlite ttlSeconds now).map
      fun graph => (graph.name, world.registered.lookup graph.name)).Nodup := by
    refine List.Nodup.of_map Prod.fst ?_
    rw [List.map_map]
    exact nodup_added h now
  rw [List.nodup_append]
  constructor
  · intro hnodup name r hr hseen hnamed hescalated
    by_contra hknown
    obtain ⟨graph, hgraph, hname⟩ := (mem_added_sqlite ttlSeconds h now).2
      ⟨r, hr, hseen, hnamed, hknown⟩
    refine hnodup.2.2 _ hescalated _ (List.mem_map_of_mem hgraph) ?_
    rw [hname, hr]
  · intro hremembered
    refine ⟨h.once, hnew, fun e he e' he' heq => ?_⟩
    subst heq
    obtain ⟨graph, hgraph, rfl⟩ := List.mem_map.1 he'
    obtain ⟨r, hr, hseen, hnamed, hknown⟩ := (mem_added_sqlite ttlSeconds h now).1 ⟨graph, hgraph, rfl⟩
    rw [hr] at he
    exact hknown (hremembered _ r hr hseen hnamed he)

theorem complete_iff_expires (h : world.Tracked b ttlSeconds) (e : FreshnessEvent) :
    Complete b ttlSeconds world e ↔ Expires b ttlSeconds world e := by
  cases e with
  | sweep now =>
    cases b with
    | sqlite =>
      unfold Complete Expires
      dsimp only
      rw [nodup_sweep_iff h]
      constructor
      · intro hcomplete name r hr
        obtain ⟨hall, hremembered⟩ := hcomplete
        constructor
        · intro hout
          have hescalated := (escalated_sweep_iff h).1 (hall name r hr hout)
          rw [h.expired rfl, h.known rfl] at hescalated
          obtain ⟨hnamed, hbefore⟩ | ⟨-, -, hnamed, hunknown⟩ := hescalated
          · exact ⟨hnamed, .inl hbefore⟩
          · exact ⟨hnamed, .inr fun hlast => hunknown ⟨hnamed, hlast⟩⟩
        · intro hseen hnamed hbefore
          have hknown := hremembered name r hr hseen hnamed ((h.expired rfl name r).2 ⟨hnamed, hbefore⟩)
          exact ((h.known rfl name).1 hknown).2
      · intro hexpires
        constructor
        · intro name r hr hout
          obtain ⟨hnamed, hbefore | hunseen⟩ := (hexpires name r hr).1 hout
          · exact (escalated_sweep_iff h).2 (.inl ((h.expired rfl name r).2 ⟨hnamed, hbefore⟩))
          · refine (escalated_sweep_iff h).2 (.inr ⟨hr, .of_outdated hout, hnamed, fun hknown => ?_⟩)
            exact hunseen ((h.known rfl name).1 hknown).2
        · intro name r hr hseen hnamed hescalated
          have hbefore := ((h.expired rfl name r).1 hescalated).2
          exact (h.known rfl name).2 ⟨hnamed, (hexpires name r hr).2 hseen hnamed hbefore⟩
    | postgres =>
      obtain ⟨s, hstep, -⟩ := world.step_sweep .postgres ttlSeconds now
      rw [added_postgres, List.map_nil, List.append_nil] at hstep
      unfold Complete Expires
      dsimp only
      rw [hstep]
      constructor
      · intro hcomplete name r hr hout
        have hin := hcomplete.1 name r hr hout
        unfold Escalated at hin
        dsimp only at hin
        rw [h.none rfl] at hin
        cases hin
      · intro hnone
        exact ⟨fun name r hr hout => absurd hout (hnone name r hr), h.once⟩
  | register => exact Iff.rfl
  | unregister => exact Iff.rfl

/-! ## Runs -/

theorem not_expired_nil {name : String} {r : Registration} : ¬Expired ttlSeconds [] name r := by
  intro hexpired
  obtain ⟨later, sweep, earlier, hsplit, -⟩ := hexpired
  simp at hsplit

variable (b ttlSeconds) in
theorem Tracked.init : Tracked b ttlSeconds {} :=
  ⟨fun _ => rfl, List.nodup_nil, fun _ => rfl, fun _ _ => by simp [LastSaw],
    fun _ _ _ => by simp [Escalated, not_expired_nil]⟩

theorem Tracked.register (h : world.Tracked b ttlSeconds) (now : Nat) (args : GraphArgs) :
    (world.step b ttlSeconds (.register now args)).Tracked b ttlSeconds := by
  refine ⟨fun name => ?_, h.once, h.none, h.known, h.expired⟩
  show ((SQLiteStorage.registerGraph _ _ _).lookup name).map _ =
    ((world.registered.set _ _).lookup name).map _
  rw [SQLiteStorage.registerGraph, Table.lookup_set, Table.lookup_set]
  by_cases hname : name = args.name
  · rw [if_pos hname, if_pos hname, hname]
    rfl
  · rw [if_neg hname, if_neg hname]
    exact h.rows name

theorem Tracked.unregister (h : world.Tracked b ttlSeconds) (name : String) :
    (world.step b ttlSeconds (.unregister name)).Tracked b ttlSeconds := by
  refine ⟨fun name' => ?_, h.once, h.none, h.known, h.expired⟩
  show ((world.registry.erase name).lookup name').map _ =
    ((world.registered.erase name).lookup name').map _
  rw [Table.lookup_erase_eq, Table.lookup_erase_eq]
  by_cases hname : name' = name
  · rw [if_pos hname, if_pos hname]
    rfl
  · rw [if_neg hname, if_neg hname]
    exact h.rows name'

/-- What a sweep knows and escalates, in SQLite, is told by the sweeps up to it. -/
theorem Tracked.told (h : world.Tracked .sqlite ttlSeconds) (now : Nat) (name : String) :
    (name ∈ (world.step .sqlite ttlSeconds (.sweep now)).sweeper.knownStale ↔
      name ≠ "" ∧ LastSaw ttlSeconds (⟨now, world.registered⟩ :: world.sweeps) name) ∧
    ∀ r, (world.step .sqlite ttlSeconds (.sweep now)).Escalated name r ↔
      name ≠ "" ∧ Expired ttlSeconds (⟨now, world.registered⟩ :: world.sweeps) name r := by
  constructor
  · rw [mem_known_sqlite ttlSeconds h, lastSaw_cons]
    simp only [Saw]
    tauto
  · intro r
    rw [escalated_sweep_iff h, expired_cons, h.expired rfl, h.known rfl]
    simp only [Saw]
    tauto

/-- A sweep at which all expires as it should leaves the world tracked. -/
theorem Tracked.step (h : world.Tracked b ttlSeconds) {e : FreshnessEvent}
    (he : Expires b ttlSeconds world e) : (world.step b ttlSeconds e).Tracked b ttlSeconds := by
  cases e with
  | register now args => exact h.register now args
  | unregister name => exact h.unregister name
  | sweep now =>
    have hcomplete := (complete_iff_expires h _).2 he
    obtain ⟨s, hstep, -⟩ := world.step_sweep b ttlSeconds now
    have honce := hcomplete.2
    rw [hstep] at honce ⊢
    refine ⟨h.rows, honce, fun hb => ?_, fun hb name => ?_, fun hb name r => ?_⟩
    · subst hb
      rw [added_postgres, List.map_nil, List.append_nil]
      exact h.none rfl
    · subst hb
      have htold := (h.told now name).1
      rw [hstep] at htold
      exact htold
    · subst hb
      have htold := (h.told now name).2 r
      rw [hstep] at htold
      exact htold

end FreshnessWorld

/-- **Graph freshness is complete** throughout a run exactly when each graph expires as it should at
every sweep. -/
theorem complete_iff (b : GraphBackend) (ttlSeconds : Nat) (events : List FreshnessEvent) :
    Throughout (FreshnessWorld.step b ttlSeconds) (FreshnessWorld.Complete b ttlSeconds) events {} ↔
      Throughout (FreshnessWorld.step b ttlSeconds) (FreshnessWorld.Expires b ttlSeconds) events
        {} :=
  throughout_iff (I := FreshnessWorld.Tracked b ttlSeconds)
    (fun _ e h => FreshnessWorld.complete_iff_expires h e) (fun _ _ h he => h.step he)
    events {} (.init b ttlSeconds)

/-! ## Graphs that are missed -/

/-- Postgres returns a `datetime`: the graph is never outdated to the sweeper. In SQLite a graph
that is escalated, refreshed, and outdated again by the next sweep is taken for known. -/
theorem outdated_graph_missed :
    (¬∀ (ttlSeconds : Nat) (events : List FreshnessEvent),
      Throughout (FreshnessWorld.step .postgres ttlSeconds)
        (FreshnessWorld.Complete .postgres ttlSeconds) events {}) ∧
    ¬∀ (ttlSeconds : Nat) (events : List FreshnessEvent),
      Throughout (FreshnessWorld.step .sqlite ttlSeconds)
        (FreshnessWorld.Complete .sqlite ttlSeconds) events {} := by
  let graph : GraphArgs := { name := "g", sessionId := "s" }
  constructor
  · intro h
    have htracked := (FreshnessWorld.Tracked.init .postgres 5).register 0 graph
    have hcomplete := (h 5 [.register 0 graph, .sweep 10000000]).2.1
    exact (FreshnessWorld.complete_iff_expires htracked _).1 hcomplete "g" ⟨0, 0⟩ rfl (by decide)
  · intro h
    have hcomplete := h 5 [.register 0 graph, .sweep 10000000, .register 20000000 graph,
      .sweep 30000000]
    have htracked := (FreshnessWorld.Tracked.init .sqlite 5).register 0 graph
    have hexpires := (FreshnessWorld.complete_iff_expires htracked _).1 hcomplete.2.1
    have htracked' := (htracked.step hexpires).register 20000000 graph
    have hmissed := (FreshnessWorld.complete_iff_expires htracked' _).1 hcomplete.2.2.2.1
    obtain ⟨s, hsweep, -⟩ := FreshnessWorld.step_sweep .sqlite 5
      (FreshnessWorld.step .sqlite 5 {} (.register 0 graph)) 10000000
    rw [hsweep] at hmissed
    obtain ⟨-, hexpired | hunseen⟩ := (hmissed "g" ⟨1, 20000000⟩ rfl).1 (by decide)
    · -- the sweep before found the first registration, not this one
      obtain hnone | ⟨hsaw, -⟩ := FreshnessWorld.expired_cons.1 hexpired
      · exact FreshnessWorld.not_expired_nil hnone
      · cases hsaw.1
    · exact hunseen (FreshnessWorld.lastSaw_cons.2 ⟨⟨0, 0⟩, rfl, by decide⟩)

end CksRuntime
