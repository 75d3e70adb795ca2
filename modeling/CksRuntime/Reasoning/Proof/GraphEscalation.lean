import CksRuntime.Lib.Effect
import CksRuntime.Lib.Lockstep
import CksRuntime.Reasoning.Proof.GraphVersions

/-!
# Graphs escalated once

`visit_post` says what a round of `sweep_once` writes and puts on the list of the graphs reported,
`loop_post` what the loop does, and `sweep_post` what the sweep leaves. A sweep replaces the graphs
it knows by those it has found reported this time; so a graph stays known as long as each sweep
finds out about it (`Determines`), and then it is escalated once until it is found in order
(`escalated_once`).
-/

set_option autoImplicit false

namespace CksRuntime

open Effect Lockstep

namespace GraphWatch

variable {P : Type} (w : GraphWatch P) (supportsOutbox : Bool)

/-! ## What a sweep finds -/

/-- What the loop takes from a graph: none of a row without a name or a session. -/
def found (env : GraphSweepEnv) (graph : Graph Rendered) : Except SweepError (Option P) :=
  if graph.name = "" ∨ graph.sessionId = "" then .ok none else w.assess env graph

/-- The graph is to be reported. -/
def Flags (env : GraphSweepEnv) (graph : Graph Rendered) : Prop :=
  ∃ payload, w.found env graph = .ok (some payload)

/-- It is enqueued: it is to be reported and not known. -/
def Enqueues (known : List String) (env : GraphSweepEnv) (graph : Graph Rendered) : Prop :=
  supportsOutbox = true ∧ graph.name ∉ known ∧ w.Flags env graph

/-- The sweep writes a task for the graph. -/
def Writes (known : List String) (env : GraphSweepEnv) (graph : Graph Rendered) : Prop :=
  w.Enqueues supportsOutbox known env graph ∧
    (env.enqueue graph = .written ∨ ∃ e, env.enqueue graph = .raised true e)

/-- The round raises. -/
def Raises (known : List String) (env : GraphSweepEnv) (graph : Graph Rendered) : Prop :=
  (∃ e, w.found env graph = .error e) ∨
    w.Enqueues supportsOutbox known env graph ∧ ∃ written e, env.enqueue graph = .raised written e

/-- Of each task, the graph it is for. -/
def graphs (s : GraphSweepState P) : List String := s.enqueued.map (·.1)

/-- How many tasks a graph has. -/
def tasks (name : String) (s : GraphSweepState P) : Nat := (graphs s).count name

/-- What a sweep leaves. -/
def step (s : GraphSweepState P) (env : GraphSweepEnv) : GraphSweepState P :=
  stateOf (w.sweepOnce supportsOutbox env s)

/-! ## Conditions -/

/-- Every graph known is found to be reported or in order, unless the sweep raises, and then it has
written no task. -/
def Determines (inOrder : GraphSweepEnv → Graph Rendered → Prop) (s : GraphSweepState P)
    (env : GraphSweepEnv) : Prop :=
  supportsOutbox = true → ∀ rows, env.graphs = .ok rows →
    ((∃ graph ∈ rows, w.Raises supportsOutbox s.known env graph) →
      ∀ graph, Reached (w.Raises supportsOutbox s.known env) rows graph →
        ¬w.Writes supportsOutbox s.known env graph) ∧
    ((∀ graph ∈ rows, ¬w.Raises supportsOutbox s.known env graph) →
      ∀ name ∈ s.known, ∃ graph ∈ rows, graph.name = name ∧
        (w.Flags env graph ∨ inOrder env graph))

/-- The sweep gets to the graph and finds it in order. -/
def FindsInOrder (inOrder : GraphSweepEnv → Graph Rendered → Prop) (name : String)
    (s : GraphSweepState P) (env : GraphSweepEnv) : Prop :=
  ∃ rows, env.graphs = .ok rows ∧ ∃ graph,
    Reached (w.Raises supportsOutbox s.known env) rows graph ∧ graph.name = name ∧ inOrder env graph

/-! ## A round -/

variable {w supportsOutbox} {env : GraphSweepEnv} {graph : Graph Rendered}
  {rows : List (Graph Rendered)}

/-- The tasks of some graphs were written. -/
def Wrote (w : GraphWatch P) (supportsOutbox : Bool) (known : List String) (env : GraphSweepEnv)
    (rows : List (Graph Rendered)) (s s' : GraphSweepState P) : Prop :=
  ∃ names, graphs s' = graphs s ++ names ∧ names.Sublist (rows.map (·.name)) ∧
    ∀ name ∈ names, ∃ graph, Reached (w.Raises supportsOutbox known env) rows graph ∧
      w.Writes supportsOutbox known env graph ∧ graph.name = name

theorem Wrote.nothing (known : List String) (rows : List (Graph Rendered))
    {s s' : GraphSweepState P} (h : graphs s' = graphs s) :
    Wrote w supportsOutbox known env rows s s' :=
  ⟨[], by rw [h, List.append_nil], List.nil_sublist _, fun _ h => absurd h List.not_mem_nil⟩

theorem Wrote.one {known : List String} {s s' : GraphSweepState P}
    (h : graphs s' = graphs s ++ [graph.name]) (hwrites : w.Writes supportsOutbox known env graph)
    (rows : List (Graph Rendered)) : Wrote w supportsOutbox known env (graph :: rows) s s' := by
  refine ⟨[graph.name], h, ?_, fun name hname => ⟨graph, ?_, hwrites, ?_⟩⟩
  · exact (List.nil_sublist _).cons_cons _
  · exact reached_cons.2 (.inl rfl)
  · exact (List.mem_singleton.1 hname).symm

/-- What a round that does not raise has written goes before what the others write. -/
theorem Wrote.cons {known : List String} {s s₁ s' : GraphSweepState P}
    (h : Wrote w supportsOutbox known env [graph] s s₁)
    (hraises : ¬w.Raises supportsOutbox known env graph)
    (hrest : Wrote w supportsOutbox known env rows s₁ s') :
    Wrote w supportsOutbox known env (graph :: rows) s s' := by
  obtain ⟨names, hnames, hsub, hall⟩ := h
  obtain ⟨names', hnames', hsub', hall'⟩ := hrest
  refine ⟨names ++ names', by rw [hnames', hnames, List.append_assoc], hsub.append hsub', ?_⟩
  intro name hname
  rcases List.mem_append.1 hname with hname | hname
  · obtain ⟨g, hreached, hwrites, hg⟩ := hall name hname
    rcases reached_cons.1 hreached with rfl | ⟨-, hreached⟩
    · exact ⟨g, reached_cons.2 (.inl rfl), hwrites, hg⟩
    · exact absurd hreached reached_nil
  · obtain ⟨g, hreached, hwrites, hg⟩ := hall' name hname
    exact ⟨g, reached_cons.2 (.inr ⟨hraises, hreached⟩), hwrites, hg⟩

/-- The rest of a round, for a graph to be reported. -/
def report (w : GraphWatch P) (supportsOutbox : Bool) (env : GraphSweepEnv)
    (acc : List String × List P) (graph : Graph Rendered) (payload : P) :
    Sweep P (List String × List P) := do
  let s ← get
  if graph.name ∈ s.known then pure (acc.1.insert graph.name, acc.2)
  else do
    if supportsOutbox then w.enqueueTask env graph payload else pure ()
    pure (acc.1.insert graph.name, acc.2 ++ [payload])

/-- A round, by what the loop takes from the graph. -/
theorem visit_eq (w : GraphWatch P) (supportsOutbox : Bool) (env : GraphSweepEnv)
    (acc : List String × List P) (graph : Graph Rendered) :
    w.visit supportsOutbox env acc graph =
      match w.found env graph with
      | .error e => throw e
      | .ok none => pure acc
      | .ok (some payload) => w.report supportsOutbox env acc graph payload := by
  unfold visit found report
  split <;> rfl

/-- Where there is something to report, only the call can raise. -/
theorem raises_iff_of_flags {known : List String} (h : w.Flags env graph) :
    w.Raises supportsOutbox known env graph ↔ w.Enqueues supportsOutbox known env graph ∧
      ∃ written e, env.enqueue graph = .raised written e := by
  refine or_iff_right ?_
  rintro ⟨e, he⟩
  obtain ⟨payload, hfound⟩ := h
  rw [hfound] at he
  cases he

theorem enqueueTask_post {payload : P} {s : GraphSweepState P}
    (henqueues : w.Enqueues supportsOutbox s.known env graph) :
    Post (fun _ s' => s'.known = s.known ∧ ¬w.Raises supportsOutbox s.known env graph ∧
        Wrote w supportsOutbox s.known env [graph] s s')
      (fun s' => s'.known = s.known ∧ w.Raises supportsOutbox s.known env graph ∧
        Wrote w supportsOutbox s.known env [graph] s s')
      (w.enqueueTask env graph payload s) := by
  rw [raises_iff_of_flags henqueues.2.2, enqueueTask]
  cases henqueue : env.enqueue graph with
  | written =>
    refine ⟨rfl, ?_, .one ?_ ⟨henqueues, .inl henqueue⟩ []⟩
    · rintro ⟨-, written, e, h⟩
      cases h
    · exact List.map_append
  | raised written e =>
    cases written with
    | true =>
      refine ⟨rfl, ⟨henqueues, true, e, rfl⟩, .one ?_ ⟨henqueues, .inr ⟨e, henqueue⟩⟩ []⟩
      exact List.map_append
    | false => exact ⟨rfl, ⟨henqueues, false, e, rfl⟩, .nothing _ _ rfl⟩

/-- A round writes its graph's task if the graph is to be enqueued, and puts the graph on the list
if it is to be reported. -/
theorem visit_post (w : GraphWatch P) (supportsOutbox : Bool) (env : GraphSweepEnv)
    (graph : Graph Rendered) (acc : List String × List P) (s : GraphSweepState P) :
    Post (fun acc' s' => s'.known = s.known ∧
        (∀ name, name ∈ acc'.1 ↔ name ∈ acc.1 ∨ w.Flags env graph ∧ graph.name = name) ∧
        ¬w.Raises supportsOutbox s.known env graph ∧
        Wrote w supportsOutbox s.known env [graph] s s')
      (fun s' => s'.known = s.known ∧ w.Raises supportsOutbox s.known env graph ∧
        Wrote w supportsOutbox s.known env [graph] s s')
      (w.visit supportsOutbox env acc graph s) := by
  rw [visit_eq]
  cases hfound : w.found env graph with
  | error e => exact ⟨rfl, .inl ⟨e, hfound⟩, .nothing _ _ rfl⟩
  | ok o =>
    cases o with
    | none =>
      have hflags : ¬w.Flags env graph := by
        rintro ⟨payload, h⟩
        rw [hfound] at h
        cases h
      refine ⟨rfl, fun name => (or_iff_left fun h => hflags h.1).symm, ?_, .nothing _ _ rfl⟩
      rintro (⟨e, h⟩ | ⟨h, -⟩)
      · rw [hfound] at h
        cases h
      · exact hflags h.2.2
    | some payload =>
      have hflags : w.Flags env graph := ⟨payload, hfound⟩
      have hlist : ∀ name, name ∈ acc.1.insert graph.name ↔
          name ∈ acc.1 ∨ w.Flags env graph ∧ graph.name = name := by
        intro name
        rw [List.mem_insert_iff, and_iff_right hflags, or_comm, eq_comm]
      dsimp only
      rw [report, bind_get_run]
      split
      · rename_i hknown
        refine ⟨rfl, hlist, fun h => ?_, .nothing _ _ rfl⟩
        exact ((raises_iff_of_flags hflags).1 h).1.2.1 hknown
      · rename_i hknown
        by_cases houtbox : supportsOutbox = true
        · rw [if_pos houtbox]
          -- only here is a task written
          refine Post.bind (enqueueTask_post ⟨houtbox, hknown, hflags⟩) fun _ s' h => ?_
          exact ⟨h.1, hlist, h.2⟩
        · rw [if_neg houtbox]
          refine ⟨rfl, hlist, fun h => ?_, .nothing _ _ rfl⟩
          exact houtbox ((raises_iff_of_flags hflags).1 h).1.1

/-! ## The loop -/

/-- The loop raises in the first round that does, and has written what the rounds up to there
write. -/
theorem loop_post (w : GraphWatch P) (supportsOutbox : Bool) (env : GraphSweepEnv)
    (rows : List (Graph Rendered)) (acc : List String × List P) (s : GraphSweepState P) :
    Post (fun acc' s' => s'.known = s.known ∧
        (∀ name, name ∈ acc'.1 ↔
          name ∈ acc.1 ∨ ∃ graph ∈ rows, w.Flags env graph ∧ graph.name = name) ∧
        (∀ graph ∈ rows, ¬w.Raises supportsOutbox s.known env graph) ∧
        Wrote w supportsOutbox s.known env rows s s')
      (fun s' => s'.known = s.known ∧
        (∃ graph ∈ rows, w.Raises supportsOutbox s.known env graph) ∧
        Wrote w supportsOutbox s.known env rows s s')
      (rows.foldlM (w.visit supportsOutbox env) acc s) := by
  induction rows generalizing acc s with
  | nil => exact ⟨rfl, fun name => by simp, fun _ h => absurd h List.not_mem_nil, .nothing _ _ rfl⟩
  | cons graph rows ih =>
    have hround := visit_post w supportsOutbox env graph acc s
    rw [List.foldlM_cons, bind_run]
    cases hvisit : w.visit supportsOutbox env acc graph s with
    | error e s₁ =>
      rw [hvisit] at hround
      obtain ⟨hknown, hraises, names, hnames, hsub, hall⟩ := hround
      refine ⟨hknown, ⟨graph, List.mem_cons_self, hraises⟩, names, hnames,
        hsub.trans ((List.nil_sublist _).cons_cons _), fun name hname => ?_⟩
      obtain ⟨g, hreached, hwrites, hg⟩ := hall name hname
      rcases reached_cons.1 hreached with rfl | ⟨-, hreached⟩
      · exact ⟨g, reached_cons.2 (.inl rfl), hwrites, hg⟩
      · exact absurd hreached reached_nil
    | ok acc₁ s₁ =>
      rw [hvisit] at hround
      obtain ⟨hknown, hlist, hraises, hwrote⟩ := hround
      have hloop := ih acc₁ s₁
      rw [hknown] at hloop
      dsimp only
      cases hrest : rows.foldlM (w.visit supportsOutbox env) acc₁ s₁ with
      | error e s' =>
        rw [hrest] at hloop
        obtain ⟨hknown', ⟨g, hg, hgraises⟩, hwrote'⟩ := hloop
        exact ⟨hknown', ⟨g, List.mem_cons_of_mem _ hg, hgraises⟩, hwrote.cons hraises hwrote'⟩
      | ok acc' s' =>
        rw [hrest] at hloop
        obtain ⟨hknown', hlist', hraises', hwrote'⟩ := hloop
        refine ⟨hknown', fun name => ?_, List.forall_mem_cons.2 ⟨hraises, hraises'⟩,
          hwrote.cons hraises hwrote'⟩
        rw [hlist', hlist, List.exists_mem_cons_iff, or_assoc]

/-! ## A sweep -/

/-- What a sweep leaves of the graphs known and the tasks. -/
theorem sweep_post (w : GraphWatch P) (supportsOutbox : Bool) (env : GraphSweepEnv)
    (s : GraphSweepState P) (hrows : env.graphs = .ok rows) :
    Wrote w supportsOutbox s.known env rows s (w.step supportsOutbox s env) ∧
      ((∃ graph ∈ rows, w.Raises supportsOutbox s.known env graph) ∧
          (w.step supportsOutbox s env).known = s.known ∨
        (∀ graph ∈ rows, ¬w.Raises supportsOutbox s.known env graph) ∧
          ∀ name, name ∈ (w.step supportsOutbox s env).known ↔
            ∃ graph ∈ rows, w.Flags env graph ∧ graph.name = name) := by
  have hloop := loop_post w supportsOutbox env rows ([], []) s
  unfold step sweepOnce
  rw [hrows]
  dsimp only
  rw [bind_run]
  cases hrun : rows.foldlM (w.visit supportsOutbox env) ([], []) s with
  | error e s' =>
    rw [hrun] at hloop
    exact ⟨hloop.2.2, .inl ⟨hloop.2.1, hloop.1⟩⟩
  | ok acc s' =>
    rw [hrun] at hloop
    obtain ⟨-, hlist, hraises, hwrote⟩ := hloop
    refine ⟨hwrote, .inr ⟨hraises, fun name => ?_⟩⟩
    rw [← or_iff_right (b := ∃ graph ∈ rows, w.Flags env graph ∧ graph.name = name)
      (List.not_mem_nil (a := name)), ← hlist]
    rfl

theorem step_of_error {s : GraphSweepState P} {e : SweepError} (h : env.graphs = .error e) :
    w.step supportsOutbox s env = s := by
  unfold step sweepOnce
  rw [h]
  rfl

theorem tasks_of_wrote {known : List String} {s s' : GraphSweepState P} (name : String)
    (h : Wrote w supportsOutbox known env rows s s')
    (hnone : ∀ graph, Reached (w.Raises supportsOutbox known env) rows graph →
      graph.name = name → ¬w.Writes supportsOutbox known env graph) :
    tasks name s' = tasks name s := by
  obtain ⟨names, hnames, -, hall⟩ := h
  have hnot : name ∉ names := by
    intro hname
    obtain ⟨graph, hreached, hwrites, hg⟩ := hall name hname
    exact hnone graph hreached hg hwrites
  rw [tasks, hnames, List.count_append, List.count_eq_zero_of_not_mem hnot]
  rfl

/-- The names of a registry differ, so that a sweep writes one task of a graph at most. -/
theorem tasks_le_of_wrote {known : List String} {s s' : GraphSweepState P} (name : String)
    (h : Wrote w supportsOutbox known env rows s s') (hrows : env.graphs = .ok rows) :
    tasks name s' ≤ tasks name s + 1 := by
  obtain ⟨names, hnames, hsub, -⟩ := h
  rw [tasks, hnames, List.count_append]
  have hone := List.nodup_iff_count_le_one.1 (hsub.nodup (env.unique rows hrows)) name
  exact Nat.add_le_add_left hone _

/-- A registry of one graph, which is reported unless it is known. -/
theorem step_of_flagged {payload : P} (s : GraphSweepState P) (hrows : env.graphs = .ok [graph])
    (hfound : w.found env graph = .ok (some payload)) (hwritten : env.enqueue graph = .written) :
    w.step true s env = ⟨[graph.name], if graph.name ∈ s.known then s.enqueued
      else s.enqueued ++ [(graph.name, ⟨w.taskType, graph.sessionId, payload⟩)]⟩ := by
  unfold step sweepOnce
  rw [hrows]
  dsimp only
  rw [List.foldlM_cons, visit_eq, hfound]
  dsimp only
  rw [report, bind_run, bind_run, bind_get_run]
  by_cases hknown : graph.name ∈ s.known
  · rw [if_pos hknown, if_pos hknown]
    rfl
  · rw [if_neg hknown, if_neg hknown, if_pos rfl, bind_run, enqueueTask, hwritten]
    rfl

theorem step_of_unflagged (s : GraphSweepState P) (hrows : env.graphs = .ok [graph])
    (hfound : w.found env graph = .ok none) :
    w.step supportsOutbox s env = ⟨[], s.enqueued⟩ := by
  unfold step sweepOnce
  rw [hrows]
  dsimp only
  rw [List.foldlM_cons, visit_eq, hfound]
  rfl

/-! ## Runs -/

variable {inOrder : GraphSweepEnv → Graph Rendered → Prop}

/-- No task of the graph is written before it is found in order. -/
def Silent (supportsOutbox : Bool) (name : String) (s : GraphSweepState P) : Prop :=
  name ∈ s.known ∨ supportsOutbox = false

theorem step_of_silent {name : String} {s : GraphSweepState P}
    (hsilent : Silent supportsOutbox name s)
    (hdet : w.Determines supportsOutbox inOrder s env)
    (hnot : ¬w.FindsInOrder supportsOutbox inOrder name s env) :
    tasks name (w.step supportsOutbox s env) = tasks name s ∧
      Silent supportsOutbox name (w.step supportsOutbox s env) := by
  cases hrows : env.graphs with
  | error e => rw [step_of_error hrows]; exact ⟨rfl, hsilent⟩
  | ok rows =>
    obtain ⟨hwrote, hknown⟩ := sweep_post w supportsOutbox env s hrows
    constructor
    · refine tasks_of_wrote name hwrote fun graph _ hg hwrites => ?_
      obtain ⟨⟨houtbox, hfresh, -⟩, -⟩ := hwrites
      rcases hsilent with hmem | hoff
      · exact hfresh (hg ▸ hmem)
      · rw [hoff] at houtbox
        cases houtbox
    · rcases hsilent with hmem | hoff
      · by_cases houtbox : supportsOutbox = true
        · rcases hknown with ⟨-, hsame⟩ | ⟨hraises, hlist⟩
          · exact .inl (hsame ▸ hmem)
          · obtain ⟨graph, hg, hname, hfound⟩ := (hdet houtbox rows hrows).2 hraises name hmem
            rcases hfound with hflags | hfine
            · exact .inl ((hlist name).2 ⟨graph, hg, hflags, hname⟩)
            · -- every row is reached, where none raises
              obtain ⟨before, after, hsplit⟩ := List.append_of_mem hg
              refine absurd ⟨rows, hrows, graph, ⟨before, after, hsplit, fun b hb => ?_⟩, hname,
                hfine⟩ hnot
              exact hraises b (hsplit ▸ List.mem_append_left _ hb)
        · exact .inr (Bool.eq_false_iff.2 houtbox)
      · exact .inr hoff

/-- A sweep that writes a task of a graph leaves the graph known. -/
theorem step_of_not_silent (name : String) {s : GraphSweepState P}
    (hdet : w.Determines supportsOutbox inOrder s env) :
    tasks name (w.step supportsOutbox s env) = tasks name s ∨
      tasks name (w.step supportsOutbox s env) ≤ tasks name s + 1 ∧
        Silent supportsOutbox name (w.step supportsOutbox s env) := by
  cases hrows : env.graphs with
  | error e => rw [step_of_error hrows]; exact .inl rfl
  | ok rows =>
    obtain ⟨hwrote, hknown⟩ := sweep_post w supportsOutbox env s hrows
    by_cases hwrites : ∃ graph, Reached (w.Raises supportsOutbox s.known env) rows graph ∧
        graph.name = name ∧ w.Writes supportsOutbox s.known env graph
    · obtain ⟨graph, hreached, hname, hwrites⟩ := hwrites
      refine .inr ⟨tasks_le_of_wrote name hwrote hrows, .inl ?_⟩
      rcases hknown with ⟨hraises, -⟩ | ⟨-, hlist⟩
      · exact absurd hwrites ((hdet hwrites.1.1 rows hrows).1 hraises graph hreached)
      · exact (hlist name).2 ⟨graph, hreached.mem, hwrites.1.2.2, hname⟩
    · refine .inl (tasks_of_wrote name hwrote fun graph hreached hname hw => hwrites ?_)
      exact ⟨graph, hreached, hname, hw⟩

/-- A graph that is known is not escalated before it is found in order. -/
theorem run_of_silent (name : String) (envs : List GraphSweepEnv) :
    ∀ s : GraphSweepState P, Silent supportsOutbox name s →
      Throughout (w.step supportsOutbox) (w.Determines supportsOutbox inOrder) envs s →
      Throughout (w.step supportsOutbox)
        (fun s env => ¬w.FindsInOrder supportsOutbox inOrder name s env) envs s →
      tasks name (envs.foldl (w.step supportsOutbox) s) = tasks name s := by
  induction envs with
  | nil => exact fun _ _ _ _ => rfl
  | cons env envs ih =>
    intro s hsilent hdet hnot
    obtain ⟨hsame, hsilent'⟩ := step_of_silent hsilent hdet.1 hnot.1
    rw [List.foldl_cons, ih _ hsilent' hdet.2 hnot.2, hsame]

theorem run_tasks_le (name : String) (envs : List GraphSweepEnv) :
    ∀ s : GraphSweepState P,
      Throughout (w.step supportsOutbox) (w.Determines supportsOutbox inOrder) envs s →
      Throughout (w.step supportsOutbox)
        (fun s env => ¬w.FindsInOrder supportsOutbox inOrder name s env) envs s →
      tasks name (envs.foldl (w.step supportsOutbox) s) ≤ tasks name s + 1 := by
  induction envs with
  | nil => exact fun _ _ _ => Nat.le_succ _
  | cons env envs ih =>
    intro s hdet hnot
    rw [List.foldl_cons]
    rcases step_of_not_silent name hdet.1 with hsame | ⟨hle, hsilent⟩
    · rw [← hsame]
      exact ih _ hdet.2 hnot.2
    · rw [run_of_silent name envs _ hsilent hdet.2 hnot.2]
      exact hle

end GraphWatch

/-! ## The two sweepers -/

/-- The session is there, and no component is behind the version found for it. -/
def GraphAutoUpdateSweeper.UpToDate (env : GraphSweepEnv) (graph : Graph Rendered) : Prop :=
  graph.name ≠ "" ∧ graph.sessionId ≠ "" ∧ ∃ session, env.loadSession graph = .ok (some session) ∧
    ∀ c ∈ session.components, ∃ r actualVersion,
      (env.upstream graph).resolveComponent c.1.componentName c.1.fields = .ok (some r) ∧
      fetch (env.upstream graph) c.2 r = .ok actualVersion ∧
      isOutdated c.1.version actualVersion = false

/-- The session is there, and its score is not below the minimum. -/
def GraphHealthSweeper.Healthy (isoOf : String → Option IsoTime.IsoText) (ttlSeconds : Nat)
    (minScore : ℚ) (env : GraphSweepEnv) (graph : Graph Rendered) : Prop :=
  graph.name ≠ "" ∧ graph.sessionId ≠ "" ∧ ∃ metrics,
    scoreGraph isoOf ttlSeconds env graph = .ok (some metrics) ∧ minScore ≤ metrics.score

theorem not_flags_of_upToDate {env : GraphSweepEnv} {graph : Graph Rendered} {applyUpdates : Bool}
    (h : GraphAutoUpdateSweeper.UpToDate env graph) :
    ¬(GraphAutoUpdateSweeper.watch applyUpdates).Flags env graph := by
  obtain ⟨hname, hsession, session, hload, hall⟩ := h
  have hresolves : ∀ c ∈ session.components, Resolves (env.upstream graph) c := by
    intro c hc
    obtain ⟨r, -, hr, -⟩ := hall c hc
    exact ⟨_, hr⟩
  obtain ⟨outdated, hcheck, hbehind⟩ := GraphAutoUpdateSweeper.checkGraph_of_resolves hresolves
  have hnone : outdated = [] := by
    by_contra hne
    obtain ⟨c, hc, r, hr, actualVersion, hfetch, hout⟩ := hbehind.1 hne
    obtain ⟨r', actualVersion', hr', hfetch', hout'⟩ := hall c hc
    rw [hr] at hr'
    cases hr'
    rw [hfetch] at hfetch'
    cases hfetch'
    rw [hout] at hout'
    cases hout'
  rintro ⟨payload, hfound⟩
  rw [GraphWatch.found, if_neg (not_or.2 ⟨hname, hsession⟩)] at hfound
  unfold GraphAutoUpdateSweeper.watch at hfound
  dsimp only at hfound
  rw [hload] at hfound
  simp only [bind, Except.bind, hcheck, hnone, if_true] at hfound
  cases hfound

/-- In a run whose sweeps, unless they raise before a task is written, find out about every graph
that they know, a graph is escalated once at most until it is found in order again. -/
theorem escalated_once (supportsOutbox applyUpdates : Bool)
    (isoOf : String → Option IsoTime.IsoText) (ttlSeconds : Nat) (minScore : ℚ)
    (envs : List GraphSweepEnv) (name : String) :
    (∀ s : GraphSweepState GraphAutoUpdateSweeper.Payload,
      let w := GraphAutoUpdateSweeper.watch applyUpdates
      let inOrder := GraphAutoUpdateSweeper.UpToDate
      Throughout (w.step supportsOutbox) (w.Determines supportsOutbox inOrder) envs s →
      Throughout (w.step supportsOutbox)
        (fun s env => ¬w.FindsInOrder supportsOutbox inOrder name s env) envs s →
      GraphWatch.tasks name (envs.foldl (w.step supportsOutbox) s) ≤ GraphWatch.tasks name s + 1) ∧
    (∀ s : GraphSweepState GraphHealthSweeper.Payload,
      let w := GraphHealthSweeper.watch isoOf ttlSeconds minScore
      let inOrder := GraphHealthSweeper.Healthy isoOf ttlSeconds minScore
      Throughout (w.step supportsOutbox) (w.Determines supportsOutbox inOrder) envs s →
      Throughout (w.step supportsOutbox)
        (fun s env => ¬w.FindsInOrder supportsOutbox inOrder name s env) envs s →
      GraphWatch.tasks name (envs.foldl (w.step supportsOutbox) s) ≤ GraphWatch.tasks name s + 1) :=
  ⟨GraphWatch.run_tasks_le name envs, GraphWatch.run_tasks_le name envs⟩

/-! ## A session that is away for a sweep -/

/-- A graph of one component. -/
def coreGraph : Graph Rendered where
  name := "g"
  sessionId := "s"
  description := ""
  tags := ""
  createdAt := .datetime 0
  updatedAt := .datetime 0
  isPublic := false
  sourceGraphName := none
  visibility := "private"
  team := none
  lifecycleState := "draft"

/-- The component, at 1.0. -/
def coreComponent : GraphObject where
  id := "c"
  type := "Component"
  name := some "cks-core"
  fields := (∅ : Table String GraphValue).set "version" (.str "1.0")

/-- A network that has it at 2.0. -/
def coreUpstream : Upstream where
  urlparse url := some ⟨"", url⟩
  safeGet _ _ := .response 200 "__version__ = '2.0'"
  loads _ := none

/-- A sweep that finds the graph's session, or not. -/
def coreEnv (session : Option GraphSession) : GraphSweepEnv where
  graphs := .ok [coreGraph]
  now _ := 0
  loadSession _ := .ok session
  upstream _ := coreUpstream
  contradictions _ := .ok 0
  deadLetters _ := .ok []
  enqueue _ := .written
  unique rows hrows := by
    cases hrows
    exact List.nodup_singleton _

/-- The sweeper over it. -/
def coreSweeper : GraphWatch GraphAutoUpdateSweeper.Payload := GraphAutoUpdateSweeper.watch false

/-- The graph's session, as it is when it can be loaded. -/
def coreSession : GraphSession := ⟨some [coreComponent]⟩

/-- What it reports. -/
def corePayload : GraphAutoUpdateSweeper.Payload :=
  ⟨"g", "s", [⟨"cks-core", .str "1.0", "2.0"⟩], false, "version_outdated"⟩

theorem coreSweeper_found : coreSweeper.found (coreEnv (some coreSession)) coreGraph =
    .ok (some corePayload) := by rfl

theorem coreSweeper_not_raises (known : List String) :
    ¬coreSweeper.Raises true known (coreEnv (some coreSession)) coreGraph := by
  rw [GraphWatch.raises_iff_of_flags ⟨_, coreSweeper_found⟩]
  rintro ⟨-, written, e, h⟩
  cases h

theorem coreSweeper_not_findsInOrder (s : GraphSweepState GraphAutoUpdateSweeper.Payload)
    {session : Option GraphSession} (h : session = none ∨ session = some coreSession) :
    ¬coreSweeper.FindsInOrder true GraphAutoUpdateSweeper.UpToDate "g" s (coreEnv session) := by
  rintro ⟨rows, hrows, graph, hreached, -, hfine⟩
  cases hrows
  rcases List.mem_singleton.1 hreached.mem with rfl
  rcases h with rfl | rfl
  · obtain ⟨-, -, session, hload, -⟩ := hfine
    cases hload
  · exact not_flags_of_upToDate hfine ⟨_, coreSweeper_found⟩

theorem coreSweeper_away : coreSweeper.found (coreEnv none) coreGraph = .ok none := by rfl

/-- Outdated in two sweeps, the graph is escalated in the first. -/
theorem escalated_once_in_two :
    GraphWatch.tasks "g" ([coreEnv (some coreSession),
      coreEnv (some coreSession)].foldl (coreSweeper.step true) {}) ≤ 1 := by
  have hdet : ∀ s, (∀ name ∈ s.known, name = "g") → coreSweeper.Determines true
      GraphAutoUpdateSweeper.UpToDate s (coreEnv (some coreSession)) := by
    intro s hs _ rows hrows
    cases hrows
    constructor
    · rintro ⟨graph, hg, hraises⟩
      rcases List.mem_singleton.1 hg with rfl
      exact absurd hraises (coreSweeper_not_raises _)
    · exact fun _ name hname => ⟨coreGraph, List.mem_cons_self, (hs name hname).symm,
        .inl ⟨_, coreSweeper_found⟩⟩
  have hknown : (coreSweeper.step true {} (coreEnv (some coreSession))).known = ["g"] := by
    rw [GraphWatch.step_of_flagged {} rfl coreSweeper_found rfl]
    rfl
  refine (escalated_once true false (fun _ => none) 0 0 _ "g").1 {}
    ⟨?_, ?_, trivial⟩ ⟨?_, ?_, trivial⟩
  · exact hdet _ fun name hname => absurd hname List.not_mem_nil
  · exact hdet _ fun name hname => List.mem_singleton.1 (hknown ▸ hname)
  · exact coreSweeper_not_findsInOrder _ (.inr rfl)
  · exact coreSweeper_not_findsInOrder _ (.inr rfl)

/-- A session that cannot be loaded makes the sweep forget its graph: it is escalated again without
having been found up to date. -/
theorem unavailable_session_forgotten :
    ¬∀ (envs : List GraphSweepEnv) (name : String),
      Throughout (coreSweeper.step true)
        (fun s env => ¬coreSweeper.FindsInOrder true GraphAutoUpdateSweeper.UpToDate name s env)
        envs {} →
      GraphWatch.tasks name (envs.foldl (coreSweeper.step true) {}) ≤ 1 := by
  intro h
  have htasks := h [coreEnv (some coreSession), coreEnv none,
    coreEnv (some coreSession)] "g" ⟨coreSweeper_not_findsInOrder _ (.inr rfl),
      coreSweeper_not_findsInOrder _ (.inl rfl), coreSweeper_not_findsInOrder _ (.inr rfl), trivial⟩
  have htwo : GraphWatch.tasks "g" ([coreEnv (some coreSession), coreEnv none,
      coreEnv (some coreSession)].foldl (coreSweeper.step true) {}) = 2 := by
    simp only [List.foldl_cons, List.foldl_nil]
    rw [GraphWatch.step_of_flagged {} rfl coreSweeper_found rfl,
      GraphWatch.step_of_unflagged _ rfl coreSweeper_away,
      GraphWatch.step_of_flagged _ rfl coreSweeper_found rfl]
    rfl
  rw [htwo] at htasks
  exact absurd htasks (by decide)

end CksRuntime
