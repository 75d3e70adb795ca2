import CksRuntime.Lib.Like
import CksRuntime.Lib.Table

/-!
# The graph registry

`register_graph`, `unregister_graph`, `get_graph` and `list_graphs` of `storage/memory_storage.py`
and of `storage/sqlite_storage.py`. The first resolves every default when a graph is registered and
filters in Python; the second keeps a missing lifecycle state NULL, computes it when a row is read,
and filters in SQL. `postgres_storage.py` has the second's `_graph_row_to_dict` and upsert.
-/

set_option autoImplicit false

namespace CksRuntime

/-- A registered graph, as the calls return it; `τ` is how a backend renders its timestamps. -/
structure Graph (τ : Type) where
  name : String
  sessionId : String
  description : String
  tags : String
  createdAt : τ
  updatedAt : τ
  isPublic : Bool
  sourceGraphName : Option String
  visibility : String
  team : Option String
  lifecycleState : String
  deriving DecidableEq, Repr

/-- The arguments of `register_graph`. -/
structure GraphArgs where
  name : String
  sessionId : String
  description : String := ""
  tags : String := ""
  isPublic : Bool := false
  sourceGraphName : Option String := none
  visibility : Option String := none
  team : Option String := none
  lifecycleState : Option String := none
  deriving DecidableEq, Repr

/-- `value or default`: the empty text is falsy. -/
def orDefault (value : Option String) (default : String) : String :=
  match value with
  | some s => if s = "" then default else s
  | none => default

/-- A visibility that is not given follows `is_public`. -/
def GraphArgs.resolvedVisibility (a : GraphArgs) : String :=
  orDefault a.visibility (if a.isPublic then "public" else "private")

/-- A lifecycle that is not given follows the visibility. -/
def defaultLifecycle (visibility : String) : String :=
  if visibility = "public" then "published" else "draft"

/-- The arguments of `list_graphs`. -/
structure GraphFilter where
  tag : Option String := none
  publicOnly : Bool := false
  team : Option String := none
  deriving DecidableEq, Repr

/-- The scope a listing is restricted to: public graphs, or with a team its own besides. -/
def GraphFilter.inScope (f : GraphFilter) (visibility : String) (team : Option String) : Bool :=
  if f.publicOnly then visibility = "public"
  else match f.team with
    | some t => if t = "" then true else visibility = "public" ∨ visibility = "team" ∧ team = some t
    | none => true

/-! ## In memory -/

namespace InMemoryStorage

/-- The graphs by their names. -/
abbrev Registry := Table String (Graph Nat)

/-- `register_graph`. -/
def registerGraph (t : Registry) (now : Nat) (a : GraphArgs) : Registry :=
  let existing := t.lookup a.name
  t.set a.name {
    name := a.name
    sessionId := a.sessionId
    description := a.description
    tags := a.tags
    createdAt := (existing.map (·.createdAt)).getD now
    updatedAt := now
    isPublic := a.resolvedVisibility = "public"
    sourceGraphName := a.sourceGraphName.or (existing.bind (·.sourceGraphName))
    visibility := a.resolvedVisibility
    team := a.team
    lifecycleState := (a.lifecycleState.or (existing.map (·.lifecycleState))).getD
      (defaultLifecycle a.resolvedVisibility) }

/-- `get_graph`. -/
def getGraph (t : Registry) (name : String) : Option (Graph Nat) := t.lookup name

/-- `unregister_graph`, and whether there was one. -/
def unregisterGraph (t : Registry) (name : String) : Registry × Bool :=
  (t.erase name, decide (name ∈ t))

/-- `tag in tags`. -/
def hasTag (tag tags : String) : Bool := decide (tag.toList <:+: tags.toList)

/-- `list_graphs`. -/
def listGraphs (t : Registry) (f : GraphFilter) : List (Graph Nat) :=
  let entries := t.rows.map (·.2)
  let entries := entries.filter fun e => f.tag.all (hasTag · e.tags)
  let entries := entries.filter fun e => f.inScope e.visibility e.team
  entries.mergeSort fun a b => b.updatedAt ≤ a.updatedAt

end InMemoryStorage

/-! ## In SQL -/

/-- A row of `graph_registry`. -/
structure GraphRow where
  name : String
  sessionId : String
  description : String
  tags : String
  createdAt : Nat
  updatedAt : Nat
  isPublic : Bool
  sourceGraphName : Option String
  visibility : String
  team : Option String
  lifecycleState : Option String
  deriving DecidableEq, Repr

/-- `_graph_row_to_dict`. -/
def GraphRow.toGraph {τ : Type} (render : Nat → τ) (row : GraphRow) : Graph τ :=
  let visibility := orDefault (some row.visibility) (if row.isPublic then "public" else "private")
  { name := row.name
    sessionId := row.sessionId
    description := row.description
    tags := row.tags
    createdAt := render row.createdAt
    updatedAt := render row.updatedAt
    isPublic := row.isPublic
    sourceGraphName := row.sourceGraphName
    visibility := visibility
    team := row.team
    lifecycleState := orDefault row.lifecycleState (defaultLifecycle visibility) }

namespace SQLiteStorage

/-- The rows by the names. -/
abbrev Registry := Table String GraphRow

/-- `INSERT … ON CONFLICT(name) DO UPDATE`, with `COALESCE` on the two columns it keeps. -/
def registerGraph (t : Registry) (now : Nat) (a : GraphArgs) : Registry :=
  let existing := t.lookup a.name
  t.set a.name {
    name := a.name
    sessionId := a.sessionId
    description := a.description
    tags := a.tags
    createdAt := (existing.map (·.createdAt)).getD now
    updatedAt := now
    isPublic := a.resolvedVisibility = "public"
    sourceGraphName := a.sourceGraphName.or (existing.bind (·.sourceGraphName))
    visibility := a.resolvedVisibility
    team := a.team
    lifecycleState := a.lifecycleState.or (existing.bind (·.lifecycleState)) }

/-- `get_graph`. -/
def getGraph {τ : Type} (render : Nat → τ) (t : Registry) (name : String) : Option (Graph τ) :=
  (t.lookup name).map (·.toGraph render)

/-- `unregister_graph`, and whether there was one. -/
def unregisterGraph (t : Registry) (name : String) : Registry × Bool :=
  (t.erase name, decide (name ∈ t))

/-- How `LIKE` compares two characters that are no wildcards: ASCII letters in either case. -/
def sameLetter (c d : Char) : Bool := c.toLower = d.toLower

/-- `tags LIKE '%tag%'`. -/
def likeTag (tag tags : String) : Bool :=
  Like.like sameLetter '%' '_' ('%' :: (tag.toList ++ ['%'])) tags.toList

/-- Rows with equal `updated_at` come in no particular order: here, as they are scanned. -/
def listGraphs {τ : Type} (render : Nat → τ) (t : Registry) (f : GraphFilter) : List (Graph τ) :=
  let rows := t.rows.map (·.2)
  let rows := rows.filter fun r => f.tag.all (likeTag · r.tags) && f.inScope r.visibility r.team
  (rows.mergeSort fun a b => b.updatedAt ≤ a.updatedAt).map (·.toGraph render)

end SQLiteStorage

end CksRuntime
