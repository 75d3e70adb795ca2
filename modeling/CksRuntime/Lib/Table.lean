import Mathlib.Data.List.AList

/-!
# Keyed tables

A table with a primary key, or a dict, as an association list without duplicate keys: the newest
row first, so that `rows` reads them in insertion order. `set` is an assignment or an upsert (a row
that exists is changed in place), `insertNew` an insert that ignores a key that exists, and
`AList.insert` one that replaces the row by a new one.
-/

set_option autoImplicit false

/-- Rows by their keys, in the order they were added. -/
abbrev Table (κ α : Type) := AList fun _ : κ => α

namespace Table

variable {κ α : Type} [DecidableEq κ]

/-- The row is replaced in place, or added. -/
def set (t : Table κ α) (k : κ) (a : α) : Table κ α :=
  if k ∈ t then t.replace k a else t.insert k a

/-- The row is added, unless the key has one. -/
def insertNew (t : Table κ α) (k : κ) (a : α) : Table κ α :=
  if k ∈ t then t else t.insert k a

/-- One `insertNew` after the other: the first row with a key wins. -/
def insertAll (t : Table κ α) (rows : List (κ × α)) : Table κ α :=
  rows.foldl (fun t r => t.insertNew r.1 r.2) t

/-- The first row with the key. -/
def first (rows : List (κ × α)) (k : κ) : Option α :=
  (rows.find? fun r => r.1 = k).map (·.2)

/-- The rows, the oldest first. -/
def rows (t : Table κ α) : List (κ × α) :=
  (t.entries.map fun e => (e.1, e.2)).reverse

omit [DecidableEq κ] in
theorem nodupKeys_filter (p : κ → Bool) (t : Table κ α) :
    (t.entries.filter fun e => p e.1).NodupKeys :=
  t.nodupKeys.sublist List.filter_sublist

/-- The rows with the keys that `p` holds of. -/
def filter (p : κ → Bool) (t : Table κ α) : Table κ α :=
  ⟨t.entries.filter fun e => p e.1, nodupKeys_filter p t⟩

theorem lookup_replace (t : Table κ α) (k k' : κ) (a : α) (h : k ∈ t) :
    (t.replace k a).lookup k' = if k' = k then some a else t.lookup k' := by
  obtain ⟨l, hl⟩ := t
  change List.dlookup k' (List.kreplace k a l) = if k' = k then some a else List.dlookup k' l
  change k ∈ l.keys at h
  clear hl
  induction l with
  | nil => cases h
  | cons e l ih =>
    obtain ⟨k₁, a₁⟩ := e
    by_cases hk : k = k₁
    · subst hk
      have hrep : List.kreplace k a (⟨k, a₁⟩ :: l) = (⟨k, a⟩ : Sigma fun _ : κ => α) :: l :=
        List.lookmap_cons_some _ _ (if_pos rfl)
      rw [hrep]
      by_cases hk' : k' = k
      · subst hk'
        simp
      · rw [List.dlookup_cons_ne _ _ hk', List.dlookup_cons_ne _ _ hk', if_neg hk']
    · have hin : k ∈ l.keys := by simpa [List.keys, hk] using h
      have hrep : List.kreplace k a (⟨k₁, a₁⟩ :: l) = (⟨k₁, a₁⟩ : Sigma fun _ : κ => α) ::
          List.kreplace k a l := List.lookmap_cons_none _ _ (if_neg hk)
      rw [hrep]
      by_cases hk' : k' = k₁
      · subst hk'
        rw [if_neg (Ne.symm hk)]
        simp
      · rw [List.dlookup_cons_ne _ _ hk', List.dlookup_cons_ne _ _ hk']
        exact ih hin

theorem lookup_set (t : Table κ α) (k k' : κ) (a : α) :
    (t.set k a).lookup k' = if k' = k then some a else t.lookup k' := by
  unfold set
  split
  · rename_i h
    exact t.lookup_replace k k' a h
  · by_cases hk : k' = k
    · subst hk
      rw [AList.lookup_insert, if_pos rfl]
    · rw [AList.lookup_insert_ne hk, if_neg hk]

theorem lookup_insertNew (t : Table κ α) (k k' : κ) (a : α) :
    (t.insertNew k a).lookup k' = if k' = k then some ((t.lookup k).getD a) else t.lookup k' := by
  unfold insertNew
  split
  · rename_i h
    obtain ⟨b, hb⟩ := Option.isSome_iff_exists.1 (AList.lookup_isSome.2 h)
    by_cases hk : k' = k
    · rw [if_pos hk, hk, hb, Option.getD_some]
    · rw [if_neg hk]
  · rename_i h
    by_cases hk : k' = k
    · subst hk
      rw [AList.lookup_insert, if_pos rfl, AList.lookup_eq_none.2 h, Option.getD_none]
    · rw [AList.lookup_insert_ne hk, if_neg hk]

theorem lookup_insertAll (t : Table κ α) (rows : List (κ × α)) (k : κ) :
    (t.insertAll rows).lookup k = (t.lookup k).or (first rows k) := by
  induction rows generalizing t with
  | nil => exact Option.or_none.symm
  | cons r rows ih =>
    show ((t.insertNew r.1 r.2).insertAll rows).lookup k = _
    rw [ih, lookup_insertNew, first, first, List.find?_cons]
    by_cases hk : k = r.1
    · subst hk
      rw [if_pos rfl, decide_eq_true rfl]
      cases t.lookup r.1 <;> rfl
    · rw [if_neg hk, decide_eq_false (Ne.symm hk)]

theorem rows_insertNew_of_notMem {t : Table κ α} {k : κ} (h : k ∉ t) (a : α) :
    (t.insertNew k a).rows = t.rows ++ [(k, a)] := by
  have hentries : (t.insertNew k a).entries = ⟨k, a⟩ :: t.entries := by
    rw [insertNew, if_neg h, AList.entries_insert_of_notMem h]
  rw [rows, hentries, List.map_cons, List.reverse_cons]
  rfl

/-- Rows that are inserted come after those that were there. -/
theorem rows_insertAll (t : Table κ α) (rows : List (κ × α)) :
    ∃ new, (t.insertAll rows).rows = t.rows ++ new := by
  induction rows generalizing t with
  | nil => exact ⟨[], (List.append_nil _).symm⟩
  | cons r rows ih =>
    obtain ⟨new, hnew⟩ := ih (t.insertNew r.1 r.2)
    by_cases hr : r.1 ∈ t
    · have hsame : t.insertNew r.1 r.2 = t := if_pos hr
      rw [hsame] at hnew
      exact ⟨new, by rw [← hnew, insertAll, List.foldl_cons, hsame]; rfl⟩
    · rw [rows_insertNew_of_notMem hr, List.append_assoc] at hnew
      exact ⟨_, hnew⟩

theorem mem_of_first {rows : List (κ × α)} {k : κ} {a : α} (h : first rows k = some a) :
    (k, a) ∈ rows := by
  obtain ⟨r, hr, rfl⟩ := Option.map_eq_some_iff.1 h
  have hk := List.find?_some hr
  rw [← of_decide_eq_true hk]
  exact List.mem_of_find?_eq_some hr

/-- Inserting rows that all have a key of the table changes nothing, and only that. -/
theorem insertAll_same_iff {t : Table κ α} {rows : List (κ × α)} :
    (∀ k, (t.insertAll rows).lookup k = t.lookup k) ↔ ∀ r ∈ rows, r.1 ∈ t := by
  simp only [lookup_insertAll]
  constructor
  · intro h r hr
    by_contra hmem
    have hk := h r.1
    rw [AList.lookup_eq_none.2 hmem, Option.none_or, first, Option.map_eq_none_iff,
      List.find?_eq_none] at hk
    exact hk r hr (decide_eq_true rfl)
  · intro h k
    cases hk : t.lookup k with
    | some a => rfl
    | none =>
      rw [Option.none_or, first, Option.map_eq_none_iff, List.find?_eq_none]
      intro r hr hrk
      have hmem := h r hr
      rw [of_decide_eq_true hrk] at hmem
      exact AList.lookup_eq_none.1 hk hmem

theorem lookup_erase_eq (t : Table κ α) (k k' : κ) :
    (t.erase k).lookup k' = if k' = k then none else t.lookup k' := by
  by_cases hk : k' = k
  · rw [if_pos hk, hk, AList.lookup_erase]
  · rw [if_neg hk, AList.lookup_erase_ne hk]

theorem mem_rows {t : Table κ α} {k : κ} {a : α} : (k, a) ∈ t.rows ↔ t.lookup k = some a := by
  rw [rows, List.mem_reverse, List.mem_map, ← Option.mem_def, AList.mem_lookup_iff]
  constructor
  · intro h
    obtain ⟨⟨k₁, a₁⟩, he, hka⟩ := h
    cases hka
    exact he
  · intro h
    exact ⟨⟨k, a⟩, h, rfl⟩

omit [DecidableEq κ] in
theorem nodup_rows (t : Table κ α) : (t.rows.map (·.1)).Nodup := by
  rw [rows, List.map_reverse, List.nodup_reverse, List.map_map]
  exact t.nodupKeys

theorem rows_erase_sublist (t : Table κ α) (k : κ) :
    (rows (t.erase k)).Sublist t.rows := by
  rw [rows, rows, List.reverse_sublist]
  exact (List.kerase_sublist k t.entries).map _

/-- The rows with `f` applied to what they hold. -/
def mapped {γ : Type} (f : α → γ) (t : Table κ α) : List (Sigma fun _ : κ => γ) :=
  t.entries.map (.map id fun _ => f)

omit [DecidableEq κ] in
theorem mapped_nodupKeys {γ : Type} (f : α → γ) (t : Table κ α) : (t.mapped f).NodupKeys := by
  have hkeys : (t.mapped f).keys = t.entries.keys := by
    rw [List.keys, mapped, List.map_map]
    rfl
  rw [List.NodupKeys, hkeys]
  exact t.nodupKeys

theorem dlookup_mapped {γ : Type} (f : α → γ) (t : Table κ α) (k : κ) :
    (t.mapped f).dlookup k = (t.lookup k).map f := List.dlookup_map₂ k

/-- Each value replaced. -/
def map {γ : Type} (f : α → γ) (t : Table κ α) : Table κ γ := ⟨t.mapped f, mapped_nodupKeys f t⟩

theorem lookup_map {γ : Type} (f : α → γ) (t : Table κ α) (k : κ) :
    (t.map f).lookup k = (t.lookup k).map f := dlookup_mapped f t k

omit [DecidableEq κ] in
theorem map_map {γ δ : Type} (f : α → γ) (g : γ → δ) (t : Table κ α) :
    (t.map f).map g = t.map (g ∘ f) := by
  refine AList.ext ?_
  show (t.entries.map _).map _ = _
  rw [List.map_map]
  rfl

omit [DecidableEq κ] in
theorem map_id (t : Table κ α) : t.map id = t := AList.ext (List.map_id _)

theorem mem_map {γ : Type} {f : α → γ} {t : Table κ α} {k : κ} : k ∈ t.map f ↔ k ∈ t := by
  rw [← AList.lookup_isSome, ← AList.lookup_isSome, lookup_map, Option.isSome_map]

omit [DecidableEq κ] in
theorem rows_map {γ : Type} (f : α → γ) (t : Table κ α) :
    (t.map f).rows = t.rows.map fun r => (r.1, f r.2) := by
  rw [rows, rows, List.map_reverse, List.map_map]
  refine congrArg List.reverse ?_
  show (t.mapped f).map _ = _
  rw [mapped, List.map_map]
  rfl

/-- Two tables that read alike under every key have the same rows, up to order. -/
theorem rows_perm {β γ : Type} {t : Table κ α} {q : Table κ β} {f : α → γ} {g : β → γ}
    (h : ∀ k, (t.lookup k).map f = (q.lookup k).map g) :
    (t.rows.map fun r => f r.2).Perm (q.rows.map fun r => g r.2) := by
  have hperm := List.lookup_ext (mapped_nodupKeys f t) (mapped_nodupKeys g q) fun k c => by
    rw [dlookup_mapped, dlookup_mapped, h k]
  have hmap := hperm.map fun e => e.2
  simp only [mapped, List.map_map] at hmap
  simp only [rows, List.map_reverse, List.map_map]
  exact ((List.reverse_perm _).trans hmap).trans (List.reverse_perm _).symm

end Table
