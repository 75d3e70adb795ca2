import Mathlib.Data.List.Sort

/-!
# Queries with a growing limit

`drain`: a query with `ORDER BY … LIMIT`, made again with four times the limit as long as its page
is full, until a limit of `cap` or more was tried. Rows with equal keys come in any order
(`RowOrder`), another one in each query. What the last page holds depends only on the number of rows
and on `ceiling`, the limit the loop gives up at: all rows if they are fewer, the oldest ones
otherwise.
-/

set_option autoImplicit false

namespace GrowingPage

variable {α : Type} {key : α → Nat}

/-- `ORDER BY key ASC`. -/
structure RowOrder (key : α → Nat) where
  order : List α → List α
  perm : ∀ rows, (order rows).Perm rows
  sorted : ∀ rows, (order rows).Pairwise fun a b => key a ≤ key b

/-- The order that keeps rows with equal keys as they are. -/
def RowOrder.stable (key : α → Nat) : RowOrder key where
  order rows := rows.insertionSort fun a b => key a ≤ key b
  perm rows := List.perm_insertionSort _ rows
  sorted rows := by
    have : Std.Total fun a b : α => key a ≤ key b := ⟨fun a b => le_total _ _⟩
    have : IsTrans α fun a b => key a ≤ key b := ⟨fun a b c hab hbc => le_trans hab hbc⟩
    exact List.pairwise_insertionSort _ rows

/-- `LIMIT`. -/
def RowOrder.page (o : RowOrder key) (rows : List α) (limit : Nat) : List α :=
  (o.order rows).take limit

@[simp] theorem RowOrder.length_page (o : RowOrder key) (rows : List α) (limit : Nat) :
    (o.page rows limit).length = min limit rows.length := by
  rw [page, List.length_take, (o.perm rows).length_eq]

theorem RowOrder.mem_of_mem_page {o : RowOrder key} {rows : List α} {limit : Nat} {a : α}
    (h : a ∈ o.page rows limit) : a ∈ rows := (o.perm rows).mem_iff.1 (List.mem_of_mem_take h)

/-- A page that is not full holds every row. -/
theorem RowOrder.page_eq_order {o : RowOrder key} {rows : List α} {limit : Nat}
    (hlimit : rows.length ≤ limit) : o.page rows limit = o.order rows := by
  refine List.take_of_length_le ?_
  rw [(o.perm rows).length_eq]
  exact hlimit

theorem RowOrder.mem_page {o : RowOrder key} {rows : List α} {limit : Nat} {a : α}
    (hlimit : rows.length ≤ limit) : a ∈ o.page rows limit ↔ a ∈ rows := by
  rw [page_eq_order hlimit, (o.perm rows).mem_iff]

/-- What comes strictly before a row of a page is in it too. -/
theorem RowOrder.mem_page_of_lt {o : RowOrder key} {rows : List α} {limit : Nat} {a b : α}
    (ha : a ∈ o.page rows limit) (hb : b ∈ rows) (hlt : key b < key a) : b ∈ o.page rows limit := by
  have hb' := (o.perm rows).mem_iff.2 hb
  rw [← List.take_append_drop limit (o.order rows), List.mem_append] at hb'
  rcases hb' with hb' | hb'
  · exact hb'
  · have hsorted := o.sorted rows
    rw [← List.take_append_drop limit (o.order rows), List.pairwise_append] at hsorted
    have hle := hsorted.2.2 a ha b hb'
    omega

/-! ## The loop -/

/-- A page has room for a row. -/
abbrev Limit := { limit : Nat // 0 < limit }

/-- The next page is four times as long. -/
def Limit.grow (limit : Limit) : Limit := ⟨limit.1 * 4, by have := limit.2; omega⟩

variable (cap : Nat)

/-- The last page, and whether it was not full. -/
def drain (page : Nat → List α) (limit : Limit) : List α × Bool :=
  if (page limit.1).length < limit.1 then (page limit.1, true)
  else if cap ≤ limit.1 then (page limit.1, false)
  else drain page limit.grow
termination_by cap - limit.1
decreasing_by
  have := limit.2
  simp only [Limit.grow]
  omega

/-- The limit at which the loop gives up. -/
def ceiling (limit : Limit) : Nat :=
  if cap ≤ limit.1 then limit.1 else ceiling limit.grow
termination_by cap - limit.1
decreasing_by
  have := limit.2
  simp only [Limit.grow]
  omega

variable {cap}

theorem ceiling_of_le {limit : Limit} (h : cap ≤ limit.1) : ceiling cap limit = limit.1 := by
  rw [ceiling, if_pos h]

theorem ceiling_grow {limit : Limit} (h : limit.1 < cap) :
    ceiling cap limit.grow = ceiling cap limit := by
  rw [ceiling.eq_def cap limit, if_neg (by omega)]

variable (cap) in
theorem le_ceiling (limit : Limit) : limit.1 ≤ ceiling cap limit := by
  fun_induction ceiling cap limit with
  | case1 limit h => exact le_rfl
  | case2 limit h ih =>
    have hgrow : limit.grow.1 = limit.1 * 4 := rfl
    omega

variable (cap) in
/-- If each page holds as many rows as it may, the rows that reach the ceiling or not decide where
the loop ends. -/
theorem drain_eq {page : Nat → List α} {count : Nat} (hpage : ∀ n, (page n).length = min n count)
    (limit : Limit) : ∃ last, (drain cap page limit).1 = page last ∧
      (count < ceiling cap limit → count < last ∧ (drain cap page limit).2 = true) ∧
      (ceiling cap limit ≤ count →
        last = ceiling cap limit ∧ (drain cap page limit).2 = false) := by
  fun_induction drain cap page limit with
  | case1 limit hshort =>
    have hcount : count < limit.1 := by
      rw [hpage] at hshort
      omega
    have hle := le_ceiling cap limit
    exact ⟨limit.1, rfl, fun _ => ⟨hcount, rfl⟩, fun h => by omega⟩
  | case2 limit hfull hcap =>
    have hcount : limit.1 ≤ count := by
      rw [hpage] at hfull
      omega
    rw [ceiling_of_le hcap]
    exact ⟨limit.1, rfl, fun h => by omega, fun _ => ⟨rfl, rfl⟩⟩
  | case3 limit hfull hcap ih =>
    rw [ceiling_grow (by omega)] at ih
    exact ih

/-- Fewer rows than the ceiling: the loop returns each of them, however the pages are ordered. -/
theorem mem_drain {rows : List α} {limit : Limit} (h : rows.length < ceiling cap limit)
    (o : Nat → RowOrder key) (a : α) :
    a ∈ (drain cap (fun n => (o n).page rows n) limit).1 ↔ a ∈ rows := by
  have hpage : ∀ n, ((o n).page rows n).length = min n rows.length :=
    fun n => (o n).length_page rows n
  obtain ⟨last, hlast, hshort, -⟩ := drain_eq cap hpage limit
  rw [hlast]
  exact RowOrder.mem_page (hshort h).1.le

/-- With one order for all its pages the loop returns the page at the ceiling. -/
theorem drain_page (o : RowOrder key) (rows : List α) (limit : Limit) :
    drain cap (o.page rows) limit =
      (o.page rows (ceiling cap limit), decide (rows.length < ceiling cap limit)) := by
  obtain ⟨last, hlast, hshort, hfull⟩ := drain_eq cap (o.length_page rows) limit
  rcases lt_or_ge rows.length (ceiling cap limit) with h | h
  · obtain ⟨hcount, hflag⟩ := hshort h
    rw [Prod.ext_iff, hlast, hflag, RowOrder.page_eq_order hcount.le, RowOrder.page_eq_order h.le,
      decide_eq_true h]
    exact ⟨rfl, rfl⟩
  · obtain ⟨hlimit, hflag⟩ := hfull h
    rw [Prod.ext_iff, hlast, hflag, hlimit, decide_eq_false (by omega)]
    exact ⟨rfl, rfl⟩

end GrowingPage
