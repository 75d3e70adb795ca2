import Mathlib.Logic.Function.Basic

/-!
# Transactions that read what is committed

A table and, for each transaction, the rows it has changed and not committed. A statement sees the
committed rows under the transaction's own changes (`view`), a write of a row waits until no other
transaction has changed it (`Free`), and a commit makes the view the table.
-/

set_option autoImplicit false

namespace ReadCommitted

/-- The rows changed, `some none` for a row that is deleted. -/
abbrev Changes (κ ρ : Type) := κ → Option (Option ρ)

/-- The committed rows, and what each open transaction has written. -/
structure DB (τ κ ρ : Type) where
  rows : κ → Option ρ
  changes : τ → Changes κ ρ := fun _ _ => none

namespace DB

variable {τ κ ρ : Type}

/-- What a statement of the transaction sees. -/
def view (db : DB τ κ ρ) (t : τ) (k : κ) : Option ρ := (db.changes t k).getD (db.rows k)

/-- No other transaction holds the row. -/
def Free (db : DB τ κ ρ) (t : τ) (k : κ) : Prop := ∀ t' ≠ t, db.changes t' k = none

variable {db : DB τ κ ρ} {t t' : τ} {k k' : κ} {row : Option ρ}

theorem view_of_unchanged (h : db.changes t k = none) : db.view t k = db.rows k := by
  rw [view, h, Option.getD_none]

theorem view_of_changed (h : db.changes t k = some row) : db.view t k = row := by
  rw [view, h, Option.getD_some]

/-! ## Ending a transaction -/

variable [DecidableEq τ]

/-- A transaction's writes become rows. -/
def commit (db : DB τ κ ρ) (t : τ) : DB τ κ ρ where
  rows := db.view t
  changes := Function.update db.changes t fun _ => none

/-- A transaction's writes are dropped. -/
def abort (db : DB τ κ ρ) (t : τ) : DB τ κ ρ :=
  { db with changes := Function.update db.changes t fun _ => none }

theorem commit_rows : (db.commit t).rows = db.view t := rfl

theorem commit_changes_self : (db.commit t).changes t k = none := by simp [commit]

theorem commit_changes_other (h : t' ≠ t) : (db.commit t).changes t' = db.changes t' := by
  simp [commit, h]

theorem abort_changes_self : (db.abort t).changes t k = none := by simp [abort]

theorem abort_changes_other (h : t' ≠ t) : (db.abort t).changes t' = db.changes t' := by
  simp [abort, h]

/-- A commit is seen by another transaction where that has no change of its own. -/
theorem view_commit_other (h : t' ≠ t) (hk : db.changes t' k = none) :
    (db.commit t).view t' k = db.view t k := by
  rw [view_of_unchanged (by rw [commit_changes_other h, hk]), commit_rows]

/-! ## Writing -/

variable [DecidableEq κ]

/-- A transaction writes a row, or deletes it. -/
def write (db : DB τ κ ρ) (t : τ) (k : κ) (row : Option ρ) : DB τ κ ρ :=
  { db with
    changes := Function.update db.changes t (Function.update (db.changes t) k (some row)) }

theorem write_rows : (db.write t k row).rows = db.rows := rfl

theorem write_changes_self : (db.write t k row).changes t k = some row := by simp [write]

theorem write_changes_of_ne (h : k' ≠ k) : (db.write t k row).changes t k' = db.changes t k' := by
  simp [write, h]

theorem write_changes_other (h : t' ≠ t) : (db.write t k row).changes t' = db.changes t' := by
  simp [write, h]

/-- A write is seen by its own transaction at once. -/
theorem view_write : (db.write t k row).view t = Function.update (db.view t) k row := by
  funext k'
  by_cases hk : k' = k
  · subst hk
    rw [view_of_changed write_changes_self, Function.update_self]
  · rw [Function.update_of_ne hk, view, view, write_changes_of_ne hk, write_rows]

end DB

end ReadCommitted
