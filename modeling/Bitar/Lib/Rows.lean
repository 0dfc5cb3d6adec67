import Mathlib.Data.List.Basic
import Mathlib.Tactic.Common

/-!
# Positions in a list of rows

The rows of a list, put one after another, give each item two positions: a
row and a column, and an index in the whole.

**Results.**
* `getElem?_flatten`: the item at a row and a column, in the whole.
* `exists_of_lt`: every index has a row and a column.
-/

universe u

namespace Rows

variable {α : Type u} {rows : List (List α)} {row row' : List α} {d d' q q' : Nat}

/-- How many items there are before row `d`. -/
def offset (rows : List (List α)) (d : Nat) : Nat :=
  (rows.take d).flatten.length

@[simp] theorem offset_zero (rows : List (List α)) : offset rows 0 = 0 := by
  simp [offset]

theorem offset_succ (h : rows[d]? = some row) :
    offset rows (d + 1) = offset rows d + row.length := by
  rw [offset, List.take_add_one, h, List.flatten_append, List.length_append]
  simp [offset]

theorem offset_cons_succ (row : List α) (rows : List (List α)) (d : Nat) :
    offset (row :: rows) (d + 1) = row.length + offset rows d := by
  simp [offset]

/-- The rows before a later row include this one. -/
theorem offset_lt (h : rows[d]? = some row) (hq : q < row.length) (hlt : d < d') :
    offset rows d + q < offset rows d' := by
  induction d' with
  | zero => omega
  | succ e ih =>
      rcases Nat.lt_succ_iff_lt_or_eq.mp hlt with hlt' | rfl
      · refine Nat.lt_of_lt_of_le (ih hlt') ?_
        rw [offset, offset, List.take_add_one, List.flatten_append, List.length_append]
        exact Nat.le_add_right _ _
      · rw [offset_succ h]
        omega

/-- The item at a row and a column. -/
theorem getElem?_flatten (h : rows[d]? = some row) (hq : q < row.length) :
    rows.flatten[offset rows d + q]? = row[q]? := by
  induction rows generalizing d with
  | nil => simp at h
  | cons first rows ih =>
      cases d with
      | zero =>
          obtain rfl : first = row := by simpa using h
          simp [List.getElem?_append_left hq]
      | succ d =>
          rw [List.flatten_cons, offset_cons_succ, Nat.add_assoc,
            List.getElem?_append_right (by omega), Nat.add_sub_cancel_left]
          exact ih (by simpa using h)

/-- Every index has a row and a column. -/
theorem exists_of_lt {k : Nat} (h : k < rows.flatten.length) :
    ∃ d row q, rows[d]? = some row ∧ q < row.length ∧ k = offset rows d + q := by
  induction rows generalizing k with
  | nil => simp at h
  | cons first rows ih =>
      rw [List.flatten_cons, List.length_append] at h
      by_cases hlt : k < first.length
      · exact ⟨0, first, k, rfl, hlt, by simp⟩
      · obtain ⟨d, row, q, hrow, hq, he⟩ := ih (k := k - first.length) (by omega)
        refine ⟨d + 1, row, q, by simpa using hrow, hq, ?_⟩
        rw [offset_cons_succ]
        omega

end Rows
