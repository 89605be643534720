import Mathlib.Logic.Function.Basic

/-!
# Scrolling screens

A screen of `h` rows and `w` columns with a cursor on one of its cells. What leaves the last
row pushes all rows up by one.
-/

namespace Lib

structure Screen (h w : Nat) (α : Type) where
  cell : Fin h → Fin w → α
  row : Fin h
  column : Fin w

namespace Screen

variable {h w : Nat} {α : Type}

/-- Column 0. The cursor is on a cell, so there is one. -/
def firstColumn (s : Screen h w α) : Fin w := ⟨0, Nat.zero_lt_of_lt s.column.isLt⟩

/-- Every row takes the content of the row below it, and the last one is blank. -/
def shift (blank : α) (cell : Fin h → Fin w → α) : Fin h → Fin w → α :=
  fun y x => if hy : y.val + 1 < h then cell ⟨y.val + 1, hy⟩ x else blank

def newline (blank : α) (s : Screen h w α) : Screen h w α :=
  if hr : s.row.val + 1 < h then
    { s with row := ⟨s.row.val + 1, hr⟩, column := s.firstColumn }
  else { s with cell := shift blank s.cell, column := s.firstColumn }

def set (s : Screen h w α) (y : Fin h) (x : Fin w) (a : α) : Screen h w α :=
  { s with cell := Function.update s.cell y (Function.update (s.cell y) x a) }

/-- Draws at the cursor and moves on, past the last column to the next row. -/
def draw (blank a : α) (s : Screen h w α) : Screen h w α :=
  let s := s.set s.row s.column a
  if hc : s.column.val + 1 < w then { s with column := ⟨s.column.val + 1, hc⟩ }
  else s.newline blank

/-- Clears the cell to the left of the cursor and moves onto it. -/
def erase (blank : α) (s : Screen h w α) : Screen h w α :=
  if 0 < s.column.val then
    { s.set s.row ⟨s.column.val - 1, Nat.lt_of_le_of_lt (Nat.sub_le _ 1) s.column.isLt⟩ blank with
      column := ⟨s.column.val - 1, Nat.lt_of_le_of_lt (Nat.sub_le _ 1) s.column.isLt⟩ }
  else s

@[simp] lemma set_row (s : Screen h w α) (y : Fin h) (x : Fin w) (a : α) :
    (s.set y x a).row = s.row := rfl

@[simp] lemma set_column (s : Screen h w α) (y : Fin h) (x : Fin w) (a : α) :
    (s.set y x a).column = s.column := rfl

lemma set_cell (s : Screen h w α) (y y' : Fin h) (x x' : Fin w) (a : α) :
    (s.set y x a).cell y' x' = if y' = y ∧ x' = x then a else s.cell y' x' := by
  by_cases hy : y' = y
  · subst hy
    by_cases hx : x' = x
    · subst hx
      simp [set]
    · simp [set, hx]
  · simp [set, hy]

end Screen

end Lib
