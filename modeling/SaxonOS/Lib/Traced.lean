import Mathlib.Logic.Function.Basic

/-!
# Memories that keep a record

A memory of numbered cells together with every cell that has been read or written since the
record was started, the last access first.
-/

namespace Lib

inductive Access where
  | read (i : Nat)
  | write (i : Nat)
deriving DecidableEq

/-- The number of the cell that is touched. -/
def Access.cell : Access → Nat
  | .read i => i
  | .write i => i

structure Traced (α : Type*) where
  cell : Nat → α
  accesses : List Access

namespace Traced

variable {α ι : Type*} {m : Traced α} {b i j : Nat} {v : α}

/-- A memory whose record starts here. -/
def start (cell : Nat → α) : Traced α := ⟨cell, []⟩

def load (m : Traced α) (i : Nat) : α × Traced α :=
  (m.cell i, { m with accesses := .read i :: m.accesses })

def store (m : Traced α) (i : Nat) (v : α) : Traced α :=
  ⟨Function.update m.cell i v, .write i :: m.accesses⟩

/-- Stores in `i` what is loaded from `j`. -/
def copy (m : Traced α) (i j : Nat) : Traced α :=
  let (v, m) := m.load j
  m.store i v

@[simp] lemma cell_store : (m.store i v).cell = Function.update m.cell i v := rfl

@[simp] lemma cell_copy : (m.copy i j).cell = Function.update m.cell i (m.cell j) := rfl

/-- Only cells below `b` have been touched. -/
def Within (b : Nat) (m : Traced α) : Prop := ∀ a ∈ m.accesses, a.cell < b

lemma within_start (cell : Nat → α) : (start cell).Within b := nofun

lemma Within.mono {c : Nat} (h : m.Within b) (hbc : b ≤ c) : m.Within c :=
  fun a ha => Nat.lt_of_lt_of_le (h a ha) hbc

lemma within_store : (m.store i v).Within b ↔ m.Within b ∧ i < b := by
  rw [Within, store, List.forall_mem_cons]
  exact and_comm

lemma within_copy : (m.copy i j).Within b ↔ m.Within b ∧ j < b ∧ i < b := by
  have hload : (m.load j).2.Within b ↔ m.Within b ∧ j < b := by
    rw [Within, load, List.forall_mem_cons]
    exact and_comm
  rw [copy, within_store, hload, and_assoc]

/-- A loop stays within the cells below `b` if all its turns do. -/
lemma within_foldl {step : Traced α → ι → Traced α} {P : ι → Prop}
    (h : ∀ m x, (step m x).Within b ↔ m.Within b ∧ P x) (l : List ι) (m : Traced α) :
    (l.foldl step m).Within b ↔ m.Within b ∧ ∀ x ∈ l, P x := by
  induction l generalizing m with
  | nil => simp
  | cons x l ih => rw [List.foldl_cons, ih, h, List.forall_mem_cons, and_assoc]

/-- A loop whose turns change the cells as `f` does. -/
lemma cell_foldl {step : Traced α → ι → Traced α} {f : (Nat → α) → ι → Nat → α}
    (h : ∀ m x, (step m x).cell = f m.cell x) (l : List ι) (m : Traced α) :
    (l.foldl step m).cell = l.foldl f m.cell :=
  (List.foldl_hom cell fun m x => (h m x).symm).symm

end Traced

end Lib
