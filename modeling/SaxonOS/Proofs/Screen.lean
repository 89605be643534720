import SaxonOS.Terminal
import SaxonOS.Lib.Screen

/-!
# The terminal is a scrolling screen

The scroll of `terminal_putchar` copies one cell too many in every row. The surplus cell is the
first of the next row, which the copy of that row then replaces from a cell that no copy has
reached yet, so what is left is a shift by one row.
-/

namespace SaxonOS.Proofs
open SaxonOS Lib

abbrev VgaScreen := Screen vgaHeight vgaWidth UInt16

/-- All cells blank, the cursor in the upper left corner. -/
def blankScreen : VgaScreen where
  cell := fun _ _ => vgaEntry 0x20 7
  row := ⟨0, by decide⟩
  column := ⟨0, by decide⟩

/-- What one byte does to the reference terminal. -/
def typeByte (color : UInt8) (s : VgaScreen) (c : UInt8) : VgaScreen :=
  if c = 10 then s.newline 0
  else if c = 8 then s.erase 0
  else s.draw 0 (vgaEntry c color)

/-- The visible cells and the cursor of `t` are those of `s`. -/
structure Shows (t : Terminal) (s : VgaScreen) : Prop where
  row : t.row = s.row.val
  column : t.column = s.column.val
  cell : ∀ y x, t.buffer (y.val * vgaWidth + x.val) = s.cell y x

lemma foldl_update (f : Nat → Nat) (v : UInt16) (buffer : Cells) (n i : Nat) :
    (List.range n).foldl (fun buffer x => Function.update buffer (f x) v) buffer i =
      if ∃ x < n, i = f x then v else buffer i := by
  induction n with
  | zero => simp
  | succ n ih =>
    rw [List.range_succ, List.foldl_append, List.foldl_cons, List.foldl_nil,
      Function.update_apply, ih]
    by_cases hi : i = f n
    · rw [if_pos hi, if_pos ⟨n, Nat.lt_succ_self n, hi⟩]
    · rw [if_neg hi]
      congr 1
      apply propext
      constructor
      · rintro ⟨x, hx, rfl⟩
        exact ⟨x, Nat.lt_succ_of_lt hx, rfl⟩
      · rintro ⟨x, hx, rfl⟩
        refine ⟨x, ?_, rfl⟩
        have hne : x ≠ n := by
          rintro rfl
          exact hi rfl
        omega

/-- After `n` turns the first `n` cells of the row have what was a row further on. -/
lemma copyRow_turns (buffer : Cells) (y i : Nat) {n : Nat} (hn : n ≤ 81) :
    (List.range n).foldl (fun buffer x => Function.update buffer (y * 80 + x)
      (buffer ((y + 1) * 80 + x))) buffer i =
      if y * 80 ≤ i ∧ i < y * 80 + n then buffer (i + 80) else buffer i := by
  induction n generalizing i with
  | zero => rw [List.range_zero, List.foldl_nil, if_neg (by omega)]
  | succ n ih =>
    rw [List.range_succ, List.foldl_append, List.foldl_cons, List.foldl_nil,
      Function.update_apply, ih i (by omega), ih ((y + 1) * 80 + n) (by omega)]
    by_cases hi : i = y * 80 + n
    · subst hi
      rw [if_pos rfl, if_neg (by omega), if_pos (by omega)]
      congr 1
      omega
    · rw [if_neg hi]
      congr 1
      apply propext
      omega

lemma copyRow_apply (buffer : Cells) (y i : Nat) : copyRow buffer y i =
    if y * 80 ≤ i ∧ i < y * 80 + 81 then buffer (i + 80) else buffer i :=
  copyRow_turns buffer y i (Nat.le_refl 81)

/-- After `n` rows the cells before row `n`, and the first cell of that row, are shifted. -/
lemma copyRows_apply (buffer : Cells) (n i : Nat) : (List.range n).foldl copyRow buffer i =
    if 0 < n ∧ i ≤ n * 80 then buffer (i + 80) else buffer i := by
  induction n generalizing i with
  | zero => rw [List.range_zero, List.foldl_nil, if_neg (by omega)]
  | succ n ih =>
    rw [List.range_succ, List.foldl_append, List.foldl_cons, List.foldl_nil, copyRow_apply,
      ih i, ih (i + 80)]
    by_cases hi : n * 80 ≤ i ∧ i < n * 80 + 81
    · rw [if_pos hi, if_neg (by omega), if_pos (by omega)]
    · rw [if_neg hi]
      by_cases hlow : i < n * 80
      · rw [if_pos (by omega), if_pos (by omega)]
      · rw [if_neg (by omega), if_neg (by omega)]

lemma clearRow_apply (buffer : Cells) (y i : Nat) : clearRow buffer y i =
    if y * 80 ≤ i ∧ i < y * 80 + 81 then 0 else buffer i := by
  have h := foldl_update (fun x => y * 80 + x) 0 buffer 81 i
  rw [show clearRow buffer y i = _ from h]
  congr 1
  apply propext
  constructor
  · rintro ⟨x, hx, rfl⟩
    omega
  · intro hi
    exact ⟨i - y * 80, by omega, by omega⟩

/-- The scroll as a whole. -/
lemma scroll_apply (buffer : Cells) {i : Nat} (hi : i < 2000) : scroll buffer i =
    if i < 1920 then buffer (i + 80) else 0 := by
  change clearRow ((List.range 24).foldl copyRow buffer) 24 i = _
  rw [clearRow_apply, copyRows_apply]
  by_cases hlast : i < 1920
  · rw [if_neg (by omega), if_pos (by omega), if_pos hlast]
  · rw [if_pos (by omega), if_neg hlast]

lemma initializeRow_apply (color : UInt8) (buffer : Cells) (y i : Nat) :
    initializeRow color buffer y i =
      if y * 80 ≤ i ∧ i < y * 80 + 80 then vgaEntry 0x20 color else buffer i := by
  have h := foldl_update (fun x => y * 80 + x) (vgaEntry 0x20 color) buffer 80 i
  rw [show initializeRow color buffer y i = _ from h]
  congr 1
  apply propext
  constructor
  · rintro ⟨x, hx, rfl⟩
    omega
  · intro hi
    exact ⟨i - y * 80, by omega, by omega⟩

lemma initializeRows_apply (color : UInt8) (buffer : Cells) (n i : Nat) :
    (List.range n).foldl (initializeRow color) buffer i =
      if i < n * 80 then vgaEntry 0x20 color else buffer i := by
  induction n generalizing i with
  | zero => rw [List.range_zero, List.foldl_nil, if_neg (by omega)]
  | succ n ih =>
    rw [List.range_succ, List.foldl_append, List.foldl_cons, List.foldl_nil,
      initializeRow_apply, ih i]
    by_cases hi : n * 80 ≤ i ∧ i < n * 80 + 80
    · rw [if_pos hi, if_pos (by omega)]
    · rw [if_neg hi]
      by_cases hlow : i < n * 80
      · rw [if_pos hlow, if_pos (by omega)]
      · rw [if_neg hlow, if_neg (by omega)]

/-- The index of a visible cell. -/
lemma cell_lt (y : Fin vgaHeight) (x : Fin vgaWidth) : y.val * 80 + x.val < 2000 := by
  have hy : y.val < 25 := y.isLt
  have hx : x.val < 80 := x.isLt
  omega

lemma shows_first (memory : Cells) : Shows (terminalInitialize memory) blankScreen where
  row := rfl
  column := rfl
  cell := by
    intro y x
    have h := initializeRows_apply 7 memory 25 (y.val * 80 + x.val)
    rw [if_pos (cell_lt y x)] at h
    exact h

section Byte

variable {t : Terminal} {s : VgaScreen}

/-- A cell that is set in the buffer and on the screen. -/
lemma update_shows (hs : ∀ y x, t.buffer (y.val * vgaWidth + x.val) = s.cell y x)
    (y₀ : Fin vgaHeight) (x₀ : Fin vgaWidth) (v : UInt16) (y : Fin vgaHeight)
    (x : Fin vgaWidth) :
    Function.update t.buffer (y₀.val * vgaWidth + x₀.val) v (y.val * vgaWidth + x.val) =
      (s.set y₀ x₀ v).cell y x := by
  have hx : x.val < 80 := x.isLt
  have hx₀ : x₀.val < 80 := x₀.isLt
  rw [Screen.set_cell, Function.update_apply, hs]
  congr 1
  apply propext
  rw [Fin.ext_iff, Fin.ext_iff]
  change y.val * 80 + x.val = y₀.val * 80 + x₀.val ↔ _
  omega

/-- A cursor that has gone to the start of the row below, or below the last row. -/
lemma shows_newline (hs : Shows t s) :
    Shows (scrollIfNeeded { t with row := t.row + 1, column := 0 }) (s.newline 0) := by
  have hrow := hs.row
  rw [scrollIfNeeded, Screen.newline]
  by_cases hr : s.row.val + 1 < vgaHeight
  · have hne : t.row + 1 ≠ vgaHeight := by omega
    rw [if_neg hne, dif_pos hr]
    exact ⟨by simp [hrow], rfl, hs.cell⟩
  · have heq : t.row + 1 = vgaHeight := by
      have hlt := s.row.isLt
      omega
    rw [if_pos heq, dif_neg hr]
    refine ⟨by simpa using hrow, rfl, ?_⟩
    intro y x
    have hscroll := scroll_apply t.buffer (cell_lt y x)
    have hx : x.val < 80 := x.isLt
    change scroll t.buffer (y.val * 80 + x.val) = Screen.shift 0 s.cell y x
    rw [hscroll, Screen.shift]
    by_cases hy : y.val + 1 < vgaHeight
    · have hy' : y.val + 1 < 25 := hy
      rw [if_pos (by omega), dif_pos hy, ← hs.cell]
      congr 1
      change y.val * 80 + x.val + 80 = (y.val + 1) * 80 + x.val
      omega
    · have hy' : ¬y.val + 1 < 25 := hy
      rw [if_neg (by omega), dif_neg hy]

/-- While the cursor stays on the screen nothing scrolls. -/
lemma scrollIfNeeded_of_row (ht : t.row = s.row.val) : scrollIfNeeded t = t := by
  have hlt := s.row.isLt
  rw [scrollIfNeeded, if_neg (by omega)]

lemma shows_erase (hs : Shows t s) (hcol : 0 < t.column) :
    Shows { t with column := t.column - 1
                   buffer := Function.update t.buffer (t.row * vgaWidth + (t.column - 1)) 0 }
      (s.erase 0) := by
  have hcolumn := hs.column
  have hpos : 0 < s.column.val := by omega
  rw [Screen.erase, if_pos hpos, hs.row, hs.column]
  exact ⟨rfl, rfl, update_shows hs.cell s.row ⟨s.column.val - 1, _⟩ 0⟩

lemma shows_draw (hs : Shows t s) (c : UInt8) :
    Shows (terminalPutentryat t c t.color t.column t.row)
      (s.set s.row s.column (vgaEntry c t.color)) := by
  rw [terminalPutentryat, hs.row, hs.column]
  exact ⟨rfl, rfl, update_shows hs.cell s.row s.column (vgaEntry c t.color)⟩

/-- One byte keeps the terminal and the reference together. -/
lemma shows_putchar (hs : Shows t s) (c : UInt8) :
    Shows (terminalPutchar t c) (typeByte t.color s c) := by
  rw [terminalPutchar, typeByte]
  by_cases hlf : c = 10
  · rw [if_pos hlf, if_pos hlf]
    exact shows_newline hs
  rw [if_neg hlf, if_neg hlf]
  by_cases hbs : c = 8
  · rw [if_pos hbs, if_pos hbs]
    by_cases hcol : t.column > 0
    · rw [if_pos hcol, scrollIfNeeded_of_row (shows_erase hs hcol).row]
      exact shows_erase hs hcol
    · have hzero : ¬0 < s.column.val := by
        rw [← hs.column]
        exact hcol
      rw [if_neg hcol, scrollIfNeeded_of_row hs.row, Screen.erase, if_neg hzero]
      exact hs
  · rw [if_neg hbs, if_neg hbs]
    have hdrawn := shows_draw hs c
    have hcolumn : t.column = s.column.val := hs.column
    have hlt := s.column.isLt
    rw [Screen.draw]
    by_cases hlast : t.column + 1 = vgaWidth
    · have hc : ¬(s.set s.row s.column (vgaEntry c t.color)).column.val + 1 < vgaWidth := by
        rw [Screen.set_column]
        omega
      rw [if_pos (show (terminalPutentryat t c t.color t.column t.row).column + 1 = vgaWidth
        from hlast), dif_neg hc]
      exact shows_newline hdrawn
    · have hc : (s.set s.row s.column (vgaEntry c t.color)).column.val + 1 < vgaWidth := by
        rw [Screen.set_column]
        omega
      rw [if_neg (show (terminalPutentryat t c t.color t.column t.row).column + 1 ≠ vgaWidth
        from hlast), dif_pos hc]
      have hmoved : Shows { terminalPutentryat t c t.color t.column t.row with
            column := (terminalPutentryat t c t.color t.column t.row).column + 1 }
          { s.set s.row s.column (vgaEntry c t.color) with column := ⟨_, hc⟩ } :=
        ⟨hdrawn.row, by simp [hdrawn.column], hdrawn.cell⟩
      rw [scrollIfNeeded_of_row hmoved.row]
      exact hmoved

lemma scrollIfNeeded_color (t : Terminal) : (scrollIfNeeded t).color = t.color := by
  rw [scrollIfNeeded]
  split <;> rfl

lemma putchar_color (t : Terminal) (c : UInt8) : (terminalPutchar t c).color = t.color := by
  rw [terminalPutchar, scrollIfNeeded_color, terminalPutentryat]
  split
  · rfl
  · split
    · split <;> rfl
    · dsimp only
      split <;> rfl

end Byte

lemma shows_write {t : Terminal} {s : VgaScreen} (hs : Shows t s) (bytes : List UInt8) :
    Shows (terminalWrite t bytes) (bytes.foldl (typeByte t.color) s) := by
  induction bytes generalizing t s with
  | nil => exact hs
  | cons c bytes ih =>
    have h := ih (shows_putchar hs c)
    rw [putchar_color] at h
    exact h

/-- Two terminals that show the same screen. -/
lemma Shows.same {t t' : Terminal} {s : VgaScreen} (hs : Shows t s) (hs' : Shows t' s) {i : Nat}
    (hi : i < vgaHeight * vgaWidth) : t.buffer i = t'.buffer i := by
  have hy : i / vgaWidth < vgaHeight := Nat.div_lt_of_lt_mul (by rwa [Nat.mul_comm] at hi)
  have hx : i % vgaWidth < vgaWidth := Nat.mod_lt i (by decide)
  have h := (hs.cell ⟨_, hy⟩ ⟨_, hx⟩).trans (hs'.cell ⟨_, hy⟩ ⟨_, hx⟩).symm
  simp only [Nat.div_add_mod'] at h
  exact h

/-- After every run of bytes the terminal shows the screen of the reference, and memory past
the visible cells has no part in what is shown from then on. -/
theorem terminal_refines_screen (memory : Cells) (bytes : List UInt8) :
    (terminalWrite (terminalInitialize memory) bytes).row < vgaHeight ∧
    (terminalWrite (terminalInitialize memory) bytes).column < vgaWidth ∧
    Shows (terminalWrite (terminalInitialize memory) bytes)
      (bytes.foldl (typeByte 7) blankScreen) ∧
    ∀ other : Cells, (∀ i < vgaHeight * vgaWidth,
        other i = (terminalWrite (terminalInitialize memory) bytes).buffer i) →
      ∀ (more : List UInt8), ∀ i < vgaHeight * vgaWidth,
        (terminalWrite { terminalWrite (terminalInitialize memory) bytes with buffer := other }
          more).buffer i =
        (terminalWrite (terminalWrite (terminalInitialize memory) bytes) more).buffer i := by
  have hs : Shows (terminalWrite (terminalInitialize memory) bytes)
      (bytes.foldl (typeByte 7) blankScreen) := shows_write (shows_first memory) bytes
  refine ⟨by rw [hs.row]; exact Fin.isLt _, by rw [hs.column]; exact Fin.isLt _, hs, ?_⟩
  intro other hother more i hi
  have hs' : Shows { terminalWrite (terminalInitialize memory) bytes with buffer := other }
      (bytes.foldl (typeByte 7) blankScreen) := by
    refine ⟨hs.row, hs.column, ?_⟩
    intro y x
    rw [← hs.cell]
    exact hother _ (cell_lt y x)
  exact (shows_write hs' more).same (shows_write hs more) hi

/-- A line feed, a letter and a backspace over memory that is not zero. -/
theorem terminal_refines_screen_letter :
    Shows (terminalWrite (terminalInitialize fun _ => 0xFFFF) [10, 0x41, 8])
      ([10, 0x41, 8].foldl (typeByte 7) blankScreen) :=
  (terminal_refines_screen (fun _ => 0xFFFF) [10, 0x41, 8]).2.2.1

end SaxonOS.Proofs
