import SaxonOS.TerminalTrace

/-!
# The cell past the screen

A character and a backspace touch the cell of the cursor. The scroll runs one column too far in
every row, which in the last row is the cell behind the screen. So a text stays on the screen
exactly as long as it does not end the last row.
-/

namespace SaxonOS.Proofs
open SaxonOS Lib

lemma untraced_scroll (buffer : Traced UInt16) :
    (tracedScroll buffer).cell = scroll buffer.cell := by
  have hcopy : ∀ (m : Traced UInt16) y, (tracedCopyRow m y).cell = copyRow m.cell y :=
    fun m y => Traced.cell_foldl (fun _ _ => rfl) _ m
  have hclear : ∀ (m : Traced UInt16) y, (tracedClearRow m y).cell = clearRow m.cell y :=
    fun m y => Traced.cell_foldl (fun _ _ => rfl) _ m
  rw [tracedScroll, scroll, hclear, Traced.cell_foldl hcopy]

lemma untraced_scrollIfNeeded (t : TracedTerminal) :
    (tracedScrollIfNeeded t).untraced = scrollIfNeeded t.untraced := by
  rw [tracedScrollIfNeeded, scrollIfNeeded]
  change _ = if t.row = vgaHeight then _ else _
  split
  · rw [TracedTerminal.untraced, untraced_scroll]
    rfl
  · rfl

lemma untraced_putchar (t : TracedTerminal) (c : UInt8) :
    (tracedPutchar t c).untraced = terminalPutchar t.untraced c := by
  rw [tracedPutchar, terminalPutchar, untraced_scrollIfNeeded]
  congr 1
  by_cases hlf : c = 10
  · rw [if_pos hlf, if_pos hlf]
    rfl
  rw [if_neg hlf, if_neg hlf]
  by_cases hbs : c = 8
  · rw [if_pos hbs, if_pos hbs]
    exact apply_ite TracedTerminal.untraced _ _ _
  · rw [if_neg hbs, if_neg hbs]
    exact apply_ite TracedTerminal.untraced _ _ _

/-- The terminal that is watched is the terminal of the model. -/
theorem untraced_write (t : TracedTerminal) (data : List UInt8) :
    (tracedWrite t data).untraced = terminalWrite t.untraced data :=
  (List.foldl_hom TracedTerminal.untraced fun t c => (untraced_putchar t c).symm).symm

lemma within_copyRow (b y : Nat) (m : Traced UInt16) : (tracedCopyRow m y).Within b ↔
    m.Within b ∧ (y + 1) * 80 + 80 < b := by
  have h := Traced.within_foldl (b := b) (fun (m : Traced UInt16) x =>
    Traced.within_copy (m := m) (i := y * 80 + x) (j := (y + 1) * 80 + x)) (List.range 81) m
  rw [tracedCopyRow]
  refine h.trans (and_congr_right fun _ => ?_)
  constructor
  · intro hall
    exact (hall 80 (by decide)).1
  · intro hlt x hx
    have hx : x < 81 := List.mem_range.mp hx
    omega

lemma within_clearRow (b y : Nat) (m : Traced UInt16) : (tracedClearRow m y).Within b ↔
    m.Within b ∧ y * 80 + 80 < b := by
  have h := Traced.within_foldl (b := b) (fun (m : Traced UInt16) x =>
    Traced.within_store (m := m) (i := y * 80 + x) (v := 0)) (List.range 81) m
  rw [tracedClearRow]
  refine h.trans (and_congr_right fun _ => ?_)
  constructor
  · intro hall
    exact hall 80 (by decide)
  · intro hlt x hx
    have hx : x < 81 := List.mem_range.mp hx
    omega

/-- The scroll touches the cell behind the screen, and none after it. -/
lemma within_scroll (b : Nat) (m : Traced UInt16) :
    (tracedScroll m).Within b ↔ m.Within b ∧ 2000 < b := by
  have h := Traced.within_foldl (b := b) (fun m y => within_copyRow b y m) (List.range 24) m
  change (tracedClearRow ((List.range 24).foldl tracedCopyRow m) 24).Within b ↔ _
  rw [within_clearRow, h, and_assoc]
  refine and_congr_right fun _ => ?_
  constructor
  · exact fun hall => hall.2
  · intro hlt
    refine ⟨fun y hy => ?_, hlt⟩
    have hy : y < 24 := List.mem_range.mp hy
    omega

/-- The byte ends the row if the cursor is in this column. -/
def EndsRow (column : Nat) (c : UInt8) : Prop := c = 10 ∨ c ≠ 8 ∧ column + 1 = vgaWidth

instance (column : Nat) (c : UInt8) : Decidable (EndsRow column c) :=
  inferInstanceAs (Decidable (_ ∨ _))

/-- The column after the byte. -/
def nextColumn (column : Nat) (c : UInt8) : Nat :=
  if EndsRow column c then 0 else if c = 8 then column - 1 else column + 1

/-- The rows that a text ends which begins in this column. -/
def rowsEnded : Nat → List UInt8 → Nat
  | _, [] => 0
  | column, c :: data =>
    (if EndsRow column c then 1 else 0) + rowsEnded (nextColumn column c) data

/-- The cursor is on a cell of the screen. -/
structure OnScreen (t : TracedTerminal) : Prop where
  row : t.row < 25
  column : t.column < 80

/-- The cursor stays on the screen, and the cell behind it is touched if the last row ends. -/
structure Advances (t : TracedTerminal) (rows column : Nat) (t' : TracedTerminal) : Prop where
  row : t'.row = min (t.row + rows) 24
  column : t'.column = column
  within : ∀ b, 2000 ≤ b →
    (t'.buffer.Within b ↔ t.buffer.Within b ∧ (24 < t.row + rows → 2000 < b))

variable {t : TracedTerminal} {c : UInt8}

lemma advances_newline (ht : OnScreen t) :
    Advances t 1 0 (tracedScrollIfNeeded { t with row := t.row + 1, column := 0 }) := by
  have hrow := ht.row
  rw [tracedScrollIfNeeded]
  by_cases hlast : t.row + 1 = vgaHeight
  · have hlast' : t.row + 1 = 25 := hlast
    rw [if_pos hlast]
    refine ⟨?_, rfl, fun b _ => (within_scroll b t.buffer).trans (and_congr_right fun _ => ?_)⟩
    · change t.row + 1 - 1 = _
      omega
    · exact ⟨fun h _ => h, fun h => h (by omega)⟩
  · have hlast' : ¬t.row + 1 = 25 := hlast
    rw [if_neg hlast]
    refine ⟨?_, rfl, fun b _ => (and_iff_left fun h => ?_).symm⟩
    · change t.row + 1 = _
      omega
    · omega

/-- While the row does not end only cells of the screen are touched. -/
lemma advances_same_row {t' : TracedTerminal} {column : Nat} (ht : OnScreen t)
    (hrow : t'.row = t.row) (hcolumn : t'.column = column)
    (hwithin : ∀ b, 2000 ≤ b → (t'.buffer.Within b ↔ t.buffer.Within b)) :
    Advances t 0 column (tracedScrollIfNeeded t') := by
  have hlt := ht.row
  have hne : t'.row ≠ vgaHeight := by
    change t'.row ≠ 25
    omega
  rw [tracedScrollIfNeeded, if_neg hne]
  refine ⟨by omega, hcolumn, fun b hb => (hwithin b hb).trans (and_iff_left fun h => ?_).symm⟩
  omega

lemma within_putentryat (ht : OnScreen t) (c color : UInt8) {b : Nat} (hb : 2000 ≤ b) :
    (tracedPutentryat t c color t.column t.row).buffer.Within b ↔ t.buffer.Within b := by
  have hrow := ht.row
  have hcolumn := ht.column
  refine Traced.within_store.trans (and_iff_left ?_)
  change t.row * 80 + t.column < b
  omega

lemma advances_putchar (ht : OnScreen t) (c : UInt8) :
    Advances t (if EndsRow t.column c then 1 else 0) (nextColumn t.column c)
      (tracedPutchar t c) := by
  rw [tracedPutchar, nextColumn]
  by_cases hlf : c = 10
  · have hends : EndsRow t.column c := Or.inl hlf
    rw [if_pos hends, if_pos hends, if_pos hlf]
    exact advances_newline ht
  rw [if_neg hlf]
  by_cases hbs : c = 8
  · have hends : ¬EndsRow t.column c := fun h => h.elim hlf fun h => h.1 hbs
    rw [if_neg hends, if_neg hends, if_pos hbs, if_pos hbs]
    by_cases hcol : t.column > 0
    · rw [if_pos hcol]
      refine advances_same_row ht rfl rfl fun b hb => Traced.within_store.trans (and_iff_left ?_)
      have hrow := ht.row
      have hcolumn := ht.column
      change t.row * 80 + (t.column - 1) < b
      omega
    · rw [if_neg hcol]
      exact advances_same_row ht rfl (by omega) fun b _ => Iff.rfl
  have hdrawn : OnScreen (tracedPutentryat t c t.color t.column t.row) := ⟨ht.row, ht.column⟩
  by_cases hlast : t.column + 1 = vgaWidth
  · have hends : EndsRow t.column c := Or.inr ⟨hbs, hlast⟩
    rw [if_pos hends, if_pos hends, if_neg hbs]
    dsimp only
    rw [if_pos (show (tracedPutentryat t c t.color t.column t.row).column + 1 = vgaWidth
      from hlast)]
    have hline := advances_newline hdrawn
    exact ⟨hline.row, hline.column, fun b hb =>
      (hline.within b hb).trans (and_congr_left fun _ => within_putentryat ht c t.color hb)⟩
  · have hends : ¬EndsRow t.column c := fun h => h.elim hlf fun h => hlast h.2
    rw [if_neg hends, if_neg hends, if_neg hbs, if_neg hbs]
    dsimp only
    rw [if_neg (show (tracedPutentryat t c t.color t.column t.row).column + 1 ≠ vgaWidth
      from hlast)]
    exact advances_same_row ht rfl rfl fun b hb => within_putentryat ht c t.color hb

lemma Advances.onScreen {t' : TracedTerminal} {rows column : Nat} (h : Advances t rows column t')
    (hcolumn : column < 80) : OnScreen t' := by
  have hrow := h.row
  have hcol := h.column
  exact ⟨by omega, by omega⟩

lemma nextColumn_lt {column : Nat} (hcolumn : column < 80) (c : UInt8) :
    nextColumn column c < 80 := by
  unfold nextColumn
  by_cases hends : EndsRow column c
  · rw [if_pos hends]
    decide
  rw [if_neg hends]
  by_cases hbs : c = 8
  · rw [if_pos hbs]
    omega
  · have hne : ¬column + 1 = 80 := fun h => hends (Or.inr ⟨hbs, h⟩)
    rw [if_neg hbs]
    omega

lemma advances_write (ht : OnScreen t) (data : List UInt8) : ∃ column,
    Advances t (rowsEnded t.column data) column (tracedWrite t data) := by
  induction data generalizing t with
  | nil =>
    have hrow := ht.row
    refine ⟨t.column, ?_, rfl, fun b _ => (and_iff_left fun h => ?_).symm⟩
    · change t.row = min (t.row + 0) 24
      omega
    · change 24 < t.row + 0 at h
      omega
  | cons c data ih =>
    have hfirst := advances_putchar ht c
    obtain ⟨column, hrest⟩ := ih (hfirst.onScreen (nextColumn_lt ht.column c))
    rw [hfirst.column] at hrest
    have hrow := hfirst.row
    have hrow' := hrest.row
    refine ⟨column, ?_, hrest.column, fun b hb => ?_⟩
    · change (tracedWrite (tracedPutchar t c) data).row = _
      rw [rowsEnded]
      omega
    · change (tracedWrite (tracedPutchar t c) data).buffer.Within b ↔ _
      rw [hrest.within b hb, hfirst.within b hb, hrow, rowsEnded, and_assoc]
      refine and_congr_right fun _ => ?_
      omega

/-- What a text touches on a new terminal. -/
lemma within_write (memory : Cells) (data : List UInt8) {b : Nat} (hb : 2000 ≤ b) :
    (tracedWrite (terminalInitialize memory).traced data).buffer.Within b ↔
      (24 < rowsEnded 0 data → 2000 < b) := by
  have ht : OnScreen (terminalInitialize memory).traced :=
    ⟨Nat.zero_lt_succ 24, Nat.zero_lt_succ 79⟩
  obtain ⟨column, h⟩ := advances_write ht data
  have hstart : (terminalInitialize memory).traced.buffer.Within b := Traced.within_start _
  rw [h.within b hb, and_iff_right hstart]
  change (24 < 0 + rowsEnded 0 data → _) ↔ _
  rw [Nat.zero_add]

/-- No text touches more than the screen and the one cell behind it. -/
theorem write_touches_at_most (memory : Cells) (data : List UInt8) :
    ∀ a ∈ (tracedWrite (terminalInitialize memory).traced data).buffer.accesses,
      a.cell ≤ vgaHeight * vgaWidth := by
  intro a ha
  have h : (tracedWrite (terminalInitialize memory).traced data).buffer.Within 2001 :=
    (within_write memory data (by decide)).mpr fun _ => by decide
  exact Nat.le_of_lt_succ (h a ha)

/-- A text touches only the screen if and only if it ends fewer rows than the screen has. -/
theorem touchesOnlyScreen_iff (memory : Cells) (data : List UInt8) :
    (∀ a ∈ (tracedWrite (terminalInitialize memory).traced data).buffer.accesses,
      a.cell < vgaHeight * vgaWidth) ↔ rowsEnded 0 data < vgaHeight := by
  have h := within_write memory data (Nat.le_refl 2000)
  have hrows : (24 < rowsEnded 0 data → 2000 < 2000) ↔ rowsEnded 0 data < 25 := by omega
  exact h.trans hrows

/-- After 25 line feeds the cell behind the screen has been read and written. -/
theorem lineFeeds_leave_screen :
    Access.read 2000 ∈ (tracedWrite (terminalInitialize fun _ => 0).traced
      (List.replicate 25 10)).buffer.accesses ∧
    Access.write 2000 ∈ (tracedWrite (terminalInitialize fun _ => 0).traced
      (List.replicate 25 10)).buffer.accesses ∧
    ¬2000 < vgaHeight * vgaWidth := by
  decide +kernel

end SaxonOS.Proofs
