import SaxonOS.Terminal
import SaxonOS.Lib.Traced

/-!
# The text terminal over a buffer that is watched

`terminal_putentryat`, `terminal_putchar` and `terminal_write` of `kernel.c` again, with every
read and every write of `terminal_buffer` on the record of the buffer.
-/

namespace SaxonOS
open Lib

structure TracedTerminal where
  row : Nat
  column : Nat
  color : UInt8
  buffer : Traced UInt16

/-- The terminal alone. -/
def TracedTerminal.untraced (t : TracedTerminal) : Terminal :=
  { row := t.row, column := t.column, color := t.color, buffer := t.buffer.cell }

/-- The terminal with a record that starts now. -/
def Terminal.traced (t : Terminal) : TracedTerminal :=
  { row := t.row, column := t.column, color := t.color, buffer := Traced.start t.buffer }

def tracedPutentryat (t : TracedTerminal) (c color : UInt8) (x y : Nat) : TracedTerminal :=
  { t with buffer := t.buffer.store (y * vgaWidth + x) (vgaEntry c color) }

/-- The inner loop of the scroll, which runs for `x <= VGA_WIDTH`. -/
def tracedCopyRow (buffer : Traced UInt16) (y : Nat) : Traced UInt16 :=
  (List.range (vgaWidth + 1)).foldl
    (fun buffer x => buffer.copy (y * vgaWidth + x) ((y + 1) * vgaWidth + x)) buffer

/-- The loop after it, with the `y` that the scroll has reached. -/
def tracedClearRow (buffer : Traced UInt16) (y : Nat) : Traced UInt16 :=
  (List.range (vgaWidth + 1)).foldl (fun buffer x => buffer.store (y * vgaWidth + x) 0) buffer

def tracedScroll (buffer : Traced UInt16) : Traced UInt16 :=
  tracedClearRow ((List.range (vgaHeight - 1)).foldl tracedCopyRow buffer) (vgaHeight - 1)

def tracedScrollIfNeeded (t : TracedTerminal) : TracedTerminal :=
  if t.row = vgaHeight then
    { t with row := t.row - 1, column := 0, buffer := tracedScroll t.buffer }
  else t

def tracedPutchar (t : TracedTerminal) (c : UInt8) : TracedTerminal :=
  tracedScrollIfNeeded
    (if c = 10 then { t with row := t.row + 1, column := 0 }
    else if c = 8 then
      if t.column > 0 then
        { t with column := t.column - 1
                 buffer := t.buffer.store (t.row * vgaWidth + (t.column - 1)) 0 }
      else t
    else
      let t := tracedPutentryat t c t.color t.column t.row
      if t.column + 1 = vgaWidth then { t with column := 0, row := t.row + 1 }
      else { t with column := t.column + 1 })

def tracedWrite (t : TracedTerminal) (data : List UInt8) : TracedTerminal :=
  data.foldl tracedPutchar t

end SaxonOS
