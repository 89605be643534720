import Mathlib.Logic.Function.Basic

/-!
# The text terminal

`terminal_initialize`, `terminal_putentryat`, `terminal_putchar` and `terminal_write` of
`kernel.c`. The memory behind `terminal_buffer` is a function of the cell index, also past the
last visible cell.
-/

namespace SaxonOS

def vgaWidth : Nat := 80

def vgaHeight : Nat := 25

def vgaEntryColor (fg bg : UInt8) : UInt8 := fg ||| bg <<< 4

def vgaEntry (uc color : UInt8) : UInt16 := uc.toUInt16 ||| color.toUInt16 <<< 8

abbrev Cells := Nat → UInt16

structure Terminal where
  row : Nat
  column : Nat
  color : UInt8
  buffer : Cells

/-- A row of `terminal_buffer` filled with blanks by the inner loop of `terminal_initialize`. -/
def initializeRow (color : UInt8) (buffer : Cells) (y : Nat) : Cells :=
  (List.range vgaWidth).foldl
    (fun buffer x => Function.update buffer (y * vgaWidth + x) (vgaEntry 0x20 color)) buffer

/-- `terminal_initialize`, over the memory that is at `0xC00B8000`. The colours are
`VGA_COLOR_LIGHT_GREY` on `VGA_COLOR_BLACK`. -/
def terminalInitialize (memory : Cells) : Terminal :=
  { row := 0, column := 0, color := vgaEntryColor 7 0
    buffer := (List.range vgaHeight).foldl (initializeRow (vgaEntryColor 7 0)) memory }

def terminalPutentryat (t : Terminal) (c color : UInt8) (x y : Nat) : Terminal :=
  { t with buffer := Function.update t.buffer (y * vgaWidth + x) (vgaEntry c color) }

/-- The inner loop of the scroll, which runs for `x <= VGA_WIDTH`. -/
def copyRow (buffer : Cells) (y : Nat) : Cells :=
  (List.range (vgaWidth + 1)).foldl
    (fun buffer x =>
      Function.update buffer (y * vgaWidth + x) (buffer ((y + 1) * vgaWidth + x))) buffer

/-- The loop after it, with the `y` that the scroll has reached. -/
def clearRow (buffer : Cells) (y : Nat) : Cells :=
  (List.range (vgaWidth + 1)).foldl
    (fun buffer x => Function.update buffer (y * vgaWidth + x) 0) buffer

def scroll (buffer : Cells) : Cells :=
  clearRow ((List.range (vgaHeight - 1)).foldl copyRow buffer) (vgaHeight - 1)

/-- The `if (terminal_row == VGA_HEIGHT)` at the end of `terminal_putchar`. -/
def scrollIfNeeded (t : Terminal) : Terminal :=
  if t.row = vgaHeight then { t with row := t.row - 1, column := 0, buffer := scroll t.buffer }
  else t

def terminalPutchar (t : Terminal) (c : UInt8) : Terminal :=
  scrollIfNeeded
    (if c = 10 then { t with row := t.row + 1, column := 0 }
    else if c = 8 then
      if t.column > 0 then
        { t with column := t.column - 1
                 buffer := Function.update t.buffer (t.row * vgaWidth + (t.column - 1)) 0 }
      else t
    else
      let t := terminalPutentryat t c t.color t.column t.row
      if t.column + 1 = vgaWidth then { t with column := 0, row := t.row + 1 }
      else { t with column := t.column + 1 })

def terminalWrite (t : Terminal) (data : List UInt8) : Terminal := data.foldl terminalPutchar t

end SaxonOS
