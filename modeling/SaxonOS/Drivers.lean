import SaxonOS.Irq
import SaxonOS.Rtc
import SaxonOS.Terminal

/-!
# The drivers behind the interrupts

`drivers/keyboard.c`, `drivers/timer.c` and `rtc_handler`, over the keyboard controller, the ticks
of the timer and the clock chip, with the handlers that `kernel_main` installs.
-/

namespace SaxonOS
open Lib

/-- The scancodes that wait to be read, and the last one that was. -/
structure Keyboard where
  queue : List UInt8
  last : UInt8

namespace Keyboard

/-- Port 0x60. With nothing to read it is the last scancode again; if another one waits, line 1 is
requested for it. -/
def read (k : Keyboard) : UInt8 × Keyboard × List (Fin 16) :=
  match k.queue with
  | [] => (k.last, k, [])
  | b :: queue => (b, ⟨queue, b⟩, if queue.isEmpty then [] else [PicPair.line 1])

/-- The keyboard sends a scancode. -/
def send (k : Keyboard) (b : UInt8) : Keyboard × List (Fin 16) :=
  (⟨k.queue ++ [b], k.last⟩, if k.queue.isEmpty then [PicPair.line 1] else [])

end Keyboard

/-- The devices that interrupt, and what their handlers write. -/
structure Devices where
  keyboard : Keyboard
  terminal : Terminal
  jiffies : UInt32
  cmos : Cmos
  rtc : Rtc

/-- The entries of `keyboard_table_uk` up to the last one that is not zero. -/
def keyboardTable : List UInt8 :=
  [0, 27, 0x31, 0x32, 0x33, 0x34, 0x35, 0x36, 0x37, 0x38,
    0x39, 0x30, 0x2D, 0x3D, 8,
    9,
    0x71, 0x77, 0x65, 0x72,
    0x74, 0x79, 0x75, 0x69, 0x6F, 0x70, 0x5B, 0x5D, 10,
    0,
    0x61, 0x73, 0x64, 0x66, 0x67, 0x68, 0x6A, 0x6B, 0x6C, 0x3B,
    0x27, 0x60, 0,
    0x5C, 0x7A, 0x78, 0x63, 0x76, 0x62, 0x6E,
    0x6D, 0x2C, 0x2E, 0x2F, 0,
    0x2A,
    0,
    0x20,
    0,
    0,
    0, 0, 0, 0, 0, 0, 0, 0,
    0,
    0,
    0,
    0,
    0,
    0,
    0x2D,
    0,
    0,
    0,
    0x2B]

def keyboardTableUk (scancode : UInt8) : UInt8 := keyboardTable.getD scancode.toNat 0

/-- One turn of the loop of `keyboard_handler`, which may read the port twice. The loop ends when
the second byte is not zero. -/
def pollScancode (scancode : UInt8) (k : Keyboard) : Bool × UInt8 × Keyboard × List (Fin 16) :=
  let (b, k, lines) := k.read
  if b ≠ scancode then
    let (scancode, k, more) := k.read
    (decide (scancode > 0), scancode, k, lines ++ more)
  else (false, scancode, k, lines)

/-- The loop, which has requested `lines` so far. -/
def awaitScancode : Nat → UInt8 → Keyboard → List (Fin 16) →
    Except Fault (UInt8 × Keyboard × List (Fin 16))
  | fuel, scancode, k, lines =>
    let (found, scancode, k, more) := pollScancode scancode k
    if found then .ok (scancode, k, lines ++ more)
    else
      match fuel with
      | 0 => .error .diverge
      | fuel + 1 => awaitScancode fuel scancode k (lines ++ more)

/-- What a scancode writes: releases, with bit 7 set, write nothing. -/
def typeScancode (t : Terminal) (scancode : UInt8) : Terminal :=
  if scancode &&& 0x80 = 0 then terminalPutchar t (keyboardTableUk scancode) else t

def keyboardHandler (fuel : Nat) (d : Devices) : Except Fault (Devices × List (Fin 16)) := do
  let (scancode, keyboard, lines) ← awaitScancode fuel 0 d.keyboard []
  .ok ({ d with keyboard, terminal := typeScancode d.terminal scancode }, lines)

def timerHandler (d : Devices) : Except Fault (Devices × List (Fin 16)) :=
  .ok ({ d with jiffies := d.jiffies + 1 }, [])

/-- `rtc_handler`, with `century_register` at its initial 0. -/
def rtcHandler (fuel : Nat) (d : Devices) : Except Fault (Devices × List (Fin 16)) := do
  let cmos := d.cmos.outb cmosAddress 0x0C
  let (cmos, rtc) ← readRtc fuel 0 cmos d.rtc
  .ok ({ d with cmos, rtc }, [])

/-- A handler that leaves the frame as it is. -/
def Service.ofHandler {τ : Type} (f : τ → Except Fault (τ × List (Fin 16))) : Service τ where
  run r w := do
    let (w, lines) ← f w
    .ok (r, w, lines)
  keeps r w p h := by
    obtain ⟨q, -, hq⟩ := bind_eq_ok h
    obtain rfl := Except.ok.inj hq
    rfl

/-- The handlers that `kernel_main` has installed before `irq_install`. -/
def kernelServices (fuel : Nat) (syscall : Service Devices) : Nat → Option (Service Devices) :=
  let services : Nat → Option (Service Devices) := fun _ => none
  let services := Function.update services 1 (some (.ofHandler (keyboardHandler fuel)))
  let services := Function.update services 0 (some (.ofHandler timerHandler))
  let services := Function.update services 8 (some (.ofHandler (rtcHandler fuel)))
  Function.update services 0x60 (some syscall)

/-- A key, a tick of the timer, an interrupt of the clock chip with other registers, a request of
another device, what the processor takes, and an `int` of a program. -/
inductive DriverOp
  | key (scancode : UInt8)
  | tick
  | clock (cmos : Cmos)
  | other (line : Fin 16)
  | interrupt (k : KernelStack) (vector : UInt8) (cpu cpu' : Cpu)
  | spurious (k : KernelStack) (behind : Bool) (cpu cpu' : Cpu)
  | software (k : KernelStack) (vector : UInt8) (cpu cpu' : Cpu)

def DriverOp.toIrq : DriverOp → IrqOp Devices
  | .key b => .work fun d => ({ d with keyboard := (d.keyboard.send b).1 }, (d.keyboard.send b).2)
  | .tick => .work fun d => (d, [PicPair.line 0])
  | .clock cmos => .work fun d => ({ d with cmos }, [PicPair.line 8])
  | .other line => .work fun d => (d, [line])
  | .interrupt k vector cpu cpu' => .interrupt k vector cpu cpu'
  | .spurious k behind cpu cpu' => .spurious k behind cpu cpu'
  | .software k vector cpu cpu' => .software k vector cpu cpu'

def IrqSystem.Driven (s : IrqSystem Devices) (op : DriverOp) (s' : IrqSystem Devices) : Prop :=
  s.Step op.toIrq s'

abbrev DriverRun (fuel : Nat) (syscall : Service Devices) (b : Board Devices) :
    List (IrqSystem Devices × DriverOp) → IrqSystem Devices → Prop :=
  Run IrqSystem.Driven (IrqSystem.start (kernelServices fuel syscall) b)

/-- The scancodes of a list of steps, the latest step first. -/
def scancodes : List DriverOp → List UInt8
  | [] => []
  | .key b :: ops => scancodes ops ++ [b]
  | _ :: ops => scancodes ops

def ticks : List DriverOp → Nat
  | [] => 0
  | .tick :: ops => ticks ops + 1
  | _ :: ops => ticks ops

/-- A system call that leaves the keyboard, the screen and `jiffies` alone. -/
def Service.Quiet (syscall : Service Devices) (r : Regs) (d : Devices) : Prop :=
  ∀ r' d' lines, syscall.run r d = .ok (r', d', lines) →
    d'.keyboard = d.keyboard ∧ d'.terminal = d.terminal ∧ d'.jiffies = d.jiffies ∧
      PicPair.line 0 ∉ lines ∧ PicPair.line 1 ∉ lines

/-- A scancode comes when none waits any more, and a tick when the last one has been served. No
other device has their lines, and no program runs their handlers with `int` or makes a system call
that is not quiet. -/
def DriverOp.Prompt (syscall : Service Devices) (d : Devices) (waiting : Fin 16 → Bool) :
    DriverOp → Prop
  | .key b => b ≠ 0 ∧ d.keyboard.queue = []
  | .tick => waiting (PicPair.line 0) = false
  | .other line => line ≠ PicPair.line 0 ∧ line ≠ PicPair.line 1
  | .software k vector cpu _ => vector ≠ 32 ∧ vector ≠ 33 ∧
      (vector = 128 → syscall.Quiet (irqEntry 96 k.esp cpu) d)
  | _ => True

end SaxonOS
