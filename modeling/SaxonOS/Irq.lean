import SaxonOS.Syscall
import SaxonOS.Lib.Pic
import SaxonOS.Lib.Simulation

/-!
# Interrupts of the devices

`irq_remap` and `irq_uninstall_handler` of `irq.c`, `idt_install`, and what the processor does with
a line that the controllers put through. A service is a handler and what it acts on; the devices
that it drives may request lines meanwhile.

Beside it stands what the controllers are for: the first line that waits is served, and waits no
more.
-/

namespace SaxonOS
open Lib

/-- The interrupt controllers, and everything else that handlers act on. -/
structure Board (τ : Type) where
  pics : PicPair
  rest : τ

section

variable {τ : Type}

/-- The controllers, which no other port belongs to. -/
def Board.outb (port : UInt16) (v : UInt8) (w : Board τ) : Board τ :=
  { w with pics := w.pics.outb port v }

def irqRemap (w : Board τ) : Board τ :=
  let w := w.outb 0x20 0x11
  let w := w.outb 0xA0 0x11
  let w := w.outb 0x21 0x20
  let w := w.outb 0xA1 0x28
  let w := w.outb 0x21 0x04
  let w := w.outb 0xA1 0x02
  let w := w.outb 0x21 0x01
  let w := w.outb 0xA1 0x01
  let w := w.outb 0x21 0x0
  w.outb 0xA1 0x0

def irqUninstallHandler {σ : Type} (routines : IrqRoutines σ) (irq : Nat) : IrqRoutines σ :=
  Function.update routines irq none

/-- `idt_install`, after its `memset`. -/
def idtInstall : Idt :=
  (List.range 32).foldl
    (fun idt i => idtSetGate idt (UInt8.ofNat i) (.isr i) 0x08 0x8E) fun _ => none

/-- The gates of the kernel after `idt_install` and `irq_install`. -/
def kernelIdt : Idt := irqInstall idtInstall

/-- A handler, with the lines that its devices request while it runs. It may change the frame of
the interrupted code, but for the number of the interrupt. -/
structure Service (τ : Type) where
  run : Regs → τ → Except Fault (Regs × τ × List (Fin 16))
  keeps : ∀ r w p, run r w = .ok p → p.1.intNo = r.intNo

def Service.handler (h : Service τ) : Handler (Board τ) := fun r w => do
  let (r, rest, lines) ← h.run r w.rest
  .ok (r, ⟨lines.foldl PicPair.raise w.pics, rest⟩)

def Cpu.InterruptsOn (cpu : Cpu) : Prop := cpu.eflags &&& 0x200 ≠ 0

/-- The stack pointer at `pusha`, and the words above the frame on the stack of kernel code. -/
structure KernelStack where
  esp : UInt32
  above : UInt32 × UInt32

/-- The frame of an interrupt from a device. Kernel code is interrupted on its own stack, and its
`esp` and `ss` are not pushed. -/
def interruptEntry (n : Nat) (k : KernelStack) (cpu : Cpu) : Regs :=
  if cpu.cs &&& 3 = 0 then
    { irqEntry n k.esp cpu with useresp := k.above.1, ss := k.above.2 }
  else irqEntry n k.esp cpu

def interruptReturn (cpu : Cpu) (r : Regs) : Cpu :=
  if r.cs &&& 3 = 0 then { irqReturn r with esp := cpu.esp, ss := cpu.ss } else irqReturn r

/-- An interrupt from the controllers, which no privilege level holds back. -/
def hardwareInterrupt (idt : Idt) (routines : IrqRoutines (Board τ)) (k : KernelStack)
    (vector : UInt8) (cpu : Cpu) (w : Board τ) : Except Fault (Cpu × Board τ) :=
  match idt vector with
  | some ⟨.irq n, _, flags⟩ =>
    if flags &&& 0x80 ≠ 0 then do
      let (r, w) ← irqHandler Board.outb routines (interruptEntry n k cpu) w
      .ok (interruptReturn cpu r, w)
    else .error .diverge
  | _ => .error .diverge

/-- What happens to the kernel: it or one of its devices does some work, which may request lines, a
handler is installed or taken out, the processor takes an interrupt from the controllers or one
that is gone by then, or a program in user mode executes `int`. The processor goes on with the
registers that come last. -/
inductive IrqOp (τ : Type)
  | work (f : τ → τ × List (Fin 16))
  | install (irq : Nat) (service : Service τ)
  | uninstall (irq : Nat)
  | interrupt (k : KernelStack) (vector : UInt8) (cpu cpu' : Cpu)
  | spurious (k : KernelStack) (behind : Bool) (cpu cpu' : Cpu)
  | software (k : KernelStack) (vector : UInt8) (cpu cpu' : Cpu)

structure IrqSystem (τ : Type) where
  routines : IrqRoutines (Board τ)
  board : Board τ

namespace IrqSystem

/-- After `irq_install`, with the handlers that are installed before it. -/
def start (services : Nat → Option (Service τ)) (w : Board τ) : IrqSystem τ :=
  ⟨fun n => (services n).map Service.handler, irqRemap w⟩

def Step (s : IrqSystem τ) : IrqOp τ → IrqSystem τ → Prop
  | .work f, s' => s' = { s with board :=
    ⟨(f s.board.rest).2.foldl PicPair.raise s.board.pics, (f s.board.rest).1⟩ }
  | .install irq h, s' =>
    irq < 256 ∧ s' = { s with routines := irqInstallHandler s.routines irq h.handler }
  | .uninstall irq, s' => irq < 256 ∧ s' = { s with routines := irqUninstallHandler s.routines irq }
  | .interrupt k vector cpu cpu', s' => cpu.InterruptsOn ∧ ∃ pics w,
    s.board.pics.acknowledge = some (vector, pics) ∧
    hardwareInterrupt kernelIdt s.routines k vector cpu ⟨pics, s.board.rest⟩ = .ok (cpu', w) ∧
    s' = { s with board := w }
  | .spurious k behind cpu cpu', s' => cpu.InterruptsOn ∧ ∃ w,
    hardwareInterrupt kernelIdt s.routines k (s.board.pics.spurious behind).1 cpu
      ⟨(s.board.pics.spurious behind).2, s.board.rest⟩ = .ok (cpu', w) ∧
    s' = { s with board := w }
  | .software k vector cpu cpu', s' => cpu.cs &&& 3 = 3 ∧ ∃ w,
    softwareInterrupt Board.outb kernelIdt s.routines k.esp vector cpu s.board = .ok (cpu', w) ∧
    s' = { s with board := w }

end IrqSystem

structure IrqWorld (τ : Type) where
  waiting : Fin 16 → Bool
  service : Nat → Option (Service τ)
  rest : τ

namespace IrqWorld

def start (services : Nat → Option (Service τ)) (rest : τ) : IrqWorld τ :=
  ⟨fun _ => false, services, rest⟩

/-- The service with this number runs, if there is one. -/
def serve (w : IrqWorld τ) (n : Nat) (r : Regs) : Except Fault (Regs × IrqWorld τ) :=
  match w.service n with
  | some h => do
    let (r, rest, lines) ← h.run r w.rest
    .ok (r, { w with rest, waiting := lines.foldl PicPair.request w.waiting })
  | none => .ok (r, w)

/-- A line that waits no more. -/
def take (w : IrqWorld τ) (line : Fin 16) : IrqWorld τ :=
  { w with waiting := Function.update w.waiting line false }

def Step (w : IrqWorld τ) : IrqOp τ → IrqWorld τ → Prop
  | .work f, w' => w' = { w with
    rest := (f w.rest).1
    waiting := (f w.rest).2.foldl PicPair.request w.waiting }
  | .install irq h, w' =>
    irq < 256 ∧ w' = { w with service := Function.update w.service irq (some h) }
  | .uninstall irq, w' =>
    irq < 256 ∧ w' = { w with service := Function.update w.service irq none }
  | .interrupt k vector cpu cpu', w' => cpu.InterruptsOn ∧ ∃ (line : Fin 16) (r : Regs),
    PicPair.Highest w.waiting line ∧ vector = UInt8.ofNat (32 + line.val) ∧
    (w.take line).serve line.val (interruptEntry line.val k cpu) = .ok (r, w') ∧
    cpu' = interruptReturn cpu r
  | .spurious k behind cpu cpu', w' => cpu.InterruptsOn ∧ ∃ r,
    w.serve (if behind then 15 else 7) (interruptEntry (if behind then 15 else 7) k cpu) =
      .ok (r, w') ∧
    cpu' = interruptReturn cpu r
  | .software k vector cpu cpu', w' => cpu.cs &&& 3 = 3 ∧ ∃ n r,
    (n < 16 ∨ n = 96) ∧ vector = UInt8.ofNat (32 + n) ∧
    w.serve n (irqEntry n k.esp cpu) = .ok (r, w') ∧ cpu' = irqReturn r

end IrqWorld

end

end SaxonOS
