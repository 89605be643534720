import SaxonOS.Common
import Mathlib.Logic.Function.Basic

/-!
# Interrupts and system calls

The way of an `int 0x80` through `irq_install`, the `irq` macro of `asm/idt.asm`,
`irq_handler` and `syscall_handler`, and the stubs that `DEFN_SYSCALL0` and `DEFN_SYSCALL1`
define. The functions behind the table `syscalls` act on a state `σ`, as does `outb`.
-/

namespace SaxonOS

/-- The registers of the interrupted code. -/
structure Cpu where
  (gs fs es ds : UInt32)
  (edi esi ebp ebx edx ecx eax : UInt32)
  (eip cs eflags esp ss : UInt32)

/-- `struct regs`. -/
structure Regs where
  (gs fs es ds : UInt32)
  (edi esi ebp esp ebx edx ecx eax : UInt32)
  (intNo errCode : UInt32)
  (eip cs eflags useresp ss : UInt32)

/-- The labels that gates point to. -/
inductive Label
  | isr (n : Nat)
  | irq (n : Nat)

structure IdtEntry where
  base : Label
  sel : UInt16
  flags : UInt8

abbrev Idt := UInt8 → Option IdtEntry

def idtSetGate (idt : Idt) (num : UInt8) (base : Label) (sel : UInt16) (flags : UInt8) : Idt :=
  Function.update idt num (some ⟨base, sel, flags ||| 0x60⟩)

def irqInstall (idt : Idt) : Idt :=
  idtSetGate
    ((List.range 16).foldl
      (fun idt i => idtSetGate idt (UInt8.ofNat (32 + i)) (.irq i) 0x08 0x8E) idt)
    128 (.irq 96) 0x08 0xEE

/-- The frame that the processor, the macro `irq` and `irq_common_stub` push. -/
def irqEntry (n : Nat) (kernelEsp : UInt32) (cpu : Cpu) : Regs where
  gs := cpu.gs
  fs := cpu.fs
  es := cpu.es
  ds := cpu.ds
  edi := cpu.edi
  esi := cpu.esi
  ebp := cpu.ebp
  esp := kernelEsp
  ebx := cpu.ebx
  edx := cpu.edx
  ecx := cpu.ecx
  eax := cpu.eax
  intNo := UInt32.ofNat n + 32
  errCode := 0
  eip := cpu.eip
  cs := cpu.cs
  eflags := cpu.eflags
  useresp := cpu.esp
  ss := cpu.ss

/-- The end of `irq_common_stub`, where `popa` passes over the `esp` of the frame. -/
def irqReturn (r : Regs) : Cpu where
  gs := r.gs
  fs := r.fs
  es := r.es
  ds := r.ds
  edi := r.edi
  esi := r.esi
  ebp := r.ebp
  ebx := r.ebx
  edx := r.edx
  ecx := r.ecx
  eax := r.eax
  eip := r.eip
  cs := r.cs
  eflags := r.eflags
  esp := r.useresp
  ss := r.ss

abbrev Handler (σ : Type) := Regs → σ → Except Fault (Regs × σ)

/-- `irq_routines`, with `none` for a null pointer. -/
abbrev IrqRoutines (σ : Type) := Nat → Option (Handler σ)

def irqInstallHandler {σ : Type} (routines : IrqRoutines σ) (irq : Nat) (handler : Handler σ) :
    IrqRoutines σ := Function.update routines irq (some handler)

def irqHandler {σ : Type} (outb : UInt16 → UInt8 → σ → σ) (routines : IrqRoutines σ) : Handler σ :=
  fun r w => do
    let index := (r.intNo - 32).toNat
    let (r, w) ←
      if index < 256 then
        match routines index with
        | some handler => handler r w
        | none => .ok (r, w)
      else .error .outOfBounds
    let w := if r.intNo.toUInt8 ≥ 40 ∧ r.intNo ≠ 0x80 then outb 0xA0 0x20 w else w
    let w := if r.intNo ≠ 0x80 then outb 0x20 0x20 w else w
    .ok (r, w)

/-- An `int` with this vector. Without a gate, or with one that is not present or has a lower
privilege level, it is a fault, and `fault_handler` ends in `for (;;)`. -/
def softwareInterrupt {σ : Type} (outb : UInt16 → UInt8 → σ → σ) (idt : Idt)
    (routines : IrqRoutines σ) (kernelEsp : UInt32) (vector : UInt8) (cpu : Cpu) (w : σ) :
    Except Fault (Cpu × σ) :=
  match idt vector with
  | some ⟨.irq n, _, flags⟩ =>
    if flags &&& 0x80 ≠ 0 ∧ (cpu.cs &&& (3 : UInt32)) ≤ ((flags >>> 5) &&& 3).toUInt32 then do
      let (r, w) ← irqHandler outb routines (irqEntry n kernelEsp cpu) w
      .ok (irqReturn r, w)
    else .error .diverge
  | _ => .error .diverge

inductive SysFn
  | sysRead
  | sysWrite
  | sysTime
  deriving DecidableEq

/-- The words that `syscall_handler` pushes, the last of them first. -/
structure SysArgs where
  (arg1 arg2 arg3 arg4 arg5 : UInt32)

def syscalls : List (Option SysFn) :=
  [some .sysRead, some .sysWrite, none, none, none, none, none, none, none, none,
    none, none, none, some .sysTime, none, none, none, none, none, none, none]

def syscallCount : UInt32 := 21

section

variable {σ : Type} (outb : UInt16 → UInt8 → σ → σ)
  (service : SysFn → SysArgs → σ → Except Fault (UInt32 × σ)) (idt : Idt)
  (routines : IrqRoutines σ) (kernelEsp : UInt32)

def syscallHandler : Handler σ := fun r w =>
  if r.eax ≥ syscallCount then .ok (r, w)
  else
    match syscalls[r.eax.toNat]? with
    | some (some fn) => do
      let (ret, w) ← service fn ⟨r.ebx, r.ecx, r.edx, r.esi, r.edi⟩ w
      .ok ({ r with eax := ret }, w)
    | some none => .ok (r, w)
    | none => .error .outOfBounds

/-- `irq_routines` after `syscall_install`. -/
def syscallInstall : IrqRoutines σ := irqInstallHandler routines 0x60 (syscallHandler service)

/-- The `int $0x80` of a stub, in a kernel that has installed its gates and the handler. -/
def int80 (cpu : Cpu) (w : σ) : Except Fault (UInt32 × σ) := do
  let (cpu, w) ← softwareInterrupt outb (irqInstall idt) (syscallInstall service routines)
    kernelEsp 0x80 cpu w
  .ok (cpu.eax, w)

/-- The macro `DEFN_SYSCALL0`. -/
def defnSyscall0 (num : UInt32) (cpu : Cpu) (w : σ) : Except Fault (UInt32 × σ) :=
  int80 outb service idt routines kernelEsp { cpu with eax := num } w

/-- The macro `DEFN_SYSCALL1`. -/
def defnSyscall1 (num arg1 : UInt32) (cpu : Cpu) (w : σ) : Except Fault (UInt32 × σ) :=
  int80 outb service idt routines kernelEsp { cpu with eax := num, ebx := arg1 } w

def syscallSysRead (cpu : Cpu) (w : σ) : Except Fault (UInt32 × σ) :=
  defnSyscall0 outb service idt routines kernelEsp 0 cpu w

def syscallSysWrite (arg1 : UInt32) (cpu : Cpu) (w : σ) : Except Fault (UInt32 × σ) :=
  defnSyscall1 outb service idt routines kernelEsp 1 arg1 cpu w

def syscallSysTime (arg1 : UInt32) (cpu : Cpu) (w : σ) : Except Fault (UInt32 × σ) :=
  defnSyscall1 outb service idt routines kernelEsp 1 arg1 cpu w

end

end SaxonOS
