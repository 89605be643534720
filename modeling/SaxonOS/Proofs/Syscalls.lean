import SaxonOS.Syscall

/-!
# Where a system call ends up

From the registers of a stub to the function it is named after: gate 128, `irq96`, entry `0x60`
of `irq_routines`, the entry of `syscalls` that `eax` names, and the words that are pushed.
-/

namespace SaxonOS.Proofs
open SaxonOS

/-- The stub of a function. `syscall_sys_read` has no argument. -/
def stubOf (fn : SysFn) {σ : Type} (outb : UInt16 → UInt8 → σ → σ)
    (service : SysFn → SysArgs → σ → Except Fault (UInt32 × σ)) (idt : Idt)
    (routines : IrqRoutines σ) (kernelEsp arg : UInt32) (cpu : Cpu) (w : σ) :
    Except Fault (UInt32 × σ) :=
  match fn with
  | .sysRead => syscallSysRead outb service idt routines kernelEsp cpu w
  | .sysWrite => syscallSysWrite outb service idt routines kernelEsp arg cpu w
  | .sysTime => syscallSysTime outb service idt routines kernelEsp arg cpu w

def HasArgument : SysFn → Prop
  | .sysRead => False
  | .sysWrite => True
  | .sysTime => True

/-- Whatever the functions do, the stub of `fn` does what one call of `fn` does, with the
argument of the stub as the first parameter. -/
def ReachesOwn (fn : SysFn) (arg : UInt32) (cpu : Cpu) : Prop :=
  ∃ args : SysArgs, (HasArgument fn → args.arg1 = arg) ∧
    ∀ (σ : Type) (outb : UInt16 → UInt8 → σ → σ)
      (service : SysFn → SysArgs → σ → Except Fault (UInt32 × σ)) (idt : Idt)
      (routines : IrqRoutines σ) (kernelEsp : UInt32) (w : σ),
      stubOf fn outb service idt routines kernelEsp arg cpu w = service fn args w

section Path

variable {σ : Type} {outb : UInt16 → UInt8 → σ → σ}
  {service : SysFn → SysArgs → σ → Except Fault (UInt32 × σ)} {idt : Idt}
  {routines : IrqRoutines σ} {kernelEsp : UInt32}

lemma irqInstall_syscall (idt : Idt) : irqInstall idt 0x80 = some ⟨.irq 96, 0x08, 0xEE⟩ := by
  rw [irqInstall, idtSetGate]
  exact Function.update_self _ _ _

lemma cpl_le (cs : UInt32) : (cs &&& (3 : UInt32)) ≤ (((0xEE : UInt8) >>> 5) &&& 3).toUInt32 := by
  rw [UInt32.le_iff_toNat_le, UInt32.toNat_and]
  exact Nat.and_le_right

/-- `irq_handler` on the frame of `irq96` calls `syscall_handler` and tells no controller. -/
lemma irqHandler_syscall {r : Regs} (hr : r.intNo = 0x80) (w : σ)
    (hkeep : ∀ r' w', syscallHandler service r w = .ok (r', w') → r'.intNo = 0x80) :
    irqHandler outb (syscallInstall service routines) r w = syscallHandler service r w := by
  have hindex : (r.intNo - 32).toNat = 0x60 := by
    rw [hr]
    decide
  have hroutine : syscallInstall service routines 0x60 = some (syscallHandler service) := by
    rw [syscallInstall, irqInstallHandler, Function.update_self]
  rw [irqHandler]
  simp only [hindex, hroutine]
  rw [if_pos (by decide)]
  cases hcall : syscallHandler service r w with
  | error e => rfl
  | ok p =>
    have hno := hkeep p.1 p.2 hcall
    simp [bind, Except.bind, hno]

lemma syscallHandler_intNo {r r' : Regs} {w w' : σ}
    (h : syscallHandler service r w = .ok (r', w')) : r'.intNo = r.intNo := by
  rw [syscallHandler] at h
  split at h
  · cases h
    rfl
  · split at h
    · next fn hfn =>
      cases hcall : service fn ⟨r.ebx, r.ecx, r.edx, r.esi, r.edi⟩ w with
      | error e =>
        rw [hcall] at h
        cases h
      | ok p =>
        rw [hcall] at h
        cases h
        rfl
    · cases h
      rfl
    · cases h

/-- A frame whose `eax` names a function. -/
lemma syscallHandler_call {r : Regs} {fn : SysFn} (hlt : ¬r.eax ≥ syscallCount)
    (hfn : syscalls[r.eax.toNat]? = some (some fn)) (w : σ) :
    syscallHandler service r w = (service fn ⟨r.ebx, r.ecx, r.edx, r.esi, r.edi⟩ w).map
      fun p => ({ r with eax := p.1 }, p.2) := by
  rw [syscallHandler, if_neg hlt, hfn]
  dsimp only
  cases service fn ⟨r.ebx, r.ecx, r.edx, r.esi, r.edi⟩ w with
  | error e => rfl
  | ok p => rfl

/-- A frame whose `eax` names none. -/
lemma syscallHandler_empty {r : Regs}
    (h : r.eax ≥ syscallCount ∨ syscalls[r.eax.toNat]? = some none) (w : σ) :
    syscallHandler service r w = .ok (r, w) := by
  rw [syscallHandler]
  split
  · rfl
  · next hlt =>
    rw [h.resolve_left hlt]

lemma int80_call (cpu : Cpu) {fn : SysFn} (hlt : ¬cpu.eax ≥ syscallCount)
    (hfn : syscalls[cpu.eax.toNat]? = some (some fn)) (w : σ) :
    int80 outb service idt routines kernelEsp cpu w =
      service fn ⟨cpu.ebx, cpu.ecx, cpu.edx, cpu.esi, cpu.edi⟩ w := by
  have hpresent : (0xEE : UInt8) &&& 0x80 ≠ 0 := by decide
  have hintNo : (irqEntry 96 kernelEsp cpu).intNo = 0x80 := by
    change UInt32.ofNat 96 + 32 = 0x80
    decide
  have hcall : syscallHandler service (irqEntry 96 kernelEsp cpu) w =
      (service fn ⟨cpu.ebx, cpu.ecx, cpu.edx, cpu.esi, cpu.edi⟩ w).map
        fun p => ({ irqEntry 96 kernelEsp cpu with eax := p.1 }, p.2) :=
    syscallHandler_call hlt hfn w
  have hirq : irqHandler outb (syscallInstall service routines) (irqEntry 96 kernelEsp cpu) w =
      syscallHandler service (irqEntry 96 kernelEsp cpu) w := by
    apply irqHandler_syscall hintNo
    intro r' w' h
    rw [syscallHandler_intNo h, hintNo]
  rw [int80, softwareInterrupt, irqInstall_syscall]
  simp only [if_pos (And.intro hpresent (cpl_le cpu.cs)), hirq, hcall]
  cases service fn ⟨cpu.ebx, cpu.ecx, cpu.edx, cpu.esi, cpu.edi⟩ w with
  | error e => rfl
  | ok p => rfl

lemma syscallSysRead_eq (cpu : Cpu) (w : σ) :
    syscallSysRead outb service idt routines kernelEsp cpu w =
      service .sysRead ⟨cpu.ebx, cpu.ecx, cpu.edx, cpu.esi, cpu.edi⟩ w :=
  int80_call { cpu with eax := 0 } (by change ¬(0 : UInt32) ≥ 21; decide) rfl w

/-- Number 1 is `sys_write`, in the stub of `sys_write` and in that of `sys_time`. -/
lemma defnSyscall1_one (arg : UInt32) (cpu : Cpu) (w : σ) :
    defnSyscall1 outb service idt routines kernelEsp 1 arg cpu w =
      service .sysWrite ⟨arg, cpu.ecx, cpu.edx, cpu.esi, cpu.edi⟩ w :=
  int80_call { cpu with eax := 1, ebx := arg }
    (by change ¬(1 : UInt32) ≥ 21; decide) rfl w

end Path

/-- A service that returns 1 from `sys_write` and 0 from the others tells where the stub of
`sys_time` goes. -/
lemma not_reachesOwn_sysTime (arg : UInt32) (cpu : Cpu) : ¬ReachesOwn .sysTime arg cpu := by
  rintro ⟨args, -, h⟩
  have hcall := h Unit (fun _ _ w => w)
    (fun fn _ w => .ok (if fn = .sysWrite then 1 else 0, w)) (fun _ => none) (fun _ => none) 0 ()
  have hwrite : stubOf .sysTime (fun _ _ w => w)
      (fun fn _ w => .ok (if fn = .sysWrite then 1 else 0, w)) (fun _ => none) (fun _ => none) 0
      arg cpu () = .ok (1, ()) := defnSyscall1_one arg cpu ()
  rw [hwrite] at hcall
  cases hcall

/-- Every stub but that of `sys_time` reaches its own function, and a frame that names no
function is left as it is. -/
theorem syscall_stub_reaches_iff (fn : SysFn) (arg : UInt32) (cpu : Cpu) :
    (ReachesOwn fn arg cpu ↔ fn ≠ .sysTime) ∧
    ∀ (σ : Type) (service : SysFn → SysArgs → σ → Except Fault (UInt32 × σ)) (r : Regs) (w : σ),
      r.eax ≥ syscallCount ∨ syscalls[r.eax.toNat]? = some none →
      syscallHandler service r w = .ok (r, w) := by
  refine ⟨?_, fun σ service r w h => syscallHandler_empty h w⟩
  cases fn with
  | sysRead =>
    simp only [ne_eq, reduceCtorEq, not_false_eq_true, iff_true]
    refine ⟨⟨cpu.ebx, cpu.ecx, cpu.edx, cpu.esi, cpu.edi⟩, False.elim, ?_⟩
    intro σ outb service idt routines kernelEsp w
    exact syscallSysRead_eq cpu w
  | sysWrite =>
    simp only [ne_eq, reduceCtorEq, not_false_eq_true, iff_true]
    refine ⟨⟨arg, cpu.ecx, cpu.edx, cpu.esi, cpu.edi⟩, fun _ => rfl, ?_⟩
    intro σ outb service idt routines kernelEsp w
    exact defnSyscall1_one arg cpu w
  | sysTime =>
    simp only [ne_eq, not_true_eq_false, iff_false]
    exact not_reachesOwn_sysTime arg cpu

theorem syscall_sys_write_reaches :
    ReachesOwn .sysWrite 0x1000 ⟨0, 0, 0, 0, 0, 0, 0, 0, 0, 0, 0, 0, 0, 0, 0, 0⟩ :=
  (syscall_stub_reaches_iff .sysWrite 0x1000 _).1.mpr (by decide)

/-- A call of `syscall_sys_time(NULL)`. -/
theorem syscall_sys_time_misses :
    ¬ReachesOwn .sysTime 0 ⟨0, 0, 0, 0, 0, 0, 0, 0, 0, 0, 0, 0, 0, 0, 0, 0⟩ :=
  not_reachesOwn_sysTime 0 _

end SaxonOS.Proofs
