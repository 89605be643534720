import SaxonOS.Irq

/-!
# Every line is served, one at a time

`irq_handler` sends the controllers the commands that end the service of the line it runs for: to
the second controller from vector 40 on, and to the first one but for a system call. Whatever comes
between, both are then idle again, with all that has been requested meanwhile.
-/

namespace SaxonOS.Proofs
open SaxonOS Lib Lib.PicPair

lemma gates_apply (label : Nat → Label) (sel : UInt16) (flags : UInt8) (base : Nat) (idt : Idt)
    (v : UInt8) {k : Nat} (hk : base + k ≤ 256) :
    (List.range k).foldl
      (fun idt i => idtSetGate idt (UInt8.ofNat (base + i)) (label i) sel flags) idt v =
    if base ≤ v.toNat ∧ v.toNat < base + k then
      some ⟨label (v.toNat - base), sel, flags ||| 0x60⟩
    else idt v := by
  induction k with
  | zero =>
    rw [if_neg (by omega)]
    rfl
  | succ k ih =>
    rw [List.range_succ, List.foldl_append, List.foldl_cons, List.foldl_nil, idtSetGate,
      Function.update_apply, ih (by omega)]
    have hval : (UInt8.ofNat (base + k)).toNat = base + k :=
      UInt8.toNat_ofNat_of_lt' (by change base + k < 256; omega)
    by_cases hv : v = UInt8.ofNat (base + k)
    · have hv' : v.toNat = base + k := hv ▸ hval
      rw [if_pos hv, if_pos (by omega), hv', Nat.add_sub_cancel_left]
    · have hv' : v.toNat ≠ base + k := fun h => hv (UInt8.toNat_inj.mp (h.trans hval.symm))
      rw [if_neg hv]
      split <;> split <;> first | rfl | omega

lemma kernelIdt_apply (v : UInt8) : kernelIdt v =
    if v.toNat = 128 then some ⟨.irq 96, 0x08, 0xEE⟩
    else if 32 ≤ v.toNat ∧ v.toNat < 48 then some ⟨.irq (v.toNat - 32), 0x08, 0xEE⟩
    else if v.toNat < 32 then some ⟨.isr v.toNat, 0x08, 0xEE⟩ else none := by
  have h0 : idtInstall v = if v.toNat < 32 then some ⟨.isr v.toNat, 0x08, 0xEE⟩ else none := by
    have hg := gates_apply Label.isr 0x08 0x8E 0 (fun _ => none) v (show 0 + 32 ≤ 256 by decide)
    simp only [Nat.zero_add, Nat.zero_le, true_and, Nat.sub_zero] at hg
    exact hg
  have hg := gates_apply Label.irq 0x08 0x8E 32 idtInstall v (show 32 + 16 ≤ 256 by decide)
  rw [h0] at hg
  rw [kernelIdt, irqInstall, idtSetGate, Function.update_apply]
  by_cases hv : v = 128
  · rw [if_pos hv, if_pos (by rw [hv]; rfl)]
    rfl
  · have hv' : v.toNat ≠ 128 := fun h => hv (UInt8.toNat_inj.mp h)
    rw [if_neg hv, if_neg hv']
    exact hg

/-- The vector of an `irq` stub. -/
def IsIrq (n : Nat) : Prop := n < 16 ∨ n = 96

lemma kernelIdt_irq {n : Nat} (hn : IsIrq n) :
    kernelIdt (UInt8.ofNat (32 + n)) = some ⟨.irq n, 0x08, 0xEE⟩ := by
  have hval : (UInt8.ofNat (32 + n)).toNat = 32 + n :=
    UInt8.toNat_ofNat_of_lt' (by rcases hn with h | h <;> (change 32 + n < 256; omega))
  rw [kernelIdt_apply, hval]
  rcases hn with hn | rfl
  · rw [if_neg (by omega), if_pos (by omega), Nat.add_sub_cancel_left]
  · rfl

/-- The gates that lead to an `irq` stub. -/
lemma irq_of_kernelIdt {v : UInt8} {n : Nat} {sel : UInt16} {flags : UInt8}
    (h : kernelIdt v = some ⟨.irq n, sel, flags⟩) :
    IsIrq n ∧ v = UInt8.ofNat (32 + n) ∧ flags = 0xEE := by
  rw [kernelIdt_apply] at h
  split at h
  · next hv =>
    cases h
    exact ⟨Or.inr rfl, UInt8.toNat_inj.mp hv, rfl⟩
  · split at h
    · next hv =>
      cases h
      refine ⟨Or.inl (by omega), UInt8.toNat_inj.mp ?_, rfl⟩
      rw [UInt8.toNat_ofNat_of_lt' (by change 32 + (v.toNat - 32) < 256; omega)]
      omega
    · split at h <;> cases h

lemma endsBehind_iff {n : Nat} (hn : n < 16) :
    ((UInt32.ofNat n + 32).toUInt8 ≥ 40 ∧ UInt32.ofNat n + 32 ≠ 0x80) ↔ 8 ≤ n := by
  have hall : ∀ n : Fin 16,
      ((UInt32.ofNat n.val + 32).toUInt8 ≥ 40 ∧ UInt32.ofNat n.val + 32 ≠ 0x80) ↔ 8 ≤ n.val := by
    decide
  exact hall ⟨n, hn⟩

lemma intNo_ne {n : Nat} (hn : n < 16) : UInt32.ofNat n + 32 ≠ 0x80 := by
  have hall : ∀ n : Fin 16, UInt32.ofNat n.val + 32 ≠ 0x80 := by decide
  exact hall ⟨n, hn⟩

lemma irq_index {n : Nat} (hn : IsIrq n) : (UInt32.ofNat n + 32 - 32).toNat = n := by
  rw [UInt32.add_sub_cancel]
  exact UInt32.toNat_ofNat_of_lt' (by rcases hn with h | h <;> (change n < 2 ^ 32; omega))

/-- The kernel is where the world is, and no line is in service. -/
structure Delivers {τ : Type} (w : IrqWorld τ) (s : IrqSystem τ) : Prop where
  routines : s.routines = fun n => (w.service n).map Service.handler
  rest : s.board.rest = w.rest
  resting : s.board.pics.Resting 0x20 0x28
  waiting : s.board.pics.waiting = w.waiting

section

variable {τ : Type} {w : IrqWorld τ} {s : IrqSystem τ} {b : Board τ} {r : Regs} {n : Nat}
  {routines : IrqRoutines (Board τ)}

/-- The board after `irq_handler` has run the handler of a number. -/
def ended (n : Nat) (b : Board τ) : Board τ :=
  if n = 96 then b else { b with pics := b.pics.endService (decide (8 ≤ n)) }

/-- `irq_handler` for a frame that keeps its number. -/
lemma irqHandler_ended (hn : IsIrq n) (hr : r.intNo = UInt32.ofNat n + 32) :
    (let w := if r.intNo.toUInt8 ≥ 40 ∧ r.intNo ≠ 0x80 then Board.outb 0xA0 0x20 b else b
      if r.intNo ≠ 0x80 then Board.outb 0x20 0x20 w else w) = ended n b := by
  rw [hr]
  rcases hn with hn | rfl
  · dsimp only
    rw [if_pos (intNo_ne hn), ended, if_neg (show n ≠ 96 by omega), endService]
    by_cases h8 : 8 ≤ n
    · rw [if_pos ((endsBehind_iff hn).mpr h8), if_pos (decide_eq_true h8)]
      rfl
    · rw [if_neg (mt (endsBehind_iff hn).mp h8), if_neg (by simpa using h8)]
      rfl
  · rfl

/-- A board on which a number may be handled: one line in service that its commands end, or none
for a system call, which sends no command. -/
def CanEnd (n : Nat) (p : PicPair) : Prop :=
  (n < 16 ∧ p.Serving 0x20 0x28 (decide (8 ≤ n))) ∨ (n = 96 ∧ p.Resting 0x20 0x28)

lemma CanEnd.isIrq {p : PicPair} (h : CanEnd n p) : IsIrq n := h.imp And.left And.left

lemma CanEnd.of_resting {p : PicPair} (hn : IsIrq n) (h : p.Resting 0x20 0x28) : CanEnd n p :=
  hn.imp (fun hn => ⟨hn, h.serving _⟩) fun hn => ⟨hn, h⟩

lemma CanEnd.ended (h : CanEnd n b.pics) (lines : List (Fin 16)) :
    (Proofs.ended n { b with pics := lines.foldl PicPair.raise b.pics }).pics.Resting 0x20 0x28 ∧
      (Proofs.ended n { b with pics := lines.foldl PicPair.raise b.pics }).pics.waiting =
        lines.foldl request b.pics.waiting := by
  rw [Proofs.ended, ← waiting_raiseAll]
  rcases h with ⟨hn, hs⟩ | ⟨rfl, hs⟩
  · rw [if_neg (by omega)]
    exact ⟨endService_resting (hs.raiseAll lines), endService_waiting (hs.raiseAll lines)⟩
  · exact ⟨hs.raiseAll lines, rfl⟩

lemma ended_rest (n : Nat) (b : Board τ) : (ended n b).rest = b.rest := by
  rw [ended]
  split <;> rfl

/-- `irq_handler` runs the service of its number and leaves both controllers idle. -/
lemma irqHandler_agrees (hroutines : routines = fun n => (w.service n).map Service.handler)
    (hrest : b.rest = w.rest) (hwait : b.pics.waiting = w.waiting) (hend : CanEnd n b.pics)
    (hr : r.intNo = UInt32.ofNat n + 32) :
    Agree (fun a c => a.1 = c.1 ∧ Delivers c.2 ⟨routines, a.2⟩)
      (irqHandler Board.outb routines r b) (w.serve n r) := by
  have hn := hend.isIrq
  have hidx : (r.intNo - 32).toNat = n := by rw [hr, irq_index hn]
  have hlt : n < 256 := by rcases hn with h | h <;> omega
  rw [irqHandler, hidx]
  simp only [if_pos hlt, hroutines]
  rw [IrqWorld.serve]
  cases hs : w.service n with
  | none =>
    have hres := hend.ended []
    refine .ok ⟨rfl, rfl, ?_, ?_, ?_⟩ <;> rw [irqHandler_ended hn hr]
    · rw [ended_rest, hrest]
    · exact hres.1
    · rw [← hwait]
      exact hres.2
  | some h =>
    simp only [Option.map_some, Service.handler]
    rw [hrest]
    cases hrun : h.run r w.rest with
    | error e => exact .error e
    | ok p =>
      obtain ⟨r', rest', lines⟩ := p
      have hr' : r'.intNo = UInt32.ofNat n + 32 := (h.keeps r w.rest _ hrun).trans hr
      have hres := CanEnd.ended (b := ⟨b.pics, rest'⟩) hend lines
      refine .ok ⟨rfl, rfl, ?_, ?_, ?_⟩ <;> rw [irqHandler_ended hn hr']
      · rw [ended_rest]
      · exact hres.1
      · rw [← hwait]
        exact hres.2

lemma interruptEntry_intNo (n : Nat) (k : KernelStack) (cpu : Cpu) :
    (interruptEntry n k cpu).intNo = UInt32.ofNat n + 32 := by
  rw [interruptEntry]
  split <;> rfl

/-- An interrupt from the controllers does what the service of its number does. -/
lemma hardware_agrees (hroutines : routines = fun n => (w.service n).map Service.handler)
    (hrest : b.rest = w.rest) (hwait : b.pics.waiting = w.waiting) (hend : CanEnd n b.pics)
    (k : KernelStack) (cpu : Cpu) :
    Agree (fun a c => a.1 = interruptReturn cpu c.1 ∧ Delivers c.2 ⟨routines, a.2⟩)
      (hardwareInterrupt kernelIdt routines k (UInt8.ofNat (32 + n)) cpu b)
      (w.serve n (interruptEntry n k cpu)) := by
  have hpresent : (0xEE : UInt8) &&& 0x80 ≠ 0 := by decide
  have hagree := irqHandler_agrees hroutines hrest hwait hend (interruptEntry_intNo n k cpu)
  rw [hardwareInterrupt, kernelIdt_irq hend.isIrq]
  dsimp only
  rw [if_pos hpresent]
  exact hagree.then fun a c h => ⟨_, rfl, congrArg (interruptReturn cpu) h.1, h.2⟩

/-- As does an `int` of user code, for which no line is in service. -/
lemma software_agrees (h : Delivers w s) (hn : IsIrq n) (k : KernelStack) {cpu : Cpu}
    (hcpu : cpu.cs &&& 3 = 3) :
    Agree (fun a c => a.1 = irqReturn c.1 ∧ Delivers c.2 ⟨s.routines, a.2⟩)
      (softwareInterrupt Board.outb kernelIdt s.routines k.esp (UInt8.ofNat (32 + n)) cpu s.board)
      (w.serve n (irqEntry n k.esp cpu)) := by
  have hgate : (0xEE : UInt8) &&& 0x80 ≠ 0 ∧
      (cpu.cs &&& (3 : UInt32)) ≤ (((0xEE : UInt8) >>> 5) &&& 3).toUInt32 := by
    rw [hcpu]
    decide
  have hagree := irqHandler_agrees (r := irqEntry n k.esp cpu) h.routines h.rest h.waiting
    (CanEnd.of_resting hn h.resting) rfl
  rw [softwareInterrupt, kernelIdt_irq hn]
  dsimp only
  rw [if_pos hgate]
  exact hagree.then fun a c h => ⟨_, rfl, congrArg irqReturn h.1, h.2⟩

lemma vector_eq (line : Fin 16) : vector 0x20 0x28 line = UInt8.ofNat (32 + line.val) := by
  have hall : ∀ line : Fin 16, vector 0x20 0x28 line = UInt8.ofNat (32 + line.val) := by decide
  exact hall line

lemma interrupt_agrees (h : Delivers w s) (line : Fin 16) (k : KernelStack) (cpu : Cpu) :
    Agree (fun a c => a.1 = interruptReturn cpu c.1 ∧ Delivers c.2 ⟨s.routines, a.2⟩)
      (hardwareInterrupt kernelIdt s.routines k (UInt8.ofNat (32 + line.val)) cpu
        ⟨s.board.pics.serve line, s.board.rest⟩)
      ((w.take line).serve line.val (interruptEntry line.val k cpu)) := by
  have hwait : (s.board.pics.serve line).waiting = (w.take line).waiting := by
    rw [waiting_serve, h.waiting]
    rfl
  have hend : CanEnd line.val (s.board.pics.serve line) :=
    Or.inl ⟨line.isLt, serve_serving h.resting line⟩
  exact hardware_agrees (w := w.take line) (b := ⟨s.board.pics.serve line, s.board.rest⟩)
    h.routines h.rest hwait hend k cpu

/-- The number of the handler for a request that is gone. -/
def spuriousNumber (behind : Bool) : Nat := if behind then 15 else 7

lemma spurious_agrees (h : Delivers w s) (behind : Bool) (k : KernelStack) (cpu : Cpu) :
    Agree (fun a c => a.1 = interruptReturn cpu c.1 ∧ Delivers c.2 ⟨s.routines, a.2⟩)
      (hardwareInterrupt kernelIdt s.routines k (s.board.pics.spurious behind).1 cpu
        ⟨(s.board.pics.spurious behind).2, s.board.rest⟩)
      (w.serve (spuriousNumber behind) (interruptEntry (spuriousNumber behind) k cpu)) := by
  have hvector : (s.board.pics.spurious behind).1 = UInt8.ofNat (32 + spuriousNumber behind) := by
    cases behind with
    | false => rw [spurious, if_neg (by decide), h.resting.master.base]; rfl
    | true => rw [spurious, if_pos rfl, h.resting.slave.base]; rfl
  have hend : CanEnd (spuriousNumber behind) (s.board.pics.spurious behind).2 := by
    refine Or.inl ⟨by cases behind <;> decide, ?_⟩
    have hserving := spurious_serving h.resting behind
    cases behind <;> exact hserving
  rw [hvector]
  exact hardware_agrees (b := ⟨(s.board.pics.spurious behind).2, s.board.rest⟩) h.routines h.rest
    ((waiting_spurious _ behind).trans h.waiting) hend k cpu

lemma irqRemap_pics (b : Board τ) : (irqRemap b).pics =
    ⟨((((b.pics.master.command 0x11).data 0x20).data 4).data 1).data 0,
      ((((b.pics.slave.command 0x11).data 0x28).data 2).data 1).data 0⟩ := rfl

lemma delivers_start (services : Nat → Option (Service τ)) (b : Board τ) :
    Delivers (IrqWorld.start services b.rest) (IrqSystem.start services b) := by
  obtain ⟨hm, hmi, hmr⟩ := Pic.setUp_of_words b.pics.master 0x20 4 (by decide)
  obtain ⟨hs, hsi, hsr⟩ := Pic.setUp_of_words b.pics.slave 0x28 2 (by decide)
  refine ⟨rfl, rfl, ?_, ?_⟩
  · change (irqRemap b).pics.Resting 0x20 0x28
    rw [irqRemap_pics]
    exact ⟨hm, hs, hmi, hsi⟩
  · change (irqRemap b).pics.waiting = fun _ => false
    rw [irqRemap_pics]
    funext line
    rcases line_cases line with ⟨n, rfl⟩ | ⟨k, rfl⟩
    · rw [waiting_ofMaster, hmr]
      exact Bool.and_false _
    · rw [waiting_ofSlave, hsr]
      rfl

lemma map_update (service : Nat → Option (Service τ)) (irq : Nat) (h : Option (Service τ)) :
    Function.update (fun n => (service n).map Service.handler) irq (h.map Service.handler) =
      fun n => (Function.update service irq h n).map Service.handler := by
  funext n
  rw [Function.update_apply, Function.update_apply]
  split <;> rfl

lemma Delivers.work (h : Delivers w s) (f : τ → τ × List (Fin 16)) :
    Delivers
      { w with rest := (f w.rest).1, waiting := (f w.rest).2.foldl request w.waiting }
      { s with board :=
        ⟨(f s.board.rest).2.foldl PicPair.raise s.board.pics, (f s.board.rest).1⟩ } := by
  rw [← h.rest]
  refine ⟨h.routines, rfl, h.resting.raiseAll _, ?_⟩
  rw [waiting_raiseAll, h.waiting]

lemma Delivers.handler (h : Delivers w s) (irq : Nat) (service : Option (Service τ)) :
    Delivers { w with service := Function.update w.service irq service }
      { s with routines := Function.update s.routines irq (service.map Service.handler) } := by
  refine ⟨?_, h.rest, h.resting, h.waiting⟩
  rw [h.routines]
  exact map_update w.service irq service

/-- What the kernel does, the controllers are there for. -/
lemma Delivers.step (h : Delivers w s) {op : IrqOp τ} {s' : IrqSystem τ} (hs : s.Step op s') :
    ∃ w', w.Step op w' ∧ Delivers w' s' := by
  cases op with
  | work f =>
    obtain rfl := hs
    exact ⟨_, rfl, h.work f⟩
  | install irq service =>
    obtain ⟨hlt, rfl⟩ := hs
    exact ⟨_, ⟨hlt, rfl⟩, h.handler irq (some service)⟩
  | uninstall irq =>
    obtain ⟨hlt, rfl⟩ := hs
    exact ⟨_, ⟨hlt, rfl⟩, h.handler irq none⟩
  | interrupt k v cpu cpu' =>
    obtain ⟨hon, pics, b, hack, hrun, rfl⟩ := hs
    obtain ⟨line, hline, rfl, rfl⟩ := acknowledge_some h.resting hack
    rw [vector_eq] at hrun ⊢
    obtain ⟨⟨r, w'⟩, hserve, hret, hw'⟩ := (interrupt_agrees h line k cpu).ok_left hrun
    exact ⟨w', ⟨hon, line, r, h.waiting ▸ hline, rfl, hserve, hret⟩, hw'⟩
  | spurious k behind cpu cpu' =>
    obtain ⟨hon, b, hrun, rfl⟩ := hs
    obtain ⟨⟨r, w'⟩, hserve, hret, hw'⟩ := (spurious_agrees h behind k cpu).ok_left hrun
    exact ⟨w', ⟨hon, r, hserve, hret⟩, hw'⟩
  | software k v cpu cpu' =>
    obtain ⟨huser, b, hrun, rfl⟩ := hs
    obtain ⟨n, hn, rfl⟩ : ∃ n, IsIrq n ∧ v = UInt8.ofNat (32 + n) := by
      rw [softwareInterrupt] at hrun
      split at hrun
      · next n sel flags hgate =>
        exact ⟨n, (irq_of_kernelIdt hgate).1, (irq_of_kernelIdt hgate).2.1⟩
      · cases hrun
    obtain ⟨⟨r, w'⟩, hserve, hret, hw'⟩ := (software_agrees h hn k huser).ok_left hrun
    exact ⟨w', ⟨huser, n, r, hn, rfl, hserve, hret⟩, hw'⟩

/-- What the controllers are there for, the kernel does. -/
lemma Delivers.step_back (h : Delivers w s) (op : IrqOp τ) {w' : IrqWorld τ}
    (hw : w.Step op w') : ∃ s', s.Step op s' ∧ Delivers w' s' := by
  cases op with
  | work f =>
    obtain rfl := hw
    exact ⟨_, rfl, h.work f⟩
  | install irq service =>
    obtain ⟨hlt, rfl⟩ := hw
    exact ⟨_, ⟨hlt, rfl⟩, h.handler irq (some service)⟩
  | uninstall irq =>
    obtain ⟨hlt, rfl⟩ := hw
    exact ⟨_, ⟨hlt, rfl⟩, h.handler irq none⟩
  | interrupt k v cpu cpu' =>
    obtain ⟨hon, line, r, hline, rfl, hserve, rfl⟩ := hw
    obtain ⟨⟨cpu', b⟩, hrun, rfl, hw'⟩ := (interrupt_agrees h line k cpu).ok_right hserve
    have hack := acknowledge_highest h.resting (h.waiting.symm ▸ hline)
    rw [vector_eq] at hack
    exact ⟨_, ⟨hon, _, b, hack, hrun, rfl⟩, hw'⟩
  | spurious k behind cpu cpu' =>
    obtain ⟨hon, r, hserve, rfl⟩ := hw
    obtain ⟨⟨cpu', b⟩, hrun, rfl, hw'⟩ := (spurious_agrees h behind k cpu).ok_right hserve
    exact ⟨_, ⟨hon, b, hrun, rfl⟩, hw'⟩
  | software k v cpu cpu' =>
    obtain ⟨huser, n, r, hn, rfl, hserve, rfl⟩ := hw
    obtain ⟨⟨cpu', b⟩, hrun, rfl, hw'⟩ := (software_agrees h hn k huser).ok_right hserve
    exact ⟨_, ⟨huser, b, hrun, rfl⟩, hw'⟩

/-- From any state of the controllers and in any order of requests, handlers and interrupts, the
kernel serves the first line that waits, and that line once: it does what the controllers are for,
no more and no less, and neither controller is left with a line in service. The commands after a
request that is gone and after an `int` of a program end nothing. -/
theorem interrupts_serve_lines (services : Nat → Option (Service τ)) (b : Board τ) :
    (∀ tr s, Run IrqSystem.Step (IrqSystem.start services b) tr s →
      ∃ atr w, Run IrqWorld.Step (IrqWorld.start services b.rest) atr w ∧
        labels atr = labels tr ∧ Delivers w s) ∧
    ∀ atr w, Run IrqWorld.Step (IrqWorld.start services b.rest) atr w →
      ∃ tr s, Run IrqSystem.Step (IrqSystem.start services b) tr s ∧
        labels tr = labels atr ∧ Delivers w s := by
  constructor
  · intro tr s hr
    exact hr.simulates (R := Delivers) (C := fun _ _ => True) (delivers_start services b)
      (fun w s op s' h _ hs => h.step hs) fun _ _ => trivial
  · intro atr w hr
    exact hr.simulates (R := fun s w => Delivers w s) (C := fun _ _ => True)
      (delivers_start services b) (fun s w op w' h _ hw => h.step_back op hw) fun _ _ => trivial

end

end SaxonOS.Proofs
