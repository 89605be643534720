import SaxonOS.Drivers
import SaxonOS.Proofs.Irq

/-!
# Keys and ticks

`keyboard_handler` takes the last of the scancodes that its two reads meet. Where each scancode
comes alone it is typed once, whatever other device interrupts the kernel, and `jiffies` counts the
ticks.
-/

namespace SaxonOS.Proofs
open SaxonOS Lib Lib.PicPair

section

variable {fuel : Nat} {syscall : Service Devices} {w w' : IrqWorld Devices}
  {s : IrqSystem Devices} {d : Devices} {r r' : Regs} {n : Nat}

/-- The first turn of the loop ends it. -/
lemma keyboardHandler_found {b : UInt8} {k : Keyboard} {lines : List (Fin 16)}
    (hpoll : pollScancode 0 d.keyboard = (true, b, k, lines)) : keyboardHandler fuel d =
      .ok ({ d with keyboard := k, terminal := typeScancode d.terminal b }, lines) := by
  have hawait : awaitScancode fuel 0 d.keyboard [] = .ok (b, k, lines) := by
    rw [awaitScancode, hpoll]
    rfl
  rw [keyboardHandler, hawait]
  rfl

/-- The second read meets the scancode of the first one. -/
lemma keyboardHandler_alone {b : UInt8} (hb : b ≠ 0) (hqueue : d.keyboard.queue = [b]) :
    keyboardHandler fuel d =
      .ok ({ d with keyboard := ⟨[], b⟩, terminal := typeScancode d.terminal b }, []) := by
  apply keyboardHandler_found
  have hpos : b > 0 := UInt8.pos_iff_ne_zero.mpr hb
  simp [pollScancode, Keyboard.read, hqueue, hb, hpos]

/-- A handler that leaves the frame as it is. -/
lemma serve_handler {f : Devices → Except Fault (Devices × List (Fin 16))}
    (hf : w.service n = some (.ofHandler f)) (h : w.serve n r = .ok (r', w')) :
    ∃ d lines, f w.rest = .ok (d, lines) ∧
      w' = { w with rest := d, waiting := lines.foldl request w.waiting } := by
  rw [IrqWorld.serve, hf] at h
  obtain ⟨q, hq, h⟩ := bind_eq_ok h
  obtain ⟨p, hp, hpq⟩ := bind_eq_ok hq
  obtain rfl := Except.ok.inj hpq
  obtain ⟨-, rfl⟩ := Prod.mk.inj (Except.ok.inj h)
  exact ⟨p.1, p.2, hp, rfl⟩

lemma serve_none (hf : w.service n = none) (h : w.serve n r = .ok (r', w')) : w' = w := by
  rw [IrqWorld.serve, hf] at h
  exact (Prod.mk.inj (Except.ok.inj h)).2.symm

lemma rtcHandler_keeps {d' : Devices} {lines : List (Fin 16)}
    (h : rtcHandler fuel d = .ok (d', lines)) :
    ∃ cmos rtc, d' = { d with cmos, rtc } ∧ lines = [] := by
  obtain ⟨⟨cmos, rtc⟩, -, h⟩ := bind_eq_ok h
  obtain ⟨rfl, rfl⟩ := Prod.mk.inj (Except.ok.inj h)
  exact ⟨cmos, rtc, rfl, rfl⟩

lemma kernelServices_none (hn : n < 16) (h0 : n ≠ 0) (h1 : n ≠ 1) (h8 : n ≠ 8) :
    kernelServices fuel syscall n = none := by
  rw [kernelServices, Function.update_of_ne (by omega), Function.update_of_ne h8,
    Function.update_of_ne h0, Function.update_of_ne h1]

/-- The lines without a handler and that of the clock chip leave the keys and ticks alone. -/
lemma serve_apart (hs : w.service = kernelServices fuel syscall) (hn : n < 16) (h0 : n ≠ 0)
    (h1 : n ≠ 1) (h : w.serve n r = .ok (r', w')) :
    ∃ cmos rtc, w' = { w with rest := { w.rest with cmos, rtc } } := by
  by_cases h8 : n = 8
  · subst h8
    obtain ⟨d, lines, hd, rfl⟩ := serve_handler (f := rtcHandler fuel) (by rw [hs]; rfl) h
    obtain ⟨cmos, rtc, rfl, rfl⟩ := rtcHandler_keeps hd
    exact ⟨cmos, rtc, rfl⟩
  · obtain rfl := serve_none (by rw [hs]; exact kernelServices_none hn h0 h1 h8) h
    exact ⟨w'.rest.cmos, w'.rest.rtc, rfl⟩

/-- A system call. -/
lemma serve_syscall (hs : w.service = kernelServices fuel syscall)
    (h : w.serve 96 r = .ok (r', w')) : ∃ r'' d lines, syscall.run r w.rest = .ok (r'', d, lines) ∧
      w' = { w with rest := d, waiting := lines.foldl request w.waiting } := by
  have hsys : w.service 96 = some syscall := by
    rw [hs]
    rfl
  rw [IrqWorld.serve, hsys] at h
  obtain ⟨⟨r'', d, lines⟩, hq, h⟩ := bind_eq_ok h
  obtain ⟨-, rfl⟩ := Prod.mk.inj (Except.ok.inj h)
  exact ⟨r'', d, lines, hq, rfl⟩

lemma interruptReturn_entry (n : Nat) (k : KernelStack) (cpu : Cpu) :
    interruptReturn cpu (interruptEntry n k cpu) = cpu := by
  rw [interruptReturn, interruptEntry]
  by_cases hcs : cpu.cs &&& 3 = 0
  · rw [if_pos hcs]
    exact (if_pos hcs).trans rfl
  · rw [if_neg hcs]
    exact (if_neg hcs).trans rfl

/-- What the kernel has done with the keys and ticks so far. -/
structure KeysAndTicks (fuel : Nat) (syscall : Service Devices) (d₀ : Devices) (ops : List DriverOp)
    (w : IrqWorld Devices) : Prop where
  service : w.service = kernelServices fuel syscall
  alone : w.rest.keyboard.queue = [] ∨ ∃ b, b ≠ 0 ∧ w.rest.keyboard.queue = [b]
  waits : w.waiting 1 = true ↔ w.rest.keyboard.queue ≠ []
  typed : ∃ typed, scancodes ops = typed ++ w.rest.keyboard.queue ∧
    w.rest.terminal = typed.foldl typeScancode d₀.terminal
  counted : w.rest.jiffies + (if w.waiting 0 then 1 else 0) =
    d₀.jiffies + UInt32.ofNat (ticks ops)

variable {d₀ : Devices} {ops ops' : List DriverOp}

lemma KeysAndTicks.same (h : KeysAndTicks fuel syscall d₀ ops w)
    (hops : scancodes ops' = scancodes ops) (hticks : ticks ops' = ticks ops)
    (hs : w'.service = w.service)
    (hk : w'.rest.keyboard = w.rest.keyboard) (ht : w'.rest.terminal = w.rest.terminal)
    (hj : w'.rest.jiffies = w.rest.jiffies) (h0 : w'.waiting 0 = w.waiting 0)
    (h1 : w'.waiting 1 = w.waiting 1) : KeysAndTicks fuel syscall d₀ ops' w' := by
  refine ⟨hs.trans h.service, ?_, ?_, ?_, ?_⟩
  · rw [hk]
    exact h.alone
  · rw [h1, hk]
    exact h.waits
  · rw [hops, hk, ht]
    exact h.typed
  · rw [hj, h0, hticks]
    exact h.counted

lemma KeysAndTicks.key (h : KeysAndTicks fuel syscall d₀ ops w) {b : UInt8} (hb : b ≠ 0)
    (hqueue : w.rest.keyboard.queue = []) (hs : w.Step (DriverOp.key b).toIrq w') :
    KeysAndTicks fuel syscall d₀ (.key b :: ops) w' := by
  have hlines : (w.rest.keyboard.send b).2 = [1] := by rw [Keyboard.send, hqueue]; rfl
  have hsent : (w.rest.keyboard.send b).1.queue = [b] := by rw [Keyboard.send, hqueue]; rfl
  have hs' : w' = { w with
      rest := { w.rest with keyboard := (w.rest.keyboard.send b).1 }
      waiting := request w.waiting 1 } := by
    rw [show w' = _ from hs]
    dsimp only
    rw [hlines]
    rfl
  obtain ⟨typed, hcodes, hterm⟩ := h.typed
  rw [hqueue, List.append_nil] at hcodes
  rw [hs']
  refine ⟨h.service, Or.inr ⟨b, hb, hsent⟩, ?_, ⟨typed, ?_, hterm⟩, ?_⟩
  · have hwait : request w.waiting 1 1 = true := rfl
    simp [hsent, hwait]
  · rw [scancodes, hcodes, hsent]
  · exact h.counted

lemma KeysAndTicks.tick (h : KeysAndTicks fuel syscall d₀ ops w) (hw : w.waiting 0 = false)
    (hs : w.Step DriverOp.tick.toIrq w') : KeysAndTicks fuel syscall d₀ (.tick :: ops) w' := by
  have hs' : w' = { w with waiting := request w.waiting 0 } := hs
  have hcount := h.counted
  rw [hw] at hcount
  rw [hs']
  refine ⟨h.service, h.alone, h.waits, h.typed, ?_⟩
  have hwait : request w.waiting 0 0 = true := rfl
  rw [if_neg (by decide), UInt32.add_zero] at hcount
  rw [if_pos hwait, ticks, hcount, UInt32.ofNat_add, UInt32.add_assoc]
  rfl

lemma KeysAndTicks.interrupt (h : KeysAndTicks fuel syscall d₀ ops w) {k : KernelStack} {v : UInt8}
    {cpu cpu' : Cpu} (hs : w.Step (DriverOp.interrupt k v cpu cpu').toIrq w') :
    KeysAndTicks fuel syscall d₀ (.interrupt k v cpu cpu' :: ops) w' := by
  obtain ⟨-, line, r, hline, -, hserve, -⟩ := hs
  have hsv : (w.take line).service = kernelServices fuel syscall := h.service
  by_cases h1 : line = 1
  · rw [h1] at hline hserve hsv
    -- Line 1 waits for exactly one scancode.
    obtain ⟨b, hb, hqueue⟩ := h.alone.resolve_left (h.waits.mp hline.1)
    obtain ⟨d, lines, hd, rfl⟩ :=
      serve_handler (f := keyboardHandler fuel) (by rw [hsv]; rfl) hserve
    obtain ⟨rfl, rfl⟩ :=
      Prod.mk.inj (Except.ok.inj ((keyboardHandler_alone hb hqueue).symm.trans hd))
    obtain ⟨typed, hcodes, hterm⟩ := h.typed
    refine ⟨hsv, Or.inl rfl, ?_, ⟨typed ++ [b], ?_, ?_⟩, h.counted⟩
    · change false = true ↔ ([] : List UInt8) ≠ []
      simp
    · change scancodes ops = typed ++ [b] ++ []
      rw [hcodes, hqueue, List.append_nil]
    · rw [List.foldl_append, ← hterm]
      rfl
  · by_cases h0 : line = 0
    · rw [h0] at hline hserve hsv
      obtain ⟨d, lines, hd, rfl⟩ := serve_handler (f := timerHandler) (by rw [hsv]; rfl) hserve
      obtain ⟨rfl, rfl⟩ := Prod.mk.inj (Except.ok.inj hd)
      have hcount := h.counted
      rw [if_pos hline.1] at hcount
      refine ⟨hsv, h.alone, h.waits, h.typed, ?_⟩
      change w.rest.jiffies + 1 + (if false then 1 else 0) = _
      rw [if_neg (by decide), UInt32.add_zero, hcount]
      rfl
    · have ht0 : (w.take line).waiting 0 = w.waiting 0 := Function.update_of_ne (Ne.symm h0) _ _
      have ht1 : (w.take line).waiting 1 = w.waiting 1 := Function.update_of_ne (Ne.symm h1) _ _
      obtain ⟨cmos, rtc, rfl⟩ := serve_apart hsv line.isLt (fun h => h0 (Fin.ext h))
        (fun h => h1 (Fin.ext h)) hserve
      exact h.same rfl rfl rfl rfl rfl rfl ht0 ht1

lemma KeysAndTicks.software (h : KeysAndTicks fuel syscall d₀ ops w) {k : KernelStack} {v : UInt8}
    {cpu cpu' : Cpu} (h32 : v ≠ 32) (h33 : v ≠ 33)
    (hquiet : v = 128 → syscall.Quiet (irqEntry 96 k.esp cpu) w.rest)
    (hs : w.Step (DriverOp.software k v cpu cpu').toIrq w') :
    KeysAndTicks fuel syscall d₀ (.software k v cpu cpu' :: ops) w' := by
  obtain ⟨-, n, r, hn, rfl, hserve, -⟩ := hs
  rcases hn with hn | rfl
  · have h0 : n ≠ 0 := fun h => h32 (by rw [h]; rfl)
    have h1 : n ≠ 1 := fun h => h33 (by rw [h]; rfl)
    obtain ⟨cmos, rtc, rfl⟩ := serve_apart h.service hn h0 h1 hserve
    exact h.same rfl rfl rfl rfl rfl rfl rfl rfl
  · obtain ⟨r'', d, lines, hrun, rfl⟩ := serve_syscall h.service hserve
    obtain ⟨hk, ht, hj, hl0, hl1⟩ := hquiet rfl _ _ _ hrun
    exact h.same rfl rfl rfl hk ht hj (foldl_request_apply hl0 _) (foldl_request_apply hl1 _)

lemma KeysAndTicks.step (h : KeysAndTicks fuel syscall d₀ ops w) {op : DriverOp}
    (hp : op.Prompt syscall w.rest w.waiting) (hs : w.Step op.toIrq w') :
    KeysAndTicks fuel syscall d₀ (op :: ops) w' := by
  cases op with
  | key b => exact h.key hp.1 hp.2 hs
  | tick => exact h.tick hp hs
  | clock cmos =>
    have hs' : w' = { w with rest := { w.rest with cmos }, waiting := request w.waiting 8 } := hs
    rw [hs']
    exact h.same rfl rfl rfl rfl rfl rfl rfl rfl
  | other line =>
    have hs' : w' = { w with waiting := request w.waiting line } := hs
    rw [hs']
    exact h.same rfl rfl rfl rfl rfl rfl (request_apply_of_ne (Ne.symm hp.1) _)
      (request_apply_of_ne (Ne.symm hp.2) _)
  | interrupt k v cpu cpu' => exact h.interrupt hs
  | spurious k behind cpu cpu' =>
    obtain ⟨-, r, hserve, -⟩ := hs
    have hnone : w.service (if behind then 15 else 7) = none := by
      rw [h.service]
      cases behind <;> rfl
    obtain rfl := serve_none hnone hserve
    exact h.same rfl rfl rfl rfl rfl rfl rfl rfl
  | software k v cpu cpu' => exact h.software hp.1 hp.2.1 hp.2.2 hs

/-- An interrupt for a key, in the kernel itself. -/
lemma keyboard_step (hw : Delivers w s) (hservice : w.service = kernelServices fuel syscall)
    (hline : Highest w.waiting 1) {lines : List (Fin 16)}
    (hd : keyboardHandler fuel w.rest = .ok (d, lines)) (k : KernelStack) {cpu : Cpu}
    (hon : cpu.InterruptsOn) : ∃ s', s.Step (.interrupt k 33 cpu cpu) s' ∧
      Delivers { w.take 1 with
        rest := d
        waiting := lines.foldl request (w.take 1).waiting } s' := by
  have hkeyboard : (w.take 1).service 1 = some (.ofHandler (keyboardHandler fuel)) := by
    change w.service 1 = _
    rw [hservice]
    rfl
  have hserve : (w.take 1).serve 1 (interruptEntry 1 k cpu) = .ok (interruptEntry 1 k cpu,
      { w.take 1 with rest := d, waiting := lines.foldl request (w.take 1).waiting }) := by
    rw [IrqWorld.serve, hkeyboard]
    change (Service.ofHandler (keyboardHandler fuel)).run _ w.rest >>= _ = _
    rw [Service.ofHandler]
    dsimp only
    rw [hd]
    rfl
  exact hw.step_back (.interrupt k 33 cpu cpu)
    ⟨hon, 1, _, hline, rfl, hserve, (interruptReturn_entry 1 k cpu).symm⟩

lemma kept_of_run {b : Board Devices} {tr : List (IrqSystem Devices × DriverOp)}
    (hidle : b.rest.keyboard.queue = []) (hr : DriverRun fuel syscall b tr s)
    (hprompt : ∀ p ∈ tr, p.2.Prompt syscall p.1.board.rest p.1.board.pics.waiting) :
    ∃ w, Delivers w s ∧ KeysAndTicks fuel syscall b.rest (labels tr) w := by
  induction hr with
  | nil =>
    refine ⟨_, delivers_start _ b, rfl, Or.inl hidle, ?_, ⟨[], hidle.symm, rfl⟩, ?_⟩
    · simp [IrqWorld.start, hidle]
    · rfl
  | @cons tr s s' op hr hs ih =>
    obtain ⟨w, hw, hkept⟩ := ih fun p hp => hprompt p (List.mem_cons_of_mem _ hp)
    have hp := hprompt (s, op) List.mem_cons_self
    rw [hw.rest, hw.waiting] at hp
    obtain ⟨w', hs', hw'⟩ := hw.step hs
    exact ⟨w', hw', hkept.step hp hs'⟩

/-- Where no scancode comes before the last one has been read, and no tick before the last one has
been served, every key is typed once and in order and `jiffies` counts every tick, whatever other
device interrupts the kernel in between and whatever programs do with `int`, but for running these
two handlers or a system call that is not quiet; and a key that waits behind no tick can be
typed. -/
theorem keys_and_ticks_once (fuel : Nat) (syscall : Service Devices) (b : Board Devices)
    {tr : List (IrqSystem Devices × DriverOp)} {s : IrqSystem Devices}
    (hidle : b.rest.keyboard.queue = []) (hr : DriverRun fuel syscall b tr s)
    (hprompt : ∀ p ∈ tr, p.2.Prompt syscall p.1.board.rest p.1.board.pics.waiting) :
    (∃ typed, scancodes (labels tr) = typed ++ s.board.rest.keyboard.queue ∧
      s.board.rest.terminal = typed.foldl typeScancode b.rest.terminal) ∧
    s.board.rest.jiffies + (if s.board.pics.waiting 0 then 1 else 0) =
      b.rest.jiffies + UInt32.ofNat (ticks (labels tr)) ∧
    (s.board.rest.keyboard.queue ≠ [] → s.board.pics.waiting 0 = false →
      ∀ (k : KernelStack) (cpu : Cpu), cpu.InterruptsOn →
        ∃ s', s.Step (.interrupt k 33 cpu cpu) s' ∧ s'.board.rest.keyboard.queue = []) := by
  obtain ⟨w, hw, h⟩ := kept_of_run hidle hr hprompt
  rw [hw.rest, hw.waiting]
  refine ⟨h.typed, h.counted, fun hqueue h0 k cpu hon => ?_⟩
  obtain ⟨c, hc, hone⟩ := h.alone.resolve_left hqueue
  have hline : Highest w.waiting 1 := by
    refine ⟨h.waits.mpr hqueue, fun l hl => ?_⟩
    by_cases hl0 : l = 0
    · rw [hl0, h0] at hl
      cases hl
    · have hpos : ∀ l : Fin 16, l ≠ 0 → rank 1 ≤ rank l := by decide
      exact hpos l hl0
  obtain ⟨s', hs', hw'⟩ :=
    keyboard_step hw h.service hline (keyboardHandler_alone hc hone) k hon
  exact ⟨s', hs', by rw [hw'.rest]⟩

/-- The kernel in an idle state, with interrupts on. -/
def idleCpu : Cpu := ⟨0, 0, 0, 0, 0, 0, 0, 0, 0, 0, 0, 0, 0x08, 0x202, 0, 0x10⟩

/-- A board that has just been switched on. -/
def newBoard : Board Devices where
  pics :=
    let pic : Pic := ⟨Pic.noLine, Pic.noLine, Pic.noLine, 0, 0, 0, false, false, .ready⟩
    ⟨pic, pic⟩
  rest := ⟨⟨[], 0⟩, terminalInitialize fun _ => 0, 0, ⟨0, fun _ => 0⟩, ⟨0, 0, 0, 0, 0, 0, 0⟩⟩

def idleSyscall : Service Devices := .ofHandler fun d => .ok (d, [])

/-- The key of the letter a is typed. -/
theorem keys_and_ticks_once_letter : ∃ tr s,
    DriverRun 0 idleSyscall newBoard tr s ∧
    labels tr = [.interrupt ⟨0, 0, 0⟩ 33 idleCpu idleCpu, .key 0x1E] ∧
    s.board.rest.terminal = terminalPutchar (terminalInitialize fun _ => 0) 0x61 := by
  have hw₀ := delivers_start (kernelServices 0 idleSyscall) newBoard
  obtain ⟨s₁, hs₁, hw₁⟩ :
      ∃ s₁, (IrqSystem.start (kernelServices 0 idleSyscall) newBoard).Driven (.key 0x1E) s₁ ∧ _ :=
    hw₀.step_back (DriverOp.key 0x1E).toIrq rfl
  have hr₁ : DriverRun 0 idleSyscall newBoard [(_, .key 0x1E)] s₁ := Run.nil.cons hs₁
  have hkey : ∀ p ∈ [(IrqSystem.start (kernelServices 0 idleSyscall) newBoard,
      DriverOp.key 0x1E)], p.2.Prompt idleSyscall p.1.board.rest p.1.board.pics.waiting := by
    intro p hp
    rw [List.mem_singleton.mp hp]
    exact ⟨by decide, rfl⟩
  have hqueue : s₁.board.rest.keyboard.queue = [0x1E] := by
    rw [hw₁.rest]
    rfl
  have hwait : s₁.board.pics.waiting 0 = false := by
    rw [hw₁.waiting]
    rfl
  obtain ⟨s₂, hs₂, hread⟩ := (keys_and_ticks_once 0 idleSyscall newBoard rfl hr₁ hkey).2.2
    (by simp [hqueue]) hwait ⟨0, 0, 0⟩ idleCpu (by unfold Cpu.InterruptsOn; decide)
  have hr₂ : DriverRun 0 idleSyscall newBoard
      [(s₁, .interrupt ⟨0, 0, 0⟩ 33 idleCpu idleCpu), (_, .key 0x1E)] s₂ := hr₁.cons hs₂
  obtain ⟨typed, hcodes, hterm⟩ := (keys_and_ticks_once 0 idleSyscall newBoard rfl hr₂
    (List.forall_mem_cons.mpr ⟨trivial, hkey⟩)).1
  rw [hread, List.append_nil] at hcodes
  refine ⟨_, s₂, hr₂, rfl, ?_⟩
  rw [hterm, ← hcodes]
  rfl

/-- The first read meets one scancode and the second read the next one. -/
lemma keyboardHandler_late {b₁ b₂ : UInt8} (h₁ : b₁ ≠ 0) (h₂ : b₂ ≠ 0)
    (hqueue : d.keyboard.queue = [b₁, b₂]) : keyboardHandler fuel d =
      .ok ({ d with keyboard := ⟨[], b₂⟩, terminal := typeScancode d.terminal b₂ }, [1]) := by
  apply keyboardHandler_found
  have hpos : b₂ > 0 := UInt8.pos_iff_ne_zero.mpr h₂
  simp [pollScancode, Keyboard.read, hqueue, h₁, hpos]
  rfl

/-- With nothing to read the last scancode is typed again. -/
lemma keyboardHandler_again {b : UInt8} (hb : b ≠ 0) (hkeyboard : d.keyboard = ⟨[], b⟩) :
    keyboardHandler fuel d =
      .ok ({ d with keyboard := ⟨[], b⟩, terminal := typeScancode d.terminal b }, []) := by
  apply keyboardHandler_found
  have hpos : b > 0 := UInt8.pos_iff_ne_zero.mpr hb
  simp [pollScancode, Keyboard.read, hkeyboard, hb, hpos]

/-- Of two scancodes that wait together the first one is lost and the second one typed twice. -/
theorem late_key_lost (fuel : Nat) (syscall : Service Devices) (b : Board Devices)
    (hidle : b.rest.keyboard.queue = []) {b₁ b₂ : UInt8} (h₁ : b₁ ≠ 0) (h₂ : b₂ ≠ 0)
    (k : KernelStack) {cpu : Cpu} (hon : cpu.InterruptsOn) : ∃ tr s,
    DriverRun fuel syscall b tr s ∧
    labels tr = [.interrupt k 33 cpu cpu, .interrupt k 33 cpu cpu, .key b₂, .key b₁] ∧
    s.board.rest.terminal = typeScancode (typeScancode b.rest.terminal b₂) b₂ := by
  obtain ⟨pics, ⟨⟨queue, last⟩, terminal, jiffies, cmos, rtc⟩⟩ := b
  obtain rfl : queue = [] := hidle
  have hw₀ := delivers_start (kernelServices fuel syscall)
    ⟨pics, ⟨⟨[], last⟩, terminal, jiffies, cmos, rtc⟩⟩
  obtain ⟨s₁, hs₁, hw₁⟩ : ∃ s', IrqSystem.Driven _ (.key b₁) s' ∧ _ :=
    hw₀.step_back (DriverOp.key b₁).toIrq rfl
  obtain ⟨s₂, hs₂, hw₂⟩ : ∃ s', s₁.Driven (.key b₂) s' ∧ _ :=
    hw₁.step_back (DriverOp.key b₂).toIrq rfl
  have hfirst : ∀ lines : Fin 16 → Bool, (∀ l, lines l = true ↔ l = 1) → Highest lines 1 := by
    intro lines h
    refine ⟨(h 1).mpr rfl, fun l hl => ?_⟩
    exact Nat.le_of_eq (congrArg rank ((h l).mp hl).symm)
  have hsent : ∀ l : Fin 16, request (fun _ => false) 1 l = true ↔ l = 1 := by decide
  obtain ⟨s₃, hs₃, hw₃⟩ : ∃ s', s₂.Driven (.interrupt k 33 cpu cpu) s' ∧ _ :=
    keyboard_step hw₂ rfl (hfirst _ hsent) (keyboardHandler_late h₁ h₂ rfl) k hon
  have hagain : ∀ l : Fin 16,
      request (Function.update (request (fun _ => false) 1) 1 false) 1 l = true ↔ l = 1 := by decide
  obtain ⟨s₄, hs₄, hw₄⟩ : ∃ s', s₃.Driven (.interrupt k 33 cpu cpu) s' ∧ _ :=
    keyboard_step hw₃ rfl (hfirst _ hagain) (keyboardHandler_again h₂ rfl) k hon
  exact ⟨_, s₄, (((Run.nil.cons hs₁).cons hs₂).cons hs₃).cons hs₄, rfl,
    congrArg Devices.terminal hw₄.rest⟩

end

end SaxonOS.Proofs
