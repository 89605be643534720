import SaxonOS.Switch

/-!
# The context switch round trip

The first half of `switch_task` stores the state of its caller, as it will be when the call has
returned. The second half brings the processor into the state of a record. Words are followed on
the stack as a list, in the records as stores.
-/

namespace SaxonOS.Proofs
open Lib Lib.X86

variable {s t : Machine} {m m' : Mem} {a x : UInt32}

/-- The words of a record in memory. -/
def recordWords (r : Registers) : List UInt32 :=
  [r.eax, r.ebx, r.ecx, r.edx, r.esi, r.edi, r.esp, r.ebp, r.eip, r.eflags, r.cr3]

lemma recordWords_inj {r r' : Registers} (h : recordWords r = recordWords r') : r = r' := by
  cases r
  cases r'
  simpa [recordWords] using h

lemma readWords_record (m : Mem) (a : UInt32) :
    readWords m a 11 = recordWords (readRegisters m a) := by
  simp [readWords, recordWords, readRegisters, UInt32.add_assoc]

lemma readRegisters_eq {r : Registers} (h : readWords m a 11 = recordWords r) :
    readRegisters m a = r :=
  recordWords_inj ((readWords_record m a).symm.trans h)

lemma readRegisters_congr (h : ∀ x, Within x a registersSize → m' x = m x) :
    readRegisters m' a = readRegisters m a := by
  apply readRegisters_eq
  rw [← readWords_record]
  exact readWords_congr h

/-! ### Saving -/

/-- The processor as it is when the call returns at once. -/
def callerState (s : Machine) : Registers := cpuRegisters (Instr.ret.run s)

/-- What `pusha`, `pushf` and the `push` of `cr3` put on the stack. -/
def pushedState (s : Machine) : List UInt32 :=
  [s.reg .eax, s.reg .ecx, s.reg .edx, s.reg .ebx, s.reg .esp, s.reg .ebp, s.reg .esi, s.reg .edi,
    s.eflags.word, s.cr3]

lemma callerState_eip (s : Machine) : (callerState s).eip = read32 s.mem (s.reg .esp) := rfl

lemma cpuRegisters_eip (s : Machine) : (cpuRegisters s).eip = s.eip := rfl

lemma exec_pushState (s : Machine) :
    exec pushState s = (s.pushWords (pushedState s)).setReg .eax s.cr3 := by
  have hcomm : ∀ (f : Reg → UInt32) (v w : UInt32),
      Function.update (Function.update f .eax v) .esp w =
        Function.update (Function.update f .esp w) .eax v :=
    fun f v w => Function.update_comm (by decide) _ _ _
  simp [pushState, pushedState, Instr.run, Machine.pushWords, Machine.setReg, Machine.pushWord,
    hcomm]

lemma pushState_esp (s : Machine) : (exec pushState s).reg .esp = s.reg .esp - 40 := by
  rw [exec_pushState, Machine.setReg_of_ne (by decide), Machine.pushWords_esp]
  rfl

lemma pushState_reg {r : Reg} (h : r ≠ .eax) (h' : r ≠ .esp) :
    (exec pushState s).reg r = s.reg r := by
  rw [exec_pushState, Machine.setReg_of_ne h, Machine.pushWords_reg h']

lemma pushState_mem (hx : ¬Within x (s.reg .esp - 40) 40) : (exec pushState s).mem x = s.mem x := by
  rw [exec_pushState, Machine.setReg_mem]
  apply Machine.pushWords_mem
  · change 4 * 10 ≤ _
    decide
  · rw [Machine.pushWords_esp]
    exact hx

/-- The stack from there on, down to the arguments of the call. -/
def callStack (s : Machine) : List UInt32 :=
  [s.cr3, s.eflags.word, s.reg .edi, s.reg .esi, s.reg .ebp, s.reg .esp, s.reg .ebx, s.reg .edx,
    s.reg .ecx, s.reg .eax, read32 s.mem (s.reg .esp), oldArgument s, newArgument s]

lemma stack_pushState (s : Machine) : (exec pushState s).stack 13 = callStack s := by
  have hlen : (pushedState s).length = 10 := rfl
  have h : (s.pushWords (pushedState s)).stack ((pushedState s).length + 3) = _ :=
    Machine.stack_pushWords (by rw [hlen]; decide)
  rw [exec_pushState, Machine.stack, Machine.setReg_of_ne (by decide)]
  refine h.trans ?_
  simp [callStack, pushedState, Machine.stack, readWords, oldArgument, newArgument,
    UInt32.add_assoc]

lemma exec_saveHeld (t : Machine) :
    (exec saveHeld t).mem = storeWords (read32 t.mem (t.reg .esp + 44)) t.mem [(1, t.reg .ebx),
      (2, t.reg .ecx), (3, t.reg .edx), (4, t.reg .esi), (5, t.reg .edi)] ∧
    (exec saveHeld t).reg .esp = t.reg .esp ∧
    (exec saveHeld t).reg .eax = read32 t.mem (t.reg .esp + 44) := by
  simp [saveHeld, Instr.run, Machine.setReg, storeWords, Function.update]

lemma exec_savePushed (t : Machine) :
    (exec savePushed t).mem = storeWords (t.reg .eax) t.mem [(0, read32 t.mem (t.reg .esp + 36)),
      (6, read32 t.mem (t.reg .esp + 20) + 4), (7, read32 t.mem (t.reg .esp + 16)),
      (8, read32 t.mem (t.reg .esp + 40)), (9, read32 t.mem (t.reg .esp + 4))] ∧
    (exec savePushed t).reg .esp = t.reg .esp ∧ (exec savePushed t).reg .eax = t.reg .eax := by
  -- With the steps left to the definitions the kernel would run the code for every word.
  simp -implicitDefEqProofs [savePushed, Instr.run, Machine.setReg, storeWords, Function.update]

lemma exec_saveCr3 (t : Machine) :
    (exec saveCr3 t).mem = write32 (storeWords (t.reg .eax) t.mem
      [(10, read32 t.mem (t.reg .esp))]) (t.reg .esp) (read32 t.mem (t.reg .esp)) ∧
    (exec saveCr3 t).reg .esp = t.reg .esp := by
  simp [saveCr3, Instr.run, Machine.setReg, Machine.dropWord, Machine.pushWord, storeWords,
    Function.update]

/-- The record is apart from the words of the call: ten that `switch_task` pushes for its state,
two more below them, and the return address and the arguments above. -/
def OffStack (s : Machine) (a : UInt32) : Prop := Separate a registersSize (s.reg .esp - 48) 60

lemma OffStack.above (h : OffStack s a) : Separate a 44 (s.reg .esp - 40) 52 := by
  have hpart := (h.symm.part (o := 8) (i := 52) (by decide)).symm
  rwa [show s.reg .esp - 48 + 8 = s.reg .esp - 40 by grind] at hpart

/-- After some stores of a call made in the state `s` the record of the caller holds the words
`ws`, and all is still on the stack. -/
structure Saving (s : Machine) (ws : List UInt32) (m : Mem) : Prop where
  stack : readWords m (s.reg .esp - 40) 13 = callStack s
  record : readWords m (oldArgument s) 11 = ws
  frame : ∀ x, ¬Within x (oldArgument s) registersSize → ¬Within x (s.reg .esp - 40) 40 →
    m x = s.mem x

variable {ws : List UInt32}

lemma saving_pushState (s : Machine) :
    Saving s (readWords (exec pushState s).mem (oldArgument s) 11) (exec pushState s).mem := by
  have hstack := stack_pushState s
  rw [Machine.stack, pushState_esp] at hstack
  exact ⟨hstack, rfl, fun _ _ hx => pushState_mem hx⟩

lemma Saving.stores (h : Saving s ws m) (hap : OffStack s (oldArgument s))
    {es : List (Nat × UInt32)} (hes : ∀ e ∈ es, e.1 < 11) :
    Saving s (setWords ws es) (storeWords (oldArgument s) m es) := by
  refine ⟨?_, ?_, fun x hx hx' => ?_⟩
  · rw [← h.stack]
    refine readWords_congr fun x hx => storeWords_not_within (n := 11) (by decide) hes ?_
    exact hap.above.symm x hx
  · rw [readWords_storeWords (by decide) hes, h.record]
  · rw [storeWords_not_within (n := 11) (by decide) hes hx]
    exact h.frame x hx hx'

/-- `cr3` is popped and pushed again. -/
lemma Saving.repush (h : Saving s ws m) (hap : OffStack s (oldArgument s)) :
    Saving s ws (write32 m (s.reg .esp - 40) s.cr3) := by
  refine ⟨?_, ?_, fun x hx hx' => ?_⟩
  · have hset := readWords_set (m := m) (a := s.reg .esp - 40) (v := s.cr3) (n := 13) (i := 0)
      (by decide) (by decide)
    rw [h.stack, show s.reg .esp - 40 + UInt32.ofNat (4 * 0) = s.reg .esp - 40 from
      UInt32.add_zero _] at hset
    exact hset
  · rw [readWords_separate, h.record]
    exact fun x hx hx' => hap.above x hx (Nat.lt_of_lt_of_le hx' (by decide))
  · rw [write32_not_within, h.frame x hx hx']
    exact fun h4 => hx' (Nat.lt_of_lt_of_le h4 (by decide))

lemma Saving.held (h : Saving s ws t.mem) (hap : OffStack s (oldArgument s))
    (hesp : t.reg .esp = s.reg .esp - 40) (hreg : ∀ r, r ≠ .eax → r ≠ .esp → t.reg r = s.reg r) :
    Saving s (setWords ws [(1, s.reg .ebx), (2, s.reg .ecx), (3, s.reg .edx), (4, s.reg .esi),
      (5, s.reg .edi)]) (exec saveHeld t).mem ∧
      (exec saveHeld t).reg .eax = oldArgument s := by
  have hold : read32 t.mem (s.reg .esp - 40 + 44) = oldArgument s :=
    read32_readWords (i := 11) h.stack rfl
  obtain ⟨hmem, -, heax⟩ := exec_saveHeld t
  rw [hesp, hold] at hmem heax
  rw [hreg .ebx (by decide) (by decide), hreg .ecx (by decide) (by decide),
    hreg .edx (by decide) (by decide), hreg .esi (by decide) (by decide),
    hreg .edi (by decide) (by decide)] at hmem
  rw [hmem]
  exact ⟨h.stores hap (by simp), heax⟩

lemma Saving.pushed (h : Saving s ws t.mem) (hap : OffStack s (oldArgument s))
    (hesp : t.reg .esp = s.reg .esp - 40) (heax : t.reg .eax = oldArgument s) :
    Saving s (setWords ws [(0, s.reg .eax), (6, s.reg .esp + 4), (7, s.reg .ebp),
      (8, read32 s.mem (s.reg .esp)), (9, s.eflags.word)]) (exec savePushed t).mem := by
  have h36 : read32 t.mem (s.reg .esp - 40 + 36) = s.reg .eax :=
    read32_readWords (i := 9) h.stack rfl
  have h20 : read32 t.mem (s.reg .esp - 40 + 20) = s.reg .esp :=
    read32_readWords (i := 5) h.stack rfl
  have h16 : read32 t.mem (s.reg .esp - 40 + 16) = s.reg .ebp :=
    read32_readWords (i := 4) h.stack rfl
  have h40 : read32 t.mem (s.reg .esp - 40 + 40) = read32 s.mem (s.reg .esp) :=
    read32_readWords (i := 10) h.stack rfl
  have h4 : read32 t.mem (s.reg .esp - 40 + 4) = s.eflags.word :=
    read32_readWords (i := 1) h.stack rfl
  rw [(exec_savePushed t).1, heax, hesp, h36, h20, h16, h40, h4]
  exact h.stores hap (by simp)

lemma Saving.cr3 (h : Saving s ws t.mem) (hap : OffStack s (oldArgument s))
    (hesp : t.reg .esp = s.reg .esp - 40) (heax : t.reg .eax = oldArgument s) :
    Saving s (setWords ws [(10, s.cr3)]) (exec saveCr3 t).mem := by
  have h0 : read32 t.mem (s.reg .esp - 40) = s.cr3 := by
    have := read32_readWords (i := 0) h.stack rfl
    simpa using this
  rw [(exec_saveCr3 t).1, heax, hesp, h0]
  exact (h.stores hap (by simp)).repush hap

/-- The state of the caller is in its record, and the stack still holds it and the arguments. -/
lemma saving_saveOld (hap : OffStack s (oldArgument s)) :
    (exec saveOld s).reg .esp = s.reg .esp - 40 ∧
      Saving s (recordWords (callerState s)) (exec saveOld s).mem := by
  have hreg : ∀ r, r ≠ .eax → r ≠ .esp → (exec pushState s).reg r = s.reg r :=
    fun r h h' => pushState_reg h h'
  obtain ⟨h₁, heax₁⟩ := (saving_pushState s).held hap (pushState_esp s) hreg
  have hesp₁ : (exec saveHeld (exec pushState s)).reg .esp = s.reg .esp - 40 :=
    (exec_saveHeld _).2.1.trans (pushState_esp s)
  have h₂ := h₁.pushed hap hesp₁ heax₁
  obtain ⟨-, hesp₂, heax₂⟩ := exec_savePushed (exec saveHeld (exec pushState s))
  have h₃ := h₂.cr3 hap (hesp₂.trans hesp₁) (heax₂.trans heax₁)
  rw [saveOld, exec_append, exec_append, exec_append]
  exact ⟨(exec_saveCr3 _).2.trans (hesp₂.trans hesp₁), h₃⟩

/-! ### Resuming -/

/-- A record is read through a word written elsewhere. -/
lemma read32_record {b o v : UInt32} (h : Separate a 44 b 4) (ho : o.toNat + 4 ≤ 44) :
    read32 (write32 m b v) (a + o) = read32 m (a + o) :=
  read32_within fun x hx => write32_not_within (h.part ho x hx)

/-- The words pushed one and two places down. -/
lemma read32_pushed (m : Mem) (sp v : UInt32) :
    read32 (write32 m (sp - 4 - 4) v) (sp - 4) = read32 m (sp - 4) := by
  apply read32_within
  intro x hx
  apply write32_not_within
  intro h
  unfold Within at hx h
  have hxlt := x.toNat_lt
  have hsp := sp.toNat_lt
  simp only [UInt32.toNat_sub, toNat_four] at hx h
  omega

lemma sub_eight (sp : UInt32) : sp - 8 + 4 = sp - 4 := by grind

/-- A record as the processor takes it over: `popf` drops what is no flag. -/
def loadedState (r : Registers) : Registers := { r with eflags := (Eflags.ofWord r.eflags).word }

/-- What the processor holds when the stack is switched. -/
structure Loaded (r : Registers) (a : UInt32) (s : Machine) : Prop where
  eax : s.reg .eax = a
  ebx : s.reg .ebx = r.ebx
  ecx : s.reg .ecx = r.ecx
  edx : s.reg .edx = r.edx
  esi : s.reg .esi = r.esi
  edi : s.reg .edi = r.edi
  ebp : s.reg .ebp = r.ebp
  eflags : s.eflags = .ofWord r.eflags

/-- The loads, from a record that the two words pushed on the way do not touch. -/
lemma exec_loadNew (ha : read32 t.mem (t.reg .esp + 48) = a)
    (hap : Separate a 44 (t.reg .esp - 8) 8) :
    Loaded (readRegisters t.mem a) a (exec loadNew t) := by
  have hap4 : Separate a 44 (t.reg .esp - 4) 4 := by
    have hpart := (hap.symm.part (o := 4) (i := 4) (by decide)).symm
    rwa [sub_eight] at hpart
  have hflags : ∀ v, read32 (write32 t.mem (t.reg .esp - 4) v) (a + 36) = read32 t.mem (a + 36) :=
    fun v => read32_record hap4 (by decide)
  constructor <;>
    simp -implicitDefEqProofs [loadNew, Instr.run, Machine.setReg, Machine.dropWord,
      Machine.pushWord, Function.update, ha, readRegisters, hflags, read32_pushed,
      read32_write32_same]

/-- They change two words of the stack. -/
lemma exec_loadNew_frame (t : Machine) : (exec loadNew t).reg .esp = t.reg .esp ∧
    ∀ x, ¬Within x (t.reg .esp - 8) 8 → (exec loadNew t).mem x = t.mem x := by
  have hmem : ∃ v w, write32 (write32 t.mem (t.reg .esp - 4) v) (t.reg .esp - 4 - 4) w =
      (exec loadNew t).mem := by
    simp -implicitDefEqProofs only [loadNew, exec_cons, exec_nil, Instr.run, Machine.setReg,
      Machine.dropWord, Machine.pushWord]
    exact ⟨_, _, rfl⟩
  refine ⟨?_, fun x hx => ?_⟩
  · simp -implicitDefEqProofs [loadNew, Instr.run, Machine.setReg, Machine.dropWord,
      Machine.pushWord, Function.update]
  · obtain ⟨v, w, hmem⟩ := hmem
    rw [← hmem, write32_not_within, write32_not_within]
    · intro h
      apply hx
      rw [← sub_eight] at h
      exact within_add h (by decide)
    · intro h
      apply hx
      rw [show t.reg .esp - 4 - 4 = t.reg .esp - 8 by grind] at h
      exact Nat.lt_trans h (by decide)

/-- The processor takes over the record and runs on the stack of the new task. -/
lemma exec_resumeNew {r : Registers} (hr : readRegisters t.mem a = r) (hl : Loaded r a t)
    (hap : Separate a 44 (r.esp - 4) 4) :
    cpuRegisters (exec resumeNew t) = loadedState r ∧
      ∀ x, ¬Within x (r.esp - 4) 4 → (exec resumeNew t).mem x = t.mem x := by
  subst hr
  have hesp : (readRegisters t.mem a).esp = read32 t.mem (a + 24) := rfl
  rw [hesp] at hap ⊢
  have hread : ∀ m v (o : UInt32), o.toNat + 4 ≤ 44 →
      read32 (write32 m (read32 t.mem (a + 24) - 4) v) (a + o) = read32 m (a + o) :=
    fun m v o ho => read32_record hap ho
  have h0 : ∀ m v, read32 (write32 m (read32 t.mem (a + 24) - 4) v) a = read32 m a := by
    intro m v
    simpa using hread m v 0 (by decide)
  have h32 := fun m v => hread m v 32 (by decide)
  have h40 := fun m v => hread m v 40 (by decide)
  constructor
  · simp -implicitDefEqProofs [resumeNew, Instr.run, Machine.setReg, Machine.dropWord,
      Machine.pushWord, Function.update, hl.eax, cpuRegisters, loadedState, h0, h32, h40,
      read32_write32_same]
    exact ⟨rfl, hl.ebx, hl.ecx, hl.edx, hl.esi, hl.edi, rfl, hl.ebp, rfl, by rw [hl.eflags], rfl⟩
  · intro x hx
    simp -implicitDefEqProofs [resumeNew, Instr.run, Machine.setReg, Machine.dropWord,
      Machine.pushWord, Function.update, hl.eax, write32_not_within hx]

/-- Once the stack is switched only the word below the new stack pointer is written. -/
lemma exec_resumeNew_frame (t : Machine)
    (hx : ¬Within x ((exec resumeNew t).reg .esp - 4) 4) : (exec resumeNew t).mem x = t.mem x := by
  have hesp : (exec resumeNew t).reg .esp = read32 t.mem (t.reg .eax + 24) := by
    simp -implicitDefEqProofs [resumeNew, Instr.run, Machine.setReg, Machine.dropWord,
      Machine.pushWord, Function.update]
  rw [hesp] at hx
  simp -implicitDefEqProofs [resumeNew, Instr.run, Machine.setReg, Machine.dropWord,
    Machine.pushWord, Function.update, write32_not_within hx]

/-! ### The whole call -/

lemma OffStack.below (h : OffStack s a) : Separate a 44 (s.reg .esp - 40 - 8) 8 := by
  have hbase : s.reg .esp - 40 - 8 = s.reg .esp - 48 := by grind
  rw [hbase]
  exact fun x hx hx' => h x hx (Nat.lt_of_lt_of_le hx' (by decide))

lemma OffStack.returnAddress (h : OffStack s a) : Separate a 44 (s.reg .esp) 4 := by
  have hpart := (h.symm.part (o := 48) (i := 4) (by decide)).symm
  rwa [show s.reg .esp - 48 + 48 = s.reg .esp by grind] at hpart

/-- A record off the stack, and not that of the caller, is as it was when it is loaded. -/
lemma readRegisters_saveOld (hap : OffStack s (oldArgument s)) (ha : OffStack s a)
    (hrec : Separate a registersSize (oldArgument s) registersSize) :
    readRegisters (exec saveOld s).mem a = readRegisters s.mem a := by
  apply readRegisters_congr
  intro x hx
  refine (saving_saveOld hap).2.frame x (hrec x hx) fun hx' => ?_
  exact ha.above x hx (Nat.lt_of_lt_of_le hx' (by decide))

/-- The record of the caller is loaded as the call has left it. -/
lemma readRegisters_saveOld_self (hap : OffStack s (oldArgument s)) :
    readRegisters (exec saveOld s).mem (oldArgument s) = callerState s :=
  readRegisters_eq (saving_saveOld hap).2.record

/-- What `switch_task` does to the processor, given the record that it loads. -/
lemma cpu_switchTask {r : Registers} (hap : OffStack s (oldArgument s))
    (hnew : OffStack s (newArgument s))
    (hr : readRegisters (exec saveOld s).mem (newArgument s) = r)
    (hsp : Separate (newArgument s) registersSize (r.esp - 4) 4) :
    cpuRegisters (exec switchTaskCode s) = loadedState r := by
  obtain ⟨hesp, hsave⟩ := saving_saveOld hap
  have hload : Loaded r (newArgument s) (exec loadNew (exec saveOld s)) := by
    rw [← hr]
    apply exec_loadNew
    · rw [hesp]
      exact read32_readWords (i := 12) hsave.stack rfl
    · rw [hesp]
      exact hnew.below
  have hrec : readRegisters (exec loadNew (exec saveOld s)).mem (newArgument s) = r := by
    rw [← hr]
    apply readRegisters_congr
    intro x hx
    refine (exec_loadNew_frame (exec saveOld s)).2 x ?_
    rw [hesp]
    exact hnew.below x hx
  rw [switchTaskCode, beforeResume, exec_append, exec_append]
  exact (exec_resumeNew hrec hload hsp).1

/-- The bytes a call changes: the record of its caller, twelve words below its stack pointer and
the word below the new one. -/
lemma switchTask_frame (hap : OffStack s (oldArgument s))
    (hrec : ¬Within x (oldArgument s) registersSize) (hstack : ¬Within x (s.reg .esp - 48) 48)
    (hnew : ¬Within x ((exec switchTaskCode s).reg .esp - 4) 4) :
    (exec switchTaskCode s).mem x = s.mem x := by
  obtain ⟨hesp, hsave⟩ := saving_saveOld hap
  rw [switchTaskCode, exec_append] at hnew ⊢
  rw [exec_resumeNew_frame _ hnew, beforeResume, exec_append, (exec_loadNew_frame _).2,
    hsave.frame x hrec]
  · intro h
    apply hstack
    rw [show s.reg .esp - 40 = s.reg .esp - 48 + 8 by grind] at h
    exact within_add h (by decide)
  · intro h
    apply hstack
    rw [hesp, show s.reg .esp - 40 - 8 = s.reg .esp - 48 by grind] at h
    exact Nat.lt_of_lt_of_le h (by decide)

lemma loadedState_callerState (s : Machine) : loadedState (callerState s) = callerState s := by
  change { callerState s with eflags := (Eflags.ofWord s.eflags.word).word } = callerState s
  rw [Eflags.ofWord_word]
  rfl

/-- The record of the caller is left as the call has saved it. -/
lemma record_switchTask (hap : OffStack s (oldArgument s))
    (hsp : Separate (oldArgument s) registersSize ((exec switchTaskCode s).reg .esp - 4) 4) :
    readRegisters (exec switchTaskCode s).mem (oldArgument s) = callerState s := by
  rw [← readRegisters_saveOld_self hap]
  rw [switchTaskCode, exec_append] at hsp ⊢
  apply readRegisters_congr
  intro x hx
  rw [exec_resumeNew_frame _ (hsp x hx), beforeResume, exec_append, (exec_loadNew_frame _).2]
  rw [(saving_saveOld hap).1]
  exact hap.below x hx

/-- A task that switches to itself goes on where it is. -/
lemma cpu_switchTask_self (hap : OffStack s (oldArgument s)) (heq : newArgument s = oldArgument s) :
    cpuRegisters (exec switchTaskCode s) = callerState s := by
  have hret : (callerState s).esp - 4 = s.reg .esp := UInt32.add_sub_cancel _ 4
  have hr := readRegisters_saveOld_self hap
  rw [← heq] at hap hr
  rw [← loadedState_callerState s]
  refine cpu_switchTask (heq ▸ hap) hap hr ?_
  rw [hret]
  exact hap.returnAddress

/-- Another one goes on where its record says. -/
lemma cpu_switchTask_other {r : Registers} (hap : OffStack s (oldArgument s))
    (hnew : OffStack s (newArgument s))
    (hrec : Separate (newArgument s) registersSize (oldArgument s) registersSize)
    (hr : readRegisters s.mem (newArgument s) = r)
    (hsp : Separate (newArgument s) registersSize (r.esp - 4) 4) :
    cpuRegisters (exec switchTaskCode s) = loadedState r :=
  cpu_switchTask hap hnew (by rw [readRegisters_saveOld hap hnew hrec, hr]) hsp

/-- A call `switch_task(&A, ..)` in the state `s₁` and a later one `switch_task(.., &A)` in the
state `s₂`: the record of `A` is apart from the words pushed and is not modified in between, and
two records of the later call are one or apart. -/
structure SwitchBack (s₁ s₂ : Machine) (A : UInt32) : Prop where
  saved : oldArgument s₁ = A
  resumed : newArgument s₂ = A
  first : OffStack s₁ A
  firstNext : Separate A registersSize ((exec switchTaskCode s₁).reg .esp - 4) 4
  kept : readRegisters s₂.mem A = readRegisters (exec switchTaskCode s₁).mem A
  second : OffStack s₂ A
  secondOld : OffStack s₂ (oldArgument s₂)
  records : oldArgument s₂ = A ∨ Separate A registersSize (oldArgument s₂) registersSize

/-- A later call from another task resumes the first one: the processor is as if that call had
just returned. A later call of the task itself goes on where it is. From the switch of the stack
on nothing changes but the word below the stack pointer. -/
theorem switchTask_round_trip {s₁ s₂ : Machine} {A : UInt32} (h : SwitchBack s₁ s₂ A) :
    (oldArgument s₂ ≠ A → cpuRegisters (exec switchTaskCode s₂) = callerState s₁) ∧
      (oldArgument s₂ = A → cpuRegisters (exec switchTaskCode s₂) = callerState s₂) ∧
      ∀ x, ¬Within x ((exec switchTaskCode s₂).reg .esp - 4) 4 →
        (exec switchTaskCode s₂).mem x = (exec beforeResume s₂).mem x := by
  obtain ⟨rfl, hA, hfirst, hnext, hkept, hsecond, hold, hrec⟩ := h
  refine ⟨fun hne => ?_, fun heq => ?_, fun x hx => ?_⟩
  · have hr : readRegisters s₂.mem (newArgument s₂) = callerState s₁ := by
      rw [hA, hkept, record_switchTask hfirst hnext]
    have hret : (callerState s₁).esp - 4 = s₁.reg .esp := UInt32.add_sub_cancel _ 4
    rw [cpu_switchTask_other hold (by rwa [hA]) ?_ hr ?_, loadedState_callerState]
    · rw [hA]
      exact hrec.resolve_left hne
    · rw [hA, hret]
      exact hfirst.returnAddress
  · exact cpu_switchTask_self hold (hA.trans heq.symm)
  · rw [switchTaskCode, exec_append] at hx ⊢
    exact exec_resumeNew_frame _ hx

/-- The records of the threads in memory, at a call of `switch_task`: off its stack, apart from
that of the caller, and holding what the threads hold. -/
structure RecordsAt (addr : Thread → UInt32) (ts : List Thread) (old : Thread) (k : Tasks)
    (s : Machine) : Prop where
  off : ∀ t ∈ ts, OffStack s (addr t)
  apart : ∀ t ∈ ts, t ≠ old → Separate (addr t) registersSize (addr old) registersSize
  regs : ∀ t ∈ ts, readRegisters s.mem (addr t) = (k.thread t).regs

/-- What the model of `switch_task` does. -/
lemma switchTask_spec {old new : Thread} {k k' : Tasks}
    (h : switchTask k (.node old) (.node new) = .ok k') :
    (k'.thread old).regs = k.cpu ∧ (∀ t, t ≠ old → k'.thread t = k.thread t) ∧
      k'.cpu = (k'.thread new).regs := by
  obtain rfl := Except.ok.inj h
  refine ⟨?_, fun t ht => Function.update_of_ne ht _ _, rfl⟩
  simp [Tasks.modify]

/-- The code does to the processor and to the records what `switchTask` does to the threads. -/
theorem switchTask_refines {addr : Thread → UInt32} {ts : List Thread} {old new : Thread}
    {k k' : Tasks} (h : RecordsAt addr ts old k s) (hold : old ∈ ts) (hnew : new ∈ ts)
    (ho : oldArgument s = addr old) (hn : newArgument s = addr new) (hcpu : k.cpu = callerState s)
    (hk : switchTask k (.node old) (.node new) = .ok k') (hflags : loadedState k'.cpu = k'.cpu)
    (hsp : ∀ t ∈ ts, Separate (addr t) registersSize (k'.cpu.esp - 4) 4) :
    cpuRegisters (exec switchTaskCode s) = k'.cpu ∧
      ∀ t ∈ ts, readRegisters (exec switchTaskCode s).mem (addr t) = (k'.thread t).regs := by
  obtain ⟨hsaved, hother, hload⟩ := switchTask_spec hk
  have hap : OffStack s (oldArgument s) := ho ▸ h.off old hold
  have hregs : cpuRegisters (exec switchTaskCode s) = k'.cpu := by
    by_cases heq : new = old
    · rw [cpu_switchTask_self hap (by rw [hn, ho, heq]), hload, heq, hsaved, hcpu]
    · have hr : readRegisters s.mem (newArgument s) = k'.cpu := by
        rw [hn, h.regs new hnew, hload, hother new heq]
      rw [← hflags]
      refine cpu_switchTask_other hap ?_ ?_ hr ?_
      · exact hn ▸ h.off new hnew
      · rw [hn, ho]
        exact h.apart new hnew heq
      · exact hn ▸ hsp new hnew
  have hesp : (exec switchTaskCode s).reg .esp = k'.cpu.esp := by
    rw [← hregs]
    rfl
  rw [← hesp] at hsp
  refine ⟨hregs, fun t ht => ?_⟩
  by_cases heq : t = old
  · rw [heq, hsaved, hcpu, ← ho]
    exact record_switchTask hap (ho ▸ hsp old hold)
  · rw [hother t heq, ← h.regs t ht]
    apply readRegisters_congr
    intro x hx
    apply switchTask_frame hap
    · rw [ho]
      exact h.apart t ht heq x hx
    · exact fun h48 => h.off t ht x hx (Nat.lt_of_lt_of_le h48 (by decide))
    · exact hsp t ht x hx

/-- The processor right after `call switch_task`, with the stack pointer at `sp`. -/
def callAt (s : Machine) (sp ret old new : UInt32) : Machine :=
  { s with
    reg := Function.update s.reg .esp sp
    mem := storeWords sp s.mem [(0, ret), (1, old), (2, new)] }

lemma callAt_esp (s : Machine) (sp ret old new : UInt32) :
    (callAt s sp ret old new).reg .esp = sp := by
  simp [callAt]

lemma callAt_words (s : Machine) (sp ret old new : UInt32) :
    read32 (callAt s sp ret old new).mem sp = ret ∧
      oldArgument (callAt s sp ret old new) = old ∧
      newArgument (callAt s sp ret old new) = new := by
  have hwords : readWords (callAt s sp ret old new).mem sp 3 = [ret, old, new] :=
    readWords_storeWords (by decide) (by simp)
  have hesp := callAt_esp s sp ret old new
  refine ⟨?_, ?_, ?_⟩
  · simpa using read32_readWords (i := 0) hwords rfl
  · rw [oldArgument, hesp]
    exact read32_readWords (i := 1) hwords rfl
  · rw [newArgument, hesp]
    exact read32_readWords (i := 2) hwords rfl

lemma callAt_record {sp ret old new : UInt32} (h : Separate a registersSize sp 12) :
    readRegisters (callAt s sp ret old new).mem a = readRegisters s.mem a :=
  readRegisters_congr fun x hx => storeWords_not_within (n := 3) (by decide) (by simp) (h x hx)

/-- The record at 0x1000 calls from a stack at 0x8000 and is resumed by a call of the record at
0x2000 from a stack at 0x9000. -/
def firstCall : Machine :=
  callAt ⟨fun _ => 0, .ofWord 0, 0, 0, fun _ => 0⟩ 0x8000 0x100 0x1000 0x2000

lemma firstCall_esp : (exec switchTaskCode firstCall).reg .esp = 0 := by
  decide +kernel

/-- The later call, of the task with the record `old`. -/
def laterCall (old : UInt32) : Machine :=
  callAt (exec switchTaskCode firstCall) 0x9000 0x200 old 0x1000

lemma laterCall_old (old : UInt32) : oldArgument (laterCall old) = old :=
  (callAt_words _ _ _ _ _).2.1

lemma laterCall_new (old : UInt32) : newArgument (laterCall old) = 0x1000 :=
  (callAt_words _ _ _ _ _).2.2

lemma switchBack_laterCall {old : UInt32} (h : old = 0x1000 ∨ old = 0x2000) :
    SwitchBack firstCall (laterCall old) 0x1000 := by
  have hoff : ∀ a : UInt32, a.toNat ≤ 0x2000 → OffStack (laterCall old) a := by
    intro a ha
    rw [OffStack, laterCall, callAt_esp]
    exact separate_of_le (by unfold registersSize; change _ ≤ 0x9000 - 48; omega) (by decide)
  refine ⟨(callAt_words _ _ _ _ _).2.1, laterCall_new old, ?_, ?_, ?_, hoff _ (by decide), ?_, ?_⟩
  · rw [OffStack, firstCall, callAt_esp]
    exact separate_of_le (by decide) (by decide)
  · rw [firstCall_esp]
    exact separate_of_le (by decide) (by decide)
  · exact callAt_record (separate_of_le (by decide) (by decide))
  · rw [laterCall_old]
    apply hoff
    rcases h with rfl | rfl <;> decide
  · rw [laterCall_old]
    rcases h with rfl | rfl
    · exact Or.inl rfl
    · exact Or.inr (separate_of_le (by decide) (by decide))

/-- The second task gives the processor back to the first one, at its return address. -/
theorem switchTask_round_trip_other :
    SwitchBack firstCall (laterCall 0x2000) 0x1000 ∧
      cpuRegisters (exec switchTaskCode (laterCall 0x2000)) = callerState firstCall := by
  have h : SwitchBack firstCall (laterCall 0x2000) 0x1000 := switchBack_laterCall (Or.inr rfl)
  refine ⟨h, (switchTask_round_trip h).1 ?_⟩
  rw [laterCall_old]
  decide

/-- If the later call is one of the first task to itself, it does not go back to the return
address of the first call. -/
theorem switchTask_self_stays :
    SwitchBack firstCall (laterCall 0x1000) 0x1000 ∧
      (exec switchTaskCode (laterCall 0x1000)).eip = 0x200 ∧
      read32 firstCall.mem (firstCall.reg .esp) = 0x100 ∧
      cpuRegisters (exec switchTaskCode (laterCall 0x1000)) ≠ callerState firstCall := by
  have h : SwitchBack firstCall (laterCall 0x1000) 0x1000 := switchBack_laterCall (Or.inl rfl)
  have hself := cpu_switchTask_self h.secondOld ((laterCall_new _).trans (laterCall_old _).symm)
  have hret : read32 firstCall.mem (firstCall.reg .esp) = 0x100 := by
    rw [firstCall, callAt_esp]
    exact (callAt_words _ _ _ _ _).1
  have heip : (exec switchTaskCode (laterCall 0x1000)).eip = 0x200 := by
    rw [← cpuRegisters_eip, hself, callerState_eip, laterCall, callAt_esp]
    exact (callAt_words _ _ _ _ _).1
  refine ⟨h, heip, hret, fun heq => ?_⟩
  rw [← cpuRegisters_eip, heq, callerState_eip, hret] at heip
  exact absurd heip (by decide)

end SaxonOS.Proofs
