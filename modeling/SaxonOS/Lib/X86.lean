import SaxonOS.Lib.Words

/-!
# A 32-bit x86 processor in the kernel

Straight-line code at privilege level 0 over one flat address space: loading `cr3` changes which
page directory is in use, and code that runs in all of them sees the same memory before and after.
`eip` is followed only where the code leaves its own line.
-/

namespace Lib.X86

inductive Reg
  | eax | ecx | edx | ebx | esp | ebp | esi | edi
  deriving DecidableEq

lemma or_and_distrib (a b c : UInt32) : (a ||| b) &&& c = a &&& c ||| b &&& c := by
  apply UInt32.toNat_inj.mp
  simp only [UInt32.toNat_and, UInt32.toNat_or, Nat.and_or_distrib_right]

/-- The flags that `popf` loads. -/
def popfMask : UInt32 := 0x247FD5

/-- The flags of protected mode with `RF`, `VM`, `VIF` and `VIP` clear. Bit 1 is always set. -/
structure Eflags where
  word : UInt32
  reserved : word &&& ~~~popfMask = 2

/-- What `popf` makes of a word. -/
def Eflags.ofWord (w : UInt32) : Eflags where
  word := w &&& popfMask ||| 2
  reserved := by
    have h2 : (2 : UInt32) &&& ~~~popfMask = 2 := by decide
    rw [or_and_distrib, UInt32.and_assoc, UInt32.and_not_self, UInt32.and_zero, h2,
      UInt32.zero_or]

/-- The lowest eight bits have an even number of ones. -/
def evenParity (x : UInt32) : Bool :=
  let x := x ^^^ x >>> 4
  let x := x ^^^ x >>> 2
  let x := x ^^^ x >>> 1
  x &&& 1 = 0

/-- `CF`, `PF`, `AF`, `ZF`, `SF` and `OF` of a sum. -/
def statusOfAdd (a b : UInt32) : UInt32 :=
  let r := a + b
  (if r < a then 0x001 else 0) ||| (if evenParity r then 0x004 else 0) |||
    ((a ^^^ b ^^^ r) &&& 0x010) ||| (if r = 0 then 0x040 else 0) |||
    (if r &&& 0x80000000 ≠ 0 then 0x080 else 0) |||
    (if (a ^^^ r) &&& (b ^^^ r) &&& 0x80000000 ≠ 0 then 0x800 else 0)

def Eflags.add (f : Eflags) (a b : UInt32) : Eflags :=
  .ofWord (f.word &&& ~~~0x8D5 ||| statusOfAdd a b)

structure Machine where
  reg : Reg → UInt32
  eflags : Eflags
  cr3 : UInt32
  eip : UInt32
  mem : Mem

namespace Machine

def setReg (s : Machine) (r : Reg) (v : UInt32) : Machine :=
  { s with reg := Function.update s.reg r v }

def pushWord (s : Machine) (v : UInt32) : Machine :=
  { s with
    reg := Function.update s.reg .esp (s.reg .esp - 4)
    mem := write32 s.mem (s.reg .esp - 4) v }

/-- Words pushed one after the other, the last of them on top. -/
def pushWords (s : Machine) (vs : List UInt32) : Machine := vs.foldl pushWord s

/-- The stack pointer moves up over a word. -/
def dropWord (s : Machine) : Machine := s.setReg .esp (s.reg .esp + 4)

end Machine

/-- The operands stand in the order of the source text, the destination last. -/
inductive Instr
  | pusha
  | pushf
  | popf
  | push (src : Reg)
  | pop (dst : Reg)
  | movFromCr3 (dst : Reg)
  | movToCr3 (src : Reg)
  | load (disp : UInt32) (base dst : Reg)
  | store (src : Reg) (disp : UInt32) (base : Reg)
  | addImm (imm : UInt32) (dst : Reg)
  | xchg (base dst : Reg)
  | ret

def Instr.run (s : Machine) : Instr → Machine
  | pusha =>
    s.pushWords [s.reg .eax, s.reg .ecx, s.reg .edx, s.reg .ebx, s.reg .esp, s.reg .ebp,
      s.reg .esi, s.reg .edi]
  | pushf => s.pushWord s.eflags.word
  | popf => { s.dropWord with eflags := .ofWord (read32 s.mem (s.reg .esp)) }
  | push src => s.pushWord (s.reg src)
  | pop dst => s.dropWord.setReg dst (read32 s.mem (s.reg .esp))
  | movFromCr3 dst => s.setReg dst s.cr3
  | movToCr3 src => { s with cr3 := s.reg src }
  | load disp base dst => s.setReg dst (read32 s.mem (s.reg base + disp))
  | store src disp base => { s with mem := write32 s.mem (s.reg base + disp) (s.reg src) }
  | addImm imm dst =>
    { s.setReg dst (s.reg dst + imm) with eflags := s.eflags.add (s.reg dst) imm }
  | xchg base dst =>
    { s.setReg dst (read32 s.mem (s.reg base)) with
      mem := write32 s.mem (s.reg base) (s.reg dst) }
  | ret => { s.dropWord with eip := read32 s.mem (s.reg .esp) }

def exec (code : List Instr) (s : Machine) : Machine := code.foldl Instr.run s

variable {s : Machine} {c d : List Instr} {v x : UInt32} {r : Reg} {n : Nat}

@[simp] lemma exec_nil : exec [] s = s := rfl

@[simp] lemma exec_cons {i : Instr} : exec (i :: c) s = exec c (i.run s) := rfl

lemma exec_append : exec (c ++ d) s = exec d (exec c s) := List.foldl_append

/-- Flags that were read from the processor survive the way over the stack. -/
lemma Eflags.ofWord_word (f : Eflags) : Eflags.ofWord f.word = f := by
  obtain ⟨w, h⟩ := f
  have hw : w &&& popfMask ||| 2 = w := by
    have hall : popfMask ||| ~~~popfMask = -1 := by decide
    rw [← h, UInt32.and_comm w, UInt32.and_comm w, ← or_and_distrib, hall, UInt32.neg_one_and]
  simp only [ofWord, hw]

namespace Machine

/-- The `n` words on top of the stack. -/
def stack (s : Machine) (n : Nat) : List UInt32 := readWords s.mem (s.reg .esp) n

@[simp] lemma setReg_mem : (s.setReg r v).mem = s.mem := rfl

lemma setReg_of_ne {q : Reg} (h : q ≠ r) : (s.setReg r v).reg q = s.reg q :=
  Function.update_of_ne h _ _

lemma pushWord_reg : (s.pushWord v).reg = Function.update s.reg .esp (s.reg .esp - 4) := rfl

lemma pushWord_mem : (s.pushWord v).mem = write32 s.mem (s.reg .esp - 4) v := rfl

lemma stack_pushWord (hn : 4 * n + 4 ≤ 2 ^ 32) : (s.pushWord v).stack (n + 1) = v :: s.stack n := by
  rw [stack, pushWord_reg, pushWord_mem, Function.update_self]
  exact readWords_push hn

variable {vs : List UInt32}

@[simp] lemma pushWords_nil : s.pushWords [] = s := rfl

lemma pushWords_cons : s.pushWords (v :: vs) = (s.pushWord v).pushWords vs := rfl

@[simp] lemma pushWords_cr3 : (s.pushWords vs).cr3 = s.cr3 := by
  induction vs generalizing s with
  | nil => rfl
  | cons v vs ih => rw [pushWords_cons, ih, pushWord]

@[simp] lemma pushWords_eflags : (s.pushWords vs).eflags = s.eflags := by
  induction vs generalizing s with
  | nil => rfl
  | cons v vs ih => rw [pushWords_cons, ih, pushWord]

lemma pushWords_reg (hr : r ≠ .esp) : (s.pushWords vs).reg r = s.reg r := by
  induction vs generalizing s with
  | nil => rfl
  | cons v vs ih => rw [pushWords_cons, ih, pushWord_reg, Function.update_of_ne hr]

lemma pushWords_esp : (s.pushWords vs).reg .esp = s.reg .esp - UInt32.ofNat (4 * vs.length) := by
  induction vs generalizing s with
  | nil => simp
  | cons v vs ih =>
    have h4 : (UInt32.ofNat 4).toNat = 4 := rfl
    have hsp := (s.reg .esp).toNat_lt
    have hl := (UInt32.ofNat (4 * vs.length)).toNat_lt
    rw [pushWords_cons, ih, pushWord_reg, Function.update_self, List.length_cons, Nat.mul_add_one,
      Nat.add_comm, UInt32.ofNat_add]
    apply UInt32.toNat_inj.mp
    simp only [UInt32.toNat_sub, UInt32.toNat_add, h4, toNat_four]
    omega

lemma stack_pushWords (hn : 4 * (vs.length + n) ≤ 2 ^ 32) :
    (s.pushWords vs).stack (vs.length + n) = vs.reverse ++ s.stack n := by
  induction vs generalizing s n with
  | nil => simp
  | cons v vs ih =>
    rw [List.length_cons] at hn ⊢
    rw [pushWords_cons, Nat.add_assoc, Nat.add_comm 1 n, ih (by omega), stack_pushWord (by omega)]
    simp

/-- Only the words pushed change. -/
lemma pushWords_mem (hn : 4 * vs.length ≤ 2 ^ 32)
    (hx : ¬Within x ((s.pushWords vs).reg .esp) (4 * vs.length)) :
    (s.pushWords vs).mem x = s.mem x := by
  induction vs generalizing s with
  | nil => rfl
  | cons v vs ih =>
    rw [List.length_cons] at hn hx
    rw [pushWords_cons] at hx ⊢
    rw [ih (by omega) fun h => hx (Nat.lt_of_lt_of_le h (by omega)), pushWord_mem,
      write32_not_within]
    intro h
    apply hx
    have hbase : s.reg .esp - 4 =
        ((s.pushWord v).pushWords vs).reg .esp + UInt32.ofNat (4 * vs.length) := by
      rw [pushWords_esp, UInt32.sub_add_cancel, pushWord_reg, Function.update_self]
    rw [hbase] at h
    refine within_add h ?_
    rw [toNat_ofNat_small (by omega)]
    omega

end Machine

end Lib.X86
