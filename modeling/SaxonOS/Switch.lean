import SaxonOS.Lib.X86
import SaxonOS.Task

/-!
# The context switch

`switch.s`, instruction by instruction, and the `Registers` records it saves to and loads from.
The pieces of `switch_task` follow each other in the order of the file.
-/

namespace SaxonOS
open Lib Lib.X86

/-- The size of a `Registers` record. -/
def registersSize : Nat := 44

/-- The record at an address, field by field. -/
def readRegisters (m : Mem) (a : UInt32) : Registers where
  eax := read32 m a
  ebx := read32 m (a + 4)
  ecx := read32 m (a + 8)
  edx := read32 m (a + 12)
  esi := read32 m (a + 16)
  edi := read32 m (a + 20)
  esp := read32 m (a + 24)
  ebp := read32 m (a + 28)
  eip := read32 m (a + 32)
  eflags := read32 m (a + 36)
  cr3 := read32 m (a + 40)

/-- The processor as a `Registers` record describes it. -/
def cpuRegisters (s : Machine) : Registers where
  eax := s.reg .eax
  ebx := s.reg .ebx
  ecx := s.reg .ecx
  edx := s.reg .edx
  esi := s.reg .esi
  edi := s.reg .edi
  esp := s.reg .esp
  ebp := s.reg .ebp
  eip := s.eip
  eflags := s.eflags.word
  cr3 := s.cr3

/-- The arguments `old` and `new` of `switch_task`, above the return address. -/
def oldArgument (s : Machine) : UInt32 := read32 s.mem (s.reg .esp + 4)

def newArgument (s : Machine) : UInt32 := read32 s.mem (s.reg .esp + 8)

/-- The state of the processor is pushed. -/
def pushState : List Instr :=
  [ .pusha,
    .pushf,
    .movFromCr3 .eax,
    .push .eax ]

/-- The registers that still hold their values are saved. -/
def saveHeld : List Instr :=
  [ .load 44 .esp .eax,
    .store .ebx 4 .eax,
    .store .ecx 8 .eax,
    .store .edx 12 .eax,
    .store .esi 16 .eax,
    .store .edi 20 .eax ]

/-- The others are taken from the stack. -/
def savePushed : List Instr :=
  [ .load 36 .esp .ebx,
    .load 40 .esp .ecx,
    .load 20 .esp .edx,
    .addImm 4 .edx,
    .load 16 .esp .esi,
    .load 4 .esp .edi,
    .store .ebx 0 .eax,
    .store .edx 24 .eax,
    .store .esi 28 .eax,
    .store .ecx 32 .eax,
    .store .edi 36 .eax ]

/-- `cr3` lies on top. -/
def saveCr3 : List Instr :=
  [ .pop .ebx,
    .store .ebx 40 .eax,
    .push .ebx ]

/-- The registers of the new task that the rest of the code does not need. -/
def loadNew : List Instr :=
  [ .load 48 .esp .eax,
    .load 4 .eax .ebx,
    .load 8 .eax .ecx,
    .load 12 .eax .edx,
    .load 16 .eax .esi,
    .load 20 .eax .edi,
    .load 28 .eax .ebp,
    .push .eax,
    .load 36 .eax .eax,
    .push .eax,
    .popf,
    .pop .eax ]

/-- From here on the stack is that of the new task. -/
def resumeNew : List Instr :=
  [ .load 24 .eax .esp,
    .push .eax,
    .load 40 .eax .eax,
    .movToCr3 .eax,
    .pop .eax,
    .push .eax,
    .load 32 .eax .eax,
    .xchg .esp .eax,
    .load 0 .eax .eax,
    .ret ]

def saveOld : List Instr := pushState ++ saveHeld ++ savePushed ++ saveCr3

/-- `switch_task` up to the point where the stack is switched. -/
def beforeResume : List Instr := saveOld ++ loadNew

def switchTaskCode : List Instr := beforeResume ++ resumeNew

end SaxonOS
