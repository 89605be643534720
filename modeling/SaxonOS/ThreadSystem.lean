import SaxonOS.Switch

/-!
# Threads on one processor

The scheduler of `task.c` over the processor that runs `switch.s`. The records of the threads lie in
memory; the links between them, their stack pages and the static data of `task.c` are kept as
`Tasks`. Between two calls of the scheduler the running thread executes code of its own.

Beside it stands what the scheduler is for: every thread has a processor and a stack of its own,
and they take turns.
-/

namespace SaxonOS
open Lib Lib.X86

structure Region where
  base : UInt32
  size : Nat

def Region.Has (g : Region) (x : UInt32) : Prop := Within x g.base g.size

/-- The part of a stack above the stack pointer. -/
def Region.InUse (g : Region) (esp x : UInt32) : Prop :=
  g.Has x ∧ (esp - g.base).toNat ≤ (x - g.base).toNat

variable {g : Region} {esp x : UInt32}

instance : Decidable (g.Has x) := inferInstanceAs (Decidable (Within x g.base g.size))

instance : Decidable (g.InUse esp x) := inferInstanceAs (Decidable (_ ∧ _))

def Region.Apart (g h : Region) : Prop := Separate g.base g.size h.base h.size

/-- Where the records of the threads lie, the stack the kernel is booted on, and the memory that all
threads use. -/
structure Placement where
  addr : Thread → UInt32
  bootStack : Region
  shared : UInt32 → Bool
  mainRecord : Separate (addr .mainThread) registersSize bootStack.base bootStack.size
  notShared : ∀ x, shared x = true → ¬Within x (addr .mainThread) registersSize ∧ ¬bootStack.Has x

def Placement.record (P : Placement) (t : Thread) : Region := ⟨P.addr t, registersSize⟩

def stackPageSize : Nat := 0x1000

structure ThreadSystem where
  tasks : Tasks
  created : List Thread
  machine : Machine

namespace ThreadSystem

/-- The threads there are, in the order of their creation. -/
def threads (s : ThreadSystem) : List Thread := .mainThread :: s.created

def stack (P : Placement) (s : ThreadSystem) : Thread → Region
  | .mainThread => P.bootStack
  | .record n => ⟨(s.tasks.thread (.record n)).virtualAddr, stackPageSize⟩

/-- `init_tasking`, by the code that runs on the boot stack. -/
def init (P : Placement) (k : Tasks) (m : Machine) : ThreadSystem :=
  let k := { k with cpu := cpuRegisters m }.modify .mainThread fun t =>
    { t with regs := readRegisters m.mem (P.addr .mainThread) }
  ⟨initTasking k, [],
    { m with mem := storeWords (P.addr .mainThread) m.mem [(10, m.cr3), (9, m.eflags.word)] }⟩

/-- The thread that runs executes some code, which reads its stack and the shared memory and writes
to no other memory. -/
def run (P : Placement) (s : ThreadSystem) (code : Machine → Machine) :
    Except Fault ThreadSystem := do
  let t ← derefThread s.tasks.runningThread
  let m := s.machine
  let m' := code { m with
    mem := fun x =>
      if (s.stack P t).InUse (m.reg .esp) x ∨ P.shared x then m.mem x else 0 }
  .ok { s with machine := { m' with
    mem := fun x => if (s.stack P t).Has x ∨ P.shared x then m'.mem x else m.mem x } }

/-- The thread that `preempt` makes the running one. -/
def nextThread (s : Tasks) : Except Fault (Ptr Thread) :=
  if s.runningThread = s.lastThread then .ok (.node .mainThread)
  else do
    let t ← derefThread s.runningThread
    .ok (s.thread t).next

/-- `preempt`, which calls `switch_task` from the address before `ret`. -/
def preempt (P : Placement) (s : ThreadSystem) (ret : UInt32) : Except Fault ThreadSystem := do
  let next ← nextThread s.tasks
  let old ← derefThread s.tasks.runningThread
  let new ← derefThread next
  let machine := s.machine.pushWords [P.addr new, P.addr old, ret]
  let cpu := cpuRegisters (Instr.ret.run machine)
  let tasks ← switchTask { s.tasks with runningThread := next, cpu } (.node old) next
  .ok { s with tasks, machine := exec switchTaskCode machine }

/-- The stores of `kthread_create` to `task->regs`. -/
def setupStores (k : Tasks) (task : Thread) (main : UInt32) : List (Nat × UInt32) :=
  [(0, 0), (1, 0), (2, 0), (3, 0), (4, 0), (5, 0), (9, k.flags), (8, main), (10, k.pageDir),
    (6, (k.thread task).virtualAddr + 0x1000)]

/-- `kthread_create` up to its call of `preempt`. -/
def enrol (P : Placement) (s : ThreadSystem) (task : Thread) (main : UInt32) :
    Except Fault ThreadSystem := do
  let tasks := s.tasks.modify task fun k =>
    { k with regs := readRegisters s.machine.mem (P.addr task) }
  let tasks ← setupThread tasks task main
  let mem := storeWords (P.addr task) s.machine.mem (setupStores tasks task main)
  let tasks ← appendThread tasks task
  .ok ⟨tasks, s.created ++ [task], { s.machine with mem }⟩

def create (P : Placement) (s : ThreadSystem) (task : Thread) (main ret : UInt32) :
    Except Fault ThreadSystem := do
  let s ← s.enrol P task main
  s.preempt P ret

end ThreadSystem

inductive ThreadOp
  | run (code : Machine → Machine)
  | preempt (ret : UInt32)
  | create (task : Thread) (main ret : UInt32)

def ThreadSystem.exec (P : Placement) (s : ThreadSystem) : ThreadOp → Except Fault ThreadSystem
  | .run code => s.run P code
  | .preempt ret => s.preempt P ret
  | .create task main ret => s.create P task main ret

/-- There is room on the stack of the running thread for the call of `switch_task`: three words for
the call and twelve that `switch_task` pushes. -/
def ThreadSystem.Room (P : Placement) (s : ThreadSystem) : Prop :=
  ∀ t, s.tasks.runningThread = .node t →
    60 ≤ (s.machine.reg .esp - (s.stack P t).base).toNat ∧
      (s.machine.reg .esp - (s.stack P t).base).toNat ≤ (s.stack P t).size

/-- A record that is passed to `kthread_create`, and the page that becomes the stack, are not in
use. -/
structure ThreadSystem.Admits (P : Placement) (s : ThreadSystem) (task : Thread) (g : Region) :
    Prop where
  fresh : task ∉ s.threads
  record : ∀ t ∈ s.threads, (P.record task).Apart (P.record t)
  recordStack : ∀ t ∈ s.threads, (P.record task).Apart (s.stack P t)
  page : ∀ t ∈ s.threads, g.Apart (P.record t)
  pageStack : ∀ t ∈ s.threads, g.Apart (s.stack P t)
  own : (P.record task).Apart g
  shared : ∀ x, P.shared x = true → ¬(P.record task).Has x ∧ ¬g.Has x

/-- What the scheduler relies on at a step. -/
def ThreadOp.Safe (P : Placement) (s : ThreadSystem) : ThreadOp → Prop
  | .run _ => True
  | .preempt _ => s.Room P
  | .create task _ _ => s.Room P ∧ ∀ page paging, kallocPage s.tasks.paging = .ok (page, paging) →
      s.Admits P task ⟨page, stackPageSize⟩

/-- A page can be had for a new thread. -/
def ThreadOp.HasPage (s : ThreadSystem) : ThreadOp → Prop
  | .create _ _ _ => ∃ page paging, kallocPage s.tasks.paging = .ok (page, paging)
  | _ => True

structure ThreadWorld where
  own : Thread → Machine
  stack : Thread → Region
  shared : Mem
  before : List Thread
  running : Thread
  after : List Thread
  flags : Eflags
  pageDir : UInt32

namespace ThreadWorld

def threads (w : ThreadWorld) : List Thread := w.before ++ w.running :: w.after

/-- One thread, which has the boot stack. -/
def init (P : Placement) (m : Machine) : ThreadWorld where
  own := fun _ => m
  stack := fun _ => P.bootStack
  shared := m.mem
  before := []
  running := .mainThread
  after := []
  flags := m.eflags
  pageDir := m.cr3

/-- The running thread executes code on its own processor. -/
def run (P : Placement) (w : ThreadWorld) (code : Machine → Machine) : ThreadWorld :=
  let m := w.own w.running
  let m' := code { m with
    mem := fun x =>
      if (w.stack w.running).InUse (m.reg .esp) x then m.mem x
      else if P.shared x then w.shared x else 0 }
  { w with
    own := Function.update w.own w.running m'
    shared := fun x => if P.shared x then m'.mem x else w.shared x }

/-- The turn passes on, and goes round. -/
def rotate (w : ThreadWorld) : ThreadWorld :=
  match w.before, w.after with
  | us, x :: vs => { w with before := us ++ [w.running], running := x, after := vs }
  | x :: us, [] => { w with before := [], running := x, after := us ++ [w.running] }
  | [], [] => w

/-- To the thread that calls it `preempt` is a call that returns and does nothing. -/
def turn (P : Placement) (w : ThreadWorld) (ret : UInt32) : ThreadWorld :=
  let called := (w.own w.running).pushWords [P.addr w.rotate.running, P.addr w.running, ret]
  { w.rotate with own := Function.update w.own w.running (Instr.ret.run called) }

/-- A new thread is about to start at `main` with an empty stack. -/
def fresh (w : ThreadWorld) (page ebp main : UInt32) (mem : Mem) : Machine where
  reg
    | .esp => page + 0x1000
    | .ebp => ebp
    | _ => 0
  eflags := w.flags
  cr3 := w.pageDir
  eip := main
  mem := mem

def enrol (w : ThreadWorld) (task : Thread) (page ebp main : UInt32) (mem : Mem) : ThreadWorld :=
  { w with
    own := Function.update w.own task (w.fresh page ebp main mem)
    stack := Function.update w.stack task ⟨page, stackPageSize⟩
    after := w.after ++ [task] }

/-- The steps. Nothing is said of the page that a new thread gets, of what lies there, and of the
frame pointer that it starts with. -/
def Step (P : Placement) (w : ThreadWorld) (op : ThreadOp) (w' : ThreadWorld) : Prop :=
  match op with
  | .run code => w' = w.run P code
  | .preempt ret => w' = w.turn P ret
  | .create task main ret => ∃ page ebp mem, w' = (w.enrol task page ebp main mem).turn P ret

end ThreadWorld

end SaxonOS
