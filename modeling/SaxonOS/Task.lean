import SaxonOS.Lib.Chain
import SaxonOS.Paging

/-!
# Kernel threads

`task.c` and `switch.s`. A `kthread_t` is named by the record it lives in, `main_thread` or
one that the caller passes. The registers are those that `switch_task` saves in the record of
the thread that gives up the processor and loads from the record of the next one.
-/

namespace SaxonOS
open Lib

inductive Thread
  | mainThread
  | record (n : Nat)
  deriving DecidableEq

structure Registers where
  eax : UInt32
  ebx : UInt32
  ecx : UInt32
  edx : UInt32
  esi : UInt32
  edi : UInt32
  esp : UInt32
  ebp : UInt32
  eip : UInt32
  eflags : UInt32
  cr3 : UInt32

structure Kthread where
  regs : Registers
  virtualAddr : UInt32
  next : Ptr Thread

structure Tasks where
  thread : Thread → Kthread
  lastThread : Ptr Thread
  runningThread : Ptr Thread
  flags : UInt32
  pageDir : UInt32
  cpu : Registers
  paging : Paging

/-- The record behind a pointer that is dereferenced. -/
def derefThread : Ptr Thread → Except Fault Thread
  | .null => .error .nullDeref
  | .wild => .error .wildDeref
  | .node t => .ok t

def Tasks.modify (s : Tasks) (t : Thread) (f : Kthread → Kthread) : Tasks :=
  { s with thread := Function.update s.thread t (f (s.thread t)) }

def initTasking (s : Tasks) : Tasks :=
  let s := s.modify .mainThread fun k => { k with regs := { k.regs with cr3 := s.cpu.cr3 } }
  let s := s.modify .mainThread fun k => { k with regs := { k.regs with eflags := s.cpu.eflags } }
  let s := { s with flags := s.cpu.eflags, pageDir := s.cpu.cr3 }
  let s := s.modify .mainThread fun k => { k with next := .null }
  { s with runningThread := .node .mainThread, lastThread := .node .mainThread }

/-- `switch_task(&old->regs, &new->regs)`, called with the processor in the state `s.cpu`. -/
def switchTask (s : Tasks) (old new : Ptr Thread) : Except Fault Tasks := do
  let old ← derefThread old
  let s := s.modify old fun k => { k with regs := s.cpu }
  let new ← derefThread new
  .ok { s with cpu := (s.thread new).regs }

def preempt (s : Tasks) : Except Fault Tasks := do
  let prev := s.runningThread
  let running ← (if s.runningThread = s.lastThread then .ok (.node .mainThread)
    else do
      let t ← derefThread s.runningThread
      .ok (s.thread t).next)
  switchTask { s with runningThread := running } prev running

/-- The first part of `kthread_create`: the registers and the stack page of the new thread. -/
def setupThread (s : Tasks) (task : Thread) (main : UInt32) : Except Fault Tasks := do
  let s := s.modify task fun k => { k with regs := { k.regs with
    eax := 0, ebx := 0, ecx := 0, edx := 0, esi := 0, edi := 0
    eflags := s.flags, eip := main, cr3 := s.pageDir } }
  let (page, paging) ← kallocPage s.paging
  let s := { s with paging }
  let s := s.modify task fun k => { k with virtualAddr := page }
  .ok (s.modify task fun k => { k with regs := { k.regs with esp := k.virtualAddr + 0x1000 } })

/-- `task->next = 0; last_thread->next = task; last_thread = task;`. -/
def appendThread (s : Tasks) (task : Thread) : Except Fault Tasks := do
  let s := s.modify task fun k => { k with next := .null }
  let last ← derefThread s.lastThread
  let s := s.modify last fun k => { k with next := .node task }
  .ok { s with lastThread := .node task }

/-- `kthread_create`, with the address of the thread's function in `main`. -/
def kthreadCreate (s : Tasks) (task : Thread) (main : UInt32) : Except Fault Tasks := do
  let s ← setupThread s task main
  let s ← appendThread s task
  preempt s

/-- The loop of `kthread_join` from the record `tmp`, for `fuel` evaluations of its test. -/
def kthreadJoinLoop (thread : Thread) : Nat → Tasks → Ptr Thread → Except Fault Tasks
  | 0, _, _ => .error .diverge
  | fuel + 1, s, tmp => do
    let t ← derefThread tmp
    if (s.thread t).next = .node thread then .ok s
    else
      let s := s.modify t fun k => { k with next := (s.thread thread).next }
      let s := { s with lastThread := tmp }
      kthreadJoinLoop thread fuel s (s.thread t).next

/-- `kthread_join`, which returns if it does for some `fuel`. -/
def kthreadJoin (firstPageTable : TableAddr) (fuel : Nat) (s : Tasks) (thread : Thread) :
    Except Fault Tasks := do
  let s ← kthreadJoinLoop thread fuel s (.node .mainThread)
  let paging ← kfreePage firstPageTable s.paging (s.thread thread).virtualAddr
  .ok { s with paging }

end SaxonOS
