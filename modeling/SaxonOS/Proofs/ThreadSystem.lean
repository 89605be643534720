import SaxonOS.Lib.Simulation
import SaxonOS.Proofs.SwitchTask
import SaxonOS.Proofs.Threads
import SaxonOS.ThreadSystem

/-!
# Threads on one processor refine threads with processors of their own

The state of a thread that waits lies in its record and on its stack, above the stack pointer that
is saved. A call of `switch_task` writes to the record of its caller and to the free parts of two
stacks only, so what waits is kept until it is resumed, whatever the other threads do meanwhile.
-/

namespace SaxonOS.Proofs
open Lib Lib.X86

variable {P : Placement} {w : ThreadWorld} {s : ThreadSystem} {m m' : Machine} {g : Region}
  {t u task : Thread} {sp o x ret main : UInt32} {k : Nat}

lemma has_of_below (ho : o.toNat ≤ (sp - g.base).toNat) (hs : (sp - g.base).toNat ≤ g.size)
    (hk : k ≤ o.toNat) (hx : Within x (sp - o) k) : g.Has x := by
  have hxlt := x.toNat_lt
  have hsp := sp.toNat_lt
  have hb := g.base.toNat_lt
  have holt := o.toNat_lt
  unfold Region.Has
  unfold Within at hx ⊢
  rw [UInt32.toNat_sub] at ho hs ⊢
  rw [UInt32.toNat_sub, UInt32.toNat_sub] at hx
  omega

lemma not_below_of_inUse (h : g.InUse sp x) (ho : o.toNat ≤ (sp - g.base).toNat)
    (hk : k ≤ o.toNat) : ¬Within x (sp - o) k := by
  intro hx
  have hxlt := x.toNat_lt
  have hsp := sp.toNat_lt
  have hb := g.base.toNat_lt
  have holt := o.toNat_lt
  have hin := h.2
  unfold Within at hx
  rw [UInt32.toNat_sub] at ho
  rw [UInt32.toNat_sub, UInt32.toNat_sub] at hin hx
  omega

/-- The part in use has grown downwards. -/
lemma inUse_pushed (h : g.InUse (sp - o) x) (ho : o.toNat ≤ (sp - g.base).toNat)
    (hx : ¬Within x (sp - o) o.toNat) : g.InUse sp x := by
  refine ⟨h.1, ?_⟩
  have hin := h.2
  have hxlt := x.toNat_lt
  have hsp := sp.toNat_lt
  have hb := g.base.toNat_lt
  have holt := o.toNat_lt
  unfold Within at hx
  rw [UInt32.toNat_sub] at ho
  rw [UInt32.toNat_sub, UInt32.toNat_sub] at hin hx
  rw [UInt32.toNat_sub, UInt32.toNat_sub]
  rw [UInt32.toNat_sub] at hin
  omega

lemma write32_congr {a v : UInt32} {m m' : Mem} (h : ¬Within x a 4 → m x = m' x) :
    write32 m a v x = write32 m' a v x := by
  by_cases hx : Within x a 4
  · obtain ⟨o, ho, rfl⟩ : ∃ o : UInt32, o.toNat < 4 ∧ x = a + o :=
      ⟨x - a, hx, by rw [UInt32.add_comm, UInt32.sub_add_cancel]⟩
    obtain rfl | rfl | rfl | rfl : o = 0 ∨ o = 1 ∨ o = 2 ∨ o = 3 := by
      simp only [← UInt32.toNat_inj]
      change o.toNat = 0 ∨ o.toNat = 1 ∨ o.toNat = 2 ∨ o.toNat = 3
      omega
    all_goals simp [write32, write8, Function.update]
  · rw [write32_not_within hx, write32_not_within hx, h hx]

/-- Words pushed on two machines with the same stack pointer. -/
lemma pushWords_mem_congr {vs : List UInt32} (hesp : m.reg .esp = m'.reg .esp)
    (hn : 4 * vs.length ≤ 2 ^ 32)
    (h : ¬Within x ((m.pushWords vs).reg .esp) (4 * vs.length) → m.mem x = m'.mem x) :
    (m.pushWords vs).mem x = (m'.pushWords vs).mem x := by
  induction vs generalizing m m' with
  | nil => exact h (by simp [Within])
  | cons v vs ih =>
    rw [List.length_cons] at hn
    rw [Machine.pushWords_cons, Machine.pushWords_cons]
    apply ih
    · rw [Machine.pushWord_reg, Machine.pushWord_reg, Function.update_self, Function.update_self,
        hesp]
    · omega
    · intro hx
      rw [Machine.pushWord_mem, Machine.pushWord_mem, hesp]
      refine write32_congr fun hx' => h fun hin => ?_
      rw [Machine.pushWords_cons, List.length_cons] at hin
      rw [Machine.pushWords_esp, Machine.pushWord_reg, Function.update_self] at hin hx
      rw [← hesp] at hx'
      have hlen : (UInt32.ofNat (4 * vs.length)).toNat = 4 * vs.length :=
        toNat_ofNat_small (by omega)
      have hxlt := x.toNat_lt
      have hsp := (m.reg .esp).toNat_lt
      unfold Within at hin hx hx'
      simp only [UInt32.toNat_sub, hlen, toNat_four] at hin hx hx'
      omega

/-- What the memory of the threads looks like: records, stacks and the shared memory are apart. -/
structure Placed (P : Placement) (w : ThreadWorld) : Prop where
  records : ∀ t ∈ w.threads, ∀ u ∈ w.threads, t ≠ u → (P.record t).Apart (P.record u)
  stackApart : ∀ t ∈ w.threads, ∀ u ∈ w.threads, t ≠ u → (w.stack t).Apart (w.stack u)
  off : ∀ t ∈ w.threads, ∀ u ∈ w.threads, (P.record t).Apart (w.stack u)
  shared : ∀ t ∈ w.threads, ∀ x, P.shared x = true → ¬(P.record t).Has x ∧ ¬(w.stack t).Has x

/-- The one processor and its memory stand for the processors of all threads: it holds the state of
the thread that runs, and the records hold those of the others. -/
structure CarriesWorld (P : Placement) (w : ThreadWorld) (s : ThreadSystem) : Prop where
  placed : Placed P w
  list : ThreadList w.threads s.tasks
  perm : ∀ t, t ∈ s.threads ↔ t ∈ w.threads
  running : s.tasks.runningThread = .node w.running
  stack : ∀ t ∈ w.threads, s.stack P t = w.stack t
  records : ∀ t ∈ w.threads, readRegisters s.machine.mem (P.addr t) = (s.tasks.thread t).regs
  waiting : ∀ t ∈ w.threads, t ≠ w.running → (s.tasks.thread t).regs = cpuRegisters (w.own t)
  room : ∀ t ∈ w.threads, t ≠ w.running →
    4 ≤ ((w.own t).reg .esp - (w.stack t).base).toNat ∧
      ((w.own t).reg .esp - (w.stack t).base).toNat ≤ (w.stack t).size
  cpu : cpuRegisters s.machine = cpuRegisters (w.own w.running)
  inUse : ∀ t ∈ w.threads, ∀ x, (w.stack t).InUse ((w.own t).reg .esp) x →
    s.machine.mem x = (w.own t).mem x
  shared : ∀ x, P.shared x = true → s.machine.mem x = w.shared x
  flags : s.tasks.flags = w.flags.word
  pageDir : s.tasks.pageDir = w.pageDir

lemma Placed.congr {w' : ThreadWorld} (h : Placed P w) (hts : w'.threads = w.threads)
    (hst : w'.stack = w.stack) : Placed P w' := by
  obtain ⟨h₁, h₂, h₃, h₄⟩ := h
  rw [← hts] at h₁ h₂ h₃ h₄
  rw [← hst] at h₂ h₃ h₄
  exact ⟨h₁, h₂, h₃, h₄⟩

lemma machine_ext (hcpu : cpuRegisters m = cpuRegisters m') (hmem : m.mem = m'.mem) : m = m' := by
  have hreg : m.reg = m'.reg := by
    funext r
    cases r with
    | eax => exact congrArg Registers.eax hcpu
    | ecx => exact congrArg Registers.ecx hcpu
    | edx => exact congrArg Registers.edx hcpu
    | ebx => exact congrArg Registers.ebx hcpu
    | esp => exact congrArg Registers.esp hcpu
    | ebp => exact congrArg Registers.ebp hcpu
    | esi => exact congrArg Registers.esi hcpu
    | edi => exact congrArg Registers.edi hcpu
  have hflags : m.eflags.word = m'.eflags.word := congrArg Registers.eflags hcpu
  have hcr3 : m.cr3 = m'.cr3 := congrArg Registers.cr3 hcpu
  have heip : m.eip = m'.eip := congrArg Registers.eip hcpu
  obtain ⟨_, ⟨_, _⟩, _, _, _⟩ := m
  obtain ⟨_, ⟨_, _⟩, _, _, _⟩ := m'
  simp_all

lemma cpuRegisters_esp (m : Machine) : (cpuRegisters m).esp = m.reg .esp := rfl

lemma running_mem (w : ThreadWorld) : w.running ∈ w.threads :=
  List.mem_append_right _ List.mem_cons_self

lemma CarriesWorld.esp (h : CarriesWorld P w s) :
    s.machine.reg .esp = (w.own w.running).reg .esp := by
  rw [← cpuRegisters_esp, h.cpu, cpuRegisters_esp]

/-- A thread sees the same on its own processor. -/
lemma CarriesWorld.sees (h : CarriesWorld P w s) :
    ({ s.machine with
        mem := fun x =>
          if (s.stack P w.running).InUse (s.machine.reg .esp) x ∨ P.shared x then s.machine.mem x
          else 0 } : Machine) =
      { w.own w.running with
        mem := fun x =>
          if (w.stack w.running).InUse ((w.own w.running).reg .esp) x then (w.own w.running).mem x
          else if P.shared x then w.shared x else 0 } := by
  apply machine_ext
  · exact h.cpu
  · funext x
    dsimp only
    rw [h.stack _ (running_mem w), h.esp]
    by_cases hin : (w.stack w.running).InUse ((w.own w.running).reg .esp) x
    · rw [if_pos (Or.inl hin), if_pos hin, h.inUse _ (running_mem w) x hin]
    · by_cases hsh : P.shared x = true
      · rw [if_pos (Or.inr hsh), if_neg hin, if_pos hsh, h.shared x hsh]
      · rw [if_neg (by tauto), if_neg hin, if_neg hsh]

/-- What one thread may write to is no record, and not the stack of another thread. -/
lemma Placed.notWritten (h : Placed P w) (ht : t ∈ w.threads) (hu : u ∈ w.threads)
    (hx : (P.record t).Has x ∨ (w.stack t).Has x ∧ t ≠ u) :
    ¬((w.stack u).Has x ∨ P.shared x = true) := by
  rintro (hin | hsh)
  · rcases hx with hx | ⟨hx, hne⟩
    · exact h.off t ht u hu x hx hin
    · exact h.stackApart t ht u hu hne x hx hin
  · rcases hx with hx | ⟨hx, -⟩
    · exact (h.shared t ht x hsh).1 hx
    · exact (h.shared t ht x hsh).2 hx

lemma run_own (P : Placement) (w : ThreadWorld) (code : Machine → Machine) :
    (w.run P code).own w.running = code { w.own w.running with
      mem := fun x =>
        if (w.stack w.running).InUse ((w.own w.running).reg .esp) x then (w.own w.running).mem x
        else if P.shared x then w.shared x else 0 } :=
  Function.update_self ..

lemma run_shared (code : Machine → Machine) (hx : P.shared x = true) :
    (w.run P code).shared x = ((w.run P code).own w.running).mem x := by
  rw [run_own]
  exact if_pos hx

lemma CarriesWorld.run (h : CarriesWorld P w s) (code : Machine → Machine) :
    ∃ s', s.run P code = .ok s' ∧ CarriesWorld P (w.run P code) s' := by
  have hr := running_mem w
  have hown : ∀ t, t ≠ w.running → (w.run P code).own t = w.own t :=
    fun t ht => Function.update_of_ne ht _ _
  obtain ⟨m', hm'⟩ : ∃ m', (w.run P code).own w.running = m' := ⟨_, rfl⟩
  have hrun : s.run P code = .ok { s with machine := { m' with
      mem := fun x => if (w.stack w.running).Has x ∨ P.shared x then m'.mem x
        else s.machine.mem x } } := by
    rw [← hm', run_own, ← h.sees, ThreadSystem.run, h.running, ← h.stack _ hr]
    rfl
  refine ⟨_, hrun, ⟨h.placed.records, h.placed.stackApart, h.placed.off, h.placed.shared⟩, h.list,
    h.perm, h.running, h.stack, ?_, ?_, ?_, ?_, ?_, ?_, h.flags, h.pageDir⟩
  · intro t ht
    rw [← h.records t ht]
    apply readRegisters_congr
    intro x hx
    exact if_neg (h.placed.notWritten ht hr (Or.inl hx))
  · intro t ht hne
    rw [hown t hne]
    exact h.waiting t ht hne
  · intro t ht hne
    rw [hown t hne]
    exact h.room t ht hne
  · change _ = cpuRegisters ((w.run P code).own w.running)
    rw [hm']
    rfl
  · intro t ht x hx
    by_cases hne : t = w.running
    · subst hne
      rw [hm']
      exact if_pos (Or.inl hx.1)
    · rw [hown t hne] at hx ⊢
      rw [← h.inUse t ht x hx]
      exact if_neg (h.placed.notWritten ht hr (Or.inr ⟨hx.1, hne⟩))
  · intro x hx
    rw [run_shared code hx, hm']
    exact if_pos (Or.inr hx)

/-! ### Turns -/

lemma rotate_queue (w : ThreadWorld) :
    ∃ xs, w.after ++ w.before ++ [w.running] = w.rotate.running :: xs := by
  obtain ⟨own, stack, shared, us, r, vs, flags, pageDir⟩ := w
  cases vs with
  | cons v vs =>
    cases us with
    | nil => exact ⟨_, rfl⟩
    | cons u us => exact ⟨_, rfl⟩
  | nil =>
    cases us with
    | nil => exact ⟨[], rfl⟩
    | cons u us => exact ⟨_, rfl⟩

/-- Everything but the position in the list stays. -/
lemma rotate_frame (w : ThreadWorld) : w.rotate.threads = w.threads ∧ w.rotate.own = w.own ∧
    w.rotate.stack = w.stack ∧ w.rotate.shared = w.shared ∧ w.rotate.flags = w.flags ∧
    w.rotate.pageDir = w.pageDir := by
  obtain ⟨own, stack, shared, us, r, vs, flags, pageDir⟩ := w
  cases vs with
  | cons v vs => cases us <;> simp [ThreadWorld.rotate, ThreadWorld.threads]
  | nil => cases us <;> simp [ThreadWorld.rotate, ThreadWorld.threads]

lemma switchTask_running {k k' : Tasks} {p q : Ptr Thread} (h : switchTask k p q = .ok k') :
    k'.runningThread = k.runningThread := by
  obtain ⟨a, -, h⟩ := bind_eq_ok h
  obtain ⟨b, -, h⟩ := bind_eq_ok h
  obtain rfl := Except.ok.inj h
  rfl

/-- A switch is about registers. -/
lemma switchTask_static {k k' : Tasks} {p q : Ptr Thread} (h : switchTask k p q = .ok k') :
    k'.flags = k.flags ∧ k'.pageDir = k.pageDir ∧
      ∀ t, (k'.thread t).virtualAddr = (k.thread t).virtualAddr := by
  obtain ⟨a, -, h⟩ := bind_eq_ok h
  obtain ⟨b, -, h⟩ := bind_eq_ok h
  obtain rfl := Except.ok.inj h
  refine ⟨rfl, rfl, fun t => ?_⟩
  simp only [Tasks.modify, Function.update_apply]
  split
  · next heq => rw [heq]
  · rfl

/-- `preempt` picks the thread whose turn it is. -/
lemma CarriesWorld.scheduled (h : CarriesWorld P w s) (cpu : Registers) :
    ThreadSystem.nextThread s.tasks = .ok (.node w.rotate.running) ∧
      ∃ k', switchTask { s.tasks with runningThread := .node w.rotate.running, cpu }
          (.node w.running) (.node w.rotate.running) = .ok k' ∧
        ThreadList w.threads k' := by
  obtain ⟨xs, hxs⟩ := rotate_queue w
  have hI : ThreadList w.threads { s.tasks with cpu } := h.list.setCpu cpu
  obtain ⟨k', hk', hI', hrun'⟩ := preempt_next hI rfl h.running hxs
  have hbind : ((ThreadSystem.nextThread s.tasks).bind fun p =>
      switchTask { s.tasks with cpu, runningThread := p } s.tasks.runningThread p) = .ok k' := hk'
  obtain ⟨p, hp, hsw⟩ := bind_eq_ok hbind
  have hpx : p = .node w.rotate.running := (switchTask_running hsw).symm.trans hrun'
  rw [hpx, h.running] at hsw
  exact ⟨hpx ▸ hp, k', hsw, hI'⟩

/-- The call of `switch_task` in `preempt`. -/
def switchCall (P : Placement) (w : ThreadWorld) (m : Machine) (ret : UInt32) : Machine :=
  m.pushWords [P.addr w.rotate.running, P.addr w.running, ret]

/-- What it does to the scheduler. -/
def Scheduled (P : Placement) (w : ThreadWorld) (s : ThreadSystem) (ret : UInt32) (k' : Tasks) :
    Prop :=
  switchTask { s.tasks with
      runningThread := .node w.rotate.running
      cpu := callerState (switchCall P w s.machine ret) }
    (.node w.running) (.node w.rotate.running) = .ok k'

lemma CarriesWorld.preempt_eq (h : CarriesWorld P w s) (ret : UInt32) :
    ∃ k', s.preempt P ret =
        .ok { s with tasks := k', machine := exec switchTaskCode (switchCall P w s.machine ret) } ∧
      Scheduled P w s ret k' ∧ ThreadList w.threads k' := by
  obtain ⟨hnext, k', hk', hI⟩ := h.scheduled (callerState (switchCall P w s.machine ret))
  refine ⟨k', ?_, hk', hI⟩
  rw [ThreadSystem.preempt, hnext, h.running]
  exact congrArg (fun e => e >>= fun tasks => Except.ok
    { s with tasks, machine := exec switchTaskCode (switchCall P w s.machine ret) }) hk'

lemma switchCall_esp (P : Placement) (w : ThreadWorld) (m : Machine) (ret : UInt32) :
    (switchCall P w m ret).reg .esp = m.reg .esp - 12 := Machine.pushWords_esp

lemma switchCall_stack (P : Placement) (w : ThreadWorld) (m : Machine) (ret : UInt32) :
    readWords (switchCall P w m ret).mem ((switchCall P w m ret).reg .esp) 3 =
      [ret, P.addr w.running, P.addr w.rotate.running] :=
  Machine.stack_pushWords (n := 0)
    (show 4 * ([P.addr w.rotate.running, P.addr w.running, ret].length + 0) ≤ 2 ^ 32 by simp)

lemma switchCall_arguments (P : Placement) (w : ThreadWorld) (m : Machine) (ret : UInt32) :
    oldArgument (switchCall P w m ret) = P.addr w.running ∧
      newArgument (switchCall P w m ret) = P.addr w.rotate.running :=
  ⟨read32_readWords (i := 1) (switchCall_stack P w m ret) rfl,
    read32_readWords (i := 2) (switchCall_stack P w m ret) rfl⟩

lemma switchCall_mem (hx : ¬Within x (m.reg .esp - 12) 12) :
    (switchCall P w m ret).mem x = m.mem x := by
  apply Machine.pushWords_mem (by simp)
  rw [Machine.pushWords_esp]
  exact hx

/-- The state that is saved. -/
lemma callerState_switchCall (P : Placement) (w : ThreadWorld) (m : Machine) (ret : UInt32) :
    callerState (switchCall P w m ret) =
      { cpuRegisters m with esp := m.reg .esp - 8, eip := ret } := by
  have hret : read32 (switchCall P w m ret).mem ((switchCall P w m ret).reg .esp) = ret := by
    simpa using read32_readWords (i := 0) (switchCall_stack P w m ret) rfl
  have hreg : ∀ r, r ≠ .esp → (switchCall P w m ret).reg r = m.reg r :=
    fun r hr => Machine.pushWords_reg hr
  have hesp : (switchCall P w m ret).reg .esp + 4 = m.reg .esp - 8 := by
    rw [switchCall_esp]
    grind
  have hflags : (switchCall P w m ret).eflags = m.eflags := Machine.pushWords_eflags
  have hcr3 : (switchCall P w m ret).cr3 = m.cr3 := Machine.pushWords_cr3
  simp [callerState, cpuRegisters, Instr.run, Machine.dropWord, Machine.setReg, Function.update,
    hret, hreg, hesp, hflags, hcr3]

lemma turn_own (P : Placement) (w : ThreadWorld) (ret : UInt32) :
    (w.turn P ret).own w.running = Instr.ret.run (switchCall P w (w.own w.running) ret) :=
  Function.update_self ..

lemma turn_own_of_ne (P : Placement) (w : ThreadWorld) (ret : UInt32) (ht : t ≠ w.running) :
    (w.turn P ret).own t = w.own t := Function.update_of_ne ht _ _

lemma turn_own_cpu (P : Placement) (w : ThreadWorld) (ret : UInt32) :
    cpuRegisters ((w.turn P ret).own w.running) =
      { cpuRegisters (w.own w.running) with
        esp := (w.own w.running).reg .esp - 8
        eip := ret } := by
  rw [turn_own]
  exact callerState_switchCall P w (w.own w.running) ret

lemma turn_own_esp (P : Placement) (w : ThreadWorld) (ret : UInt32) :
    ((w.turn P ret).own w.running).reg .esp = (w.own w.running).reg .esp - 8 :=
  congrArg Registers.esp (turn_own_cpu P w ret)

lemma sub_eight_depth {b : UInt32} (h : 8 ≤ (sp - b).toNat) :
    (sp - 8 - b).toNat = (sp - b).toNat - 8 := by
  have h8 : (8 : UInt32).toNat = 8 := rfl
  have hsp := sp.toNat_lt
  have hb := b.toNat_lt
  simp only [UInt32.toNat_sub, h8] at h ⊢
  omega

/-- The stack pointers of all threads after a turn. -/
lemma CarriesWorld.turn_room (h : CarriesWorld P w s) (hroom : s.Room P) (ret : UInt32)
    (ht : t ∈ w.threads) :
    4 ≤ (((w.turn P ret).own t).reg .esp - (w.stack t).base).toNat ∧
      (((w.turn P ret).own t).reg .esp - (w.stack t).base).toNat ≤ (w.stack t).size := by
  by_cases hne : t = w.running
  · subst hne
    have hlo := hroom _ h.running
    rw [h.stack _ ht, h.esp] at hlo
    rw [turn_own_esp, sub_eight_depth (by omega)]
    omega
  · rw [turn_own_of_ne P w ret hne]
    exact h.room t ht hne

lemma rotate_mem (w : ThreadWorld) : w.rotate.running ∈ w.threads := by
  rw [← (rotate_frame w).1]
  exact running_mem _

/-- The words of the call and those that `switch_task` pushes lie on the stack of the caller. -/
lemma CarriesWorld.callWords (h : CarriesWorld P w s) (hroom : s.Room P)
    (hx : Within x (s.machine.reg .esp - 60) 60) : (w.stack w.running).Has x := by
  have hlo := hroom _ h.running
  rw [h.stack _ (running_mem w)] at hlo
  exact has_of_below (o := 60) hlo.1 hlo.2 (by decide) hx

lemma CarriesWorld.switchedTasks (h : CarriesWorld P w s) {k' : Tasks}
    (hk' : Scheduled P w s ret k') :
    (∀ t ∈ w.threads, (k'.thread t).regs = cpuRegisters ((w.turn P ret).own t)) ∧
      k'.cpu = cpuRegisters ((w.turn P ret).own w.rotate.running) := by
  obtain ⟨hsaved, hother, hload⟩ := switchTask_spec hk'
  have hregs : ∀ t ∈ w.threads, (k'.thread t).regs = cpuRegisters ((w.turn P ret).own t) := by
    intro t ht
    by_cases hne : t = w.running
    · rw [hne, hsaved, turn_own_cpu, ← h.cpu, ← h.esp]
      exact callerState_switchCall P w s.machine ret
    · rw [hother t hne, turn_own_of_ne P w ret hne]
      exact h.waiting t ht hne
  exact ⟨hregs, hload.trans (hregs _ (rotate_mem w))⟩

lemma loadedState_cpuRegisters (m : Machine) : loadedState (cpuRegisters m) = cpuRegisters m := by
  change { cpuRegisters m with eflags := (Eflags.ofWord m.eflags.word).word } = cpuRegisters m
  rw [Eflags.ofWord_word]
  rfl

/-- The processor and the records after the call. -/
lemma CarriesWorld.switched (h : CarriesWorld P w s) (hroom : s.Room P) {k' : Tasks}
    (hk' : Scheduled P w s ret k') :
    let m := exec switchTaskCode (switchCall P w s.machine ret)
    cpuRegisters m = cpuRegisters ((w.turn P ret).own w.rotate.running) ∧
      ∀ t ∈ w.threads, readRegisters m.mem (P.addr t) = (k'.thread t).regs := by
  obtain ⟨-, hcpu⟩ := h.switchedTasks hk'
  obtain ⟨hold, hnew⟩ := switchCall_arguments P w s.machine ret
  have hbase : (switchCall P w s.machine ret).reg .esp - 48 = s.machine.reg .esp - 60 := by
    rw [switchCall_esp]
    grind
  have hrec : RecordsAt P.addr w.threads w.running
      { s.tasks with
        runningThread := .node w.rotate.running
        cpu := callerState (switchCall P w s.machine ret) } (switchCall P w s.machine ret) := by
    refine ⟨fun t ht x hx hx' => ?_, fun t ht hne => ?_, fun t ht => ?_⟩
    · rw [hbase] at hx'
      exact h.placed.off t ht _ (running_mem w) x hx (h.callWords hroom hx')
    · exact h.placed.records t ht _ (running_mem w) hne
    · rw [← h.records t ht]
      apply readRegisters_congr
      intro x hx
      apply switchCall_mem
      intro hx'
      refine h.placed.off t ht _ (running_mem w) x hx (h.callWords hroom ?_)
      rw [show s.machine.reg .esp - 12 = s.machine.reg .esp - 60 + 48 by grind] at hx'
      exact within_add hx' (by decide)
  rw [← hcpu]
  refine switchTask_refines hrec (running_mem w) (rotate_mem w) hold hnew rfl hk' ?_ ?_
  · rw [hcpu, loadedState_cpuRegisters]
  · intro t ht x hx hx'
    obtain ⟨hlo, hhi⟩ := h.turn_room hroom ret (rotate_mem w)
    rw [hcpu, cpuRegisters_esp] at hx'
    exact h.placed.off t ht _ (rotate_mem w) x hx (has_of_below (o := 4) hlo hhi (by decide) hx')

/-- The bytes that the call leaves alone. -/
lemma CarriesWorld.switched_mem (h : CarriesWorld P w s) (hroom : s.Room P) {k' : Tasks}
    (hk' : Scheduled P w s ret k') (hrec : ¬(P.record w.running).Has x)
    (hcall : ¬Within x (s.machine.reg .esp - 60) 48)
    (hnew : ¬Within x (((w.turn P ret).own w.rotate.running).reg .esp - 4) 4) :
    (exec switchTaskCode (switchCall P w s.machine ret)).mem x =
      (switchCall P w s.machine ret).mem x := by
  have hcpu := (h.switched hroom hk').1
  have hesp := congrArg Registers.esp hcpu
  rw [cpuRegisters_esp, cpuRegisters_esp] at hesp
  have hold := (switchCall_arguments P w s.machine ret).1
  have hoff : OffStack (switchCall P w s.machine ret) (P.addr w.running) := by
    intro x hx hx'
    rw [switchCall_esp, show s.machine.reg .esp - 12 - 48 = s.machine.reg .esp - 60 by grind] at hx'
    exact h.placed.off _ (running_mem w) _ (running_mem w) x hx (h.callWords hroom hx')
  apply switchTask_frame
  · rwa [hold]
  · rwa [hold]
  · rwa [switchCall_esp, show s.machine.reg .esp - 12 - 48 = s.machine.reg .esp - 60 by grind]
  · rwa [hesp]

/-- Off the stack of the caller the arguments of the call are not seen either. -/
lemma CarriesWorld.switched_other (h : CarriesWorld P w s) (hroom : s.Room P) {k' : Tasks}
    (hk' : Scheduled P w s ret k') (hrec : ¬(P.record w.running).Has x)
    (hstk : ¬(w.stack w.running).Has x)
    (hnew : ¬Within x (((w.turn P ret).own w.rotate.running).reg .esp - 4) 4) :
    (exec switchTaskCode (switchCall P w s.machine ret)).mem x = s.machine.mem x := by
  have hout : ¬Within x (s.machine.reg .esp - 60) 60 := fun hx' => hstk (h.callWords hroom hx')
  rw [h.switched_mem hroom hk' hrec (fun hx' => hout (Nat.lt_trans hx' (by decide))) hnew,
    switchCall_mem]
  intro hx'
  apply hout
  rw [show s.machine.reg .esp - 12 = s.machine.reg .esp - 60 + 48 by grind] at hx'
  exact within_add hx' (by decide)

/-- What a thread has on its stack is there after the call, with the words of the call for the
thread that makes it. -/
lemma CarriesWorld.switched_inUse (h : CarriesWorld P w s) (hroom : s.Room P) {k' : Tasks}
    (hk' : Scheduled P w s ret k') (ht : t ∈ w.threads)
    (hx : (w.stack t).InUse (((w.turn P ret).own t).reg .esp) x) :
    (exec switchTaskCode (switchCall P w s.machine ret)).mem x = ((w.turn P ret).own t).mem x := by
  have hr := running_mem w
  obtain ⟨hlo, hhi⟩ := h.turn_room hroom ret (rotate_mem w)
  have hnew : ¬Within x (((w.turn P ret).own w.rotate.running).reg .esp - 4) 4 := by
    by_cases hne : t = w.rotate.running
    · rw [← hne] at hlo ⊢
      exact not_below_of_inUse (o := 4) hx hlo (by decide)
    · intro hx'
      refine h.placed.stackApart t ht _ (rotate_mem w) hne x hx.1 ?_
      exact has_of_below (o := 4) hlo hhi (by decide) hx'
  have hrec : ¬(P.record w.running).Has x := fun hx' => h.placed.off _ hr t ht x hx' hx.1
  by_cases hne : t = w.running
  · subst hne
    have hroom' := hroom _ h.running
    rw [h.stack _ ht] at hroom'
    rw [turn_own_esp, ← h.esp] at hx
    have hdepth : 52 ≤ (s.machine.reg .esp - 8 - (w.stack w.running).base).toNat := by
      rw [sub_eight_depth (by omega)]
      omega
    rw [h.switched_mem hroom hk' hrec ?_ hnew, turn_own]
    · refine pushWords_mem_congr h.esp (by simp) fun hx' => h.inUse _ hr x ?_
      rw [Machine.pushWords_esp] at hx'
      rw [← h.esp]
      refine inUse_pushed (o := 8) hx (Nat.le_trans (by decide) hroom'.1) fun h8 => hx' ?_
      rw [show s.machine.reg .esp - 8 = s.machine.reg .esp - 12 + 4 by grind] at h8
      exact within_add h8 (by simp)
    · have hbase : s.machine.reg .esp - 60 = s.machine.reg .esp - 8 - 52 := by grind
      rw [hbase]
      exact not_below_of_inUse (o := 52) hx hdepth (by decide)
  · rw [turn_own_of_ne P w ret hne] at hx ⊢
    rw [h.switched_other hroom hk' hrec (h.placed.stackApart t ht _ hr hne x hx.1) hnew]
    exact h.inUse t ht x hx

/-- One turn: the call returns in the thread that made it when that thread is resumed. -/
lemma CarriesWorld.turn (h : CarriesWorld P w s) (hroom : s.Room P) (ret : UInt32) :
    ∃ s', s.preempt P ret = .ok s' ∧ CarriesWorld P (w.turn P ret) s' := by
  obtain ⟨k', hs', hk', hI⟩ := h.preempt_eq ret
  obtain ⟨hcpu, hrecords⟩ := h.switched hroom hk'
  obtain ⟨hregs, -⟩ := h.switchedTasks hk'
  obtain ⟨hthreads, -, hstack, hshared, hflags, hdir⟩ := rotate_frame w
  have hts : (w.turn P ret).threads = w.threads := hthreads
  have hst : (w.turn P ret).stack = w.stack := hstack
  have hrun : (w.turn P ret).running = w.rotate.running := rfl
  obtain ⟨hflags', hdir', haddr⟩ := switchTask_static hk'
  refine ⟨_, hs', ⟨h.placed.congr hts hst, hts ▸ hI, hts ▸ h.perm, switchTask_running hk', ?_,
    hts ▸ hrecords, ?_, ?_, hcpu, ?_, ?_, ?_, ?_⟩⟩
  · intro t ht
    rw [hst, ← h.stack t (hts ▸ ht)]
    cases t with
    | mainThread => rfl
    | record n => exact congrArg (Region.mk · stackPageSize) (haddr _)
  · intro t ht _
    exact hregs t (hts ▸ ht)
  · intro t ht _
    rw [hst]
    exact h.turn_room hroom ret (hts ▸ ht)
  · intro t ht x hx
    rw [hst] at hx
    exact h.switched_inUse hroom hk' (hts ▸ ht) hx
  · intro x hx
    change _ = w.rotate.shared x
    rw [hshared, ← h.shared x hx]
    obtain ⟨hrec, hstk⟩ := h.placed.shared _ (running_mem w) x hx
    obtain ⟨hlo, hhi⟩ := h.turn_room hroom ret (rotate_mem w)
    apply h.switched_other hroom hk' hrec hstk
    intro hx'
    refine (h.placed.shared _ (rotate_mem w) x hx).2 ?_
    exact has_of_below (o := 4) hlo hhi (by decide) hx'
  · change k'.flags = w.rotate.flags.word
    rw [hflags, ← h.flags]
    exact hflags'
  · change k'.pageDir = w.rotate.pageDir
    rw [hdir, ← h.pageDir]
    exact hdir'

/-! ### New threads -/

/-- The registers that `kthread_create` gives to a thread. -/
def startRegisters (k : Tasks) (r : Registers) (page main : UInt32) : Registers :=
  { r with
    eax := 0, ebx := 0, ecx := 0, edx := 0, esi := 0, edi := 0
    eflags := k.flags, eip := main, cr3 := k.pageDir, esp := page + 0x1000 }

lemma setupThread_fields {k k' : Tasks} (h : setupThread k task main = .ok k') :
    ∃ page paging, kallocPage k.paging = .ok (page, paging) ∧
      (k'.thread task).regs = startRegisters k (k.thread task).regs page main ∧
      (k'.thread task).virtualAddr = page ∧ (∀ t, t ≠ task → k'.thread t = k.thread t) ∧
      k'.flags = k.flags ∧ k'.pageDir = k.pageDir := by
  obtain ⟨⟨page, paging⟩, hpage, h⟩ := bind_eq_ok h
  obtain rfl := Except.ok.inj h
  refine ⟨page, paging, hpage, ?_, ?_, fun t ht => ?_, rfl, rfl⟩
  · simp [Tasks.modify, startRegisters]
  · simp [Tasks.modify]
  · simp [Tasks.modify, Function.update_of_ne ht]

lemma appendThread_fields {k k' : Tasks} (h : appendThread k task = .ok k') :
    (∀ t, (k'.thread t).regs = (k.thread t).regs ∧
      (k'.thread t).virtualAddr = (k.thread t).virtualAddr) ∧
      k'.flags = k.flags ∧ k'.pageDir = k.pageDir := by
  have hlink : ∀ (k : Tasks) (t u : Thread) (p : Ptr Thread),
      ((k.modify u fun r => { r with next := p }).thread t).regs = (k.thread t).regs ∧
        ((k.modify u fun r => { r with next := p }).thread t).virtualAddr =
          (k.thread t).virtualAddr := by
    intro k t u p
    simp only [Tasks.modify, Function.update_apply]
    split
    · next heq => exact heq ▸ ⟨rfl, rfl⟩
    · exact ⟨rfl, rfl⟩
  obtain ⟨last, -, h⟩ := bind_eq_ok h
  obtain rfl := Except.ok.inj h
  refine ⟨fun t => ?_, rfl, rfl⟩
  obtain ⟨h₁, h₂⟩ := hlink k t task .null
  obtain ⟨h₃, h₄⟩ := hlink (k.modify task fun r => { r with next := .null }) t last (.node task)
  exact ⟨h₃.trans h₁, h₄.trans h₂⟩

lemma readRegisters_setup {m : Mem} {a page : UInt32} {k : Tasks}
    (hpage : (k.thread task).virtualAddr = page) :
    readRegisters (storeWords a m (ThreadSystem.setupStores k task main)) a =
      startRegisters k (readRegisters m a) page main := by
  apply readRegisters_eq
  rw [readWords_storeWords (by decide) (by simp [ThreadSystem.setupStores]), readWords_record,
    ← hpage]
  rfl

lemma setupStores_frame {m : Mem} {k : Tasks} (hx : ¬(P.record task).Has x) :
    storeWords (P.addr task) m (ThreadSystem.setupStores k task main) x = m x :=
  storeWords_not_within (n := 11) (by decide) (by simp [ThreadSystem.setupStores]) hx

/-- The thread goes to the end of the list. -/
lemma appendThread_list {k k' : Tasks} {ts : List Thread} (hI : ThreadList ts k) (hnew : task ∉ ts)
    (h : appendThread k task = .ok k') :
    ThreadList (ts ++ [task]) k' ∧ k'.runningThread = k.runningThread := by
  obtain ⟨ls, l, rfl, hlast⟩ := hI.last
  obtain ⟨r, hr, hrun⟩ := hI.running
  obtain ⟨k₂, h₂, hn, hl, hrun₂⟩ := show ∃ s', appendThread _ task = .ok s' ∧ _ from
    appendThread_ok hlast
  obtain rfl : k₂ = k' := Except.ok.inj (h₂.symm.trans h)
  refine ⟨⟨?_, ⟨ls ++ [l], task, rfl, hl⟩, ⟨r, List.mem_append_left _ hr, ?_⟩⟩, hrun₂⟩
  · rw [hn]
    exact (hI.chain.update hnew _).snoc (Function.update_self ..) hnew
  · rw [hrun₂, hrun]

/-- What `kthread_create` has done when it calls `preempt`. -/
structure Admitted (P : Placement) (s s' : ThreadSystem) (task : Thread) (main page : UInt32) :
    Prop where
  created : s'.created = s.created ++ [task]
  running : s'.tasks.runningThread = s.tasks.runningThread
  cpu : cpuRegisters s'.machine = cpuRegisters s.machine
  mem : ∀ x, ¬(P.record task).Has x → s'.machine.mem x = s.machine.mem x
  others : ∀ t, t ≠ task → (s'.tasks.thread t).regs = (s.tasks.thread t).regs ∧
    (s'.tasks.thread t).virtualAddr = (s.tasks.thread t).virtualAddr
  stackPage : (s'.tasks.thread task).virtualAddr = page
  regs : (s'.tasks.thread task).regs =
    startRegisters s.tasks (readRegisters s.machine.mem (P.addr task)) page main
  record : readRegisters s'.machine.mem (P.addr task) = (s'.tasks.thread task).regs
  flags : s'.tasks.flags = s.tasks.flags
  pageDir : s'.tasks.pageDir = s.tasks.pageDir

lemma enrol_spec {s' : ThreadSystem} {ts : List Thread} (hI : ThreadList ts s.tasks)
    (hnew : task ∉ ts) (hs' : s.enrol P task main = .ok s') :
    ∃ page paging, kallocPage s.tasks.paging = .ok (page, paging) ∧
      ThreadList (ts ++ [task]) s'.tasks ∧ Admitted P s s' task main page := by
  obtain ⟨k₁, h₁, hs'⟩ := bind_eq_ok hs'
  obtain ⟨k₂, h₂, hs'⟩ := bind_eq_ok hs'
  obtain rfl := Except.ok.inj hs'
  obtain ⟨hnext, hlast, hrun⟩ := setupThread_keeps h₁
  obtain ⟨page, paging, hpage, hregs, haddr, hother, hflags, hdir⟩ := setupThread_fields h₁
  obtain ⟨hfields, hflags₂, hdir₂⟩ := appendThread_fields h₂
  have hI₁ : ThreadList ts k₁ := by
    obtain ⟨r, hr, hrun₀⟩ := hI.running
    obtain ⟨us, t, hts, hl⟩ := hI.last
    refine ⟨?_, ⟨us, t, hts, hlast.trans hl⟩, ⟨r, hr, hrun.trans hrun₀⟩⟩
    rw [hnext, thread_modify_next s.tasks task
      (fun k => { k with regs := readRegisters s.machine.mem (P.addr task) }) fun _ => rfl]
    exact hI.chain
  obtain ⟨hI₂, hrun₂⟩ := appendThread_list hI₁ hnew h₂
  have hstart : (k₂.thread task).regs =
      startRegisters s.tasks (readRegisters s.machine.mem (P.addr task)) page main := by
    rw [(hfields task).1, hregs]
    simp [Tasks.modify, startRegisters]
  refine ⟨page, paging, hpage, hI₂, rfl, hrun₂.trans hrun, rfl, fun x hx => setupStores_frame hx,
    fun t ht => ?_, (hfields task).2.trans haddr, hstart, ?_, hflags₂.trans hflags,
    hdir₂.trans hdir⟩
  · rw [(hfields t).1, (hfields t).2, hother t ht]
    simp [Tasks.modify, Function.update_of_ne ht]
  · rw [hstart]
    refine (readRegisters_setup haddr).trans ?_
    rw [startRegisters, hflags, hdir]
    rfl

lemma enrol_threads (w : ThreadWorld) (task : Thread) (page ebp main : UInt32) (mem : Mem) :
    (w.enrol task page ebp main mem).threads = w.threads ++ [task] := by
  simp [ThreadWorld.enrol, ThreadWorld.threads]

lemma Region.Apart.symm {h : Region} (hgh : g.Apart h) : h.Apart g :=
  fun x hx hx' => hgh x hx' hx

/-- The record and the stack of the new thread come in beside the others. -/
lemma CarriesWorld.placed_enrol (h : CarriesWorld P w s) {page : UInt32}
    (hA : s.Admits P task ⟨page, stackPageSize⟩) (ebp : UInt32) (mem : Mem) :
    Placed P (w.enrol task page ebp main mem) := by
  have hnew : task ∉ w.threads := fun ht => hA.fresh ((h.perm task).mpr ht)
  have hstk : (w.enrol task page ebp main mem).stack task = ⟨page, stackPageSize⟩ :=
    Function.update_self ..
  have hold : ∀ t ∈ w.threads, t ∈ s.threads ∧
      (w.enrol task page ebp main mem).stack t = w.stack t ∧ s.stack P t = w.stack t := by
    intro t ht
    have hne : t ≠ task := fun heq => hnew (heq ▸ ht)
    exact ⟨(h.perm t).mpr ht, Function.update_of_ne hne _ _, h.stack t ht⟩
  have hcases : ∀ t ∈ (w.enrol task page ebp main mem).threads, t ∈ w.threads ∨ t = task := by
    intro t ht
    rw [enrol_threads] at ht
    simpa using ht
  constructor
  · intro t ht u hu hne
    rcases hcases t ht with ht' | rfl <;> rcases hcases u hu with hu' | rfl
    · exact h.placed.records t ht' u hu' hne
    · exact (hA.record t (hold t ht').1).symm
    · exact hA.record u (hold u hu').1
    · exact absurd rfl hne
  · intro t ht u hu hne
    rcases hcases t ht with ht' | rfl <;> rcases hcases u hu with hu' | rfl
    · rw [(hold t ht').2.1, (hold u hu').2.1]
      exact h.placed.stackApart t ht' u hu' hne
    · rw [(hold t ht').2.1, ← (hold t ht').2.2, hstk]
      exact (hA.pageStack t (hold t ht').1).symm
    · rw [(hold u hu').2.1, ← (hold u hu').2.2, hstk]
      exact hA.pageStack u (hold u hu').1
    · exact absurd rfl hne
  · intro t ht u hu
    rcases hcases t ht with ht' | rfl <;> rcases hcases u hu with hu' | rfl
    · rw [(hold u hu').2.1]
      exact h.placed.off t ht' u hu'
    · rw [hstk]
      exact (hA.page t (hold t ht').1).symm
    · rw [(hold u hu').2.1, ← (hold u hu').2.2]
      exact hA.recordStack u (hold u hu').1
    · rw [hstk]
      exact hA.own
  · intro t ht x hx
    rcases hcases t ht with ht' | rfl
    · rw [(hold t ht').2.1]
      exact h.placed.shared t ht' x hx
    · rw [hstk]
      exact hA.shared x hx

/-- A new thread is added to the list. -/
lemma CarriesWorld.enrol (h : CarriesWorld P w s) {s' : ThreadSystem} {paging : Paging}
    {page : UInt32} (hpage : kallocPage s.tasks.paging = .ok (page, paging))
    (hA : s.Admits P task ⟨page, stackPageSize⟩) (hs' : s.enrol P task main = .ok s') :
    ∃ ebp mem, CarriesWorld P (w.enrol task page ebp main mem) s' := by
  have hnew : task ∉ w.threads := fun ht => hA.fresh ((h.perm task).mpr ht)
  obtain ⟨page', paging', hpage', hI, ha⟩ := enrol_spec h.list hnew hs'
  obtain ⟨rfl, rfl⟩ := Prod.mk.inj (Except.ok.inj (hpage.symm.trans hpage'))
  refine ⟨(readRegisters s.machine.mem (P.addr task)).ebp, s'.machine.mem, ?_⟩
  have hne : ∀ t ∈ w.threads, t ≠ task := fun t ht heq => hnew (heq ▸ ht)
  have hcases : ∀ t ∈ w.threads ++ [task], t ∈ w.threads ∨ t = task := by simp
  have hts := enrol_threads w task page (readRegisters s.machine.mem (P.addr task)).ebp main
    s'.machine.mem
  have hown : ∀ t ∈ w.threads, (w.enrol task page (readRegisters s.machine.mem (P.addr task)).ebp
      main s'.machine.mem).own t = w.own t := fun t ht => Function.update_of_ne (hne t ht) _ _
  have hstk : ∀ t ∈ w.threads, (w.enrol task page (readRegisters s.machine.mem (P.addr task)).ebp
      main s'.machine.mem).stack t = w.stack t := fun t ht => Function.update_of_ne (hne t ht) _ _
  have hown' : (w.enrol task page (readRegisters s.machine.mem (P.addr task)).ebp main
      s'.machine.mem).own task = w.fresh page (readRegisters s.machine.mem (P.addr task)).ebp main
        s'.machine.mem := Function.update_self ..
  have hstk' : (w.enrol task page (readRegisters s.machine.mem (P.addr task)).ebp main
      s'.machine.mem).stack task = ⟨page, stackPageSize⟩ := Function.update_self ..
  have hdepth : (page + 0x1000 - page).toNat = 0x1000 := by
    rw [UInt32.add_comm, UInt32.add_sub_cancel]
    rfl
  refine ⟨h.placed_enrol hA _ _, hts ▸ hI, ?_, ha.running.trans h.running, ?_, ?_, ?_, ?_, ?_, ?_,
    ?_, ha.flags.trans h.flags, ha.pageDir.trans h.pageDir⟩
  · intro t
    rw [hts, ThreadSystem.threads, ha.created, List.mem_append, ← h.perm t]
    simp [ThreadSystem.threads, or_assoc]
  · intro t ht
    rcases hcases t (hts ▸ ht) with ht' | rfl
    · rw [hstk t ht', ← h.stack t ht']
      cases t with
      | mainThread => rfl
      | record n => exact congrArg (Region.mk · stackPageSize) (ha.others _ (hne _ ht')).2
    · rw [hstk']
      cases t with
      | mainThread => exact absurd List.mem_cons_self hA.fresh
      | record n => exact congrArg (Region.mk · stackPageSize) ha.stackPage
  · intro t ht
    rcases hcases t (hts ▸ ht) with ht' | rfl
    · rw [(ha.others t (hne t ht')).1, ← h.records t ht']
      apply readRegisters_congr
      intro x hx
      exact ha.mem x fun hx' => hA.record t ((h.perm t).mpr ht') x hx' hx
    · exact ha.record
  · intro t ht hrun
    rcases hcases t (hts ▸ ht) with ht' | rfl
    · rw [(ha.others t (hne t ht')).1, hown t ht']
      exact h.waiting t ht' hrun
    · rw [ha.regs, hown', startRegisters, h.flags, h.pageDir]
      rfl
  · intro t ht hrun
    rcases hcases t (hts ▸ ht) with ht' | rfl
    · rw [hown t ht', hstk t ht']
      exact h.room t ht' hrun
    · rw [hown', hstk']
      change 4 ≤ (page + 0x1000 - page).toNat ∧ (page + 0x1000 - page).toNat ≤ 0x1000
      omega
  · have hr := running_mem w
    rw [ha.cpu, h.cpu]
    exact congrArg cpuRegisters (hown _ hr).symm
  · intro t ht x hx
    rcases hcases t (hts ▸ ht) with ht' | rfl
    · rw [hown t ht', hstk t ht'] at hx
      rw [hown t ht', ← h.inUse t ht' x hx]
      refine ha.mem x fun hx' => hA.recordStack t ((h.perm t).mpr ht') x hx' ?_
      rw [h.stack t ht']
      exact hx.1
    · rw [hown']
      rfl
  · intro x hx
    rw [ha.mem x (hA.shared x hx).1]
    exact h.shared x hx

/-! ### Runs -/

lemma carries_init (P : Placement) (k : Tasks) (m : Machine) :
    CarriesWorld P (ThreadWorld.init P m) (ThreadSystem.init P k m) := by
  have hts : ∀ t ∈ (ThreadWorld.init P m).threads, t = .mainThread :=
    fun t ht => List.mem_singleton.mp ht
  have hmem : ∀ x, ¬(P.record .mainThread).Has x →
      (ThreadSystem.init P k m).machine.mem x = m.mem x := fun x hx =>
    storeWords_not_within (n := 11) (by decide) (by simp) hx
  refine ⟨⟨?_, ?_, ?_, ?_⟩, threadList_init _, fun _ => Iff.rfl, rfl, ?_, ?_, ?_, ?_, rfl, ?_, ?_,
    rfl, rfl⟩
  · intro t ht u hu hne
    exact absurd ((hts t ht).trans (hts u hu).symm) hne
  · intro t ht u hu hne
    exact absurd ((hts t ht).trans (hts u hu).symm) hne
  · intro t ht u hu
    rw [hts t ht]
    exact P.mainRecord
  · intro t ht x hx
    rw [hts t ht]
    exact P.notShared x hx
  · intro t ht
    rw [hts t ht]
    rfl
  · intro t ht
    rw [hts t ht]
    apply readRegisters_eq
    refine (readWords_storeWords (by decide) (by simp)).trans ?_
    rw [readWords_record]
    rfl
  · intro t ht hne
    exact absurd (hts t ht) hne
  · intro t ht hne
    exact absurd (hts t ht) hne
  · intro t ht x hx
    rw [hmem x fun hx' => P.mainRecord x hx' hx.1]
    rfl
  · intro x hx
    rw [hmem x (P.notShared x hx).1]
    rfl

/-- The thread that creates another one has not moved when it calls `preempt`. -/
lemma CarriesWorld.room_enrol (h : CarriesWorld P w s) {s' : ThreadSystem} {page : UInt32}
    (ha : Admitted P s s' task main page) (hnew : task ∉ w.threads) (hroom : s.Room P) :
    s'.Room P := by
  intro t ht
  rw [ha.running] at ht
  have hrun : t = w.running := Ptr.node.inj (ht.symm.trans h.running)
  have hne : t ≠ task := fun heq => hnew (heq ▸ hrun ▸ running_mem w)
  have hesp : s'.machine.reg .esp = s.machine.reg .esp := congrArg Registers.esp ha.cpu
  have hstack : s'.stack P t = s.stack P t := by
    cases t with
    | mainThread => rfl
    | record n => exact congrArg (Region.mk · stackPageSize) (ha.others _ hne).2
  rw [hesp, hstack]
  exact hroom t ht

lemma enrol_ok {ts : List Thread} {page : UInt32} {paging : Paging}
    (hI : ThreadList ts s.tasks) (hpage : kallocPage s.tasks.paging = .ok (page, paging)) :
    ∃ s', s.enrol P task main = .ok s' := by
  obtain ⟨us, l, -, hl⟩ := hI.last
  obtain ⟨k₁, h₁⟩ : ∃ k₁, setupThread (s.tasks.modify task fun k =>
      { k with regs := readRegisters s.machine.mem (P.addr task) }) task main = .ok k₁ := by
    unfold setupThread
    simp only [Tasks.modify]
    rw [hpage]
    exact ⟨_, rfl⟩
  obtain ⟨-, hlast, -⟩ := setupThread_keeps h₁
  obtain ⟨k₂, h₂⟩ : ∃ k₂, appendThread k₁ task = .ok k₂ :=
    (appendThread_ok (hlast.trans hl)).imp fun _ h => h.1
  refine ⟨⟨k₂, s.created ++ [task], { s.machine with
    mem := storeWords (P.addr task) s.machine.mem (ThreadSystem.setupStores k₁ task main) }⟩, ?_⟩
  unfold ThreadSystem.enrol
  dsimp only
  rw [h₁]
  change (appendThread k₁ task >>= _) = _
  rw [h₂]
  rfl

lemma CarriesWorld.create (h : CarriesWorld P w s) {page : UInt32} {paging : Paging}
    (hpage : kallocPage s.tasks.paging = .ok (page, paging)) (hroom : s.Room P)
    (hA : s.Admits P task ⟨page, stackPageSize⟩) (ret : UInt32) :
    ∃ ebp mem s', s.create P task main ret = .ok s' ∧
      CarriesWorld P ((w.enrol task page ebp main mem).turn P ret) s' := by
  have hnew : task ∉ w.threads := fun ht => hA.fresh ((h.perm task).mpr ht)
  obtain ⟨s₁, h₁⟩ : ∃ s₁, s.enrol P task main = .ok s₁ := enrol_ok h.list hpage
  obtain ⟨ebp, mem, hC⟩ := h.enrol hpage hA h₁
  obtain ⟨_, _, -, -, ha⟩ := enrol_spec h.list hnew h₁
  obtain ⟨s₂, h₂, hC₂⟩ := hC.turn (h.room_enrol ha hnew hroom) ret
  refine ⟨ebp, mem, s₂, ?_, hC₂⟩
  unfold ThreadSystem.create
  rw [h₁]
  exact h₂

/-- What a step does. It faults only where a page cannot be had. -/
lemma CarriesWorld.step (h : CarriesWorld P w s) {op : ThreadOp} (hop : op.Safe P s)
    (hpage : op.HasPage s) :
    ∃ s' w', s.exec P op = .ok s' ∧ ThreadWorld.Step P w op w' ∧ CarriesWorld P w' s' := by
  cases op with
  | run code =>
    obtain ⟨s', hs', hC⟩ := h.run code
    exact ⟨s', _, hs', rfl, hC⟩
  | preempt ret =>
    obtain ⟨s', hs', hC⟩ := h.turn hop ret
    exact ⟨s', _, hs', rfl, hC⟩
  | create task main ret =>
    obtain ⟨page, paging, hpage⟩ := hpage
    obtain ⟨ebp, mem, s', hs', hC⟩ := h.create hpage hop.1 (hop.2 page paging hpage) ret
    exact ⟨s', _, hs', ⟨page, ebp, mem, rfl⟩, hC⟩

lemma hasPage_of_exec {op : ThreadOp} {s' : ThreadSystem} (hs' : s.exec P op = .ok s') :
    op.HasPage s := by
  cases op with
  | run code => trivial
  | preempt ret => trivial
  | create task main ret =>
    obtain ⟨s₁, h₁, -⟩ := bind_eq_ok hs'
    obtain ⟨k₁, h₁, -⟩ := bind_eq_ok h₁
    obtain ⟨page, paging, hpage, -⟩ := setupThread_fields h₁
    exact ⟨page, paging, hpage⟩

abbrev SystemRun (P : Placement) (k : Tasks) (m : Machine) :
    List (ThreadSystem × ThreadOp) → ThreadSystem → Prop :=
  Run (fun s op s' => s.exec P op = .ok s') (ThreadSystem.init P k m)

lemma SystemRun.carries {k : Tasks} {tr : List (ThreadSystem × ThreadOp)}
    (hr : SystemRun P k m tr s) (hC : ∀ p ∈ tr, p.2.Safe P p.1) :
    ∃ atr w, Run (ThreadWorld.Step P) (ThreadWorld.init P m) atr w ∧ labels atr = labels tr ∧
      CarriesWorld P w s := by
  refine hr.simulates (carries_init P k m) (fun w s op s' hw hop hs' => ?_) hC
  obtain ⟨s₁, w', hs₁, hstep, hw'⟩ := hw.step hop (hasPage_of_exec hs')
  obtain rfl : s₁ = s' := Except.ok.inj (hs₁.symm.trans hs')
  exact ⟨w', hstep, hw'⟩

/-- The kernel runs its threads as if each of them had a processor and a stack of its own, in any
order of their steps: what they do is what the same steps do there, with the state of every thread
in the processor or in its record and on its stack. No step faults but for want of a page. -/
theorem threads_own_processors (P : Placement) (k : Tasks) (m : Machine)
    {tr : List (ThreadSystem × ThreadOp)} {s : ThreadSystem} (hr : SystemRun P k m tr s)
    (hsafe : ∀ p ∈ tr, p.2.Safe P p.1) :
    ∃ atr w, Run (ThreadWorld.Step P) (ThreadWorld.init P m) atr w ∧ labels atr = labels tr ∧
      CarriesWorld P w s ∧
        ∀ op : ThreadOp, op.Safe P s → op.HasPage s → ∃ s', s.exec P op = .ok s' := by
  obtain ⟨atr, w, har, hlab, hw⟩ := hr.carries hsafe
  refine ⟨atr, w, har, hlab, hw, fun op hop hpage => ?_⟩
  obtain ⟨s', -, hs', -⟩ := hw.step hop hpage
  exact ⟨s', hs'⟩

/-- Records at 0x1000 and 0x2000, the boot stack at 0x8000 and one shared byte. -/
def twoThreads : Placement where
  addr
    | .mainThread => 0x1000
    | .record _ => 0x2000
  bootStack := ⟨0x8000, 0x1000⟩
  shared x := x == 0x10
  mainRecord := separate_of_le (by decide) (by decide)
  notShared := by
    intro x hx
    obtain rfl := beq_iff_eq.mp hx
    decide

/-- The kernel on the boot stack. -/
def bootMachine : Machine :=
  ⟨Function.update (fun _ => 0) .esp 0x9000, .ofWord 0, 0, 0, fun _ => 0⟩

lemma bootPaging_page : ∃ k : Tasks, ∃ paging, kallocPage k.paging = .ok (0xC0005000, paging) := by
  have hrun : ((initFrames framesBss 0xC0004000 256).toOption.bind fun frames =>
      (initPaging ⟨0xC0002000, by decide⟩ (pagingBss frames) 0xC0004000).toOption.bind fun pg =>
        (kallocPage pg).toOption.map fun r => decide (r.1 = 0xC0005000)) = some true := by
    decide +kernel
  obtain ⟨frames, -, hrun⟩ := Option.bind_eq_some_iff.mp hrun
  obtain ⟨pg, -, hrun⟩ := Option.bind_eq_some_iff.mp hrun
  obtain ⟨⟨page, paging⟩, hpage, hdec⟩ := Option.map_eq_some_iff.mp hrun
  obtain rfl : page = 0xC0005000 := of_decide_eq_true hdec
  exact ⟨tasksBss pg, paging, eq_ok_of_toOption hpage⟩

/-- A thread is created, runs at once and gives the processor back. -/
theorem threads_own_processors_two :
    ∃ (k : Tasks) (tr : List (ThreadSystem × ThreadOp)) (s : ThreadSystem),
      SystemRun twoThreads k bootMachine tr s ∧ (∀ p ∈ tr, p.2.Safe twoThreads p.1) ∧
      labels tr = [.preempt 0xC0001010, .create (.record 1) 0xC0001000 0x100] ∧
      ∃ atr w, Run (ThreadWorld.Step twoThreads) (ThreadWorld.init twoThreads bootMachine) atr w ∧
        labels atr = labels tr ∧ CarriesWorld twoThreads w s := by
  obtain ⟨k, paging, hpage⟩ := bootPaging_page
  have hinit := carries_init twoThreads k bootMachine
  have hroom : (ThreadSystem.init twoThreads k bootMachine).Room twoThreads := by
    intro t ht
    obtain rfl : Thread.mainThread = t := Ptr.node.inj ht
    change 60 ≤ ((0x9000 : UInt32) - 0x8000).toNat ∧ ((0x9000 : UInt32) - 0x8000).toNat ≤ 0x1000
    decide
  have hA : (ThreadSystem.init twoThreads k bootMachine).Admits twoThreads (.record 1)
      ⟨0xC0005000, stackPageSize⟩ := by
    have hmain : ∀ t ∈ (ThreadSystem.init twoThreads k bootMachine).threads, t = .mainThread :=
      fun t ht => List.mem_singleton.mp ht
    have hstk : (ThreadSystem.init twoThreads k bootMachine).stack twoThreads .mainThread =
        ⟨0x8000, 0x1000⟩ := rfl
    refine ⟨fun ht => absurd (hmain _ ht) (by simp), ?_, ?_, ?_, ?_, ?_, ?_⟩
    · intro t ht
      rw [hmain t ht]
      exact (separate_of_le (by decide) (by decide)).symm
    · intro t ht
      rw [hmain t ht, hstk]
      exact separate_of_le (by decide) (by decide)
    · intro t ht
      rw [hmain t ht]
      exact (separate_of_le (by decide) (by decide)).symm
    · intro t ht
      rw [hmain t ht, hstk]
      exact (separate_of_le (by decide) (by decide)).symm
    · exact separate_of_le (by decide) (by decide)
    · intro x hx
      obtain rfl := beq_iff_eq.mp hx
      decide
  obtain ⟨ebp, mem, s₁, h₁, hC₁⟩ := show ∃ ebp mem s₁,
      (ThreadSystem.init twoThreads k bootMachine).create twoThreads (.record 1) 0xC0001000 0x100 =
        .ok s₁ ∧ _ from hinit.create hpage hroom hA 0x100
  have hroom₁ : s₁.Room twoThreads := by
    intro t ht
    obtain rfl : Thread.record 1 = t := Ptr.node.inj (hC₁.running.symm.trans ht)
    rw [hC₁.stack (.record 1) (running_mem _), hC₁.esp]
    change 60 ≤ ((0xC0005000 : UInt32) + 0x1000 - 0xC0005000).toNat ∧
      ((0xC0005000 : UInt32) + 0x1000 - 0xC0005000).toNat ≤ 0x1000
    decide
  obtain ⟨s₂, h₂, hC₂⟩ := hC₁.turn hroom₁ 0xC0001010
  have hsafe : (ThreadOp.create (.record 1) 0xC0001000 0x100).Safe twoThreads
      (ThreadSystem.init twoThreads k bootMachine) := by
    refine ⟨hroom, fun page' paging' hpage' => ?_⟩
    obtain ⟨rfl, -⟩ := Prod.mk.inj (Except.ok.inj (hpage.symm.trans hpage'))
    exact hA
  have hr : SystemRun twoThreads k bootMachine
      [(s₁, .preempt 0xC0001010), (_, .create (.record 1) 0xC0001000 0x100)] s₂ :=
    (Run.nil.cons h₁).cons h₂
  have hall : ∀ p ∈ [(s₁, ThreadOp.preempt 0xC0001010),
      (ThreadSystem.init twoThreads k bootMachine, .create (.record 1) 0xC0001000 0x100)],
      p.2.Safe twoThreads p.1 := by
    intro p hp
    rcases List.mem_cons.mp hp with rfl | hp
    · exact hroom₁
    · rw [List.mem_singleton.mp hp]
      exact hsafe
  obtain ⟨atr, w, har, hlab, hw, -⟩ := threads_own_processors twoThreads k bootMachine hr hall
  exact ⟨k, _, s₂, hr, hall, rfl, atr, w, har, hlab, hw⟩

end SaxonOS.Proofs
