import SaxonOS.Task
import SaxonOS.Lib.Run

/-!
# The thread list

`kthread_create` and `preempt` keep the threads in one list from `main_thread` to
`last_thread`, in the order of their creation, with the running thread on it; `preempt` goes
round it. `kthread_join` never takes a thread off it.
-/

namespace SaxonOS.Proofs
open Lib

def Tasks.next (s : Tasks) (t : Thread) : Ptr Thread := (s.thread t).next

/-- The list from `main_thread` through `next` is `ts` and ends at `last_thread`; the running
thread is on it. -/
structure ThreadList (ts : List Thread) (s : Tasks) : Prop where
  chain : Seg (Tasks.next s) (.node .mainThread) ts .null
  last : ∃ us t, ts = us ++ [t] ∧ s.lastThread = .node t
  running : ∃ t ∈ ts, s.runningThread = .node t

variable {s s' : Tasks} {ts us vs : List Thread} {r t x task : Thread} {xs : List Thread} {p q : Ptr Thread}
  {main : UInt32} {table : TableAddr}

lemma thread_modify_next (s : Tasks) (t : Thread) (f : Kthread → Kthread)
    (hf : ∀ k, (f k).next = k.next) : Tasks.next (s.modify t f) = Tasks.next s := by
  funext j
  unfold Tasks.next Tasks.modify
  dsimp only
  rw [Function.update_apply]
  split
  · next h => rw [h, hf]
  · rfl

lemma thread_store_next (s : Tasks) (t : Thread) (p : Ptr Thread) :
    Tasks.next (s.modify t fun k => { k with next := p }) =
      Function.update (Tasks.next s) t p := by
  funext j
  unfold Tasks.next Tasks.modify
  dsimp only
  rw [Function.update_apply, Function.update_apply]
  split
  · rfl
  · rfl

lemma switchTask_ok (s : Tasks) (r x : Thread) :
    ∃ s', switchTask s (.node r) (.node x) = .ok s' ∧ Tasks.next s' = Tasks.next s ∧
      s'.lastThread = s.lastThread ∧ s'.runningThread = s.runningThread := by
  refine ⟨_, rfl, ?_, rfl, rfl⟩
  exact thread_modify_next s r (fun k => { k with regs := s.cpu }) fun _ => rfl

/-! ### Going round -/

/-- The head of the list is `main_thread`. -/
lemma ThreadList.head (hI : ThreadList (x :: ts) s) : x = .mainThread :=
  (Ptr.node.inj hI.chain.1).symm

/-- `preempt` runs the next thread of the list, or the first one after the last. -/
lemma preempt_next (hI : ThreadList ts s) (hts : ts = us ++ r :: vs)
    (hrun : s.runningThread = .node r) (hx : vs ++ us ++ [r] = x :: xs) :
    ∃ s', preempt s = .ok s' ∧ ThreadList ts s' ∧ s'.runningThread = .node x := by
  obtain ⟨ls, l, hl, hlast⟩ := hI.last
  have hnext : (if s.runningThread = s.lastThread then Except.ok (.node .mainThread)
      else do
        let t ← derefThread s.runningThread
        .ok (s.thread t).next) = (.ok (.node x) : Except Fault (Ptr Thread)) := by
    cases vs with
    | nil =>
      have hrl : r = l := by
        have := congrArg List.getLast? (hts.symm.trans hl)
        simpa using this
      have hxm : x = .mainThread := by
        rw [List.nil_append] at hx
        rw [hts, hx] at hI
        exact hI.head
      rw [if_pos (by rw [hrun, hlast, hrl]), hxm]
    | cons v vs =>
      have hvx : v = x := (List.cons.inj hx).1
      have hrl : r ≠ l := by
        rintro rfl
        have hnd := hI.chain.nodup
        have hmem : r ∈ v :: vs := by
          apply List.mem_of_getLast?
          have hlast := congrArg List.getLast? hl
          rw [hts, List.getLast?_append_cons, List.getLast?_cons_cons, List.getLast?_concat] at hlast
          exact hlast
        rw [hts, List.nodup_append] at hnd
        exact (List.nodup_cons.mp hnd.2.1).1 hmem
      have hv : Seg (Tasks.next s) (Tasks.next s r) (v :: vs) .null := by
        have := hI.chain
        rw [hts] at this
        exact this.suffix
      rw [if_neg (by rw [hrun, hlast]; exact fun h => hrl (Ptr.node.inj h)), hrun]
      change Except.ok (Tasks.next s r) = _
      rw [hv.1, hvx]
  obtain ⟨s', hs', hn, hls, hr⟩ := switchTask_ok { s with runningThread := .node x } r x
  refine ⟨s', ?_, ⟨?_, ⟨ls, l, hl, ?_⟩, ⟨x, ?_, hr⟩⟩, hr⟩
  · unfold preempt
    rw [hnext, hrun]
    exact hs'
  · rw [hn]
    exact hI.chain
  · rw [hls]
    exact hlast
  · have : x ∈ vs ++ us ++ [r] := by
      rw [hx]
      exact List.mem_cons_self
    rw [hts]
    simp only [List.mem_append, List.mem_cons] at this ⊢
    tauto

/-- The order in which the threads of `ts` run next: the ones behind the running thread, then
the ones before it, then itself. -/
def Upcoming (ts fut : List Thread) (s : Tasks) : Prop :=
  ∃ us r vs, ts = us ++ r :: vs ∧ s.runningThread = .node r ∧ fut = vs ++ us ++ [r]

lemma ThreadList.upcoming (hI : ThreadList ts s) : ∃ fut, Upcoming ts fut s := by
  obtain ⟨r, hr, hrun⟩ := hI.running
  obtain ⟨us, vs, rfl⟩ := List.append_of_mem hr
  exact ⟨_, us, r, vs, rfl, hrun, rfl⟩

lemma Upcoming.perm {fut : List Thread} (h : Upcoming ts fut s) : fut.Perm ts := by
  obtain ⟨us, r, vs, rfl, -, rfl⟩ := h
  calc (vs ++ us ++ [r]).Perm (r :: (vs ++ us)) := List.perm_append_singleton r (vs ++ us)
    _ |>.Perm (r :: (us ++ vs)) := List.perm_append_comm.cons r
    _ |>.Perm (us ++ r :: vs) := List.perm_middle.symm

/-- One turn of the scheduler. -/
lemma preempt_upcoming (hI : ThreadList ts s) (hU : Upcoming ts (x :: xs) s) :
    ∃ s', preempt s = .ok s' ∧ ThreadList ts s' ∧ s'.runningThread = .node x ∧
      Upcoming ts (xs ++ [x]) s' := by
  obtain ⟨us, r, vs, hts, hrun, hfut⟩ := hU
  obtain ⟨s', hs', hI', hrun'⟩ := preempt_next hI hts hrun hfut.symm
  refine ⟨s', hs', hI', hrun', ?_⟩
  cases vs with
  | nil =>
    rw [List.nil_append, ← hts] at hfut
    exact ⟨[], x, xs, hfut.symm, hrun', by rw [List.append_nil]⟩
  | cons v vs =>
    rw [List.cons_append, List.cons_append] at hfut
    obtain ⟨rfl, rfl⟩ := List.cons.inj hfut
    refine ⟨us ++ [r], x, vs, ?_, hrun', ?_⟩
    · rw [hts, List.append_assoc]
      rfl
    · rw [List.append_assoc vs us]

/-- `preempt` once for each element of `cpus`, the states of the processor at the calls, with
the threads that are made to run. -/
def preempts : List Registers → Tasks → Except Fault (List (Ptr Thread) × Tasks)
  | [], s => .ok ([], s)
  | cpu :: cpus, s => do
    let s ← preempt { s with cpu }
    let (rest, s') ← preempts cpus s
    .ok (s.runningThread :: rest, s')

lemma ThreadList.setCpu (hI : ThreadList ts s) (cpu : Registers) : ThreadList ts { s with cpu } :=
  ⟨hI.chain, hI.last, hI.running⟩

lemma preempts_upcoming {cpus : List Registers} {zs ws : List Thread} (hI : ThreadList ts s)
    (hU : Upcoming ts (zs ++ ws) s) (hlen : cpus.length = zs.length) :
    ∃ s', preempts cpus s = .ok (zs.map .node, s') ∧ ThreadList ts s' ∧
      Upcoming ts (ws ++ zs) s' := by
  induction cpus generalizing s zs ws with
  | nil =>
    obtain rfl := List.length_eq_zero_iff.mp hlen.symm
    exact ⟨s, rfl, hI, by simpa using hU⟩
  | cons cpu cpus ih =>
    cases zs with
    | nil => cases hlen
    | cons z zs =>
      rw [List.cons_append] at hU
      obtain ⟨s₁, h₁, hI₁, hrun₁, hU₁⟩ := preempt_upcoming (hI.setCpu cpu) hU
      rw [List.append_assoc] at hU₁
      obtain ⟨s₂, h₂, hI₂, hU₂⟩ := ih hI₁ hU₁ (Nat.succ.inj hlen)
      refine ⟨s₂, ?_, hI₂, by simpa using hU₂⟩
      rw [preempts, h₁]
      change preempts cpus s₁ >>= _ = _
      rw [h₂, List.map_cons, ← hrun₁]
      rfl

/-! ### Runs -/

lemma preempt_keeps (hI : ThreadList ts s) : ∃ s', preempt s = .ok s' ∧ ThreadList ts s' := by
  obtain ⟨fut, hU⟩ := hI.upcoming
  cases fut with
  | nil =>
    obtain ⟨us, r, vs, -, -, hfut⟩ := hU
    exact absurd hfut.symm (by simp)
  | cons x xs =>
    obtain ⟨s', hs', hI', -⟩ := preempt_upcoming hI hU
    exact ⟨s', hs', hI'⟩

lemma setupThread_keeps (h : setupThread s task main = .ok s') :
    Tasks.next s' = Tasks.next s ∧ s'.lastThread = s.lastThread ∧
      s'.runningThread = s.runningThread := by
  obtain ⟨⟨page, paging⟩, -, h⟩ := bind_eq_ok h
  obtain rfl := Except.ok.inj h
  refine ⟨?_, rfl, rfl⟩
  funext j
  by_cases hj : j = task
  · simp [Tasks.next, Tasks.modify, hj]
  · simp [Tasks.next, Tasks.modify, Function.update_of_ne hj]

lemma appendThread_ok (hlast : s.lastThread = .node t) : ∃ s', appendThread s task = .ok s' ∧
    Tasks.next s' = Function.update (Function.update (Tasks.next s) task .null) t (.node task) ∧
    s'.lastThread = .node task ∧ s'.runningThread = s.runningThread := by
  refine ⟨{ ((s.modify task fun k => { k with next := .null }).modify t
    fun k => { k with next := .node task }) with lastThread := .node task }, ?_, ?_, rfl, rfl⟩
  · unfold appendThread
    dsimp only
    rw [show (s.modify task fun k => { k with next := .null }).lastThread = .node t from hlast]
    rfl
  · rw [← thread_store_next s task .null]
    exact thread_store_next _ t (.node task)

lemma kthreadCreate_keeps (hI : ThreadList ts s) (hnew : task ∉ ts)
    (h : kthreadCreate s task main = .ok s') : ThreadList (ts ++ [task]) s' := by
  obtain ⟨ls, l, rfl, hlast⟩ := hI.last
  obtain ⟨r, hr, hrun⟩ := hI.running
  obtain ⟨s₁, h₁, h⟩ := bind_eq_ok h
  obtain ⟨s₂, h₂, h⟩ := bind_eq_ok h
  obtain ⟨hn₁, hl₁, hr₁⟩ := setupThread_keeps h₁
  obtain ⟨s₂', h₂', hn₂, hl₂, hr₂⟩ := appendThread_ok (hl₁.trans hlast)
  obtain rfl : s₂' = s₂ := Except.ok.inj (h₂'.symm.trans h₂)
  have hI₂ : ThreadList (ls ++ [l] ++ [task]) s₂' := by
    refine ⟨?_, ⟨ls ++ [l], task, rfl, hl₂⟩, ⟨r, List.mem_append_left _ hr, ?_⟩⟩
    · rw [hn₂, hn₁]
      exact (hI.chain.update hnew _).snoc (Function.update_self ..) hnew
    · rw [hr₂, hr₁, hrun]
  obtain ⟨s₃, h₃, hI₃⟩ := preempt_keeps hI₂
  obtain rfl : s₃ = s' := Except.ok.inj (h₃.symm.trans h)
  exact hI₃

/-- The scheduler with the records passed to `kthread_create` so far, in order. -/
structure TaskState where
  tasks : Tasks
  created : List Thread

/-- The threads there are, in the order of their creation. -/
def TaskState.threads (s : TaskState) : List Thread := .mainThread :: s.created

/-- A call made with the processor in the state `cpu`. -/
inductive TaskOp
  | create (task : Thread) (main : UInt32) (cpu : Registers)
  | preempt (cpu : Registers)

/-- One call that transfers control. A thread is created in a fresh record only. -/
def TaskState.exec (s : TaskState) : TaskOp → Option TaskState
  | .create task main cpu =>
    if task ∈ s.threads then none
    else
      match kthreadCreate { s.tasks with cpu } task main with
      | .ok tasks => some ⟨tasks, s.created ++ [task]⟩
      | .error _ => none
  | .preempt cpu =>
    match preempt { s.tasks with cpu } with
    | .ok tasks => some { s with tasks }
    | .error _ => none

abbrev TaskRun (s₀ : Tasks) : List (TaskState × TaskOp) → TaskState → Prop :=
  Run (fun s op s' => TaskState.exec s op = some s') ⟨initTasking s₀, []⟩

lemma threadList_init (s₀ : Tasks) : ThreadList [.mainThread] (initTasking s₀) := by
  refine ⟨⟨rfl, ?_⟩, ⟨[], .mainThread, rfl, rfl⟩, ⟨.mainThread, List.mem_cons_self, rfl⟩⟩
  change Tasks.next (initTasking s₀) .mainThread = .null
  simp [Tasks.next, initTasking, Tasks.modify]

lemma threadList_step {st st' : TaskState} {op : TaskOp} (hI : ThreadList st.threads st.tasks)
    (h : st.exec op = some st') : ThreadList st'.threads st'.tasks := by
  cases op with
  | create task main cpu =>
    rw [TaskState.exec] at h
    split at h
    · cases h
    · next hnew =>
      split at h
      · next tasks hc =>
        obtain rfl := Option.some.inj h
        exact kthreadCreate_keeps (hI.setCpu cpu) hnew hc
      · cases h
  | preempt cpu =>
    rw [TaskState.exec] at h
    split at h
    · next tasks hp =>
      obtain rfl := Option.some.inj h
      obtain ⟨s', hs', hI'⟩ := preempt_keeps (hI.setCpu cpu)
      obtain rfl : s' = tasks := Except.ok.inj (hs'.symm.trans hp)
      exact hI'
    · cases h

lemma TaskRun.threadList {s₀ : Tasks} {tr : List (TaskState × TaskOp)} {st : TaskState}
    (hr : TaskRun s₀ tr st) : ThreadList st.threads st.tasks :=
  hr.invariant (I := fun st => ThreadList st.threads st.tasks) (C := fun _ _ => True)
    (threadList_init s₀) (fun _ _ _ hI _ h => threadList_step hI h) (by simp)

/-- After `init_tasking` and any creations and preemptions, the list from `main_thread` to
`last_thread` holds every thread once, in the order of creation, with the running thread on it,
and as many preemptions as there are threads run each of them once and end where they began. -/
theorem round_robin (s₀ : Tasks) {tr : List (TaskState × TaskOp)} {st : TaskState}
    (hr : TaskRun s₀ tr st) :
    ThreadList st.threads st.tasks ∧ st.threads.Nodup ∧
      ∀ cpus : List Registers, cpus.length = st.threads.length →
        ∃ (visited : List Thread) (s' : Tasks), preempts cpus st.tasks = .ok (visited.map .node, s') ∧
          visited.Perm st.threads ∧ s'.runningThread = st.tasks.runningThread ∧
          ThreadList st.threads s' := by
  have hI := TaskRun.threadList hr
  refine ⟨hI, hI.chain.nodup, fun cpus hlen => ?_⟩
  obtain ⟨fut, hU⟩ := hI.upcoming
  have hperm := hU.perm
  obtain ⟨us, r, vs, hts, hrun, rfl⟩ := hU
  have hU' : Upcoming st.threads (vs ++ us ++ [r] ++ []) st.tasks :=
    ⟨us, r, vs, hts, hrun, List.append_nil _⟩
  obtain ⟨s', hs', hI', us', r', vs', -, hrun', hfut'⟩ :=
    preempts_upcoming hI hU' (hlen.trans hperm.length_eq.symm)
  refine ⟨_, s', hs', hperm, ?_, hI'⟩
  have hlast := congrArg List.getLast? hfut'
  simp only [List.nil_append, List.getLast?_concat] at hlast
  rw [hrun', hrun, Option.some.inj hlast]

/-! ### `kthread_join` -/

/-- What a join that works does: it returns, the list is the old one without `t`, `last_thread`
is its end, and no preemption runs `t` again. -/
def JoinRemoves (table : TableAddr) (s : Tasks) (ts : List Thread) (t : Thread) : Prop :=
  ∃ fuel s', kthreadJoin table fuel s t = .ok s' ∧
    Seg (Tasks.next s') (.node .mainThread) (ts.erase t) .null ∧
    (∃ us l, ts.erase t = us ++ [l] ∧ s'.lastThread = .node l) ∧
    ∀ cpus visited s'', preempts cpus s' = .ok (visited, s'') → .node t ∉ visited

/-- One turn of the loop, which relinks the record it stands at and not the one before `t`. -/
lemma kthreadJoinLoop_turn (fuel : Nat) (h : Tasks.next s r ≠ .node t) :
    kthreadJoinLoop t (fuel + 1) s (.node r) =
      kthreadJoinLoop t fuel
        { (s.modify r fun k => { k with next := Tasks.next s t }) with lastThread := .node r }
        (Tasks.next s t) := by
  rw [kthreadJoinLoop]
  change (if Tasks.next s r = .node t then _ else _) = _
  rw [if_neg h]
  congr 1
  simp [Tasks.modify, Tasks.next]

/-- Behind `t`, the loop makes the next record its own successor and stays there. -/
lemma kthreadJoinLoop_spins (hxt : x ≠ t) (ht : Tasks.next s t = .node x)
    (hx : Tasks.next s x ≠ .node t) (fuel : Nat) :
    kthreadJoinLoop t fuel s (.node x) = .error .diverge := by
  induction fuel generalizing s with
  | zero => rfl
  | succ fuel ih =>
    rw [kthreadJoinLoop_turn fuel hx, ht]
    have hnext : Tasks.next { (s.modify x fun k => { k with next := .node x }) with
        lastThread := .node x } = Function.update (Tasks.next s) x (.node x) :=
      thread_store_next s x (.node x)
    apply ih
    · rw [hnext, Function.update_of_ne (Ne.symm hxt), ht]
    · rw [hnext, Function.update_self]
      exact fun h => hxt (Ptr.node.inj h)

/-- The loop returns at once, with the list as it was, for the thread behind `main_thread`, and
never for another one. -/
lemma kthreadJoinLoop_cases (hI : ThreadList (.mainThread :: (us ++ t :: vs)) s) {fuel : Nat}
    (h : kthreadJoinLoop t fuel s (.node .mainThread) = .ok s') : us = [] ∧ s' = s := by
  have hnd := hI.chain.nodup
  obtain ⟨hmain, hnd⟩ := List.nodup_cons.mp hnd
  have htm : t ≠ .mainThread := by
    rintro rfl
    exact hmain (List.mem_append_right _ List.mem_cons_self)
  have ht : Seg (Tasks.next s) (Tasks.next s t) vs .null := hI.chain.2.suffix
  cases fuel with
  | zero => cases h
  | succ fuel =>
    cases us with
    | nil =>
      rw [kthreadJoinLoop] at h
      change (if Tasks.next s .mainThread = .node t then _ else _) = _ at h
      rw [if_pos hI.chain.2.1] at h
      exact ⟨rfl, (Except.ok.inj h).symm⟩
    | cons u us =>
      have hut : u ≠ t := by
        rintro rfl
        exact (List.nodup_cons.mp hnd).1 (List.mem_append_right _ List.mem_cons_self)
      have hne : Tasks.next s .mainThread ≠ .node t := by
        rw [hI.chain.2.1]
        exact fun h => hut (Ptr.node.inj h)
      rw [kthreadJoinLoop_turn fuel hne] at h
      cases vs with
      | nil =>
        rw [show Tasks.next s t = .null from ht] at h
        cases fuel with
        | zero => cases h
        | succ fuel => cases h
      | cons v vs =>
        obtain ⟨-, hndt, -⟩ := List.nodup_append.mp hnd
        have hvt : v ≠ t := by
          rintro rfl
          exact (List.nodup_cons.mp hndt).1 List.mem_cons_self
        have hvm : v ≠ .mainThread := by
          rintro rfl
          exact hmain (List.mem_append_right _ (List.mem_cons_of_mem _ List.mem_cons_self))
        have hnext : Tasks.next { (s.modify .mainThread fun k => { k with next := .node v }) with
            lastThread := .node .mainThread } =
            Function.update (Tasks.next s) .mainThread (.node v) :=
          thread_store_next s .mainThread (.node v)
        have hv : Tasks.next s v ≠ .node t := by
          intro hvn
          have hseg := ht.2
          rw [hvn] at hseg
          cases vs with
          | nil => cases hseg
          | cons w vs =>
            obtain rfl := Ptr.node.inj hseg.1
            exact (List.nodup_cons.mp hndt).1 (List.mem_cons_of_mem _ List.mem_cons_self)
        rw [ht.1, kthreadJoinLoop_spins hvt] at h
        · cases h
        · rw [hnext, Function.update_of_ne htm, ht.1]
        · rw [hnext, Function.update_of_ne hvm]
          exact hv

lemma not_joinRemoves (hI : ThreadList ts s) (ht : t ∈ ts) (hmain : t ≠ .mainThread) :
    ¬JoinRemoves table s ts t := by
  rintro ⟨fuel, s', hjoin, hseg, -⟩
  obtain ⟨s₁, hloop, hjoin⟩ := bind_eq_ok hjoin
  obtain ⟨paging, -, hjoin⟩ := bind_eq_ok hjoin
  obtain rfl := Except.ok.inj hjoin
  obtain ⟨us, vs, rfl⟩ := List.append_of_mem ht
  cases us with
  | nil => exact hmain hI.head
  | cons u us =>
    obtain rfl := hI.head
    obtain ⟨-, rfl⟩ := kthreadJoinLoop_cases hI hloop
    have hlen := congrArg List.length (hseg.null_unique hI.chain)
    rw [List.length_erase_of_mem ht] at hlen
    simp only [List.length_append, List.length_cons] at hlen
    omega

/-- `kthread_join` takes no thread off the list: for the thread right behind `main_thread` it
returns with the list as it was, for every other one it follows a NULL link or does not end. -/
theorem join_never_removes (table : TableAddr) (s₀ : Tasks) {tr : List (TaskState × TaskOp)}
    {st : TaskState} (hr : TaskRun s₀ tr st) (t : Thread) (ht : t ∈ st.threads)
    (hmain : t ≠ .mainThread) : ¬JoinRemoves table st.tasks st.threads t :=
  not_joinRemoves (TaskRun.threadList hr) ht hmain

def zeroRegisters : Registers := ⟨0, 0, 0, 0, 0, 0, 0, 0, 0, 0, 0⟩

/-- The static data of `task.c` before `init_tasking`, over records that hold zeros. -/
def tasksBss (paging : Paging) : Tasks :=
  ⟨fun _ => ⟨zeroRegisters, 0, .null⟩, .null, .null, 0, 0, zeroRegisters, paging⟩

/-- The calls `ops` after a boot with an image that ends in its fifth frame. -/
def bootTasks (ops : List TaskOp) : Option (Tasks × List (TaskState × TaskOp) × TaskState) :=
  (initFrames framesBss 0xC0004000 256).toOption.bind fun frames =>
    (initPaging ⟨0xC0002000, by decide⟩ (pagingBss frames) 0xC0004000).toOption.bind fun pg =>
      (execTrace TaskState.exec ⟨initTasking (tasksBss pg), []⟩ ops).map fun r => (tasksBss pg, r)

lemma bootTasks_eq_some {ops : List TaskOp} {r : Tasks × List (TaskState × TaskOp) × TaskState}
    (h : bootTasks ops = some r) : TaskRun r.1 r.2.1 r.2.2 := by
  obtain ⟨frames, -, h⟩ := Option.bind_eq_some_iff.mp h
  obtain ⟨pg, -, h⟩ := Option.bind_eq_some_iff.mp h
  obtain ⟨r', hr, rfl⟩ := Option.map_eq_some_iff.mp h
  exact run_of_execTrace hr

/-- Three threads, the second of them running. -/
lemma threeThreads_run :
    ∃ s₀ tr st, TaskRun s₀ tr st ∧ st.threads = [.mainThread, .record 1, .record 2] := by
  have hrun : ((bootTasks [.create (.record 1) 0xC0001000 zeroRegisters, .preempt zeroRegisters,
      .create (.record 2) 0xC0001000 zeroRegisters]).map fun r =>
        decide (r.2.2.threads = [.mainThread, .record 1, .record 2])) = some true := by
    decide +kernel
  obtain ⟨⟨s₀, tr, st⟩, hr, hts⟩ := Option.map_eq_some_iff.mp hrun
  have hts := of_decide_eq_true hts
  have hr := bootTasks_eq_some hr
  exact ⟨s₀, tr, st, hr, hts⟩

theorem round_robin_three :
    ∃ s₀ tr st, TaskRun s₀ tr st ∧ st.threads = [.mainThread, .record 1, .record 2] ∧
      ∃ (visited : List Thread) (s' : Tasks),
        preempts [zeroRegisters, zeroRegisters, zeroRegisters] st.tasks =
          .ok (visited.map .node, s') ∧
        visited.Perm [.mainThread, .record 1, .record 2] ∧
        s'.runningThread = st.tasks.runningThread := by
  obtain ⟨s₀, tr, st, hr, hts⟩ := threeThreads_run
  obtain ⟨-, -, hround⟩ := round_robin s₀ hr
  obtain ⟨visited, s', hp, hperm, hsame, -⟩ :=
    hround [zeroRegisters, zeroRegisters, zeroRegisters] (by rw [hts]; rfl)
  exact ⟨s₀, tr, st, hr, hts, visited, s', hp, hts ▸ hperm, hsame⟩

/-- The last of three threads is not removed. -/
theorem join_never_removes_last :
    ∃ s₀ tr st, TaskRun s₀ tr st ∧ st.threads = [.mainThread, .record 1, .record 2] ∧
      ¬JoinRemoves ⟨0xC0002000, by decide⟩ st.tasks st.threads (.record 2) := by
  obtain ⟨s₀, tr, st, hr, hts⟩ := threeThreads_run
  exact ⟨s₀, tr, st, hr, hts, join_never_removes ⟨0xC0002000, by decide⟩ s₀ hr (.record 2)
    (by rw [hts]; decide) (by decide)⟩

/-- What `kernel_main` does: one thread is created and runs, control comes back, and the thread
is joined. It stays on the list, with its stack page freed, and the next preemption runs it. -/
theorem join_leaves_thread :
    ∃ s₀ tr st s', TaskRun s₀ tr st ∧ st.threads = [.mainThread, .record 1] ∧
      st.tasks.runningThread = .node .mainThread ∧
      kthreadJoin ⟨0xC0002000, by decide⟩ 1 st.tasks (.record 1) = .ok s' ∧
      Tasks.next s' .mainThread = .node (.record 1) ∧
      (∃ s'', preempts [zeroRegisters] s' = .ok ([.node (.record 1)], s'')) ∧
      ¬JoinRemoves ⟨0xC0002000, by decide⟩ st.tasks st.threads (.record 1) := by
  have hrun : ((bootTasks [.create (.record 1) 0xC0001000 zeroRegisters,
      .preempt zeroRegisters]).bind fun r =>
        (kthreadJoin ⟨0xC0002000, by decide⟩ 1 r.2.2.tasks (.record 1)).toOption.bind fun s' =>
          (preempts [zeroRegisters] s').toOption.map fun q =>
            decide (r.2.2.threads = [.mainThread, .record 1] ∧
              r.2.2.tasks.runningThread = .node .mainThread ∧
              Tasks.next s' .mainThread = .node (.record 1) ∧ q.1 = [.node (.record 1)])) =
      some true := by
    decide +kernel
  obtain ⟨⟨s₀, tr, st⟩, hr, h⟩ := Option.bind_eq_some_iff.mp hrun
  obtain ⟨s', hjoin, h⟩ := Option.bind_eq_some_iff.mp h
  obtain ⟨⟨visited, s''⟩, hpre, h⟩ := Option.map_eq_some_iff.mp h
  obtain ⟨hts, hmain, hnext, rfl⟩ := of_decide_eq_true h
  have hr := bootTasks_eq_some hr
  exact ⟨s₀, tr, st, s', hr, hts, hmain, eq_ok_of_toOption hjoin, hnext,
    ⟨s'', eq_ok_of_toOption hpre⟩,
    not_joinRemoves (TaskRun.threadList hr) (by rw [hts]; decide) (by decide)⟩

end SaxonOS.Proofs
