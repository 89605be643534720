import SaxonOS.Proofs.ReaderRuns

/-!
# What a reader can ask for

A call of a reader is a part of a run of the cache. It cannot ask for more sectors than the cache
loads in its whole life.
-/

namespace SaxonOS.Proofs
open Lib Lib.Holding

variable {fs : Devfs} {disk : UInt32 → UInt32 → Payload} {dev : UInt16} {s s' : CacheState}
  {h p : Handle} {α : Type} {g : Geometry}

def opOf (dev : UInt16) : CellOp UInt32 Handle → CacheOp
  | .get block => .get block dev
  | .put h => .put h

lemma nonzeroDev_opOf (hdev : dev ≠ 0) (op : CellOp UInt32 Handle) : NonzeroDev (opOf dev op) := by
  cases op with
  | get block => exact hdev
  | put h => trivial

lemma step_exec {op : CellOp UInt32 Handle}
    (h : (cacheStore fs dev).Step CacheState.held s op s') : s.exec fs (opOf dev op) = some s' := by
  cases op with
  | get block =>
    obtain ⟨h, hget⟩ := h
    exact (cacheStore_get hget).1
  | put h => exact (cacheStore_put h.1 h.2).1

lemma run_exec {tr : List (CacheState × CellOp UInt32 Handle)}
    (hr : Run ((cacheStore fs dev).Step CacheState.held) s tr s') :
    Run (fun s op s' => CacheState.exec fs s op = some s') s (tr.map fun q => (q.1, opOf dev q.2))
      s' := by
  induction hr with
  | nil => exact .nil
  | cons _ hs ih => exact ih.cons (step_exec hs)

lemma mem_sectorsGot {tr : List (CacheState × CellOp UInt32 Handle)} {block : UInt32} (dev : UInt16)
    (tr' : List (CacheState × CacheOp)) (h : block ∈ (getsOf tr).map Prod.snd) :
    (block, dev) ∈ sectorsGot ((tr.map fun q => (q.1, opOf dev q.2)) ++ tr') := by
  induction tr with
  | nil => cases h
  | cons q tr ih =>
    obtain ⟨s, op⟩ := q
    cases op with
    | get b =>
      rcases List.mem_cons.mp h with rfl | h
      · exact Finset.mem_insert_self _ _
      · exact Finset.mem_insert_of_mem (ih h)
    | put hd => exact ih h

lemma cache_via_run {prog : Reader α} {d : Nat} {l c : Prop} (hp : prog.Within l c d)
    {r : Ending CacheState UInt32 Handle α} (hr : prog.via (cacheStore fs dev) p h s = .ok r) :
    ∃ tr, Run ((cacheStore fs dev).Step CacheState.held) s tr r.state ∧ getsOf tr = r.gets ∧
      ∀ q ∈ tr, q.1.held.length ≤ s.held.length + r.kept.length + d := by
  refine via_run (fun s k h s' hget => ?_) (fun s h s' hm hput => ?_) hp hr
  · rw [(cacheStore_get hget).2.2]
  · rw [(cacheStore_put hm hput).2]
    exact List.perm_cons_erase hm

/-- A program over the cache asks for no more different sectors than the cache ever loads. -/
lemma gets_card {tr : List (CacheState × CacheOp)} (hr : CacheRun fs disk tr s)
    (hC : ∀ q ∈ tr, NonzeroDev q.2 ∧ FewHolders fs q.1 q.2) (hdev : dev ≠ 0)
    {prog : Reader α} {d : Nat} {l c : Prop}
    (hp : prog.Within l c d) {r : Ending CacheState UInt32 Handle α}
    (hvia : prog.via (cacheStore fs dev) p h s = .ok r)
    (hn : s.held.length + r.kept.length + d + 3 < 2 ^ 32) :
    (r.gets.map Prod.snd).toFinset.card ≤ 2 * maxBuffer - 1 := by
  obtain ⟨tr', hrun, hgets, hlen⟩ := cache_via_run hp hvia
  have hrun' : CacheRun fs disk ((tr'.map fun q => (q.1, opOf dev q.2)) ++ tr) r.state :=
    hr.append (run_exec hrun)
  have hC' : ∀ q ∈ (tr'.map fun q => (q.1, opOf dev q.2)) ++ tr,
      NonzeroDev q.2 ∧ FewHolders fs q.1 q.2 := by
    rw [List.forall_mem_append, List.forall_mem_map]
    refine ⟨fun q hq => ⟨nonzeroDev_opOf hdev q.2, fewHolders_of_held ?_⟩, hC⟩
    have hle := hlen q hq
    dsimp only
    omega
  have hinj : Function.Injective fun block : UInt32 => (block, dev) :=
    fun _ _ h => congrArg Prod.fst h
  have hsub : ((r.gets.map Prod.snd).toFinset.image fun block => (block, dev)) ⊆
      sectorsGot ((tr'.map fun q => (q.1, opOf dev q.2)) ++ tr) := by
    rw [Finset.image_subset_iff, ← hgets]
    exact fun block hb => mem_sectorsGot dev tr (List.mem_toFinset.mp hb)
  calc (r.gets.map Prod.snd).toFinset.card
      = ((r.gets.map Prod.snd).toFinset.image fun block => (block, dev)).card :=
        (Finset.card_image_of_injective _ hinj).symm
    _ ≤ (sectorsGot ((tr'.map fun q => (q.1, opOf dev q.2)) ++ tr)).card := Finset.card_le_card hsub
    _ ≤ misses ((tr'.map fun q => (q.1, opOf dev q.2)) ++ tr) := (livesInv_run hrun' hC').card
    _ ≤ 2 * maxBuffer - 1 := misses_le hrun' hC'

/-- The sectors that `bdev_read` asks for, the last one first. -/
def sectorsFrom (block : UInt32) : Nat → List UInt32
  | 0 => []
  | n + 1 => sectorsFrom (block + 1) n ++ [block]

lemma sectorsFrom_eq (block : UInt32) (n : Nat) :
    sectorsFrom block n = ((List.range n).map fun k => block + UInt32.ofNat k).reverse := by
  induction n generalizing block with
  | zero => rfl
  | succ n ih =>
    rw [sectorsFrom, ih, List.range_succ_eq_map, List.map_cons, List.reverse_cons, List.map_map]
    congr 2
    · congr 1
      funext k
      rw [Function.comp_apply, Nat.succ_eq_one_add, UInt32.ofNat_add, UInt32.add_assoc]
      rfl
    · simp

lemma sectorsFrom_card {n : Nat} (block : UInt32) (hn : n ≤ 2 ^ 32) :
    (sectorsFrom block n).toFinset.card = n := by
  have hnd : ((List.range n).map fun k => block + UInt32.ofNat k).Nodup := by
    refine List.Nodup.map_on (fun k hk k' hk' h => ?_) List.nodup_range
    rw [List.mem_range] at hk hk'
    have heq := congrArg UInt32.toNat ((UInt32.add_right_inj _).mp h)
    rw [UInt32.toNat_ofNat', UInt32.toNat_ofNat'] at heq
    omega
  rw [sectorsFrom_eq, List.toFinset_reverse, List.toFinset_card_of_nodup hnd]
  simp

lemma bdevReadLoopVia_gets {fuel count : Nat} {block : UInt32} {offset : Nat} {pos read : UInt32}
    {r : Ending CacheState UInt32 Handle (List UInt8 × UInt32 × UInt32)}
    (hr : (bdevReadLoopVia fuel count block offset pos read).via (cacheStore fs dev) p h s =
      .ok r) :
    r.gets.map Prod.snd = sectorsFrom block ((count + 511) / 512) ∧ r.kept = [] := by
  induction fuel generalizing count block offset pos read s r with
  | zero =>
    unfold bdevReadLoopVia at hr
    split at hr
    · cases hr
    · obtain rfl : count = 0 := by omega
      obtain rfl := Except.ok.inj hr
      exact ⟨rfl, rfl⟩
  | succ fuel ih =>
    unfold bdevReadLoopVia at hr
    split at hr
    · obtain ⟨h₁, s₁, bytes, s₂, q, hget, hbytes, hput, hq, rfl⟩ := via_visit hr
      obtain ⟨q', hq', rfl⟩ := via_map (fun x : List UInt8 × UInt32 × UInt32 =>
        (bytes ++ x.1, x.2.1, x.2.2)) hq
      obtain ⟨hgets, hkept⟩ := ih hq'
      refine ⟨?_, hkept⟩
      have hcount : (count + 511) / 512 = (count - chunk count + 511) / 512 + 1 := by
        unfold chunk
        split <;> simp only [blockSize] at * <;> omega
      rw [hcount, sectorsFrom, List.map_append, hgets]
      rfl
    · obtain rfl : count = 0 := by omega
      obtain rfl := Except.ok.inj hr
      exact ⟨rfl, rfl⟩

/-- After every run on nonzero devices whose counts do not wrap, a `bdev_read` that stays inside its
buffers returns only if it is asked for no more than 199 sectors. -/
theorem bdev_read_limited (fs : Devfs) (disk : UInt32 → UInt32 → Payload) (dev : UInt16)
    (hdev : dev ≠ 0) {tr : List (CacheState × CacheOp)} {s : CacheState}
    (hr : CacheRun fs disk tr s) (hC : ∀ q ∈ tr, NonzeroDev q.2 ∧ FewHolders fs q.1 q.2)
    (hn : FewHeld s) (p : Handle) (count : Int32) (pos : UInt32)
    {r : Ending CacheState UInt32 Handle _}
    (hvia : (bdevReadVia count pos).via (cacheStore fs dev) p p s = .ok r) :
    count.toInt ≤ (2 * maxBuffer - 1) * blockSize := by
  obtain ⟨hgets, hkept⟩ := bdevReadLoopVia_gets hvia
  rw [FewHeld] at hn
  have hcard := gets_card hr hC hdev (bdevReadLoopVia_within (d := 1) (l := False) (a := False)
    (by decide) _ _ _ _ _ _) hvia (by rw [hkept, List.length_nil]; omega)
  have hlt := count.toInt_lt
  rw [hgets, sectorsFrom_card _ (by omega)] at hcard
  simp only [maxBuffer, blockSize] at hcard ⊢
  omega

/-- Two sectors are read by a cache that has given out another one. -/
theorem bdev_read_limited_two :
    ∃ tr s r, CacheRun oneDisk numberedDisk tr s ∧ s.held.length = 1 ∧
      (bdevReadVia 600 1024).via (cacheStore oneDisk 0x300) ⟨0, 5, 0x300⟩ ⟨0, 5, 0x300⟩ s = .ok r ∧
      r.gets.length = 2 ∧ (600 : Int32).toInt ≤ (2 * maxBuffer - 1) * blockSize := by
  have hrun : ((execTrace (CacheState.exec oneDisk) (freshState numberedDisk)
      [.get 5 0x300]).bind fun q => ((bdevReadVia 600 1024).via (cacheStore oneDisk 0x300)
        ⟨0, 5, 0x300⟩ ⟨0, 5, 0x300⟩ q.2).toOption.map fun r => decide (q.2.held.length = 1 ∧
          r.gets.length = 2 ∧ ∀ p ∈ q.1, NonzeroDev p.2 ∧ p.1.held.length ≤ 1)) = some true := by
    decide +kernel
  obtain ⟨q, hexec, h⟩ := Option.bind_eq_some_iff.mp hrun
  obtain ⟨r, hvia, h⟩ := Option.map_eq_some_iff.mp h
  obtain ⟨hheld, hgets, hC⟩ := of_decide_eq_true h
  have hvia := eq_ok_of_toOption hvia
  have hr : CacheRun oneDisk numberedDisk q.1 q.2 := run_of_execTrace hexec
  have hfew : FewHeld q.2 := by
    rw [FewHeld, hheld]
    decide
  have hC' : ∀ p ∈ q.1, NonzeroDev p.2 ∧ FewHolders oneDisk p.1 p.2 := fun p hp =>
    ⟨(hC p hp).1, fewHolders_of_held (by have hle := (hC p hp).2; omega)⟩
  exact ⟨q.1, q.2, r, hr, hheld, hvia, hgets, bdev_read_limited oneDisk numberedDisk 0x300
    (by decide) hr hC' hfew ⟨0, 5, 0x300⟩ 600 1024 hvia⟩

end SaxonOS.Proofs
