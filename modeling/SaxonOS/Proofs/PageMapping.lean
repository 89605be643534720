import SaxonOS.Proofs.Pages

/-!
# What the page calls do to the translation

`next_free_page` is the result of a search made one call early. It stays the address of an
entry that is not present, so `kalloc_page` adds a mapping and changes no other, and
`kfree_page` removes one. At boot, the bitmap and the page table advance together.
-/

namespace SaxonOS.Proofs
open Lib

variable {table : TableAddr} {pg pg' : Paging} {p v : UInt32} {s s' : PageState} {op : PageOp}
  {n e : Nat}

/-- What `get_phys_addr` answers for a page without a mapping. -/
def NotPresent (table : TableAddr) (pg : Paging) (v : UInt32) : Prop :=
  getPhysAddr table pg v = .error (.panic [] "Page table entry not present")

/-- `kernel_page_dir` as `init_paging` leaves it. -/
structure KernelDir (table : TableAddr) (pg : Paging) : Prop where
  kernel : pg.pdEntry 768 = (table.addr - kernelVirtualBase) ||| 3 ||| 4
  other : ∀ k, k ≠ 768 → pg.pdEntry k = 2

/-- Outside the four megabytes of the kernel there is no page table. -/
lemma getPhysAddr_other (hd : KernelDir table pg) (hv : pdIndex v ≠ 768) :
    getPhysAddr table pg v = .error (.panic [] "Page table not present") := by
  rw [getPhysAddr, hd.other _ hv]
  rfl

lemma getPhysAddr_kernel (hd : KernelDir table pg) (hv : pdIndex v = 768) :
    getPhysAddr table pg v =
      if pagePresent (pg.ptEntry (ptIndex v)) then
        .ok (mappedFrame (pg.ptEntry (ptIndex v)) + (v &&& 0xFFF))
      else .error (.panic [] "Page table entry not present") := by
  have hpd : pagePresent (pg.pdEntry 768) = true := by
    rw [hd.kernel]
    exact pagePresent_or _
  have haddr : pageTableAddr pg v = table.addr := by
    rw [← pageTableAddr_eq hd.kernel (i := 0) (by omega), pageTableAddr, pageTableAddr, hv,
      pdIndex_pageAddr (by omega)]
  rw [getPhysAddr, hv, haddr, hpd]
  cases hp : pagePresent (pg.ptEntry (ptIndex v)) with
  | true => simp [mappedFrame]
  | false => simp

/-- The translation of a page depends on its own entry only. -/
lemma getPhysAddr_frame (hd : KernelDir table pg) (hpd : pg'.pdEntry = pg.pdEntry)
    (hpt : ∀ i, i ≠ e → pg'.ptEntry i = pg.ptEntry i) (he : e < 1024)
    (hv : v >>> 12 ≠ pageAddr e >>> 12) : getPhysAddr table pg' v = getPhysAddr table pg v := by
  have hd' : KernelDir table pg' := ⟨by rw [hpd, hd.kernel], fun k hk => by rw [hpd, hd.other k hk]⟩
  by_cases h768 : pdIndex v = 768
  · have hne : ptIndex v ≠ e := by
      intro hve
      apply hv
      apply UInt32.toNat_inj.mp
      rw [toNat_page, toNat_page, toNat_pageAddr (by omega)]
      rw [toNat_pdIndex] at h768
      rw [toNat_ptIndex] at hve
      omega
    rw [getPhysAddr_kernel hd h768, getPhysAddr_kernel hd' h768, hpt _ hne]
  · rw [getPhysAddr_other hd h768, getPhysAddr_other hd' h768]

lemma page_offset {o : UInt32} (he : e < 1024) (ho : o < 0x1000) :
    pdIndex (pageAddr e + o) = 768 ∧ ptIndex (pageAddr e + o) = e ∧ (pageAddr e + o) &&& 0xFFF = o := by
  have ho' : o.toNat < 0x1000 := UInt32.lt_iff_toNat_lt.mp ho
  have hm : (0xFFF : UInt32).toNat = 2 ^ 12 - 1 := rfl
  have hsum : (pageAddr e + o).toNat = e * 0x1000 + 0xC0000000 + o.toNat := by
    rw [UInt32.toNat_add, toNat_pageAddr (by omega)]
    omega
  refine ⟨?_, ?_, ?_⟩
  · rw [toNat_pdIndex, hsum]
    omega
  · rw [toNat_ptIndex, hsum]
    omega
  · apply UInt32.toNat_inj.mp
    rw [UInt32.toNat_and, hm, Nat.and_two_pow_sub_one_eq_mod, hsum]
    omega

/-- `kalloc_page` maps a page that was not present to the frame it takes, and `kfree_page`
unmaps its page; both leave every other translation as it was. -/
def FrameLaw (table : TableAddr) (s : PageState) : PageOp → Prop
  | .alloc => ∀ p pg', kallocPage s.paging = .ok (p, pg') →
      (p.toNat % 0x1000 = 0 ∧ 0xC0000000 ≤ p.toNat ∧ p.toNat < 0xC0400000) ∧
      NotPresent table s.paging p ∧
      (∃ f frames, kallocFrame s.paging.frames = .ok (f, frames) ∧
        ∀ o : UInt32, o < 0x1000 → getPhysAddr table pg' (p + o) = .ok (f + o)) ∧
      ∀ v : UInt32, v >>> 12 ≠ p >>> 12 → getPhysAddr table pg' v = getPhysAddr table s.paging v
  | .free p => p ∈ s.live → ∀ pg', kfreePage table s.paging p = .ok pg' →
      (∀ o : UInt32, o < 0x1000 → NotPresent table pg' (p + o)) ∧
      ∀ v : UInt32, v >>> 12 ≠ p >>> 12 → getPhysAddr table pg' v = getPhysAddr table s.paging v

/-- `next_free_page` is cached well, and every live page is mapped. -/
structure MappingInv (table : TableAddr) (s : PageState) : Prop where
  dir : KernelDir table s.paging
  next : ∃ i ≤ 1024, s.paging.nextFreePage = pageAddr i ∧
    (i < 1024 → pagePresent (s.paging.ptEntry i) = false)
  live : ∀ p ∈ s.live, ∃ i < 1024, p = pageAddr i

lemma notPresent_of_entry (hd : KernelDir table pg) (he : e < 1024)
    (hp : pagePresent (pg.ptEntry e) = false) {o : UInt32} (ho : o < 0x1000) :
    NotPresent table pg (pageAddr e + o) := by
  obtain ⟨hpd, hpt, -⟩ := page_offset he ho
  rw [NotPresent, getPhysAddr_kernel hd hpd, hpt, hp]
  rfl

/-- Everything a `kalloc_page` that returns has done. -/
lemma MappingInv.alloc (hI : MappingInv table s) (h : kallocPage s.paging = .ok (p, pg')) :
    ∃ e k frames, e < 1024 ∧ k < 32 * frameMapWords ∧ p = pageAddr e ∧
      pagePresent (s.paging.ptEntry e) = false ∧
      kallocFrame s.paging.frames = .ok (UInt32.ofNat k * 0x1000, frames) ∧ pg'.frames = frames ∧
      pg'.pdEntry = s.paging.pdEntry ∧
      pg'.ptEntry = Function.update s.paging.ptEntry e (frameEntry k) ∧
      findFreePage pg'.ptEntry = .ok pg'.nextFreePage := by
  obtain ⟨f, frames, next, hf, hlt, hnext, rfl, rfl⟩ := kallocPage_cases h
  obtain ⟨e, he, hpe, hfree⟩ := hI.next
  rw [hpe, index_pageAddr he] at hlt hnext ⊢
  obtain ⟨k, hk, -, rfl, -⟩ := kallocFrame_spec hf
  exact ⟨e, k, frames, hlt, hk, rfl, hfree hlt, hf, rfl, rfl, rfl, hnext⟩

/-- `kalloc_page` maps the cached page and searches for the next one. -/
lemma kallocPage_eq {f : UInt32} {frames : Frames} (hf : kallocFrame pg.frames = .ok (f, frames))
    (hn : pg.nextFreePage = pageAddr e) (he : e < 1024) :
    kallocPage pg = (findFreePage (Function.update pg.ptEntry e (f ||| 3 ||| 4))).map fun next =>
      (pageAddr e, { pg with
        frames
        ptEntry := Function.update pg.ptEntry e (f ||| 3 ||| 4)
        nextFreePage := next }) := by
  rw [kallocPage, hf, hn, index_pageAddr (by omega)]
  change (if e ≥ 1024 then _ else
    findFreePage (Function.update pg.ptEntry e (f ||| 3 ||| 4)) >>= _) = _
  rw [if_neg (by omega)]
  cases findFreePage (Function.update pg.ptEntry e (f ||| 3 ||| 4)) <;> rfl

lemma mappingInv_alloc (hI : MappingInv table s) (h : kallocPage s.paging = .ok (p, pg')) :
    MappingInv table ⟨pg', p :: s.live⟩ := by
  obtain ⟨e, k, frames, he, -, rfl, -, -, -, hpd, -, hnext⟩ := hI.alloc h
  refine ⟨⟨?_, ?_⟩, ?_, ?_⟩
  · dsimp only
    rw [hpd]
    exact hI.dir.kernel
  · intro j hj
    dsimp only
    rw [hpd]
    exact hI.dir.other j hj
  · obtain ⟨i, -, hi, hpi, hfree⟩ := findFreePageFrom_ok hnext
    exact ⟨i, by omega, hpi, fun _ => hfree⟩
  · intro q hq
    rcases List.mem_cons.mp hq with rfl | hq
    · exact ⟨e, he, rfl⟩
    · exact hI.live q hq

lemma frameLaw_alloc (hI : MappingInv table s) : FrameLaw table s .alloc := by
  intro p pg' h
  obtain ⟨e, k, frames, he, hk, rfl, hfree, hf, -, hpd, hpt, -⟩ := hI.alloc h
  have hd' : KernelDir table pg' := (mappingInv_alloc hI h).dir
  have hself : pg'.ptEntry e = frameEntry k := by rw [hpt, Function.update_self]
  refine ⟨?_, ?_, ⟨_, frames, hf, fun o ho => ?_⟩, fun v hv => ?_⟩
  · rw [toNat_pageAddr (by omega)]
    omega
  · rw [← UInt32.add_zero (pageAddr e)]
    exact notPresent_of_entry hI.dir he hfree (by decide)
  · obtain ⟨hpdi, hpti, hoff⟩ := page_offset he ho
    have hpres : pagePresent (frameEntry k) = true := pagePresent_or _
    rw [getPhysAddr_kernel hd' hpdi, hpti, hoff, hself, if_pos hpres, mappedFrame_frameEntry hk]
  · refine getPhysAddr_frame hI.dir hpd (fun i hi => ?_) he hv
    rw [hpt, Function.update_of_ne hi]

lemma mappingInv_free (hI : MappingInv table s) (hp : p ∈ s.live)
    (h : kfreePage table s.paging p = .ok pg') : MappingInv table ⟨pg', s.live.erase p⟩ := by
  obtain ⟨a, frames, -, -, rfl⟩ := kfreePage_cases h
  obtain ⟨e, he, rfl⟩ := hI.live p hp
  refine ⟨⟨hI.dir.kernel, hI.dir.other⟩, ⟨e, by omega, rfl, fun _ => ?_⟩, ?_⟩
  · rw [ptIndex_pageAddr he]
    dsimp only
    rw [Function.update_self]
    rfl
  · intro q hq
    exact hI.live q (List.mem_of_mem_erase hq)

lemma frameLaw_free (hI : MappingInv table s) (p : UInt32) : FrameLaw table s (.free p) := by
  intro hp pg' h
  have hd' : KernelDir table pg' := (mappingInv_free hI hp h).dir
  obtain ⟨a, frames, -, -, rfl⟩ := kfreePage_cases h
  obtain ⟨e, he, rfl⟩ := hI.live p hp
  rw [ptIndex_pageAddr he] at hd' ⊢
  refine ⟨fun o ho => notPresent_of_entry hd' he ?_ ho, fun v hv => ?_⟩
  · dsimp only
    rw [Function.update_self]
    rfl
  · exact getPhysAddr_frame hI.dir rfl (fun i hi => Function.update_of_ne hi _ _) he hv

lemma mappingInv_step (hI : MappingInv table s) (h : s.exec table op = some s') :
    MappingInv table s' := by
  rcases pageExec_cases h with ⟨-, p, pg', hk, rfl⟩ | ⟨p, pg', -, hp, hk, rfl⟩
  · exact mappingInv_alloc hI hk
  · exact mappingInv_free hI hp hk

lemma initPaging_dir {endKernel : UInt32} (h : initPaging table pg endKernel = .ok pg') :
    KernelDir table pg' := by
  obtain ⟨-, -, hpd, -⟩ := initPaging_ok h
  refine ⟨?_, fun k hk => ?_⟩
  · rw [hpd, Function.update_self]
  · rw [hpd, Function.update_of_ne hk]

lemma mappingInv_init {endKernel memSize : UInt32} {frames : Frames}
    (hf : initFrames framesBss endKernel memSize = .ok frames)
    (hp : initPaging table (pagingBss frames) endKernel = .ok pg) : MappingInv table ⟨pg, []⟩ := by
  obtain ⟨i, hi, hnext, -, hfree⟩ := (pageInv_init hf hp).next
  exact ⟨initPaging_dir hp, ⟨i, hi, hnext, hfree⟩, by simp⟩

/-- After `init_frames` and `init_paging`, whatever pages were allocated and freed before:
`kalloc_page` returns an aligned page of the kernel's four megabytes that was not present, maps
it to the frame it took and changes no other translation; `kfree_page` of a live page unmaps it
and changes no other translation. -/
theorem page_frame_law (table : TableAddr) (endKernel memSize : UInt32) {frames : Frames}
    {pg : Paging} (hf : initFrames framesBss endKernel memSize = .ok frames)
    (hp : initPaging table (pagingBss frames) endKernel = .ok pg)
    {tr : List (PageState × PageOp)} {s : PageState} (hr : PageRun table pg tr s) (op : PageOp) :
    FrameLaw table s op := by
  have hI : MappingInv table s :=
    hr.invariant (C := fun _ _ => True) (mappingInv_init hf hp)
      (fun _ _ _ hI _ h => mappingInv_step hI h) (by simp)
  cases op with
  | alloc => exact frameLaw_alloc hI
  | free p => exact frameLaw_free hI p

/-- Two pages are allocated and the first is freed; the next call obeys the law. -/
theorem page_frame_law_after_free :
    ∃ frames pg tr s, initFrames framesBss 0xC0004000 256 = .ok frames ∧
      initPaging ⟨0xC0002000, by decide⟩ (pagingBss frames) 0xC0004000 = .ok pg ∧
      PageRun ⟨0xC0002000, by decide⟩ pg tr s ∧ tr.length = 3 ∧ s.live = [0xC0006000] ∧
      ∀ op, FrameLaw ⟨0xC0002000, by decide⟩ s op := by
  have hrun : ((bootPages ⟨0xC0002000, by decide⟩ 0xC0004000 256
      [.alloc, .alloc, .free 0xC0005000]).map fun r =>
        decide (r.2.1.length = 3 ∧ r.2.2.live = [0xC0006000])) = some true := by
    decide +kernel
  obtain ⟨⟨pg, tr, s⟩, hr, hall⟩ := Option.map_eq_some_iff.mp hrun
  obtain ⟨frames, hf, hp, hr⟩ := bootPages_eq_some hr
  obtain ⟨hlen, hlive⟩ := of_decide_eq_true hall
  exact ⟨frames, pg, tr, s, hf, hp, hr, hlen, hlive,
    fun op => page_frame_law ⟨0xC0002000, by decide⟩ 0xC0004000 256 hf hp hr op⟩

/-- `n` calls of `kalloc_page` with no free in between, with the pages in the order they were
returned. -/
def kallocPages : Nat → Paging → Except Fault (List UInt32 × Paging)
  | 0, s => .ok ([], s)
  | n + 1, s => do
    let (p, s) ← kallocPage s
    let (ps, s) ← kallocPages n s
    .ok (p :: ps, s)

/-- The bitmap and the table both have their first `m` places taken. -/
structure Lockstepped (table : TableAddr) (m : Nat) (pg : Paging) : Prop where
  dir : KernelDir table pg
  bits : ∀ j, frameBit pg.frames j = decide (j < m)
  entries : IdentityTable m pg.ptEntry
  next : pg.nextFreePage = pageAddr m

lemma findFreePageFrom_first {t : Nat → UInt32} {m fuel i : Nat} (ht : IdentityTable m t)
    (hi : i ≤ m) (hm : m < i + fuel) : findFreePageFrom t fuel i = .ok (pageAddr m) := by
  induction fuel generalizing i with
  | zero => omega
  | succ fuel ih =>
    rw [findFreePageFrom]
    by_cases him : i = m
    · have hfree : pagePresent (t i) = false := by
        rw [← Bool.not_eq_true, ht.present_iff]
        omega
      rw [hfree, him]
      rfl
    · rw [(ht.present_iff i).mpr (by omega)]
      exact ih (by omega) (by omega)

lemma IdentityTable.extend {t : Nat → UInt32} (ht : IdentityTable n t) :
    IdentityTable (n + 1) (Function.update t n (frameEntry n)) := by
  intro i
  by_cases hi : i = n
  · rw [hi, Function.update_self, if_pos (Nat.lt_succ_self n)]
  · rw [Function.update_of_ne hi, ht i]
    exact if_congr (by omega) rfl rfl

/-- One boot allocation takes the next frame and the next page. -/
lemma Lockstepped.alloc (hL : Lockstepped table n pg) (hn : n < 1023)
    (hfit : n ≤ (pg.frames.nframes - 1).toNat) :
    ∃ pg', kallocPage pg = .ok (pageAddr n, pg') ∧ Lockstepped table (n + 1) pg' ∧
      pg'.frames.nframes = pg.frames.nframes := by
  have hframe := kallocFrame_first hL.bits (by unfold frameMapWords; omega) hfit
  have hnext : findFreePage (Function.update pg.ptEntry n (frameEntry n)) =
      .ok (pageAddr (n + 1)) :=
    findFreePageFrom_first hL.entries.extend (Nat.zero_le _) (by omega)
  refine ⟨{ pg with
    frames := markFrame pg.frames (UInt32.ofNat n)
    ptEntry := Function.update pg.ptEntry n (frameEntry n)
    nextFreePage := pageAddr (n + 1) }, ?_, ⟨⟨hL.dir.kernel, hL.dir.other⟩, fun j => ?_,
      hL.entries.extend, rfl⟩, rfl⟩
  · change findFreePage (Function.update pg.ptEntry n (UInt32.ofNat n * 0x1000 ||| 3 ||| 4)) =
      _ at hnext
    rw [kallocPage_eq hframe hL.next (by omega), hnext]
    rfl
  · dsimp only
    rw [frameBit_markFrame, hL.bits, toNat_ofNat_frame (by unfold frameMapWords; omega),
      Bool.eq_iff_iff]
    simp only [Bool.or_eq_true, decide_eq_true_eq]
    omega

lemma Lockstepped.allocs (hL : Lockstepped table n pg) (k : Nat) (hn : n + k < 1024)
    (hfit : n + k ≤ pg.frames.nframes.toNat) :
    ∃ pg', kallocPages k pg = .ok ((List.range k).map fun j => pageAddr (n + j), pg') ∧
      Lockstepped table (n + k) pg' ∧ pg'.frames.nframes = pg.frames.nframes := by
  induction k generalizing n pg with
  | zero => exact ⟨pg, rfl, hL, rfl⟩
  | succ k ih =>
    have hle : n ≤ (pg.frames.nframes - 1).toNat := by
      rw [UInt32.toNat_sub_of_le]
      · change n ≤ pg.frames.nframes.toNat - 1
        omega
      · rw [UInt32.le_iff_toNat_le]
        change 1 ≤ pg.frames.nframes.toNat
        omega
    obtain ⟨pg₁, h₁, hL₁, hnf⟩ := hL.alloc (by omega) hle
    obtain ⟨pg₂, h₂, hL₂, hnf₂⟩ := ih hL₁ (by omega) (by rw [hnf]; omega)
    have hpages : (List.range (k + 1)).map (fun j => pageAddr (n + j)) =
        pageAddr n :: (List.range k).map fun j => pageAddr (n + 1 + j) := by
      rw [List.range_succ_eq_map, List.map_cons, List.map_map, Nat.add_zero]
      refine congrArg (List.cons (pageAddr n)) (List.map_congr_left fun j _ => ?_)
      rw [Function.comp_apply, Nat.succ_eq_add_one, Nat.add_right_comm, Nat.add_assoc]
    refine ⟨pg₂, ?_, by rwa [show n + (k + 1) = n + 1 + k by omega], hnf₂.trans hnf⟩
    rw [kallocPages, h₁, hpages]
    change kallocPages k pg₁ >>= _ = _
    rw [h₂]
    rfl

lemma Lockstepped.translates (hL : Lockstepped table n pg) {i : Nat} (hi : i < n) (hn : n ≤ 1024) :
    getPhysAddr table pg (pageAddr i) = .ok (UInt32.ofNat i * 0x1000) := by
  have hp := (hL.entries.present_iff i).mpr hi
  rw [getPhysAddr_present hL.dir.kernel (by omega) hp, hL.entries i, if_pos hi,
    mappedFrame_frameEntry (by unfold frameMapWords; omega)]

lemma lockstepped_init {endKernel memSize : UInt32} {frames : Frames}
    (hf : initFrames framesBss endKernel memSize = .ok frames)
    (hp : initPaging table (pagingBss frames) endKernel = .ok pg) :
    Lockstepped table (firstFreeFrame endKernel).toNat pg := by
  obtain ⟨-, hfr, -, hpt, hnext⟩ := initPaging_ok hp
  refine ⟨initPaging_dir hp, fun j => ?_, fun i => ?_, hnext⟩
  · rw [hfr]
    exact initFrames_bits hf j
  · rw [hpt, identityMap_apply]
    rfl

/-- At boot the `k + 1` pages allocated first are the ones behind the kernel image, in order and
without a gap, each at its own offset from 0xC0000000. -/
theorem boot_pages_contiguous (table : TableAddr) (endKernel memSize : UInt32) (n k : Nat)
    (hn : n = ((endKernel &&& 0x00FFF000) >>> 12).toNat + 1) (hpage : n + k < 1023)
    (hframe : n + k < (memSize / 4).toNat) (hmap : (memSize / 4).toNat ≤ 0x2000 * 32) :
    ∃ frames pg pages pg', initFrames framesBss endKernel memSize = .ok frames ∧
      initPaging table (pagingBss frames) endKernel = .ok pg ∧
      kallocPages (k + 1) pg = .ok (pages, pg') ∧
      pages = (List.range (k + 1)).map (fun j => 0xC0000000 + UInt32.ofNat (n + j) * 0x1000) ∧
      ∀ j ≤ k, getPhysAddr table pg' (0xC0000000 + UInt32.ofNat (n + j) * 0x1000) =
        .ok (UInt32.ofNat (n + j) * 0x1000) := by
  have haddr : ∀ i, 0xC0000000 + UInt32.ofNat i * 0x1000 = pageAddr i := by
    intro i
    rw [pageAddr, UInt32.add_comm]
    rfl
  simp only [haddr]
  rw [← toNat_firstFreeFrame] at hn
  obtain ⟨frames, hf, hnf, -⟩ := initFrames_spec endKernel memSize (by omega)
    (by unfold frameMapWords; omega)
  obtain ⟨pg, hp⟩ : ∃ pg, initPaging table (pagingBss frames) endKernel = .ok pg := by
    refine ⟨_, if_neg ?_⟩
    change ¬(firstFreeFrame endKernel).toNat > 1024
    omega
  obtain ⟨-, hfr, -, -, -⟩ := initPaging_ok hp
  have hL : Lockstepped table n pg := hn ▸ lockstepped_init hf hp
  have hfit : n + (k + 1) ≤ pg.frames.nframes.toNat := by
    rw [hfr]
    change n + (k + 1) ≤ frames.nframes.toNat
    rw [hnf]
    omega
  obtain ⟨pg', halloc, hL', -⟩ := hL.allocs (k + 1) (by omega) hfit
  refine ⟨frames, pg, _, pg', hf, hp, halloc, rfl, fun j hj => ?_⟩
  exact hL'.translates (by omega) (by omega)

/-- The fifteen heap pages of `kernel_main`, for an image that ends in its fifth frame. -/
theorem boot_heap_contiguous :
    ∃ frames pg pages pg', initFrames framesBss 0xC0004000 256 = .ok frames ∧
      initPaging ⟨0xC0002000, by decide⟩ (pagingBss frames) 0xC0004000 = .ok pg ∧
      kallocPages 15 pg = .ok (pages, pg') ∧
      pages = (List.range 15).map (fun j => 0xC0000000 + UInt32.ofNat (5 + j) * 0x1000) ∧
      ∀ j ≤ 14, getPhysAddr ⟨0xC0002000, by decide⟩ pg'
          (0xC0000000 + UInt32.ofNat (5 + j) * 0x1000) = .ok (UInt32.ofNat (5 + j) * 0x1000) :=
  boot_pages_contiguous ⟨0xC0002000, by decide⟩ 0xC0004000 256 5 14 (by decide) (by decide)
    (by decide) (by decide)

end SaxonOS.Proofs
