import SaxonOS.Paging
import SaxonOS.Proofs.Frames

/-!
# No frame is mapped twice

The present entries of the kernel page table and the bits of the frame bitmap describe
the same set of frames. `kalloc_page` keeps this, and so does a `kfree_page` whose frame
shares its bitmap word with no other mapped frame.
-/

namespace SaxonOS.Proofs
open Lib

/-! ### Entries and addresses -/

/-- The page table entry that maps frame `k`. -/
def frameEntry (k : Nat) : UInt32 := UInt32.ofNat k * 0x1000 ||| 3 ||| 4

/-- The physical address of the frame an entry maps. -/
def mappedFrame (entry : UInt32) : UInt32 := entry &&& ~~~0xFFF

/-- The virtual address of the page behind entry `i`. -/
def pageAddr (i : Nat) : UInt32 := UInt32.ofNat i * 0x1000 + kernelVirtualBase

lemma clear_low {x : UInt32} (h : x.toNat % 0x1000 = 0) : (x ||| 3 ||| 4) &&& 0xFFFFF000 = x := by
  have hlt := x.toNat_lt
  obtain ⟨y, hy⟩ : ∃ y, x.toNat = y <<< 12 := ⟨x.toNat / 0x1000, by
    rw [Nat.shiftLeft_eq]
    omega⟩
  have hy20 : y < 2 ^ 20 := by
    rw [Nat.shiftLeft_eq] at hy
    omega
  have hmask : y <<< 12 &&& 0xFFFFF000 = y <<< 12 := by
    rw [show 0xFFFFF000 = (2 ^ 20 - 1) <<< 12 from rfl, ← Nat.shiftLeft_and_distrib,
      Nat.and_two_pow_sub_one_eq_mod, Nat.mod_eq_of_lt hy20]
  apply UInt32.toNat_inj.mp
  rw [UInt32.toNat_and, UInt32.toNat_or, UInt32.toNat_or, hy, Nat.and_or_distrib_right,
    Nat.and_or_distrib_right]
  have h3 : (3 : UInt32).toNat &&& (0xFFFFF000 : UInt32).toNat = 0 := by decide
  have h4 : (4 : UInt32).toNat &&& (0xFFFFF000 : UInt32).toNat = 0 := by decide
  rw [h3, h4, Nat.or_zero, Nat.or_zero]
  exact hmask

lemma mappedFrame_frameEntry {k : Nat} (hk : k < 32 * frameMapWords) :
    mappedFrame (frameEntry k) = UInt32.ofNat k * 0x1000 := by
  have hmask : ~~~(0xFFF : UInt32) = 0xFFFFF000 := by decide
  rw [mappedFrame, hmask]
  apply clear_low
  rw [toNat_frame hk]
  omega

lemma frameNumber_frameEntry {k : Nat} (hk : k < 32 * frameMapWords) :
    frameNumber (mappedFrame (frameEntry k)) = k := by
  rw [mappedFrame_frameEntry hk, frameNumber_frame hk]

lemma pagePresent_or (x : UInt32) : pagePresent (x ||| 3 ||| 4) = true := by
  have h1 : (x ||| 3 ||| 4) &&& 1 = 1 := by
    apply UInt32.toNat_inj.mp
    apply Nat.eq_of_testBit_eq
    intro j
    rw [UInt32.toNat_and, UInt32.toNat_or, UInt32.toNat_or, Nat.testBit_and, Nat.testBit_or,
      Nat.testBit_or]
    cases j with
    | zero => simp
    | succ j => simp [Nat.testBit_succ]
  rw [pagePresent, h1]
  rfl

lemma toNat_pageAddr {i : Nat} (hi : i ≤ 1024) : (pageAddr i).toNat = i * 0x1000 + 0xC0000000 := by
  have hb : kernelVirtualBase.toNat = 0xC0000000 := rfl
  rw [pageAddr, UInt32.toNat_add, toNat_frame (by unfold frameMapWords; omega), hb]
  omega

lemma pageAddr_inj {i j : Nat} (hi : i ≤ 1024) (hj : j ≤ 1024) (h : pageAddr i = pageAddr j) :
    i = j := by
  have := congrArg UInt32.toNat h
  rw [toNat_pageAddr hi, toNat_pageAddr hj] at this
  omega

lemma toNat_pdIndex (v : UInt32) : pdIndex v = v.toNat / 0x400000 := by
  have h22 : (22 : UInt32).toNat % 32 = 22 := rfl
  rw [pdIndex, UInt32.toNat_shiftRight, h22, Nat.shiftRight_eq_div_pow]

lemma toNat_ptIndex (v : UInt32) : ptIndex v = v.toNat / 0x1000 % 1024 := by
  have h12 : (12 : UInt32).toNat % 32 = 12 := rfl
  have hm : (0x03FF : UInt32).toNat = 2 ^ 10 - 1 := rfl
  rw [ptIndex, UInt32.toNat_and, UInt32.toNat_shiftRight, h12, hm, Nat.and_two_pow_sub_one_eq_mod,
    Nat.shiftRight_eq_div_pow]

lemma pdIndex_pageAddr {i : Nat} (hi : i < 1024) : pdIndex (pageAddr i) = 768 := by
  rw [toNat_pdIndex, toNat_pageAddr (by omega)]
  omega

lemma ptIndex_pageAddr {i : Nat} (hi : i < 1024) : ptIndex (pageAddr i) = i := by
  rw [toNat_ptIndex, toNat_pageAddr (by omega)]
  omega

lemma index_pageAddr {i : Nat} (hi : i ≤ 1024) :
    ((pageAddr i - kernelVirtualBase) / 0x1000).toNat = i := by
  have h1000 : (0x1000 : UInt32).toNat = 0x1000 := rfl
  rw [pageAddr, UInt32.add_sub_cancel, UInt32.toNat_div, h1000,
    toNat_frame (by unfold frameMapWords; omega)]
  omega

lemma pageAddr_offset {i : Nat} (hi : i < 1024) : pageAddr i &&& 0xFFF = 0 := by
  have hm : (0xFFF : UInt32).toNat = 2 ^ 12 - 1 := rfl
  apply UInt32.toNat_inj.mp
  rw [UInt32.toNat_and, hm, Nat.and_two_pow_sub_one_eq_mod, toNat_pageAddr (by omega)]
  show _ = 0
  omega

/-! ### Runs -/

/-- The paging state together with the pages handed out by `kalloc_page` and not freed since. -/
structure PageState where
  paging : Paging
  live : List UInt32

inductive PageOp
  | alloc
  | free (page : UInt32)

/-- One call that returns. Only a live page is freed. -/
def PageState.exec (table : TableAddr) (s : PageState) : PageOp → Option PageState
  | .alloc =>
    match kallocPage s.paging with
    | .ok (p, pg) => some ⟨pg, p :: s.live⟩
    | .error _ => none
  | .free p =>
    if p ∈ s.live then
      match kfreePage table s.paging p with
      | .ok pg => some ⟨pg, s.live.erase p⟩
      | .error _ => none
    else none

abbrev PageRun (table : TableAddr) (s₀ : Paging) : List (PageState × PageOp) → PageState → Prop :=
  Run (fun s op s' => PageState.exec table s op = some s') ⟨s₀, []⟩

/-- No two present entries map one frame; the kernel image is mapped to its own frames, and a
live page to a frame of no other live page and not of the image. -/
structure NoAlias (table : TableAddr) (n : Nat) (s : PageState) : Prop where
  distinct : ∀ i < 1024, ∀ j < 1024, i ≠ j → pagePresent (s.paging.ptEntry i) →
    pagePresent (s.paging.ptEntry j) →
    mappedFrame (s.paging.ptEntry i) ≠ mappedFrame (s.paging.ptEntry j)
  image : ∀ i < n, getPhysAddr table s.paging (pageAddr i) = .ok (UInt32.ofNat i * 0x1000)
  live : ∀ p ∈ s.live, ∃ a, getPhysAddr table s.paging p = .ok a ∧
    (∀ i < n, a ≠ UInt32.ofNat i * 0x1000) ∧
    ∀ q ∈ s.live, q ≠ p → getPhysAddr table s.paging q ≠ .ok a
  nodup : s.live.Nodup

/-- No other present entry maps a frame in the 32-frame word of the frame of a page that is
freed. -/
def AloneMapped (s : PageState) : PageOp → Prop
  | .alloc => True
  | .free p => ∀ i < 1024, pagePresent (s.paging.ptEntry i) → i ≠ ptIndex p →
      frameNumber (mappedFrame (s.paging.ptEntry i)) / 32 ≠
        frameNumber (mappedFrame (s.paging.ptEntry (ptIndex p))) / 32

/-- The frames mapped by present entries are those whose bit is set, each by one entry. -/
structure MapsOnce (t : Nat → UInt32) (frames : Frames) : Prop where
  entry : ∀ i < 1024, pagePresent (t i) = true → ∃ k < 32 * frameMapWords, t i = frameEntry k
  bits : ∀ k, frameBit frames k = true ↔
    ∃ i < 1024, pagePresent (t i) = true ∧ frameNumber (mappedFrame (t i)) = k
  inj : ∀ i < 1024, ∀ j < 1024, pagePresent (t i) = true → pagePresent (t j) = true →
    mappedFrame (t i) = mappedFrame (t j) → i = j

structure PageInv (table : TableAddr) (n : Nat) (s : PageState) : Prop where
  dir : s.paging.pdEntry 768 = (table.addr - kernelVirtualBase) ||| 3 ||| 4
  maps : MapsOnce s.paging.ptEntry s.paging.frames
  next : ∃ i ≤ 1024, s.paging.nextFreePage = pageAddr i ∧ n ≤ i ∧
    (i < 1024 → pagePresent (s.paging.ptEntry i) = false)
  image : ∀ i < n, i < 1024 ∧ s.paging.ptEntry i = frameEntry i
  live : ∀ p ∈ s.live, ∃ i, n ≤ i ∧ i < 1024 ∧ p = pageAddr i ∧
    pagePresent (s.paging.ptEntry i) = true
  nodup : s.live.Nodup

variable {table : TableAddr} {n : Nat} {s s' : PageState} {pg pg' : Paging} {p : UInt32} {op : PageOp}

lemma pageTableAddr_eq (hdir : pg.pdEntry 768 = (table.addr - kernelVirtualBase) ||| 3 ||| 4)
    {i : Nat} (hi : i < 1024) : pageTableAddr pg (pageAddr i) = table.addr := by
  have hb : kernelVirtualBase.toNat = 0xC0000000 := rfl
  have hlow : table.addr.toNat % 0x1000 = 0 := by
    have hm : (0xFFF : UInt32).toNat = 2 ^ 12 - 1 := rfl
    have := congrArg UInt32.toNat table.aligned
    rw [UInt32.toNat_and, hm, Nat.and_two_pow_sub_one_eq_mod] at this
    exact this
  have hsub : (table.addr - kernelVirtualBase).toNat % 0x1000 = 0 := by
    rw [UInt32.toNat_sub, hb]
    omega
  rw [pageTableAddr, pdIndex_pageAddr hi, hdir, clear_low hsub, UInt32.sub_add_cancel]

/-- A page behind a present entry is translated to the frame the entry maps. -/
lemma getPhysAddr_present (hdir : pg.pdEntry 768 = (table.addr - kernelVirtualBase) ||| 3 ||| 4)
    {i : Nat} (hi : i < 1024) (hp : pagePresent (pg.ptEntry i) = true) :
    getPhysAddr table pg (pageAddr i) = .ok (mappedFrame (pg.ptEntry i)) := by
  have hd : pagePresent (pg.pdEntry 768) = true := by
    rw [hdir]
    exact pagePresent_or _
  rw [getPhysAddr, pdIndex_pageAddr hi, ptIndex_pageAddr hi, pageTableAddr_eq hdir hi, hd, hp,
    pageAddr_offset hi, UInt32.add_zero]
  simp [mappedFrame]

lemma findFreePageFrom_ok {t : Nat → UInt32} {fuel i : Nat}
    (h : findFreePageFrom t fuel i = .ok p) :
    ∃ k, i ≤ k ∧ k < i + fuel ∧ p = pageAddr k ∧ pagePresent (t k) = false := by
  induction fuel generalizing i with
  | zero => cases h
  | succ fuel ih =>
    rw [findFreePageFrom] at h
    split at h
    · next hp =>
      obtain rfl := Except.ok.inj h
      exact ⟨i, Nat.le_refl i, by omega, rfl, by simpa using hp⟩
    · obtain ⟨k, hik, hk, hpk, hfree⟩ := ih h
      exact ⟨k, by omega, by omega, hpk, hfree⟩

lemma kallocPage_cases (h : kallocPage pg = .ok (p, pg')) :
    ∃ f frames next, kallocFrame pg.frames = .ok (f, frames) ∧
      ((pg.nextFreePage - kernelVirtualBase) / 0x1000).toNat < 1024 ∧
      findFreePage (Function.update pg.ptEntry
        ((pg.nextFreePage - kernelVirtualBase) / 0x1000).toNat (f ||| 3 ||| 4)) = .ok next ∧
      p = pg.nextFreePage ∧
      pg' = { pg with
        frames
        ptEntry := Function.update pg.ptEntry
          ((pg.nextFreePage - kernelVirtualBase) / 0x1000).toNat (f ||| 3 ||| 4)
        nextFreePage := next } := by
  obtain ⟨⟨f, frames⟩, hf, h⟩ := bind_eq_ok h
  simp only at h
  split at h
  · cases h
  · next hlt =>
    obtain ⟨next, hnext, h⟩ := bind_eq_ok h
    obtain ⟨rfl, rfl⟩ := Prod.mk.inj (Except.ok.inj h)
    exact ⟨f, frames, next, hf, by omega, hnext, rfl, rfl⟩

lemma kfreePage_cases (h : kfreePage table pg p = .ok pg') :
    ∃ a frames, getPhysAddr table pg p = .ok a ∧ kfreeFrame pg.frames a = .ok frames ∧
      pg' = { pg with
        frames
        ptEntry := Function.update pg.ptEntry (ptIndex p) 0
        nextFreePage := p } := by
  obtain ⟨a, ha, h⟩ := bind_eq_ok h
  obtain ⟨frames, hf, h⟩ := bind_eq_ok h
  split at h
  · cases h
  · exact ⟨a, frames, ha, hf, (Except.ok.inj h).symm⟩

lemma ne_of_present {t : Nat → UInt32} {e i : Nat} (he : pagePresent (t e) = false)
    (hi : pagePresent (t i) = true) : i ≠ e := by
  rintro rfl
  rw [he] at hi
  cases hi

/-- Mapping a frame whose bit was clear through an entry that was not present. -/
lemma MapsOnce.map {t : Nat → UInt32} {fr fr' : Frames} {e k : Nat} (hM : MapsOnce t fr)
    (he : e < 1024) (hfree : pagePresent (t e) = false) (hk : k < 32 * frameMapWords)
    (hclear : frameBit fr k = false)
    (hbits : ∀ j, frameBit fr' j = (frameBit fr j || decide (j = k))) :
    MapsOnce (Function.update t e (frameEntry k)) fr' := by
  have hself : Function.update t e (frameEntry k) e = frameEntry k := Function.update_self ..
  have hother : ∀ i, i ≠ e → Function.update t e (frameEntry k) i = t i :=
    fun i hi => Function.update_of_ne hi _ _
  have hnew : ∀ i < 1024, pagePresent (t i) = true →
      mappedFrame (t i) ≠ mappedFrame (frameEntry k) := by
    intro i hi hp heq
    have hset := (hM.bits k).mpr ⟨i, hi, hp, by rw [heq, frameNumber_frameEntry hk]⟩
    rw [hclear] at hset
    cases hset
  refine ⟨?_, ?_, ?_⟩
  · intro i hi hp
    by_cases hie : i = e
    · exact ⟨k, hk, by rw [hie, hself]⟩
    · rw [hother i hie] at hp ⊢
      exact hM.entry i hi hp
  · intro j
    rw [hbits, Bool.or_eq_true, decide_eq_true_eq, hM.bits]
    constructor
    · rintro (⟨i, hi, hp, hj⟩ | rfl)
      · refine ⟨i, hi, ?_⟩
        rw [hother i (ne_of_present hfree hp)]
        exact ⟨hp, hj⟩
      · refine ⟨e, he, ?_⟩
        rw [hself]
        exact ⟨pagePresent_or _, frameNumber_frameEntry hk⟩
    · rintro ⟨i, hi, hp, hj⟩
      by_cases hie : i = e
      · rw [hie, hself, frameNumber_frameEntry hk] at hj
        exact Or.inr hj.symm
      · rw [hother i hie] at hp hj
        exact Or.inl ⟨i, hi, hp, hj⟩
  · intro i hi j hj hpi hpj heq
    by_cases hie : i = e
    · by_cases hje : j = e
      · rw [hie, hje]
      · rw [hie, hself, hother j hje] at heq
        rw [hother j hje] at hpj
        exact absurd heq.symm (hnew j hj hpj)
    · rw [hother i hie] at hpi heq
      by_cases hje : j = e
      · rw [hje, hself] at heq
        exact absurd heq (hnew i hi hpi)
      · rw [hother j hje] at hpj heq
        exact hM.inj i hi j hj hpi hpj heq

/-- Unmapping an entry whose frame is alone in its word. -/
lemma MapsOnce.unmap {t : Nat → UInt32} {fr fr' : Frames} {e : Nat} (hM : MapsOnce t fr)
    (halone : ∀ i < 1024, pagePresent (t i) = true → i ≠ e →
      frameNumber (mappedFrame (t i)) / 32 ≠ frameNumber (mappedFrame (t e)) / 32)
    (hbits : ∀ j, frameBit fr' j =
      (frameBit fr j && decide (j / 32 ≠ frameNumber (mappedFrame (t e)) / 32))) :
    MapsOnce (Function.update t e 0) fr' := by
  have hother : ∀ i, i ≠ e → Function.update t e 0 i = t i :=
    fun i hi => Function.update_of_ne hi _ _
  have hpresent : ∀ i, pagePresent (Function.update t e 0 i) = true → i ≠ e := by
    intro i
    apply ne_of_present
    rw [Function.update_self]
    rfl
  refine ⟨?_, ?_, ?_⟩
  · intro i hi hpi
    have hie := hpresent i hpi
    rw [hother i hie] at hpi ⊢
    exact hM.entry i hi hpi
  · intro j
    rw [hbits, Bool.and_eq_true, decide_eq_true_eq, hM.bits]
    constructor
    · rintro ⟨⟨i, hi, hpi, rfl⟩, hw⟩
      have hie : i ≠ e := fun h => hw (by rw [h])
      refine ⟨i, hi, ?_⟩
      rw [hother i hie]
      exact ⟨hpi, rfl⟩
    · rintro ⟨i, hi, hpi, hj⟩
      have hie := hpresent i hpi
      rw [hother i hie] at hpi hj
      rw [← hj]
      exact ⟨⟨i, hi, hpi, rfl⟩, halone i hi hpi hie⟩
  · intro i hi j hj hpi hpj heq
    have hie := hpresent i hpi
    have hje := hpresent j hpj
    rw [hother i hie] at hpi heq
    rw [hother j hje] at hpj heq
    exact hM.inj i hi j hj hpi hpj heq

lemma pageInv_alloc (hI : PageInv table n s) (h : kallocPage s.paging = .ok (p, pg')) :
    PageInv table n ⟨pg', p :: s.live⟩ := by
  obtain ⟨f, frames, next, hf, hlt, hnext, rfl, rfl⟩ := kallocPage_cases h
  obtain ⟨e, he, hpe, hne, hfree⟩ := hI.next
  rw [hpe, index_pageAddr he] at hlt hnext ⊢
  obtain ⟨k, hk, -, rfl, -, hclear, hbits⟩ := kallocFrame_spec hf
  change findFreePage (Function.update s.paging.ptEntry e (frameEntry k)) = _ at hnext
  have hfree := hfree hlt
  have hother : ∀ i, i ≠ e →
      Function.update s.paging.ptEntry e (frameEntry k) i = s.paging.ptEntry i :=
    fun i hi => Function.update_of_ne hi _ _
  have himage : ∀ i < n, i < 1024 ∧
      Function.update s.paging.ptEntry e (frameEntry k) i = frameEntry i := by
    intro i hi
    have hie : i ≠ e := by omega
    exact ⟨(hI.image i hi).1, by rw [hother i hie, (hI.image i hi).2]⟩
  have hnotlive : pageAddr e ∉ s.live := by
    intro hmem
    obtain ⟨i, -, hi, hpi, hp⟩ := hI.live _ hmem
    exact ne_of_present hfree hp (pageAddr_inj he (by omega) hpi).symm
  refine ⟨hI.dir, hI.maps.map hlt hfree hk (hclear k (Nat.le_refl k) rfl) hbits, ?_, himage, ?_,
    List.nodup_cons.mpr ⟨hnotlive, hI.nodup⟩⟩
  · obtain ⟨i, -, hi, hpi, hfi⟩ := findFreePageFrom_ok hnext
    refine ⟨i, by omega, hpi, ?_, fun _ => hfi⟩
    by_contra hin
    rw [(himage i (by omega)).2, frameEntry, pagePresent_or] at hfi
    cases hfi
  · intro q hq
    rcases List.mem_cons.mp hq with rfl | hq
    · have hself : Function.update s.paging.ptEntry e (frameEntry k) e = frameEntry k :=
        Function.update_self ..
      have hp : pagePresent (frameEntry k) = true := pagePresent_or _
      exact ⟨e, hne, hlt, rfl, by rw [← hself] at hp; exact hp⟩
    · obtain ⟨i, hni, hi, hqi, hp⟩ := hI.live q hq
      have hi' := hother i (ne_of_present hfree hp)
      exact ⟨i, hni, hi, hqi, by rw [← hi'] at hp; exact hp⟩

lemma pageInv_free (hI : PageInv table n s) (hp : p ∈ s.live) (halone : AloneMapped s (.free p))
    (h : kfreePage table s.paging p = .ok pg') : PageInv table n ⟨pg', s.live.erase p⟩ := by
  obtain ⟨a, frames, ha, hf, rfl⟩ := kfreePage_cases h
  obtain ⟨e, hne, he, rfl, hpe⟩ := hI.live p hp
  rw [getPhysAddr_present hI.dir he hpe] at ha
  obtain rfl := Except.ok.inj ha
  rw [ptIndex_pageAddr he]
  have hother : ∀ i, i ≠ e → Function.update s.paging.ptEntry e 0 i = s.paging.ptEntry i :=
    fun i hi => Function.update_of_ne hi _ _
  have hself : pagePresent (Function.update s.paging.ptEntry e 0 e) = false := by
    rw [Function.update_self]
    rfl
  have halone' : ∀ i < 1024, pagePresent (s.paging.ptEntry i) = true → i ≠ e →
      frameNumber (mappedFrame (s.paging.ptEntry i)) / 32 ≠
        frameNumber (mappedFrame (s.paging.ptEntry e)) / 32 := by
    intro i hi hpi hie
    have := halone i hi hpi
    rw [ptIndex_pageAddr he] at this
    exact this hie
  refine ⟨hI.dir, hI.maps.unmap halone' (kfreeFrame_spec hf).2,
    ⟨e, by omega, rfl, hne, fun _ => hself⟩, ?_, ?_, hI.nodup.erase _⟩
  · intro i hi
    have hie : i ≠ e := by omega
    exact ⟨(hI.image i hi).1, (hother i hie).trans (hI.image i hi).2⟩
  · intro q hq
    rw [hI.nodup.mem_erase_iff] at hq
    obtain ⟨i, hni, hi, rfl, hpi⟩ := hI.live q hq.2
    have hie : i ≠ e := fun hie => hq.1 (by rw [hie])
    exact ⟨i, hni, hi, rfl, by rw [← hother i hie] at hpi; exact hpi⟩

lemma identityMap_apply (t : Nat → UInt32) (n i : Nat) :
    identityMap n t i = if i < n then frameEntry i else t i := by
  induction n with
  | zero => rfl
  | succ n ih =>
    rw [identityMap]
    by_cases hi : i = n
    · rw [hi, Function.update_self, if_pos (Nat.lt_succ_self n), frameEntry]
    · rw [Function.update_of_ne hi, ih]
      by_cases hlt : i < n
      · rw [if_pos hlt, if_pos (by omega)]
      · rw [if_neg hlt, if_neg (by omega)]

lemma firstFreePage_eq (endKernel : UInt32) :
    (endKernel &&& 0x00FFF000) + 0x1000 =
      UInt32.ofNat (firstFreeFrame endKernel).toNat * 0x1000 := by
  have h1000 : (0x1000 : UInt32).toNat = 0x1000 := rfl
  have hm : (0x00FFF000 : UInt32).toNat = 0x00FFF000 := rfl
  have hle : endKernel.toNat &&& 0x00FFF000 ≤ 0x00FFF000 := Nat.and_le_right
  have hlow : (endKernel.toNat &&& 0x00FFF000) % 2 ^ 12 = 0 := by
    rw [Nat.and_mod_two_pow, show 0x00FFF000 % 2 ^ 12 = 0 from rfl, Nat.and_zero]
  apply UInt32.toNat_inj.mp
  rw [UInt32.ofNat_toNat, firstFreeFrame, UInt32.toNat_mul, UInt32.toNat_div, UInt32.toNat_add,
    UInt32.toNat_and, hm, h1000]
  omega

lemma initPaging_ok {endKernel : UInt32} (h : initPaging table pg endKernel = .ok pg') :
    (firstFreeFrame endKernel).toNat ≤ 1024 ∧ pg'.frames = pg.frames ∧
      pg'.pdEntry = Function.update (fun _ => 2) 768 ((table.addr - kernelVirtualBase) ||| 3 ||| 4) ∧
      pg'.ptEntry = identityMap (firstFreeFrame endKernel).toNat pg.ptEntry ∧
      pg'.nextFreePage = pageAddr (firstFreeFrame endKernel).toNat := by
  have h768 : kernelPageNumber.toNat = 768 := by decide
  rw [initPaging] at h
  change (if (firstFreeFrame endKernel).toNat > 1024 then _ else _) = _ at h
  split at h
  · cases h
  · next hle =>
    obtain rfl := Except.ok.inj h
    refine ⟨by omega, rfl, by rw [← h768], rfl, ?_⟩
    rw [pageAddr, ← firstFreePage_eq]

/-- The first `n` entries map the first `n` frames, the others nothing. -/
def IdentityTable (n : Nat) (t : Nat → UInt32) : Prop := ∀ i, t i = if i < n then frameEntry i else 0

lemma IdentityTable.present_iff {t : Nat → UInt32} (ht : IdentityTable n t) (i : Nat) :
    pagePresent (t i) = true ↔ i < n := by
  rw [ht i]
  by_cases hi : i < n
  · rw [if_pos hi, frameEntry]
    simp [pagePresent_or, hi]
  · rw [if_neg hi]
    simp [pagePresent, hi]

lemma pageInv_init {endKernel memSize : UInt32} {frames : Frames}
    (hf : initFrames framesBss endKernel memSize = .ok frames)
    (hp : initPaging table (pagingBss frames) endKernel = .ok pg) :
    PageInv table (firstFreeFrame endKernel).toNat ⟨pg, []⟩ := by
  have hbits := initFrames_bits hf
  obtain ⟨hle, hfr, hpd, hpt, hnext⟩ := initPaging_ok hp
  have ht : IdentityTable (firstFreeFrame endKernel).toNat pg.ptEntry := by
    intro i
    rw [hpt, identityMap_apply]
    rfl
  generalize (firstFreeFrame endKernel).toNat = n at *
  have hentry : ∀ i, i < n → pg.ptEntry i = frameEntry i := by
    intro i hi
    rw [ht i, if_pos hi]
  have hnum : ∀ i, i < n → frameNumber (mappedFrame (pg.ptEntry i)) = i := by
    intro i hi
    rw [hentry i hi, frameNumber_frameEntry (by unfold frameMapWords; omega)]
  refine ⟨?_, ⟨?_, ?_, ?_⟩, ⟨n, hle, hnext, Nat.le_refl n, ?_⟩, ?_, by simp, by simp⟩
  · rw [hpd]
    exact Function.update_self ..
  · intro i hi hp
    exact ⟨i, by unfold frameMapWords; omega, hentry i ((ht.present_iff i).mp hp)⟩
  · intro k
    rw [hfr]
    dsimp only [pagingBss]
    rw [hbits, decide_eq_true_eq]
    constructor
    · intro hk
      exact ⟨k, by omega, (ht.present_iff k).mpr hk, hnum k hk⟩
    · rintro ⟨i, -, hp, rfl⟩
      have hi := (ht.present_iff i).mp hp
      rwa [hnum i hi]
  · intro i _ j _ hpi hpj heq
    have := congrArg frameNumber heq
    rwa [hnum i ((ht.present_iff i).mp hpi), hnum j ((ht.present_iff j).mp hpj)] at this
  · intro _
    rw [← Bool.not_eq_true, ht.present_iff]
    omega
  · intro i hi
    exact ⟨by omega, hentry i hi⟩

lemma pageExec_cases (h : s.exec table op = some s') :
    (op = .alloc ∧ ∃ p pg', kallocPage s.paging = .ok (p, pg') ∧ s' = ⟨pg', p :: s.live⟩) ∨
    ∃ p pg', op = .free p ∧ p ∈ s.live ∧ kfreePage table s.paging p = .ok pg' ∧
      s' = ⟨pg', s.live.erase p⟩ := by
  cases op with
  | alloc =>
    unfold PageState.exec at h
    cases hk : kallocPage s.paging with
    | error e =>
      rw [hk] at h
      cases h
    | ok r =>
      rw [hk] at h
      obtain rfl := Option.some.inj h
      exact Or.inl ⟨rfl, r.1, r.2, rfl, rfl⟩
  | free p =>
    simp only [PageState.exec] at h
    split at h
    · next hp =>
      cases hk : kfreePage table s.paging p with
      | error e =>
        rw [hk] at h
        cases h
      | ok pg =>
        rw [hk] at h
        obtain rfl := Option.some.inj h
        exact Or.inr ⟨p, pg, rfl, hp, hk, rfl⟩
    · cases h

lemma pageInv_step (hI : PageInv table n s) (hC : AloneMapped s op)
    (h : s.exec table op = some s') : PageInv table n s' := by
  rcases pageExec_cases h with ⟨rfl, p, pg', hk, rfl⟩ | ⟨p, pg', rfl, hp, hk, rfl⟩
  · exact pageInv_alloc hI hk
  · exact pageInv_free hI hp hC hk

lemma PageInv.noAlias (hI : PageInv table n s) : NoAlias table n s := by
  have himage : ∀ i < n, i < 1024 ∧ pagePresent (s.paging.ptEntry i) = true ∧
      mappedFrame (s.paging.ptEntry i) = UInt32.ofNat i * 0x1000 := by
    intro i hi
    obtain ⟨hlt, he⟩ := hI.image i hi
    rw [he]
    exact ⟨hlt, pagePresent_or _, mappedFrame_frameEntry (by unfold frameMapWords; omega)⟩
  refine ⟨fun i hi j hj hij hpi hpj heq => hij (hI.maps.inj i hi j hj hpi hpj heq), ?_, ?_, hI.nodup⟩
  · intro i hi
    obtain ⟨hlt, hp, hm⟩ := himage i hi
    rw [getPhysAddr_present hI.dir hlt hp, hm]
  · intro p hp
    obtain ⟨e, hne, he, rfl, hpe⟩ := hI.live p hp
    refine ⟨_, getPhysAddr_present hI.dir he hpe, ?_, ?_⟩
    · intro i hi heq
      obtain ⟨hlt, hpi, hm⟩ := himage i hi
      have := hI.maps.inj e he i hlt hpe hpi (by rw [hm, heq])
      omega
    · intro q hq hne' heq
      obtain ⟨j, -, hj, rfl, hpj⟩ := hI.live q hq
      rw [getPhysAddr_present hI.dir hj hpj] at heq
      exact hne' (by rw [hI.maps.inj j hj e he hpj hpe (Except.ok.inj heq)])

/-- After `init_frames` and `init_paging`, no frame is mapped twice in any run in which every
page freed has its frame alone in its bitmap word. -/
theorem pages_no_alias (table : TableAddr) (endKernel memSize : UInt32) {frames : Frames}
    {pg : Paging} (hf : initFrames framesBss endKernel memSize = .ok frames)
    (hp : initPaging table (pagingBss frames) endKernel = .ok pg)
    {tr : List (PageState × PageOp)} {s : PageState} (hr : PageRun table pg tr s)
    (hC : ∀ p ∈ tr, AloneMapped p.1 p.2) : NoAlias table (firstFreeFrame endKernel).toNat s :=
  (hr.invariant (pageInv_init hf hp) (fun _ _ _ hI hC h => pageInv_step hI hC h) hC).noAlias

instance (s : PageState) (op : PageOp) : Decidable (AloneMapped s op) :=
  match op with
  | .alloc => isTrue trivial
  | .free p => Nat.decidableBallLT 1024 fun i _ => pagePresent (s.paging.ptEntry i) →
      i ≠ ptIndex p → frameNumber (mappedFrame (s.paging.ptEntry i)) / 32 ≠
        frameNumber (mappedFrame (s.paging.ptEntry (ptIndex p))) / 32

/-- What `init_frames` and `init_paging` leave, followed by the calls `ops`. -/
def bootPages (table : TableAddr) (endKernel memSize : UInt32) (ops : List PageOp) :
    Option (Paging × List (PageState × PageOp) × PageState) :=
  (initFrames framesBss endKernel memSize).toOption.bind fun frames =>
    (initPaging table (pagingBss frames) endKernel).toOption.bind fun pg =>
      (execTrace (PageState.exec table) ⟨pg, []⟩ ops).map fun r => (pg, r)

lemma bootPages_eq_some {endKernel memSize : UInt32} {ops : List PageOp}
    {r : Paging × List (PageState × PageOp) × PageState}
    (h : bootPages table endKernel memSize ops = some r) :
    ∃ frames, initFrames framesBss endKernel memSize = .ok frames ∧
      initPaging table (pagingBss frames) endKernel = .ok r.1 ∧ PageRun table r.1 r.2.1 r.2.2 := by
  obtain ⟨frames, hf, h⟩ := Option.bind_eq_some_iff.mp h
  obtain ⟨pg, hp, h⟩ := Option.bind_eq_some_iff.mp h
  obtain ⟨r', hr, rfl⟩ := Option.map_eq_some_iff.mp h
  exact ⟨frames, eq_ok_of_toOption hf, eq_ok_of_toOption hp, run_of_execTrace hr⟩

theorem pages_no_alias_word_boundary :
    ∃ frames pg tr s, initFrames framesBss 0xC001F000 256 = .ok frames ∧
      initPaging ⟨0xC0010000, by decide⟩ (pagingBss frames) 0xC001F000 = .ok pg ∧
      PageRun ⟨0xC0010000, by decide⟩ pg tr s ∧ tr.length = 3 ∧
      NoAlias ⟨0xC0010000, by decide⟩ 32 s := by
  have hrun : ((bootPages ⟨0xC0010000, by decide⟩ 0xC001F000 256
      [.alloc, .free 0xC0020000, .alloc]).map fun r =>
        decide (r.2.1.length = 3 ∧ ∀ p ∈ r.2.1, AloneMapped p.1 p.2)) = some true := by
    decide +kernel
  obtain ⟨⟨pg, tr, s⟩, hr, hC⟩ := Option.map_eq_some_iff.mp hrun
  obtain ⟨frames, hf, hp, hr⟩ := bootPages_eq_some hr
  obtain ⟨hlen, hC⟩ := of_decide_eq_true hC
  exact ⟨frames, pg, tr, s, hf, hp, hr, hlen,
    pages_no_alias ⟨0xC0010000, by decide⟩ 0xC001F000 256 hf hp hr hC⟩

/-- A kernel image of five frames: the page allocated after one allocation and its free is
mapped to a frame of the image. -/
theorem kallocPage_aliases_image :
    ∃ frames pg tr s, initFrames framesBss 0xC0004000 256 = .ok frames ∧
      initPaging ⟨0xC0002000, by decide⟩ (pagingBss frames) 0xC0004000 = .ok pg ∧
      PageRun ⟨0xC0002000, by decide⟩ pg tr s ∧ 0xC0005000 ∈ s.live ∧
      pagePresent (s.paging.ptEntry 0) = true ∧ pagePresent (s.paging.ptEntry 5) = true ∧
      mappedFrame (s.paging.ptEntry 0) = mappedFrame (s.paging.ptEntry 5) ∧
      ¬NoAlias ⟨0xC0002000, by decide⟩ (firstFreeFrame 0xC0004000).toNat s := by
  have hrun : ((bootPages ⟨0xC0002000, by decide⟩ 0xC0004000 256
      [.alloc, .free 0xC0005000, .alloc]).map fun r =>
        decide (0xC0005000 ∈ r.2.2.live ∧ pagePresent (r.2.2.paging.ptEntry 0) = true ∧
          pagePresent (r.2.2.paging.ptEntry 5) = true ∧
          mappedFrame (r.2.2.paging.ptEntry 0) = mappedFrame (r.2.2.paging.ptEntry 5))) =
      some true := by
    decide +kernel
  obtain ⟨⟨pg, tr, s⟩, hr, hall⟩ := Option.map_eq_some_iff.mp hrun
  obtain ⟨frames, hf, hp, hr⟩ := bootPages_eq_some hr
  obtain ⟨hlive, hp1, hp2, hsame⟩ := of_decide_eq_true hall
  exact ⟨frames, pg, tr, s, hf, hp, hr, hlive, hp1, hp2, hsame,
    fun hN => hN.distinct 0 (by decide) 5 (by decide) (by decide) hp1 hp2 hsame⟩

end SaxonOS.Proofs
