import SaxonOS.Lib.Run
import SaxonOS.Proofs.HeapSearch

/-!
# Runs of the kernel heap

`kmalloc` and `kfree` on a 4-aligned heap compute `allocate` and `release` on the block
list, and the list keeps tiling the heap over every run of allocations, frees and writes
into live payloads.
-/

namespace SaxonOS.Proofs
open Lib

/-- The block list `bs` is laid out in the heap: linked from `first`, tiling the region,
with word-sized blocks. -/
structure Layout (h : Heap) (bs : List Extent) : Prop where
  first : h.first = h.heapStart
  linked : Linked h.mem 0 bs 0
  tiles : Tiles 16 h.heapStart.toNat bs h.heapEnd.toNat
  start : 4 ∣ h.heapStart.toNat
  sizes : SizesDvd 4 bs
  nonempty : h.heapStart.toNat < h.heapEnd.toNat

variable {h : Heap} {bs pre post ys : List Extent} {b : Extent} {m : Mem} {p : UInt32}

lemma Layout.addr_dvd (hL : Layout h bs) : ∀ b ∈ bs, 4 ∣ b.addr :=
  hL.tiles.dvd_addr (by decide) hL.start hL.sizes

lemma Layout.headAddr_eq (hL : Layout h bs) : headAddr 0 bs = h.first := by
  cases bs with
  | nil =>
    have h1 := hL.tiles
    have h2 := hL.nonempty
    simp only [Tiles] at h1
    omega
  | cons b bs =>
    rw [hL.first, headAddr, hL.tiles.1]
    exact UInt32.ofNat_toNat

lemma Layout.length_lt (hL : Layout h bs) : bs.length < walkFuel := by
  have h1 := hL.tiles.mul_length_le
  have h2 := h.heapEnd.toNat_lt
  unfold walkFuel
  omega

lemma Layout.alignGap_eq (hL : Layout h bs) : ∀ b ∈ bs, alignGap 4 b = 0 := by
  intro b hb
  have h4 : (4 : UInt32).toNat = 4 := rfl
  have hdvd := hL.addr_dvd b hb
  rw [alignGap_eq_zero_iff (by decide), h4]
  omega

/-- Among aligned blocks the search is first fit. -/
lemma Layout.suits_iff (hL : Layout h bs) (size : UInt32) :
    ∀ b ∈ bs, Suits size 4 b ↔ b.used = false ∧ size.toNat < b.size := by
  intro b hb
  rw [Suits, if_pos (hL.alignGap_eq b hb)]

/-- The list stays laid out while its headers keep their bytes. -/
lemma Layout.congr (hL : Layout h bs)
    (hm : ∀ c ∈ bs, ∀ x : UInt32, c.addr ≤ x.toNat → x.toNat < c.addr + 16 → m x = h.mem x) :
    Layout { h with mem := m } bs := by
  refine ⟨hL.first, ?_, hL.tiles, hL.start, hL.sizes, hL.nonempty⟩
  apply hL.linked.congr
  intro c hc
  have hsz := size_lt_of_tiles hL.tiles h.heapEnd.toNat_lt hc
  have hcn := toNat_ofNat_small (k := c.addr) (by omega)
  apply memBlock_congr (by omega)
  intro x hlo hhi
  exact hm c hc x (by omega) (by omega)

/-- Bytes that change inside one payload leave the list as it is. -/
lemma Layout.store (hL : Layout h bs) (hb : b ∈ bs)
    (hm : ∀ x : UInt32, x.toNat < b.addr + 16 ∨ b.addr + 16 + b.size ≤ x.toNat → m x = h.mem x) :
    Layout { h with mem := m } bs := by
  apply hL.congr
  intro c hc x hlo hhi
  apply hm
  by_cases hbc : b = c
  · subst hbc
    omega
  · have hapart := hL.tiles.apart hb hc hbc
    omega

@[simp] lemma kfree_heapStart (ptr : UInt32) : (kfree h ptr).heapStart = h.heapStart := by
  simp only [kfree]

@[simp] lemma kfree_heapEnd (ptr : UInt32) : (kfree h ptr).heapEnd = h.heapEnd := by
  simp only [kfree]

@[simp] lemma kfree_first (ptr : UInt32) : (kfree h ptr).first = h.first := by
  simp only [kfree]

section Spec

variable (hL : Layout h bs) (h0 : h.heapStart ≠ 0) {size : UInt32}
include hL h0

/-- The search of `kmalloc` over the whole list panics exactly when first fit fails. -/
theorem kmalloc_eq_panic (hs : size ≠ 1) (ha : allocate 16 size.toNat bs = none) :
    kmalloc h size = .error (.panic [] "can't allocate memory") := by
  have hsuits : ∀ c ∈ bs, ¬Suits size 4 c := fun c hc ht =>
    allocate_eq_none ha c hc ((hL.suits_iff size c hc).mp ht)
  have hnone := search_none (by decide) hL.linked hL.tiles (toNat_pos_of_ne_zero h0)
    h.heapEnd.toNat_lt hL.length_lt hsuits
  rw [hL.headAddr_eq] at hnone
  simp only [kmalloc, if_pos hs, kmallocAlligned, hnone]
  rfl

/-- For one byte the call returns null instead. -/
theorem kmalloc_one_eq_null (ha : allocate 16 1 bs = none) : kmalloc h 1 = .ok (0, h) := by
  have hnone := byteSearch_none 1 hL.linked hL.tiles (toNat_pos_of_ne_zero h0)
    h.heapEnd.toNat_lt hL.length_lt (allocate_eq_none ha)
  rw [hL.headAddr_eq] at hnone
  simp only [kmalloc, ne_eq, not_true, if_false, hnone]
  rfl

/-- `kmalloc` of any size splits the first block that is free and larger. -/
theorem kmalloc_first_fit (hbs : bs = pre ++ b :: post)
    (hpre : ∀ c ∈ pre, ¬(c.used = false ∧ size.toNat < c.size)) (hu : b.used = false)
    (hn : size.toNat < b.size) :
    kmalloc h size = .ok (UInt32.ofNat (b.addr + 16),
      { h with mem := splitBlock h.mem (UInt32.ofNat b.addr) size }) := by
  subst hbs
  have hlo := toNat_pos_of_ne_zero h0
  have hhi := h.heapEnd.toNat_lt
  have hb0 := ofNat_addr_ne_zero hL.tiles hlo hhi (b := b) (by simp)
  have haddr : UInt32.ofNat b.addr + sizeofMemBlock = UInt32.ofNat (b.addr + 16) := by
    rw [UInt32.ofNat_add]
    rfl
  by_cases hs : size = 1
  · have hsearch := byteSearch_stop hL.linked hL.tiles hlo hhi hL.length_lt hpre ⟨hu, hn⟩
    rw [hL.headAddr_eq] at hsearch
    simp only [kmalloc, hs, ne_eq, not_true, if_false]
    rw [hs] at hsearch
    simp only [hsearch, bind, Except.bind, if_neg hb0, haddr]
  · have hsuits := hL.suits_iff size
    have hskip : ∀ c ∈ pre, ¬Suits size 4 c := fun c hc ht =>
      hpre c hc ((hsuits c (by simp [hc])).mp ht)
    have hsearch := search_stop (by decide) hL.linked hL.tiles hlo hhi hL.length_lt hskip
      ((hsuits b (by simp)).mpr ⟨hu, hn⟩)
    rw [hL.headAddr_eq, if_pos (hL.alignGap_eq b (by simp))] at hsearch
    simp only [kmalloc, if_pos hs, kmallocAlligned, hsearch]
    simp only [bind, Except.bind, if_neg hb0, haddr]
    rfl

/-- `kmalloc` computes `allocate` on the block list. -/
theorem kmalloc_eq_allocate {q : Nat} (hs : 4 ∣ size.toNat)
    (ha : allocate 16 size.toNat bs = some (q, ys)) :
    ∃ m', kmalloc h size = .ok (UInt32.ofNat q, { h with mem := m' }) ∧
      Layout { h with mem := m' } ys := by
  obtain ⟨pre, b, post, rfl, hpre, hu, hn, rfl, hys⟩ := allocate_eq_some ha
  refine ⟨_, kmalloc_first_fit hL h0 rfl hpre hu hn, ?_⟩
  have hlink := linked_splitBlock hL.linked hL.tiles (toNat_pos_of_ne_zero h0)
    h.heapEnd.toNat_lt hn
  rw [UInt32.ofNat_toNat, ← hys] at hlink
  exact ⟨hL.first, hlink, tiles_allocate hL.tiles ha, hL.start,
    sizesDvd_allocate (by decide) hs hL.sizes ha, hL.nonempty⟩

/-- `kfree` of a block's payload address computes `release` on the block list. -/
theorem kfree_release (hb : b ∈ bs) :
    Layout (kfree h (UInt32.ofNat (b.addr + 16))) (release 16 (b.addr + 16) bs) := by
  obtain ⟨pre, post, rfl⟩ := List.append_of_mem hb
  have hlink := linked_kfreeBlock hL.linked hL.tiles (toNat_pos_of_ne_zero h0) h.heapEnd.toNat_lt
  have hsizes := sizesDvd_release (p := b.addr + 16) (by decide : 4 ∣ 16) hL.sizes
  have htiles := tiles_release (p := b.addr + 16) hL.tiles
  rw [kfree, ofNat_sub_header]
  refine ⟨hL.first, ?_, htiles, hL.start, hsizes, hL.nonempty⟩
  dsimp only
  exact hlink

end Spec

/-- The heap together with the live pointers and the sizes requested for them. -/
structure HeapState where
  heap : Heap
  live : List (UInt32 × UInt32)

inductive HeapOp
  | malloc (size : UInt32)
  | free (ptr : UInt32)
  | store (addr : UInt32) (value : UInt8)

/-- One step of the heap's clients: a `kmalloc` of a multiple of 4 that returns, a `kfree` of
a live pointer, or a write into the requested bytes of a live pointer. -/
def HeapStep (s : HeapState) : HeapOp → HeapState → Prop
  | .malloc size, s' => size.toNat % 4 = 0 ∧
      ∃ p h', kmalloc s.heap size = .ok (p, h') ∧ s' = ⟨h', (p, size) :: s.live⟩
  | .free ptr, s' => (∃ n, (ptr, n) ∈ s.live) ∧
      s' = ⟨kfree s.heap ptr, s.live.filter (fun e => e.1 ≠ ptr)⟩
  | .store addr value, s' =>
      (∃ e ∈ s.live, e.1.toNat ≤ addr.toNat ∧ addr.toNat < e.1.toNat + e.2.toNat) ∧
      s' = ⟨{ s.heap with mem := write8 s.heap.mem addr value }, s.live⟩

/-- The payload address of a block, as `kmalloc` returns it. -/
def payload (b : Extent) : UInt32 := UInt32.ofNat (b.addr + 16)

/-- The used blocks are the live pointers, each with room for its request. -/
structure LiveMatch (bs : List Extent) (live : List (UInt32 × UInt32)) : Prop where
  used : ∀ b ∈ bs, b.used = true → ∃ n, (payload b, n) ∈ live
  live : ∀ e ∈ live, ∃ b ∈ bs, b.used = true ∧ e.1 = payload b ∧ e.2.toNat ≤ b.size

structure HeapInv (start end_ : UInt32) (s : HeapState) (bs : List Extent) : Prop where
  layout : Layout s.heap bs
  start : s.heap.heapStart = start
  end_ : s.heap.heapEnd = end_
  live : LiveMatch bs s.live
  nodup : (s.live.map Prod.fst).Nodup
  null : s.heap.heapStart = 0 → s.live = []

lemma Layout.toNat_payload (hL : Layout h bs) (hb : b ∈ bs) : (payload b).toNat = b.addr + 16 := by
  have := size_lt_of_tiles hL.tiles h.heapEnd.toNat_lt hb
  exact toNat_ofNat_small (by omega)

lemma Layout.payload_inj {c : Extent} (hL : Layout h bs) (hb : b ∈ bs) (hc : c ∈ bs)
    (he : payload b = payload c) : b = c := by
  apply hL.tiles.addr_injOn (by decide) hb hc
  have h1 := hL.toNat_payload hb
  have h2 := hL.toNat_payload hc
  rw [he] at h1
  omega

/-- `kheap_init` makes one free block of the region. -/
lemma linked_kheapInit (mem : Mem) {start end_ : UInt32} (hlt : start.toNat + 16 < end_.toNat) :
    Linked (kheapInit mem start end_).mem 0
      [⟨start.toNat, (end_ - start).toNat - 16, false⟩] 0 := by
  have hsize : (end_ - start).toNat = end_.toNat - start.toNat :=
    UInt32.toNat_sub_of_le _ _ (UInt32.le_iff_toNat_le.mpr (by omega))
  have h16 : sizeofMemBlock.toNat = 16 := rfl
  have hs : end_ - start - sizeofMemBlock = UInt32.ofNat ((end_ - start).toNat - 16) := by
    apply UInt32.toNat_inj.mp
    have hlt32 := (end_ - start).toNat_lt
    rw [UInt32.toNat_sub_of_le _ _ (UInt32.le_iff_toNat_le.mpr (by omega)),
      toNat_ofNat_small (by omega), h16]
  simp [Linked, kheapInit, headAddr, hs]

lemma tiles_kheapInit {start end_ : UInt32} (hlt : start.toNat + 16 < end_.toNat) :
    Tiles 16 start.toNat [⟨start.toNat, (end_ - start).toNat - 16, false⟩] end_.toNat := by
  have hsize : (end_ - start).toNat = end_.toNat - start.toNat :=
    UInt32.toNat_sub_of_le _ _ (UInt32.le_iff_toNat_le.mpr (by omega))
  refine ⟨rfl, ?_⟩
  show start.toNat + 16 + ((end_ - start).toNat - 16) = end_.toNat
  omega

lemma layout_kheapInit (mem : Mem) {start end_ : UInt32} (h4 : start.toNat % 4 = 0)
    (hd : (end_ - start).toNat % 4 = 0) (hlt : start.toNat + 16 < end_.toNat) :
    Layout (kheapInit mem start end_)
      [⟨start.toNat, (end_ - start).toNat - 16, false⟩] := by
  refine ⟨rfl, linked_kheapInit mem hlt, tiles_kheapInit hlt, Nat.dvd_of_mod_eq_zero h4, ?_, ?_⟩
  · intro b hb
    rw [List.mem_singleton] at hb
    subst hb
    exact Nat.dvd_sub (Nat.dvd_of_mod_eq_zero hd) (by decide)
  · exact Nat.lt_of_le_of_lt (Nat.le_add_right _ 16) hlt

/-- With `first` at address 0 the search ends before it starts. -/
lemma kmalloc_at_null {size : UInt32} (h0 : h.first = 0) (hs : size ≠ 1) :
    kmalloc h size = .error (.panic [] "can't allocate memory") := by
  have hend := search_null (m := h.mem) size 4 (show 0 < walkFuel by decide)
  simp only [kmalloc, if_pos hs, kmallocAlligned, h0, hend]
  rfl

lemma kmalloc_one_at_null (h0 : h.first = 0) : kmalloc h 1 = .ok (0, h) := by
  have hsearch : kmallocSearch h.mem 1 walkFuel h.first = .ok 0 := by
    rw [h0]
    rfl
  simp only [kmalloc, ne_eq, not_true, if_false, hsearch]
  rfl

lemma ne_one_of_dvd {size : UInt32} (h4 : 4 ∣ size.toNat) : size ≠ 1 := by
  rintro rfl
  revert h4
  decide

/-- A call of `kmalloc` that returns has computed `allocate`. -/
lemma allocate_of_kmalloc {n : UInt32} {h' : Heap} (hL : Layout h bs) (hn : 4 ∣ n.toNat)
    (hk : kmalloc h n = .ok (p, h')) :
    h.heapStart ≠ 0 ∧ ∃ q ys m', allocate 16 n.toNat bs = some (q, ys) ∧ p = UInt32.ofNat q ∧
      h' = { h with mem := m' } ∧ Layout h' ys := by
  have h0 : h.heapStart ≠ 0 := by
    intro h0
    rw [kmalloc_at_null (hL.first.trans h0) (ne_one_of_dvd hn)] at hk
    cases hk
  refine ⟨h0, ?_⟩
  cases ha : allocate 16 n.toNat bs with
  | none =>
    rw [kmalloc_eq_panic hL h0 (ne_one_of_dvd hn) ha] at hk
    cases hk
  | some r =>
    obtain ⟨q, ys⟩ := r
    obtain ⟨m', hm', hL'⟩ := kmalloc_eq_allocate hL h0 hn ha
    rw [hm'] at hk
    obtain ⟨rfl, rfl⟩ := Prod.mk.inj (Except.ok.inj hk)
    exact ⟨q, ys, m', rfl, rfl, rfl, hL'⟩

section Steps

variable {start end_ : UInt32} {s s' : HeapState}

lemma heapInv_malloc {size : UInt32} (hI : HeapInv start end_ s bs)
    (hs : HeapStep s (.malloc size) s') : ∃ bs', Edit 16 bs bs' ∧ HeapInv start end_ s' bs' := by
  obtain ⟨hmod, p, h', hk, rfl⟩ := hs
  have h4 : 4 ∣ size.toNat := Nat.dvd_of_mod_eq_zero hmod
  obtain ⟨h0, q, ys, m', ha, rfl, rfl, hL'⟩ := allocate_of_kmalloc hI.layout h4 hk
  obtain ⟨a, k, rfl, hk, ⟨c, hc, hcu, hca⟩, hused⟩ := allocate_used ha
  have hnew : (⟨a, k, true⟩ : Extent) ∈ ys := (hused _ rfl).mpr (Or.inl rfl)
  refine ⟨ys, .allocate ha, hL', hI.start, hI.end_, ⟨?_, ?_⟩, ?_, fun h => absurd h h0⟩
  · intro b hb hbu
    rcases (hused b hbu).mp hb with rfl | hb
    · exact ⟨size, List.mem_cons_self⟩
    · obtain ⟨n, hn⟩ := hI.live.used b hb hbu
      exact ⟨n, List.mem_cons_of_mem _ hn⟩
  · intro e he
    rcases List.mem_cons.mp he with rfl | he
    · exact ⟨_, hnew, rfl, rfl, hk⟩
    · obtain ⟨b, hb, hbu, hbe, hbs⟩ := hI.live.live e he
      exact ⟨b, (hused b hbu).mpr (Or.inr hb), hbu, hbe, hbs⟩
  · rw [List.map_cons, List.nodup_cons]
    refine ⟨fun hmem => ?_, hI.nodup⟩
    obtain ⟨e, he, hee⟩ := List.mem_map.mp hmem
    obtain ⟨b, hb, hbu, hbe, -⟩ := hI.live.live e he
    have hpc : payload c = UInt32.ofNat (a + 16) := by rw [payload, hca]
    have hbc := hI.layout.payload_inj hb hc (by rw [← hbe, hee, hpc])
    rw [hbc, hcu] at hbu
    cases hbu

lemma heapInv_free {ptr : UInt32} (hI : HeapInv start end_ s bs)
    (hs : HeapStep s (.free ptr) s') : ∃ bs', Edit 16 bs bs' ∧ HeapInv start end_ s' bs' := by
  obtain ⟨⟨n, hn⟩, rfl⟩ := hs
  obtain ⟨b, hb, hbu, rfl, -⟩ := hI.live.live _ hn
  have h0 : s.heap.heapStart ≠ 0 := by
    intro h0
    rw [hI.null h0] at hn
    cases hn
  have hused := release_used (p := b.addr + 16) (by decide) hI.layout.tiles
  have hne : ∀ c ∈ bs, payload c ≠ payload b ↔ c.addr + 16 ≠ b.addr + 16 := by
    intro c hc
    rw [← hI.layout.toNat_payload hc, ← hI.layout.toNat_payload hb, ne_eq, ne_eq, UInt32.toNat_inj]
  have hL' := kfree_release hI.layout h0 hb
  refine ⟨_, .release (b.addr + 16), ?_, ?_, ?_, ⟨?_, ?_⟩, ?_, ?_⟩
  · dsimp only
    exact hL'
  · simpa using hI.start
  · simpa using hI.end_
  · intro c hc hcu
    obtain ⟨hc, hca⟩ := (hused c hcu).mp hc
    obtain ⟨k, hk⟩ := hI.live.used c hc hcu
    refine ⟨k, List.mem_filter.mpr ⟨hk, ?_⟩⟩
    simpa using (hne c hc).mpr hca
  · intro e he
    obtain ⟨he, hep⟩ := List.mem_filter.mp he
    obtain ⟨c, hc, hcu, hce, hcs⟩ := hI.live.live e he
    refine ⟨c, (hused c hcu).mpr ⟨hc, (hne c hc).mp ?_⟩, hcu, hce, hcs⟩
    rw [← hce]
    simpa using hep
  · exact hI.nodup.sublist (List.filter_sublist.map _)
  · intro h
    rw [kfree_heapStart] at h
    exact absurd h h0

lemma heapInv_store {addr : UInt32} {value : UInt8} (hI : HeapInv start end_ s bs)
    (hs : HeapStep s (.store addr value) s') : HeapInv start end_ s' bs := by
  obtain ⟨⟨e, he, hlo, hhi⟩, rfl⟩ := hs
  obtain ⟨b, hb, -, hbe, hbs⟩ := hI.live.live e he
  rw [hbe, hI.layout.toNat_payload hb] at hlo hhi
  have hstore : Layout { s.heap with mem := write8 s.heap.mem addr value } bs := by
    apply hI.layout.store hb
    intro x hx
    apply write8_of_ne
    rintro rfl
    omega
  exact ⟨hstore, hI.start, hI.end_, hI.live, hI.nodup, hI.null⟩

/-- Each step of the heap is one edit of the tiling it represents. -/
lemma heapInv_step {op : HeapOp} (hI : HeapInv start end_ s bs) (hs : HeapStep s op s') :
    ∃ bs', Edit 16 bs bs' ∧ HeapInv start end_ s' bs' := by
  cases op with
  | malloc size => exact heapInv_malloc hI hs
  | free ptr => exact heapInv_free hI hs
  | store addr value => exact ⟨bs, .keep, heapInv_store hI hs⟩

lemma heapInv_run (mem : Mem) (h4 : start.toNat % 4 = 0) (hd : (end_ - start).toNat % 4 = 0)
    (hlt : start.toNat + 16 < end_.toNat) {tr : List (HeapState × HeapOp)}
    (hr : Run HeapStep ⟨kheapInit mem start end_, []⟩ tr s) :
    ∃ bs, Coalesced bs ∧ HeapInv start end_ s bs := by
  refine hr.invariant (I := fun s => ∃ bs, Coalesced bs ∧ HeapInv start end_ s bs)
    (C := fun _ _ => True) ?_ ?_ (fun _ _ => trivial)
  · refine ⟨_, List.isChain_singleton _, layout_kheapInit mem h4 hd hlt, rfl, rfl, ⟨?_, ?_⟩,
      List.nodup_nil, fun _ => rfl⟩
    · intro b hb hbu
      rw [List.mem_singleton] at hb
      subst hb
      cases hbu
    · intro e he
      cases he
  · rintro s a s' ⟨bs, hc, hI⟩ - hs
    obtain ⟨bs', he, hI'⟩ := heapInv_step hI hs
    exact ⟨bs', he.coalesced hc, hI'⟩

end Steps

/-- What a run of the heap keeps: the list from `first` through `next` is `bs`, linked back
through `prev`; it tiles the heap at aligned addresses; its used blocks are the live
pointers, with room for their requests; and payloads of live pointers overlap neither each
other nor a header, inside the heap. -/
structure HeapSound (start end_ : UInt32) (s : HeapState) (bs : List Extent) : Prop where
  first : s.heap.first = headAddr 0 bs
  linked : Linked s.heap.mem 0 bs 0
  tiles : Tiles 16 start.toNat bs end_.toNat
  aligned : ∀ b ∈ bs, b.addr % 4 = 0
  used_iff_live : ∀ p, (∃ b ∈ bs, b.used = true ∧ payload b = p) ↔ ∃ n, (p, n) ∈ s.live
  once : (s.live.map Prod.fst).Nodup
  room : ∀ b ∈ bs, ∀ n, (payload b, n) ∈ s.live → n.toNat ≤ b.size
  disjoint : ∀ b ∈ bs, ∀ c ∈ bs, b.used = true → c.used = true → payload b ≠ payload c →
    (payload b).toNat + b.size ≤ (payload c).toNat ∨ (payload c).toNat + c.size ≤ (payload b).toNat
  inside : ∀ b ∈ bs, b.used = true →
    start.toNat ≤ (payload b).toNat ∧ (payload b).toNat + b.size ≤ end_.toNat
  noHeader : ∀ b ∈ bs, b.used = true → ∀ c ∈ bs,
    c.addr + 16 ≤ (payload b).toNat ∨ (payload b).toNat + b.size ≤ c.addr

lemma HeapInv.sound {start end_ : UInt32} {s : HeapState} (hI : HeapInv start end_ s bs) :
    HeapSound start end_ s bs := by
  have htiles : Tiles 16 start.toNat bs end_.toNat := by
    rw [← hI.start, ← hI.end_]
    exact hI.layout.tiles
  have hpay : ∀ b ∈ bs, (payload b).toNat = b.addr + 16 := fun b hb => hI.layout.toNat_payload hb
  refine ⟨hI.layout.headAddr_eq.symm, hI.layout.linked, htiles, ?_, ?_, hI.nodup, ?_, ?_, ?_, ?_⟩
  · exact fun b hb => Nat.mod_eq_zero_of_dvd (hI.layout.addr_dvd b hb)
  · intro p
    constructor
    · rintro ⟨b, hb, hu, rfl⟩
      exact hI.live.used b hb hu
    · rintro ⟨n, hn⟩
      obtain ⟨b, hb, hu, he, -⟩ := hI.live.live _ hn
      exact ⟨b, hb, hu, he.symm⟩
  · intro b hb n hn
    obtain ⟨c, hc, -, he, hs⟩ := hI.live.live _ hn
    rw [hI.layout.payload_inj hb hc he]
    exact hs
  · intro b hb c hc _ _ hne
    rw [hpay b hb, hpay c hc]
    have := htiles.apart hb hc (fun he => hne (by rw [he]))
    omega
  · intro b hb _
    have := htiles.bounds hb
    rw [hpay b hb]
    omega
  · intro b hb _ c hc
    rw [hpay b hb]
    by_cases hbc : b = c
    · subst hbc
      omega
    · have := htiles.apart hb hc hbc
      omega

/-- The kernel heap's representation invariant, over every run of `kmalloc` with multiples of
4, `kfree` of live pointers and writes into live payloads in which no call panics. -/
theorem kheap_run_sound (mem : Mem) (start end_ : UInt32) (h4 : start.toNat % 4 = 0)
    (hd : (end_ - start).toNat % 4 = 0) (hlt : start.toNat + 16 < end_.toNat)
    {tr : List (HeapState × HeapOp)} {s : HeapState}
    (hr : Run HeapStep ⟨kheapInit mem start end_, []⟩ tr s) :
    ∃ bs, HeapSound start end_ s bs := by
  obtain ⟨bs, -, hI⟩ := heapInv_run mem h4 hd hlt hr
  exact ⟨bs, hI.sound⟩

theorem kheap_run_sound_one_block :
    ∃ (p : UInt32) (h' : Heap),
      kmalloc (kheapInit (fun _ => 0xFF) 0x1000 0x1040) 8 = .ok (p, h') ∧
      ∃ bs, HeapSound 0x1000 0x1040 ⟨kfree h' p, []⟩ bs := by
  have hL : Layout (kheapInit (fun _ => 0xFF) 0x1000 0x1040) _ :=
    layout_kheapInit (fun _ => 0xFF) (by decide) (by decide) (by decide)
  obtain ⟨h', hk⟩ : ∃ h', kmalloc (kheapInit (fun _ => 0xFF) 0x1000 0x1040) 8 =
      .ok (UInt32.ofNat 0x1010, h') := by
    obtain ⟨m', hk, -⟩ := kmalloc_eq_allocate hL (by decide) (by decide)
      (show allocate 16 (8 : UInt32).toNat _ =
        some (0x1010, [⟨0x1000, 8, true⟩, ⟨0x1018, 24, false⟩]) by decide)
    exact ⟨_, hk⟩
  have hmalloc : HeapStep ⟨kheapInit (fun _ => 0xFF) 0x1000 0x1040, []⟩ (.malloc 8)
      ⟨h', [(UInt32.ofNat 0x1010, 8)]⟩ := ⟨by decide, _, _, hk, rfl⟩
  have hfree : HeapStep ⟨h', [(UInt32.ofNat 0x1010, 8)]⟩ (.free (UInt32.ofNat 0x1010))
      ⟨kfree h' (UInt32.ofNat 0x1010), []⟩ := ⟨⟨8, List.mem_cons_self⟩, rfl⟩
  exact ⟨_, h', hk, kheap_run_sound (fun _ => 0xFF) 0x1000 0x1040 (by decide) (by decide)
    (by decide) ((Run.nil.cons hmalloc).cons hfree)⟩

end SaxonOS.Proofs
