import SaxonOS.Proofs.HeapFrame

/-!
# Reallocation

`krealloc` returns an address 16 bytes behind the payload of the block it allocated. No block of
the heap begins 16 bytes before it, so `kfree` cannot take the pointer back.
-/

namespace SaxonOS.Proofs
open Lib

/-- What `krealloc` of the live block `b` to `n` bytes owes for the pointer `q` it returns: `kfree`
accepts it, it has the old bytes, and the other live blocks are left alone. -/
structure Reallocates (h : Heap) (bs : List Extent) (b : Extent) (n q : UInt32) (h' : Heap) :
    Prop where
  start : h'.heapStart = h.heapStart
  end_ : h'.heapEnd = h.heapEnd
  list : ∃ bs', TiledHeap h' bs' ∧
    (∃ c ∈ bs', c.used = true ∧ payload c = q ∧ n.toNat ≤ c.size) ∧
    (∀ c ∈ bs', c.used = true → payload c = q ∨
      ∃ d ∈ bs, d ≠ b ∧ d.used = true ∧ d.addr = c.addr) ∧
    ∀ d ∈ bs, d ≠ b → d.used = true → ∃ c ∈ bs', c.used = true ∧ c.addr = d.addr ∧ d.size ≤ c.size
  copied : ∀ i < min b.size n.toNat,
    h'.mem (q + UInt32.ofNat i) = h.mem (payload b + UInt32.ofNat i)
  others : ∀ d ∈ bs, d ≠ b → d.used = true → ∀ i < d.size,
    h'.mem (payload d + UInt32.ofNat i) = h.mem (payload d + UInt32.ofNat i)

/-- The block `b` is live and, once it is freed, `n` bytes can be allocated. -/
structure CanReallocate (h : Heap) (bs : List Extent) (b : Extent) (n : UInt32) : Prop where
  layout : Layout h bs
  mem : b ∈ bs
  used : b.used = true
  size : 1 ≤ n.toNat
  served : ∃ r h₁, kmalloc (kfree h (payload b)) n = .ok (r, h₁) ∧ r ≠ 0

section Copy

variable {m m' : Mem} {dest src x : UInt32} {n : Nat}

lemma memcpyLoop_outside (h : ∀ i < n, x ≠ dest + UInt32.ofNat i) :
    memcpyLoop n m dest src x = m x := by
  induction n generalizing m dest src with
  | zero => rfl
  | succ n ih =>
    rw [memcpyLoop, ih]
    · apply write8_of_ne
      simpa using h 0 (Nat.succ_pos n)
    · intro i hi heq
      apply h (i + 1) (Nat.succ_lt_succ hi)
      rw [heq, UInt32.ofNat_add, UInt32.add_assoc, UInt32.add_comm (UInt32.ofNat i)]
      rfl

/-- A copy that wraps around the address space by less than `k` bytes leaves what lies between
`k` and its start. -/
lemma memcpy_between {count : UInt32} {k : Nat} (hend : dest.toNat + count.toNat ≤ 2 ^ 32 + k)
    (hlo : k ≤ x.toNat) (hhi : x.toNat < dest.toNat) : memcpy m dest src count x = m x := by
  apply memcpyLoop_outside
  intro i hi heq
  have hx := congrArg UInt32.toNat heq
  have hcount := count.toNat_lt
  rw [UInt32.toNat_add, toNat_ofNat_small (by omega)] at hx
  omega

/-- Such a copy leaves the size in a header between `k` and its start. -/
lemma size_memcpy {a count : UInt32} {k : Nat} (hend : dest.toNat + count.toNat ≤ 2 ^ 32 + k)
    (hlo : k ≤ a.toNat + 12) (hhi : a.toNat + 16 ≤ dest.toNat) :
    (memBlock (memcpy m dest src count) a).size = (memBlock m a).size := by
  have hdest := dest.toNat_lt
  have h12 : (12 : UInt32).toNat = 12 := rfl
  apply read32_field_congr (by omega) (by decide)
  intro x hxlo hxhi
  exact memcpy_between hend (by omega) (by omega)

end Copy

section Blocks

variable {m m' : Mem} {p p' : UInt32} {bs bs' xs zs : List Extent} {d : Extent} {lo hi : Nat}

/-- Two lists that tile one region have the same blocks as far as the sizes in their headers
agree. -/
lemma block_of_sizes (hl : Linked m p (xs ++ d :: zs) 0) (ht : Tiles 16 lo (xs ++ d :: zs) hi)
    (hl' : Linked m' p' bs' 0) (ht' : Tiles 16 lo bs' hi) (hhi : hi < 2 ^ 32)
    (hsize : ∀ e ∈ xs ++ [d], (memBlock m' (UInt32.ofNat e.addr)).size =
      (memBlock m (UInt32.ofNat e.addr)).size) :
    ∃ d' ∈ bs', d'.addr = d.addr ∧ d'.size = d.size := by
  induction xs generalizing lo p p' bs' with
  | nil =>
    obtain ⟨d', ys, rfl, haddr, hsz⟩ := first_of_size hl ht hl' ht' hhi (hsize d (by simp))
    exact ⟨d', List.mem_cons_self, haddr, hsz⟩
  | cons e xs ih =>
    obtain ⟨e', ys, rfl, haddr, hsz⟩ := first_of_size hl ht hl' ht' hhi (hsize e (by simp))
    have hrest := ht'.2
    rw [hsz] at hrest
    obtain ⟨d', hd', hda, hds⟩ := ih hl.2 ht.2 hl'.2 hrest (fun c hc => hsize c (by simp [hc]))
    exact ⟨d', List.mem_cons_of_mem _ hd', hda, hds⟩

/-- No block begins right behind the header of a block that is not empty. -/
lemma no_block_inside {c : Extent} (hl : Linked m p (xs ++ d :: zs) 0)
    (ht : Tiles 16 lo (xs ++ d :: zs) hi) (hl' : Linked m' p' bs' 0) (ht' : Tiles 16 lo bs' hi)
    (hhi : hi < 2 ^ 32)
    (hsize : ∀ e ∈ xs ++ [d], (memBlock m' (UInt32.ofNat e.addr)).size =
      (memBlock m (UInt32.ofNat e.addr)).size) (hd : 1 ≤ d.size) (hc : c ∈ bs') :
    c.addr ≠ d.addr + 16 := by
  intro hca
  obtain ⟨d', hd', hda, hds⟩ := block_of_sizes hl ht hl' ht' hhi hsize
  have hne : d' ≠ c := by
    rintro rfl
    omega
  have hapart := ht'.apart hd' hc hne
  omega

/-- A copy to 16 bytes behind the payload of `d` leaves no list in which that is a payload. -/
lemma payload_ne_copied {h : Heap} {c : Extent} {src count : UInt32}
    (hl : Linked m 0 (xs ++ d :: zs) 0)
    (ht : Tiles 16 h.heapStart.toNat (xs ++ d :: zs) h.heapEnd.toNat) (hd : 1 ≤ d.size)
    (hend : d.addr + 32 + count.toNat ≤ 2 ^ 32 + (h.heapStart.toNat + 12))
    (hT : TiledHeap { h with
      mem := memcpy m (UInt32.ofNat (d.addr + 16) + sizeofMemBlock) src count } bs')
    (hc : c ∈ bs') : payload c ≠ UInt32.ofNat (d.addr + 16) + sizeofMemBlock := by
  have hhi := h.heapEnd.toNat_lt
  have hdb := ht.bounds (b := d) (by simp)
  have hcb := hT.tiles.bounds hc
  dsimp only at hcb
  have hcn : (payload c).toNat = c.addr + 16 := toNat_ofNat_small (by omega)
  have hdn := toNat_ofNat_small (k := d.addr + 16) (by omega)
  have h16 : sizeofMemBlock.toNat = 16 := rfl
  intro hq
  have hnat := congrArg UInt32.toNat hq
  -- A result that wraps around is below the first payload.
  have hq32 : d.addr + 32 < 2 ^ 32 := by
    by_contra hge
    rw [hcn, UInt32.toNat_add, hdn, h16] at hnat
    omega
  have hdest : (UInt32.ofNat (d.addr + 16) + sizeofMemBlock).toNat = d.addr + 32 := by
    rw [toNat_add_small (by omega), hdn, h16]
  refine no_block_inside hl ht hT.linked hT.tiles hhi ?_ hd hc (by omega)
  intro e he
  have heb : e ∈ xs ++ d :: zs := by
    rw [List.append_cons]
    exact List.mem_append_left _ he
  have hebound := ht.bounds heb
  have hed : e.addr ≤ d.addr := by
    rcases List.mem_append.mp he with he | he
    · have hpair := (List.pairwise_append.mp ht.pairwise).2.2 e he d List.mem_cons_self
      omega
    · rw [List.mem_singleton.mp he]
  have hen := toNat_ofNat_small (k := e.addr) (by omega)
  exact size_memcpy (k := h.heapStart.toNat + 12) (by omega) (by omega) (by omega)

/-- The block that is handed out comes first in `place`. -/
lemma place_eq_cons {k : Nat} (hk : k < d.size) :
    ∃ e ys, place 16 k d = e :: ys ∧ e.addr = d.addr ∧ k ≤ e.size := by
  unfold place
  split_ifs
  · exact ⟨_, _, rfl, rfl, Nat.le_refl k⟩
  · exact ⟨_, _, rfl, rfl, Nat.le_of_lt hk⟩

end Blocks

section Realloc

variable {h : Heap} {bs : List Extent} {b : Extent} {n : UInt32}

lemma CanReallocate.payload_toNat (hc : CanReallocate h bs b n) : (payload b).toNat = b.addr + 16 :=
  hc.layout.toNat_payload hc.mem

/-- A heap that serves a request does not start at address 0. -/
lemma heapStart_ne_zero (hfirst : h.first = h.heapStart) {r : UInt32} {h₁ : Heap}
    (hk : kmalloc h n = .ok (r, h₁)) (hr : r ≠ 0) : h.heapStart ≠ 0 := by
  intro h0
  by_cases hn : n = 1
  · subst hn
    rw [kmalloc_one_at_null (hfirst.trans h0)] at hk
    cases hk
    exact hr rfl
  · rw [kmalloc_at_null (hfirst.trans h0) hn] at hk
    cases hk

/-- The block that `krealloc` allocates, in the list with `b` freed. -/
lemma CanReallocate.block (hc : CanReallocate h bs b n) :
    ∃ pre e post, release 16 (b.addr + 16) bs = pre ++ e :: post ∧
      (∀ c ∈ pre, ¬(c.used = false ∧ n.toNat < c.size)) ∧ e.used = false ∧ n.toNat < e.size ∧
      Layout (kfree h (payload b)) (pre ++ e :: post) ∧ h.heapStart ≠ 0 := by
  obtain ⟨r, h₁, hk, hr⟩ := hc.served
  have hfirst : (kfree h (payload b)).first = (kfree h (payload b)).heapStart := by
    simpa [kfree] using hc.layout.first
  have hstart : h.heapStart ≠ 0 := by simpa using heapStart_ne_zero hfirst hk hr
  have hL := kfree_release hc.layout hstart hc.mem
  rw [← payload] at hL
  cases ha : allocate 16 n.toNat (release 16 (b.addr + 16) bs) with
  | none =>
    by_cases hn : n = 1
    · subst hn
      rw [kmalloc_one_eq_null hL (by simpa using hstart) ha] at hk
      cases hk
      exact absurd rfl hr
    · rw [kmalloc_eq_panic hL (by simpa using hstart) hn ha] at hk
      cases hk
  | some a =>
    obtain ⟨q, ys⟩ := a
    obtain ⟨pre, e, post, hbs, hpre, hu, hn, -, -⟩ := allocate_eq_some ha
    rw [hbs] at hL
    exact ⟨pre, e, post, hbs, hpre, hu, hn, hL, hstart⟩

/-- The bytes that are copied do not come round to the sizes in the headers. -/
lemma CanReallocate.copy_end (hc : CanReallocate h bs b n) {pre post : List Extent} {e : Extent}
    (hrel : release 16 (b.addr + 16) bs = pre ++ e :: post)
    (hpre : ∀ c ∈ pre, ¬(c.used = false ∧ n.toNat < c.size)) (hn : n.toNat < e.size)
    (hL : Layout (kfree h (payload b)) (pre ++ e :: post)) (h0 : h.heapStart ≠ 0) :
    e.addr + 32 + b.size ≤ 2 ^ 32 + (h.heapStart.toNat + 12) := by
  have hstart : 4 ≤ h.heapStart.toNat :=
    Nat.le_of_dvd (toNat_pos_of_ne_zero h0) hc.layout.start
  have hend := h.heapEnd.toNat_lt
  have hb := hc.layout.tiles.bounds hc.mem
  have he := hL.tiles.bounds (b := e) (by simp)
  rw [kfree_heapEnd] at he
  by_cases hle : b.size ≤ n.toNat
  · omega
  · -- The freed block would do, so first fit does not go beyond it.
    obtain ⟨f, hf, hfu, hfa, hfs⟩ := release_free (by decide) hc.layout.tiles hc.mem
    have hef : e.addr ≤ f.addr := by
      rw [hrel] at hf
      rcases List.mem_append.mp hf with hf | hf
      · exact absurd ⟨hfu, by omega⟩ (hpre f hf)
      · rcases List.mem_cons.mp hf with rfl | hf
        · exact Nat.le_refl _
        · have hpair := (List.pairwise_append.mp hL.tiles.pairwise).2.1
          have hlt := (List.pairwise_cons.mp hpair).1 f hf
          omega
    omega

/-- The call, in terms of the block `e` that first fit finds once `b` is free. -/
lemma CanReallocate.krealloc_eq (hc : CanReallocate h bs b n) {pre post : List Extent} {e : Extent}
    (hpre : ∀ c ∈ pre, ¬(c.used = false ∧ n.toNat < c.size)) (hu : e.used = false)
    (hn : n.toNat < e.size) (hL : Layout (kfree h (payload b)) (pre ++ e :: post))
    (h0 : h.heapStart ≠ 0) :
    krealloc h (payload b) n = .ok (UInt32.ofNat (e.addr + 16) + sizeofMemBlock,
      { h with
        mem := memcpy (splitBlock (kfree h (payload b)).mem (UInt32.ofNat e.addr) n)
          (UInt32.ofNat (e.addr + 16) + sizeofMemBlock) (payload b) (UInt32.ofNat b.size) }) := by
  have hk := kmalloc_first_fit hL (by simpa using h0) rfl hpre hu hn
  have hp0 : payload b ≠ 0 := by
    intro hp
    have hnat := hc.payload_toNat
    rw [hp] at hnat
    have hz : (0 : UInt32).toNat = 0 := rfl
    omega
  have hn0 : n ≠ 0 := by
    rintro rfl
    exact Nat.lt_irrefl 0 hc.size
  have hold : payload b - sizeofMemBlock = UInt32.ofNat b.addr := ofNat_sub_header b.addr
  have hsize : (memBlock h.mem (UInt32.ofNat b.addr)).size = UInt32.ofNat b.size := by
    obtain ⟨xs, ys, hbs⟩ := List.append_of_mem hc.mem
    have hl := hc.layout.linked
    rw [hbs] at hl
    rw [(linked_append.mp hl).2.1]
  rw [kfree, hold] at hk
  simp only [krealloc, if_neg hp0, if_neg hn0, hold, hsize, hk, bind, Except.bind]
  rw [kfree, hold]

/-- Wherever the call puts the bytes, no list of blocks has its result as a payload. -/
lemma CanReallocate.not_accepted (hc : CanReallocate h bs b n) {q : UInt32} {h' : Heap}
    (hk : krealloc h (payload b) n = .ok (q, h')) {bs' : List Extent} (hT : TiledHeap h' bs')
    {c : Extent} (hcm : c ∈ bs') : payload c ≠ q := by
  obtain ⟨pre, e, post, hrel, hpre, hu, hn, hL, h0⟩ := hc.block
  rw [hc.krealloc_eq hpre hu hn hL h0] at hk
  obtain ⟨rfl, rfl⟩ := Prod.mk.inj (Except.ok.inj hk)
  have hhi := h.heapEnd.toNat_lt
  have hbz := size_lt_of_tiles hc.layout.tiles hhi hc.mem
  have hbn := toNat_ofNat_small (k := b.size) (by omega)
  have hend := hc.copy_end hrel hpre hn hL h0
  have hn1 := hc.size
  obtain ⟨d, ys, hplace, hda, hds⟩ := place_eq_cons hn
  have htiles := hL.tiles
  rw [kfree_heapStart, kfree_heapEnd] at htiles
  have hl := linked_splitBlock hL.linked htiles (toNat_pos_of_ne_zero h0) hhi hn
  have ht := htiles.cut n.toNat
  rw [UInt32.ofNat_toNat] at hl
  rw [hplace, List.cons_append] at hl ht
  rw [← hda] at hT hl ⊢
  exact payload_ne_copied hl ht (by omega) (by omega) hT hcm

end Realloc

/-- No call of `krealloc` that allocates does what it owes. -/
theorem krealloc_never_reallocates (h : Heap) (bs : List Extent) (b : Extent) (n : UInt32)
    (hc : CanReallocate h bs b n) :
    ¬∃ q h', krealloc h (payload b) n = .ok (q, h') ∧ Reallocates h bs b n q h' := by
  rintro ⟨q, h', hk, hR⟩
  obtain ⟨bs', hT, ⟨c, hcm, -, hcq, -⟩, -⟩ := hR.list
  exact hc.not_accepted hk hT hcm hcq

/-- The heap from 0x1000 to 0x1100 after `kmalloc(8)`. -/
def oneLive : Heap := { freshHeap with mem := splitBlock freshHeap.mem 0x1000 8 }

def oneLiveBlocks : List Extent := [⟨0x1000, 8, true⟩, ⟨0x1018, 216, false⟩]

lemma layout_oneLive : Layout oneLive oneLiveBlocks := by
  have hl := linked_splitBlock freshHeap_layout.linked freshHeap_layout.tiles (by decide)
    (by decide) (show 8 < 240 by decide)
  have hsizes : SizesDvd 4 oneLiveBlocks := by
    intro b hb
    simp only [oneLiveBlocks, List.mem_cons, List.not_mem_nil, or_false] at hb
    rcases hb with rfl | rfl
    · decide
    · decide
  exact ⟨rfl, hl, ⟨rfl, rfl, rfl⟩, by decide, hsizes, by decide⟩

/-- The block of 8 bytes can be made one of 16: freed, it is part of the whole region again. -/
lemma oneLive_freed : Layout (kfree oneLive (payload ⟨0x1000, 8, true⟩))
    ([] ++ ⟨0x1000, 240, false⟩ :: []) :=
  kfree_release layout_oneLive (by decide) (b := ⟨0x1000, 8, true⟩) (by decide)

lemma oneLive_canReallocate : CanReallocate oneLive oneLiveBlocks ⟨0x1000, 8, true⟩ 16 := by
  obtain ⟨h', bs', hk, -⟩ := kmalloc_takes oneLive_freed (by decide) (n := 16) (by decide) rfl
  exact ⟨layout_oneLive, by decide, rfl, by decide, _, _, hk, by decide⟩

theorem krealloc_never_reallocates_one :
    ¬∃ q h', krealloc oneLive (payload ⟨0x1000, 8, true⟩) 16 = .ok (q, h') ∧
      Reallocates oneLive oneLiveBlocks ⟨0x1000, 8, true⟩ 16 q h' :=
  krealloc_never_reallocates _ _ _ _ oneLive_canReallocate

/-- `krealloc(0x1010, 16)` returns 0x1020, and no header lies at 0x1010. -/
theorem krealloc_returns_no_payload : CanReallocate oneLive oneLiveBlocks ⟨0x1000, 8, true⟩ 16 ∧
    ∃ h', krealloc oneLive 0x1010 16 = .ok (0x1020, h') ∧
      ¬Reallocates oneLive oneLiveBlocks ⟨0x1000, 8, true⟩ 16 0x1020 h' := by
  have hc := oneLive_canReallocate
  have hk := hc.krealloc_eq (by simp) rfl (by decide) oneLive_freed (by decide)
  refine ⟨hc, _, hk, ?_⟩
  intro hR
  obtain ⟨bs', hT, ⟨c, hcm, -, hcq, -⟩, -⟩ := hR.list
  exact hc.not_accepted hk hT hcm hcq

end SaxonOS.Proofs
