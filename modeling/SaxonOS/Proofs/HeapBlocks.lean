import SaxonOS.Proofs.HeapHeaders
import SaxonOS.Lib.Tiling

/-!
# Block lists in memory

`Linked` reads a doubly linked list of headers off the memory. The header writes of
`kmalloc` and `kfree` are the two edits `place` and `mergeNext` of the tiling that the
list represents.
-/

namespace SaxonOS.Proofs
open Lib

/-- The address a list of blocks starts at, or `n` when it is empty. -/
def headAddr (n : UInt32) : List Extent → UInt32
  | [] => n
  | b :: _ => UInt32.ofNat b.addr

/-- The address of the last block, or `p` when there is none. -/
def lastAddr : UInt32 → List Extent → UInt32
  | p, [] => p
  | _, b :: bs => lastAddr (UInt32.ofNat b.addr) bs

/-- The headers of the blocks are linked both ways, from predecessor `p` to successor `n`. -/
def Linked (m : Mem) : UInt32 → List Extent → UInt32 → Prop
  | _, [], _ => True
  | p, b :: bs, n =>
    memBlock m (UInt32.ofNat b.addr) =
      ⟨if b.used then 1 else 0, p, headAddr n bs, UInt32.ofNat b.size⟩ ∧
    Linked m (UInt32.ofNat b.addr) bs n

variable {m m' : Mem} {p n : UInt32} {bs xs ys : List Extent} {b c : Extent} {lo hi : Nat}

lemma headAddr_append : headAddr n (xs ++ ys) = headAddr (headAddr n ys) xs := by
  cases xs <;> rfl

lemma linked_append :
    Linked m p (xs ++ ys) n ↔ Linked m p xs (headAddr n ys) ∧ Linked m (lastAddr p xs) ys n := by
  induction xs generalizing p with
  | nil => simp [Linked, lastAddr]
  | cons b xs ih =>
    simp only [List.cons_append, Linked, ih, headAddr_append, lastAddr, and_assoc]

lemma Linked.congr (hl : Linked m p bs n)
    (h : ∀ b ∈ bs, memBlock m' (UInt32.ofNat b.addr) = memBlock m (UInt32.ofNat b.addr)) :
    Linked m' p bs n := by
  induction bs generalizing p with
  | nil => trivial
  | cons b bs ih =>
    refine ⟨?_, ih hl.2 (fun c hc => h c (List.mem_cons_of_mem _ hc))⟩
    rw [h b List.mem_cons_self]
    exact hl.1

/-- A block of a tiling that ends within the address space has its header apart from those
of the blocks before and after it. -/
lemma headerApart_of_tiles (ht : Tiles 16 lo (xs ++ b :: ys) hi) (hhi : hi < 2 ^ 32) :
    ∀ c ∈ xs ++ ys, HeaderApart (UInt32.ofNat b.addr) (UInt32.ofNat c.addr) := by
  intro c hc
  have hcm : c ∈ xs ++ b :: ys := by
    rcases List.mem_append.mp hc with h | h
    · exact List.mem_append_left _ h
    · exact List.mem_append_right _ (List.mem_cons_of_mem _ h)
  have hbb := ht.bounds (b := b) (by simp)
  have hcb := ht.bounds hcm
  have hap : b.addr + 16 ≤ c.addr ∨ c.addr + 16 ≤ b.addr := by
    have hp := List.pairwise_append.mp ht.pairwise
    rcases List.mem_append.mp hc with h | h
    · have := hp.2.2 c h b List.mem_cons_self
      omega
    · have := (List.pairwise_cons.mp hp.2.1).1 c h
      omega
  have hbn := toNat_ofNat_small (k := b.addr) (by omega)
  have hcn := toNat_ofNat_small (k := c.addr) (by omega)
  exact ⟨by omega, by omega, by omega⟩

lemma ofNat_addr_ne_zero (ht : Tiles 16 lo bs hi) (hlo : 0 < lo) (hhi : hi < 2 ^ 32)
    (hb : b ∈ bs) : UInt32.ofNat b.addr ≠ 0 := by
  have hbb := ht.bounds hb
  intro h0
  have hbn := toNat_ofNat_small (k := b.addr) (by omega)
  rw [h0] at hbn
  have : (0 : UInt32).toNat = 0 := rfl
  omega

/-- Marking a block used or free changes only its own flag. -/
lemma linked_setUsed (u : Bool) (hl : Linked m 0 (xs ++ b :: ys) 0)
    (ht : Tiles 16 lo (xs ++ b :: ys) hi) (hhi : hi < 2 ^ 32) :
    Linked (setUsed m (UInt32.ofNat b.addr) (if u then 1 else 0)) 0
      (xs ++ ⟨b.addr, b.size, u⟩ :: ys) 0 := by
  have hap := headerApart_of_tiles ht hhi
  rw [linked_append] at hl ⊢
  obtain ⟨hxs, hb, hys⟩ := hl
  refine ⟨hxs.congr (fun c hc => ?_), ?_, hys.congr (fun c hc => ?_)⟩
  · exact memBlock_setUsed_apart m _ (hap c (List.mem_append_left _ hc))
  · simp [hb]
  · exact memBlock_setUsed_apart m _ (hap c (List.mem_append_right _ hc))

/-- The header after a part of a tiling is apart from the other headers. -/
lemma headAddr_apart {zs : List Extent} (ht : Tiles 16 lo (zs ++ ys) hi) (hhi : hi < 2 ^ 32) :
    ∀ e ∈ zs ++ ys.tail, headAddr 0 ys ≠ 0 → HeaderApart (headAddr 0 ys) (UInt32.ofNat e.addr) := by
  intro e he h0
  cases ys with
  | nil => exact absurd rfl h0
  | cons d ys => exact headerApart_of_tiles ht hhi e he

/-- The links between a header and the block after it. -/
def linkNext (m : Mem) (x next : UInt32) : Mem :=
  let m := setNext m x next
  if next ≠ 0 then setPrev m next x else m

lemma memBlock_linkNext_same (m : Mem) (h : next ≠ 0 → HeaderApart next x) :
    memBlock (linkNext m x next) x = { memBlock m x with next := next } := by
  unfold linkNext
  by_cases hn : next = 0
  · simp [hn]
  · simp [hn, h hn]

lemma memBlock_linkNext_next (m : Mem) (hn : next ≠ 0) (h : HeaderApart x next) :
    memBlock (linkNext m x next) next = { memBlock m next with prev := x } := by
  simp [linkNext, hn, h]

lemma memBlock_linkNext_apart (m : Mem) {c : UInt32} (hx : HeaderApart x c)
    (hn : next ≠ 0 → HeaderApart next c) : memBlock (linkNext m x next) c = memBlock m c := by
  unfold linkNext
  by_cases h0 : next = 0
  · simp [h0, hx]
  · simp [h0, hx, hn h0]

/-- The header writes with which `kfree` joins a block to its successor. -/
def joinNext (m : Mem) (x size next : UInt32) : Mem :=
  let m := setSize m x size
  let m := setNext m x next
  if next ≠ 0 then setPrev m next x else m

lemma joinNext_eq (m : Mem) (x size next : UInt32) :
    joinNext m x size next = linkNext (setSize m x size) x next := rfl

/-- `joinNext` on two neighbours represents their merge. -/
lemma linked_joinNext (hl : Linked m 0 (xs ++ b :: c :: ys) 0)
    (ht : Tiles 16 lo (xs ++ b :: c :: ys) hi) (hlo : 0 < lo) (hhi : hi < 2 ^ 32) :
    Linked (joinNext m (UInt32.ofNat b.addr) (UInt32.ofNat (b.size + (16 + c.size)))
      (headAddr 0 ys)) 0 (xs ++ ⟨b.addr, b.size + (16 + c.size), b.used⟩ :: ys) 0 := by
  have htd : Tiles 16 lo ((xs ++ [b, c]) ++ ys) hi := by simpa using ht
  have hbap := headerApart_of_tiles ht hhi
  have hdap := headAddr_apart htd hhi
  have hkeep : ∀ e ∈ xs ++ ys.tail, memBlock (joinNext m (UInt32.ofNat b.addr)
      (UInt32.ofNat (b.size + (16 + c.size))) (headAddr 0 ys)) (UInt32.ofNat e.addr) =
      memBlock m (UInt32.ofNat e.addr) := by
    intro e he
    have hbe := hbap e (by
      have htail := List.mem_of_mem_tail (a := e) (l := ys)
      simp only [List.mem_append, List.mem_cons] at he ⊢
      tauto)
    have hde := hdap e (by simp only [List.mem_append] at he ⊢; tauto)
    rw [joinNext_eq, memBlock_linkNext_apart _ hbe hde, memBlock_setSize_apart _ _ hbe]
  rw [linked_append] at hl ⊢
  obtain ⟨hxs, hb, -, hys⟩ := hl
  refine ⟨hxs.congr (fun e he => hkeep e (by simp [he])), ?_, ?_⟩
  · rw [joinNext_eq, memBlock_linkNext_same _ (hdap b (by simp)), memBlock_setSize_same, hb]
  · cases ys with
    | nil => trivial
    | cons d ys =>
      -- The block after the merged pair is the only other header touched.
      have hd0 := ofNat_addr_ne_zero ht hlo hhi (b := d) (by simp)
      have hbd := hbap d (by simp)
      have hhead : headAddr 0 (d :: ys) = UInt32.ofNat d.addr := rfl
      refine ⟨?_, hys.2.congr (fun e he => hkeep e (by simp [he]))⟩
      rw [joinNext_eq, hhead, memBlock_linkNext_next _ hd0 hbd, memBlock_setSize_apart _ _ hbd]
      simp only [hys.1]

lemma size_lt_of_tiles (ht : Tiles 16 lo bs hi) (hhi : hi < 2 ^ 32) (hb : b ∈ bs) :
    b.addr + 16 + b.size < 2 ^ 32 := by
  have := ht.bounds hb
  omega

/-- The comparison that decides whether the surplus of a block is cut off. -/
lemma surplus_iff {k : Nat} (hk : k + 16 + 1 < 2 ^ 32) (hs : b.size < 2 ^ 32) :
    UInt32.ofNat b.size ≥ UInt32.ofNat k + sizeofMemBlock + 1 ↔ k + 16 + 1 ≤ b.size := by
  have h16 : sizeofMemBlock.toNat = 16 := rfl
  have h1 : (1 : UInt32).toNat = 1 := rfl
  rw [ge_iff_le, UInt32.le_iff_toNat_le, UInt32.toNat_add, UInt32.toNat_add,
    toNat_ofNat_small hs, toNat_ofNat_small (by omega : k < 2 ^ 32), h16, h1]
  omega

/-- The header writes with which `splitBlock` cuts the block `tmp` off `x`. -/
def cutTail (m : Mem) (x tmp size rest next : UInt32) : Mem :=
  let m := setUsed m tmp 0
  let m := setSize m tmp rest
  let m := setPrev m tmp x
  let m := setNext m tmp next
  let m := if next ≠ 0 then setPrev m next tmp else m
  let m := setSize m x size
  setNext m x tmp

section CutTail

variable {x tmp next : UInt32} (size rest : UInt32)

lemma memBlock_cutTail_same (hxt : HeaderApart x tmp) (hnx : next ≠ 0 → HeaderApart next x) :
    memBlock (cutTail m x tmp size rest next) x =
      { memBlock m x with size := size, next := tmp } := by
  unfold cutTail
  by_cases h0 : next = 0
  · simp [h0, hxt.symm]
  · simp [h0, hxt.symm, hnx h0]

lemma memBlock_cutTail_tail (hxt : HeaderApart x tmp) (hnt : next ≠ 0 → HeaderApart next tmp) :
    memBlock (cutTail m x tmp size rest next) tmp = ⟨0, x, next, rest⟩ := by
  unfold cutTail
  by_cases h0 : next = 0
  · simp [h0, hxt]
  · simp [h0, hxt, hnt h0]

lemma memBlock_cutTail_next (h0 : next ≠ 0) (hnx : HeaderApart next x)
    (hnt : HeaderApart next tmp) :
    memBlock (cutTail m x tmp size rest next) next = { memBlock m next with prev := tmp } := by
  simp [cutTail, h0, hnx.symm, hnt.symm]

lemma memBlock_cutTail_apart {c : UInt32} (hx : HeaderApart x c) (ht : HeaderApart tmp c)
    (hn : next ≠ 0 → HeaderApart next c) :
    memBlock (cutTail m x tmp size rest next) c = memBlock m c := by
  unfold cutTail
  by_cases h0 : next = 0
  · simp [h0, hx, ht]
  · simp [h0, hx, ht, hn h0]

end CutTail

/-- `cutTail` represents the split of a block in two. -/
lemma linked_cutTail {b' c' : Extent} (hl : Linked m 0 (xs ++ b :: ys) 0)
    (ht : Tiles 16 lo (xs ++ b' :: c' :: ys) hi) (ha : b'.addr = b.addr) (hu : b'.used = b.used)
    (hf : c'.used = false) (hlo : 0 < lo) (hhi : hi < 2 ^ 32) :
    Linked (cutTail m (UInt32.ofNat b.addr) (UInt32.ofNat c'.addr) (UInt32.ofNat b'.size)
      (UInt32.ofNat c'.size) (headAddr 0 ys)) 0 (xs ++ b' :: c' :: ys) 0 := by
  have htc : Tiles 16 lo ((xs ++ [b']) ++ c' :: ys) hi := by simpa using ht
  have htd : Tiles 16 lo ((xs ++ [b', c']) ++ ys) hi := by simpa using ht
  have hbap := headerApart_of_tiles ht hhi
  have hcap := headerApart_of_tiles htc hhi
  have hdap := headAddr_apart htd hhi
  rw [ha] at hbap
  have hbc := hbap c' (by simp)
  have hdb := hdap b' (by simp)
  have hdc := hdap c' (by simp)
  rw [ha] at hdb
  have hkeep : ∀ e ∈ xs ++ ys.tail, memBlock (cutTail m (UInt32.ofNat b.addr)
      (UInt32.ofNat c'.addr) (UInt32.ofNat b'.size) (UInt32.ofNat c'.size) (headAddr 0 ys))
      (UInt32.ofNat e.addr) = memBlock m (UInt32.ofNat e.addr) := by
    intro e he
    have htail := List.mem_of_mem_tail (a := e) (l := ys)
    simp only [List.mem_append] at he
    exact memBlock_cutTail_apart _ _
      (hbap e (by simp only [List.mem_append, List.mem_cons]; tauto))
      (hcap e (by simp only [List.mem_append, List.mem_cons]; tauto))
      (hdap e (by simp only [List.mem_append, List.mem_cons]; tauto))
  rw [linked_append] at hl ⊢
  obtain ⟨hxs, hb, hys⟩ := hl
  have hhead : headAddr 0 (b' :: c' :: ys) = headAddr 0 (b :: ys) := by
    rw [headAddr, headAddr, ha]
  rw [hhead]
  simp only [Linked, ha, hu, hf]
  refine ⟨hxs.congr (fun e he => hkeep e (by simp [he])), ?_, ?_, ?_⟩
  · simp only [hb, memBlock_cutTail_same _ _ hbc hdb]
    rfl
  · simp [memBlock_cutTail_tail _ _ hbc hdc]
  · cases ys with
    | nil => trivial
    | cons d ys =>
      -- The block behind the one that is split gets a new predecessor.
      have hd0 := ofNat_addr_ne_zero ht hlo hhi (b := d) (by simp)
      have hhd : headAddr 0 (d :: ys) = UInt32.ofNat d.addr := rfl
      rw [hhd] at hdb hdc ⊢
      refine ⟨?_, hys.2.congr (fun e he => hkeep e (by simp [he]))⟩
      rw [memBlock_cutTail_next _ _ hd0 (hdb hd0) (hdc hd0)]
      simp only [hys.1]

lemma splitBlock_eq_cutTail {x tmp size : UInt32} (htmp : x + sizeofMemBlock + size = tmp)
    (hxt : HeaderApart x tmp) (hs : (memBlock m x).size ≥ size + sizeofMemBlock + 1) :
    splitBlock m x size = setUsed (cutTail m x tmp size
      ((memBlock m x).size - size - sizeofMemBlock) (memBlock m x).next) x 1 := by
  unfold splitBlock cutTail
  simp only [if_pos hs, htmp]
  simp [hxt.symm]

/-- `splitBlock` on a block that is large enough represents `place`. -/
theorem linked_splitBlock {k : Nat} (hl : Linked m 0 (xs ++ b :: ys) 0)
    (ht : Tiles 16 lo (xs ++ b :: ys) hi) (hlo : 0 < lo) (hhi : hi < 2 ^ 32) (hk : k < b.size) :
    Linked (splitBlock m (UInt32.ofNat b.addr) (UInt32.ofNat k)) 0
      (xs ++ (place 16 k b ++ ys)) 0 := by
  have hsz := size_lt_of_tiles ht hhi (b := b) (by simp)
  have hb := (linked_append.mp hl).2.1
  have hcut := surplus_iff (b := b) (k := k) (by omega) (by omega)
  by_cases hs : k + 16 + 1 ≤ b.size
  · have ht' : Tiles 16 lo (xs ++ (⟨b.addr, k, b.used⟩ ::
        ⟨b.addr + 16 + k, b.size - k - 16, false⟩ :: ys)) hi := by
      have htail := ht.cut k
      simp only [place, if_pos hs, List.cons_append, List.nil_append] at htail
      exact htail.mark b.used
    have hbc := headerApart_of_tiles ht' hhi ⟨b.addr + 16 + k, b.size - k - 16, false⟩ (by simp)
    have hl' := linked_cutTail hl ht' rfl rfl rfl hlo hhi
    have hused := linked_setUsed true hl' ht' hhi
    have htmp : UInt32.ofNat b.addr + sizeofMemBlock + UInt32.ofNat k =
        UInt32.ofNat (b.addr + 16 + k) := by
      simp [sizeofMemBlock]
    have hrest : UInt32.ofNat b.size - UInt32.ofNat k - sizeofMemBlock =
        UInt32.ofNat (b.size - k - 16) := by
      rw [← UInt32.ofNat_sub (by omega : k ≤ b.size)]
      exact (UInt32.ofNat_sub (a := b.size - k) (b := 16) (by omega)).symm
    have hsplit := splitBlock_eq_cutTail htmp hbc (m := m) (by rw [hb]; exact hcut.mpr hs)
    rw [hb] at hsplit
    simp only [hrest] at hsplit
    simp only [place, if_pos hs, List.cons_append, List.nil_append, hsplit]
    exact hused
  · unfold splitBlock place
    simp only [hb, if_neg hs, hcut.not.mpr hs, if_false, List.cons_append, List.nil_append]
    exact linked_setUsed true hl ht hhi

lemma mergeWithNext_eq_joinNext {x y : UInt32} (hy : (memBlock m x).next = y) (h0 : y ≠ 0)
    (hu : (memBlock m y).used = 0) (hxy : HeaderApart x y) :
    mergeWithNext m x = joinNext m x
      ((memBlock m x).size + (sizeofMemBlock + (memBlock m y).size)) (memBlock m y).next := by
  unfold mergeWithNext joinNext
  simp only [hy, h0, hu, ne_eq, not_false_iff, and_self, if_true]
  simp [hxy, hy]

lemma mergeWithPrev_eq_joinNext {x y : UInt32} (hx : (memBlock m y).prev = x) (h0 : x ≠ 0)
    (hu : (memBlock m x).used = 0) (hxy : HeaderApart x y)
    (hn : (memBlock m y).next ≠ 0 → HeaderApart (memBlock m y).next y) :
    mergeWithPrev m y = (joinNext m x
      ((memBlock m x).size + (sizeofMemBlock + (memBlock m y).size)) (memBlock m y).next, x) := by
  unfold mergeWithPrev joinNext
  simp only [hx, h0, hu, ne_eq, not_false_iff, and_self, if_true]
  by_cases hz : (memBlock m y).next = 0
  · simp [hxy, hx, hz]
  · simp [hxy, hx, hz, hn hz]

/-- The header of the block with a given payload. -/
lemma ofNat_sub_header (a : Nat) : UInt32.ofNat (a + 16) - sizeofMemBlock = UInt32.ofNat a := by
  rw [UInt32.ofNat_add]
  exact UInt32.add_sub_cancel _ _

lemma ofNat_joined_size (b c : Extent) :
    UInt32.ofNat b.size + (sizeofMemBlock + UInt32.ofNat c.size) =
      UInt32.ofNat (b.size + (16 + c.size)) := by
  simp [sizeofMemBlock]

section Joins

variable (hl : Linked m 0 (xs ++ b :: c :: ys) 0)
include hl

/-! The two `if`s of `kfree` join two blocks where the other one is free. -/

lemma mergeWithNext_used (hu : c.used = true) : mergeWithNext m (UInt32.ofNat b.addr) = m := by
  have hb := (linked_append.mp hl).2.1
  have hc := (linked_append.mp hl).2.2.1
  simp [mergeWithNext, hb, headAddr, hc, hu]

lemma mergeWithPrev_used (hu : b.used = true) :
    mergeWithPrev m (UInt32.ofNat c.addr) = (m, UInt32.ofNat c.addr) := by
  have hb := (linked_append.mp hl).2.1
  have hc := (linked_append.mp hl).2.2.1
  simp [mergeWithPrev, hb, hc, hu]

variable (ht : Tiles 16 lo (xs ++ b :: c :: ys) hi) (hlo : 0 < lo) (hhi : hi < 2 ^ 32)
include ht hlo hhi

lemma mergeWithNext_free (hu : c.used = false) :
    mergeWithNext m (UInt32.ofNat b.addr) = joinNext m (UInt32.ofNat b.addr)
      (UInt32.ofNat (b.size + (16 + c.size))) (headAddr 0 ys) := by
  have hb := (linked_append.mp hl).2.1
  have hc := (linked_append.mp hl).2.2.1
  have hc0 := ofNat_addr_ne_zero ht hlo hhi (b := c) (by simp)
  have hnext : (memBlock m (UInt32.ofNat b.addr)).next = UInt32.ofNat c.addr := by rw [hb]; rfl
  have hcu : (memBlock m (UInt32.ofNat c.addr)).used = 0 := by simp [hc, hu]
  have hap := headerApart_of_tiles ht hhi c (by simp)
  rw [mergeWithNext_eq_joinNext hnext hc0 hcu hap, hb, hc, ofNat_joined_size]

lemma mergeWithPrev_free (hu : b.used = false) :
    mergeWithPrev m (UInt32.ofNat c.addr) = (joinNext m (UInt32.ofNat b.addr)
      (UInt32.ofNat (b.size + (16 + c.size))) (headAddr 0 ys), UInt32.ofNat b.addr) := by
  have hb := (linked_append.mp hl).2.1
  have hc := (linked_append.mp hl).2.2.1
  have hb0 := ofNat_addr_ne_zero ht hlo hhi (b := b) (by simp)
  have hap := headerApart_of_tiles ht hhi c (by simp)
  have htc : Tiles 16 lo ((xs ++ [b]) ++ c :: ys) hi := by simpa using ht
  have hcap := headerApart_of_tiles htc hhi
  have hnext : (memBlock m (UInt32.ofNat c.addr)).next ≠ 0 →
      HeaderApart (memBlock m (UInt32.ofNat c.addr)).next (UInt32.ofNat c.addr) := by
    intro h0
    rw [hc] at h0 ⊢
    cases ys with
    | nil => exact absurd rfl h0
    | cons d ys => exact (hcap d (by simp)).symm
  rw [mergeWithPrev_eq_joinNext (by rw [hc]) hb0 (by simp [hb, hu]) hap hnext, hb, hc,
    ofNat_joined_size]

end Joins

lemma mergeWithNext_last (hl : Linked m 0 (xs ++ [b]) 0) :
    mergeWithNext m (UInt32.ofNat b.addr) = m := by
  have hb := (linked_append.mp hl).2.1
  simp [mergeWithNext, hb, headAddr]

lemma mergeWithPrev_first (hl : Linked m 0 (b :: ys) 0) :
    mergeWithPrev m (UInt32.ofNat b.addr) = (m, UInt32.ofNat b.addr) := by
  have hb := hl.1
  simp only [mergeWithPrev, hb, ne_eq, not_true, false_and, if_false]

/-- The second `if` of `kfree` represents `mergeNext`. -/
lemma linked_mergeWithNext (hl : Linked m 0 (xs ++ b :: ys) 0)
    (ht : Tiles 16 lo (xs ++ b :: ys) hi) (hlo : 0 < lo) (hhi : hi < 2 ^ 32) :
    Linked (mergeWithNext m (UInt32.ofNat b.addr)) 0 (xs ++ mergeNext 16 b ys) 0 := by
  cases ys with
  | nil =>
    rw [mergeWithNext_last hl]
    exact hl
  | cons c ys =>
    cases hu : c.used with
    | false =>
      rw [mergeWithNext_free hl ht hlo hhi hu, mergeNext, if_pos hu]
      exact linked_joinNext hl ht hlo hhi
    | true =>
      rw [mergeWithNext_used hl hu]
      simpa [mergeNext, hu] using hl

/-- The first `if` of `kfree` joins a block to its predecessor when that is free. -/
lemma linked_mergeWithPrev (hl : Linked m 0 (xs ++ b :: c :: ys) 0)
    (ht : Tiles 16 lo (xs ++ b :: c :: ys) hi) (hlo : 0 < lo) (hhi : hi < 2 ^ 32)
    (hu : b.used = false) :
    ∃ m', mergeWithPrev m (UInt32.ofNat c.addr) = (m', UInt32.ofNat b.addr) ∧
      Linked m' 0 (xs ++ ⟨b.addr, b.size + (16 + c.size), false⟩ :: ys) 0 := by
  refine ⟨_, mergeWithPrev_free hl ht hlo hhi hu, ?_⟩
  rw [← hu]
  exact linked_joinNext hl ht hlo hhi

lemma addr_ne_of_tiles (ht : Tiles 16 lo (xs ++ b :: ys) hi) :
    ∀ c ∈ xs, c.addr + 16 ≠ b.addr + 16 := by
  intro c hc
  have := (List.pairwise_append.mp ht.pairwise).2.2 c hc b List.mem_cons_self
  omega

/-- `kfree` on a block of the list represents `release`. -/
theorem linked_kfreeBlock (hl : Linked m 0 (xs ++ b :: ys) 0)
    (ht : Tiles 16 lo (xs ++ b :: ys) hi) (hlo : 0 < lo) (hhi : hi < 2 ^ 32) :
    Linked (kfreeBlock m (UInt32.ofNat b.addr)) 0 (release 16 (b.addr + 16) (xs ++ b :: ys)) 0 := by
  have hl1 := linked_setUsed false hl ht hhi
  have ht1 := ht.mark false
  have hne := addr_ne_of_tiles ht
  simp only [Bool.false_eq_true, if_false] at hl1
  unfold kfreeBlock
  rcases List.eq_nil_or_concat xs with rfl | ⟨xs, a, rfl⟩
  · simp only [mergeWithPrev_first hl1, List.nil_append, release_head]
    rw [List.nil_append] at hl1 ht1
    have hl2 : Linked _ 0 ([] ++ _ :: ys) 0 := hl1
    exact linked_mergeWithNext hl2 ht1 hlo hhi
  · simp only [List.concat_eq_append, List.append_assoc, List.cons_append, List.nil_append]
      at hl1 ht1 ht hne ⊢
    have ha := hne a (by simp)
    rw [release_append (fun c hc => hne c (by simp [hc])) ha, release_prev (by omega)]
    cases hu : a.used with
    | false =>
      obtain ⟨m', hm', hl2⟩ := linked_mergeWithPrev hl1 ht1 hlo hhi hu
      simp only [hm', if_true]
      exact linked_mergeWithNext hl2 (ht1.merge false) hlo hhi
    | true =>
      simp only [mergeWithPrev_used hl1 hu, Bool.true_eq_false, if_false]
      have hl2 : Linked (setUsed m (UInt32.ofNat b.addr) 0) 0
          ((xs ++ [a]) ++ ⟨b.addr, b.size, false⟩ :: ys) 0 := by simpa using hl1
      have hl3 := linked_mergeWithNext hl2 (by simpa using ht1) hlo hhi
      simpa using hl3

end SaxonOS.Proofs
