import SaxonOS.Proofs.HeapBlocks

/-!
# Moving a block header

The branch of `kmalloc_alligned` for a misaligned block writes the links of a new header
`s` bytes above the old one. Headers overlap when `s` is below 16, and the size field of the
new header is never written.
-/

namespace SaxonOS.Proofs
open Lib

variable {m m' : Mem} {a n q x next : UInt32} {xs ys : List Extent} {lo hi : Nat}

/-- The old header once it points at the new one. -/
def shrink (m : Mem) (a n : UInt32) : Mem :=
  setSize (setNext m a n) a (n - a - sizeofMemBlock)

/-- What the size field of the new header at `n` holds once the old header at `a` has its new
size. -/
def movedSize (m : Mem) (a n : UInt32) : UInt32 :=
  read32 (setSize m a (n - a - sizeofMemBlock)) (n + 12)

/-- The old header's bytes given to the block before it, which points at the new one. -/
def lengthen (m : Mem) (q a n : UInt32) : Mem :=
  setNext (setSize (shrink m a n) q ((memBlock m q).size + (n - a))) q n

/-- The new header at `n` linked between `q` and `next`. -/
def relink (m : Mem) (q n next : UInt32) : Mem :=
  linkNext (setPrev m n q) n next

lemma moveHeader_prev (hn : x - sizeofMemBlock = n) (hq : (memBlock m a).prev = q) (hq0 : q ≠ 0)
    (hqa : HeaderApart q a) (hqn : HeaderApart q n) :
    moveHeader m a x = (relink (lengthen m q a n) q n (memBlock m a).next, n) := by
  unfold moveHeader relink lengthen shrink linkNext
  simp [hn, hq, hq0, hqa, hqn.symm, hqa.symm]

/-- Where the old header of the first block points once the new header has its predecessor. -/
def firstLink (m : Mem) (a n : UInt32) : UInt32 :=
  (memBlock (setPrev (shrink m a n) n a) a).next

lemma moveHeader_first (hn : x - sizeofMemBlock = n) (h0 : (memBlock m a).prev = 0) :
    moveHeader m a x =
      (linkNext (setPrev (shrink m a n) n a) (firstLink m a n) (memBlock m a).next,
        firstLink m a n) := by
  unfold moveHeader linkNext firstLink shrink
  simp [hn, h0]

lemma memBlock_shrink_same (m : Mem) (a n : UInt32) :
    memBlock (shrink m a n) a =
      { memBlock m a with next := n, size := n - a - sizeofMemBlock } := by
  simp [shrink]

lemma memBlock_shrink_apart (m : Mem) {c : UInt32} (h : HeaderApart a c) (n : UInt32) :
    memBlock (shrink m a n) c = memBlock m c := by
  simp [shrink, h]

/-- The size field of the new header is not among the bytes written, except for those it
shares with the old header's. -/
lemma shrink_movedSize (hn : a.toNat < n.toNat) (h16 : n.toNat + 16 ≤ 2 ^ 32) :
    (memBlock (shrink m a n) n).size = movedSize m a n := by
  have h8 : (a + 8).toNat = a.toNat + 8 := toNat_offset (by omega) (by decide)
  have h12 : (12 : UInt32).toNat = 12 := rfl
  apply read32_field_congr h16 (by decide)
  intro x hlo _
  apply write32_congr_at
  apply write32_outside _ _ (by omega)
  unfold Outside
  omega

lemma memBlock_lengthen_same (m : Mem) (n : UInt32) (hqa : HeaderApart q a) :
    memBlock (lengthen m q a n) q =
      { memBlock m q with next := n, size := (memBlock m q).size + (n - a) } := by
  simp [lengthen, memBlock_shrink_apart m hqa.symm]

lemma memBlock_lengthen_apart (m : Mem) (n : UInt32) {c : UInt32} (hqc : HeaderApart q c) :
    memBlock (lengthen m q a n) c = memBlock (shrink m a n) c := by
  simp [lengthen, hqc]

lemma memBlock_relink_moved (m : Mem) (q : UInt32) (hnn : next ≠ 0 → HeaderApart next n) :
    memBlock (relink m q n next) n = { memBlock m n with prev := q, next := next } := by
  rw [relink, memBlock_linkNext_same _ hnn, memBlock_setPrev_same]

lemma relink_size (m : Mem) (q : UInt32) (hnn : next ≠ 0 → HeaderApart next n) :
    (memBlock (relink m q n next) n).size = (memBlock m n).size := by
  rw [memBlock_relink_moved m q hnn]

lemma relink_next (m : Mem) (q : UInt32) (hnn : next ≠ 0 → HeaderApart next n) :
    (memBlock (relink m q n next) n).next = next := by
  rw [memBlock_relink_moved m q hnn]

/-- A header linked in after `b`, which points at it already. -/
lemma linked_relink {b c : Extent} (ht : Tiles 16 lo (xs ++ b :: c :: ys) hi) (hlo : 0 < lo)
    (hhi : hi < 2 ^ 32) (hf : c.used = false) (hxs : Linked m 0 xs (UInt32.ofNat b.addr))
    (hb : memBlock m (UInt32.ofNat b.addr) =
      ⟨if b.used then 1 else 0, lastAddr 0 xs, UInt32.ofNat c.addr, UInt32.ofNat b.size⟩)
    (hs : (memBlock m (UInt32.ofNat c.addr)).size = UInt32.ofNat c.size) (hys : Linked m q ys 0) :
    Linked (setUsed (relink m (UInt32.ofNat b.addr) (UInt32.ofNat c.addr) (headAddr 0 ys))
      (UInt32.ofNat c.addr) 0) 0 (xs ++ b :: c :: ys) 0 := by
  have htc : Tiles 16 lo ((xs ++ [b]) ++ c :: ys) hi := by simpa using ht
  have htd : Tiles 16 lo ((xs ++ [b, c]) ++ ys) hi := by simpa using ht
  have hcap := headerApart_of_tiles htc hhi
  have hdap := headAddr_apart htd hhi
  have hkeep : ∀ e ∈ xs ++ b :: ys.tail, memBlock (setUsed (relink m (UInt32.ofNat b.addr)
      (UInt32.ofNat c.addr) (headAddr 0 ys)) (UInt32.ofNat c.addr) 0)
      (UInt32.ofNat e.addr) = memBlock m (UInt32.ofNat e.addr) := by
    intro e he
    have hce : HeaderApart (UInt32.ofNat c.addr) (UInt32.ofNat e.addr) := by
      apply hcap
      have htail := List.mem_of_mem_tail (a := e) (l := ys)
      simp only [List.mem_append, List.mem_cons] at he ⊢
      tauto
    have hde := hdap e (by simp only [List.mem_append, List.mem_cons] at he ⊢; tauto)
    rw [memBlock_setUsed_apart _ _ hce, relink, memBlock_linkNext_apart _ hce hde,
      memBlock_setPrev_apart _ _ hce]
  rw [linked_append]
  refine ⟨hxs.congr (fun e he => hkeep e (by simp [he])), ?_, ?_, ?_⟩
  · rw [hkeep b (by simp), hb]
    rfl
  · rw [memBlock_setUsed_same, memBlock_relink_moved _ _ (hdap c (by simp))]
    simp [hs, hf]
  · cases ys with
    | nil => trivial
    | cons d ys =>
      have hd0 := ofNat_addr_ne_zero ht hlo hhi (b := d) (by simp)
      have hcd := hcap d (by simp)
      refine ⟨?_, hys.2.congr (fun e he => hkeep e (by simp [he]))⟩
      have hhead : headAddr 0 (d :: ys) = UInt32.ofNat d.addr := rfl
      rw [memBlock_setUsed_apart _ _ hcd, relink, hhead, memBlock_linkNext_next _ hd0 hcd,
        memBlock_setPrev_apart _ _ hcd]
      simp only [hys.1]

section Move

variable {b : Extent} {s : Nat}

/-- The new header is as far above the old one as the new payload is above the old one. -/
lemma ofNat_header (b : Extent) (s : Nat) :
    UInt32.ofNat (b.addr + 16 + s) - sizeofMemBlock = UInt32.ofNat (b.addr + s) := by
  rw [Nat.add_right_comm, ofNat_sub_header]

lemma ofNat_slack (b : Extent) (s : Nat) :
    UInt32.ofNat (b.addr + s) - UInt32.ofNat b.addr = UInt32.ofNat s := by
  rw [UInt32.ofNat_add, UInt32.add_comm, UInt32.add_sub_cancel]

/-- The header of a block with a predecessor moves up by `s`, and the predecessor grows. -/
lemma moveHeader_behind {c : Extent} (hl : Linked m 0 (xs ++ c :: b :: ys) 0)
    (ht : Tiles 16 lo (xs ++ c :: b :: ys) hi) (hlo : 0 < lo) (hhi : hi < 2 ^ 32)
    (hs : b.addr + 16 + s ≤ 2 ^ 32) :
    moveHeader m (UInt32.ofNat b.addr) (UInt32.ofNat (b.addr + 16 + s)) =
      (relink (lengthen m (UInt32.ofNat c.addr) (UInt32.ofNat b.addr) (UInt32.ofNat (b.addr + s)))
        (UInt32.ofNat c.addr) (UInt32.ofNat (b.addr + s)) (headAddr 0 ys),
        UInt32.ofNat (b.addr + s)) := by
  have hb := (linked_append.mp hl).2.2.1
  have hcb := headerApart_of_tiles ht hhi b (by simp)
  have hc0 := ofNat_addr_ne_zero ht hlo hhi (b := c) (by simp)
  have hmove := moveHeader_prev (m := m) (ofNat_header b s) (by rw [hb]) hc0 hcb ?_
  · rw [hmove, hb]
  · have hbn := toNat_ofNat_small (k := b.addr) (by omega)
    have hsn := toNat_ofNat_small (k := b.addr + s) (by omega)
    have hle := hcb.apart
    have hcl := hcb.left
    have := (List.pairwise_cons.mp (List.pairwise_append.mp ht.pairwise).2.1).1 b (by simp)
    have hcn := toNat_ofNat_small (k := c.addr) (by omega)
    exact ⟨by omega, by omega, by omega⟩

lemma tiles_move_behind {c : Extent} (ht : Tiles 16 lo (xs ++ c :: b :: ys) hi) (hs : s ≤ b.size) :
    Tiles 16 lo (xs ++ ⟨c.addr, c.size + s, c.used⟩ :: ⟨b.addr + s, b.size - s, false⟩ :: ys) hi := by
  obtain ⟨mid, h1, hc, hb, hys⟩ := tiles_append.mp ht
  refine tiles_append.mpr ⟨mid, h1, hc, ?_, ?_⟩
  · show b.addr + s = mid + 16 + (c.size + s)
    omega
  · have he : mid + 16 + (c.size + s) + 16 + (b.size - s) = mid + 16 + c.size + 16 + b.size := by
      omega
    rw [he]
    exact hys

lemma linked_move_behind {c : Extent} (hl : Linked m 0 (xs ++ c :: b :: ys) 0)
    (ht : Tiles 16 lo (xs ++ c :: b :: ys) hi) (hlo : 0 < lo) (hhi : hi < 2 ^ 32) (h0 : 0 < s)
    (hs : s ≤ b.size) (hv : movedSize m (UInt32.ofNat b.addr) (UInt32.ofNat (b.addr + s)) =
      UInt32.ofNat (b.size - s)) :
    Linked (setUsed (relink (lengthen m (UInt32.ofNat c.addr) (UInt32.ofNat b.addr)
        (UInt32.ofNat (b.addr + s))) (UInt32.ofNat c.addr) (UInt32.ofNat (b.addr + s))
        (headAddr 0 ys)) (UInt32.ofNat (b.addr + s)) 0) 0
      (xs ++ ⟨c.addr, c.size + s, c.used⟩ :: ⟨b.addr + s, b.size - s, false⟩ :: ys) 0 := by
  have ht' := tiles_move_behind ht hs
  have hcap := headerApart_of_tiles ht hhi
  have htb : Tiles 16 lo ((xs ++ [c]) ++ b :: ys) hi := by simpa using ht
  have hbap := headerApart_of_tiles htb hhi
  have hcn : HeaderApart (UInt32.ofNat c.addr) (UInt32.ofNat (b.addr + s)) :=
    headerApart_of_tiles ht' hhi ⟨b.addr + s, b.size - s, false⟩ (by simp)
  have hsz := size_lt_of_tiles ht hhi (b := b) (by simp)
  have hkeep : ∀ e ∈ xs ++ ys, memBlock (lengthen m (UInt32.ofNat c.addr) (UInt32.ofNat b.addr)
      (UInt32.ofNat (b.addr + s))) (UInt32.ofNat e.addr) = memBlock m (UInt32.ofNat e.addr) := by
    intro e he
    have hce := hcap e (by simp only [List.mem_append, List.mem_cons] at he ⊢; tauto)
    have hbe := hbap e (by simp only [List.mem_append, List.mem_cons] at he ⊢; tauto)
    rw [memBlock_lengthen_apart _ _ hce, memBlock_shrink_apart _ hbe]
  obtain ⟨hxs, hc, hb, hys⟩ := linked_append.mp hl
  have hbn := toNat_ofNat_small (k := b.addr) (by omega)
  have hsn := toNat_ofNat_small (k := b.addr + s) (by omega)
  have hc' : memBlock (lengthen m (UInt32.ofNat c.addr) (UInt32.ofNat b.addr)
      (UInt32.ofNat (b.addr + s))) (UInt32.ofNat c.addr) = ⟨if c.used then 1 else 0,
        lastAddr 0 xs, UInt32.ofNat (b.addr + s), UInt32.ofNat (c.size + s)⟩ := by
    rw [memBlock_lengthen_same _ _ (hcap b (by simp)), ofNat_slack, hc, ← UInt32.ofNat_add]
  have hn' : (memBlock (lengthen m (UInt32.ofNat c.addr) (UInt32.ofNat b.addr)
      (UInt32.ofNat (b.addr + s))) (UInt32.ofNat (b.addr + s))).size =
        UInt32.ofNat (b.size - s) := by
    rw [memBlock_lengthen_apart _ _ hcn, shrink_movedSize (by omega) hcn.right, hv]
  have hxs' := hxs.congr (fun e he => hkeep e (by simp [he]))
  have hys' := hys.congr (fun e he => hkeep e (by simp [he]))
  have h := linked_relink ht' hlo hhi rfl hxs' hc' hn' hys'
  dsimp only at h
  exact h

/-- From eight bytes on the links of the new header miss the link to it. -/
lemma firstLink_far (hs : a.toNat + 8 ≤ n.toNat) (hn : n.toNat + 16 ≤ 2 ^ 32) :
    firstLink m a n = n := by
  have h4 : (n + 4).toNat = n.toNat + 4 := toNat_offset hn (by decide)
  have h8 : (8 : UInt32).toNat = 8 := rfl
  have hkeep : firstLink m a n = (memBlock (shrink m a n) a).next := by
    apply read32_field_congr (by omega) (by decide)
    intro x _ hhi
    apply write32_outside _ _ (by omega)
    unfold Outside
    omega
  rw [hkeep, memBlock_shrink_same]

/-- The header of the first block moves up by eight bytes or more. -/
lemma moveHeader_first_far (hl : Linked m 0 (b :: ys) 0) (h8 : 8 ≤ s)
    (hs : b.addr + 16 + s ≤ 2 ^ 32) :
    moveHeader m (UInt32.ofNat b.addr) (UInt32.ofNat (b.addr + 16 + s)) =
      (relink (shrink m (UInt32.ofNat b.addr) (UInt32.ofNat (b.addr + s))) (UInt32.ofNat b.addr)
        (UInt32.ofNat (b.addr + s)) (headAddr 0 ys), UInt32.ofNat (b.addr + s)) := by
  have hbn := toNat_ofNat_small (k := b.addr) (by omega)
  have hsn := toNat_ofNat_small (k := b.addr + s) (by omega)
  have hfar : firstLink m (UInt32.ofNat b.addr) (UInt32.ofNat (b.addr + s)) =
      UInt32.ofNat (b.addr + s) := firstLink_far (by omega) (by omega)
  rw [moveHeader_first (ofNat_header b s) (by rw [hl.1]), hfar, hl.1]
  rfl

lemma tiles_move_first (ht : Tiles 16 lo (b :: ys) hi) (h16 : 16 ≤ s) (hs : s ≤ b.size) :
    Tiles 16 lo ([] ++ ⟨b.addr, s - 16, b.used⟩ :: ⟨b.addr + s, b.size - s, false⟩ :: ys) hi := by
  obtain ⟨hb, hys⟩ := ht
  refine ⟨hb, ?_, ?_⟩
  · show b.addr + s = lo + 16 + (s - 16)
    omega
  · have he : lo + 16 + (s - 16) + 16 + (b.size - s) = lo + 16 + b.size := by omega
    rw [he]
    exact hys

lemma linked_move_first (hl : Linked m 0 (b :: ys) 0) (ht : Tiles 16 lo (b :: ys) hi)
    (hlo : 0 < lo) (hhi : hi < 2 ^ 32) (h16 : 16 ≤ s) (hs : s ≤ b.size)
    (hv : movedSize m (UInt32.ofNat b.addr) (UInt32.ofNat (b.addr + s)) =
      UInt32.ofNat (b.size - s)) :
    Linked (setUsed (relink (shrink m (UInt32.ofNat b.addr) (UInt32.ofNat (b.addr + s)))
        (UInt32.ofNat b.addr) (UInt32.ofNat (b.addr + s)) (headAddr 0 ys))
        (UInt32.ofNat (b.addr + s)) 0) 0
      ([] ++ ⟨b.addr, s - 16, b.used⟩ :: ⟨b.addr + s, b.size - s, false⟩ :: ys) 0 := by
  have ht' := tiles_move_first ht h16 hs
  have htb : Tiles 16 lo ([] ++ b :: ys) hi := ht
  have hbap := headerApart_of_tiles htb hhi
  have hsz := size_lt_of_tiles ht hhi (b := b) (by simp)
  have hbn := toNat_ofNat_small (k := b.addr) (by omega)
  have hsn := toNat_ofNat_small (k := b.addr + s) (by omega)
  have hsize : UInt32.ofNat s - sizeofMemBlock = UInt32.ofNat (s - 16) :=
    (UInt32.ofNat_sub (a := s) (b := 16) h16).symm
  have hb' : memBlock (shrink m (UInt32.ofNat b.addr) (UInt32.ofNat (b.addr + s)))
      (UInt32.ofNat b.addr) = ⟨if b.used then 1 else 0, lastAddr 0 [],
        UInt32.ofNat (b.addr + s), UInt32.ofNat (s - 16)⟩ := by
    rw [memBlock_shrink_same, ofNat_slack, hl.1, hsize]
    rfl
  have hn' : (memBlock (shrink m (UInt32.ofNat b.addr) (UInt32.ofNat (b.addr + s)))
      (UInt32.ofNat (b.addr + s))).size = UInt32.ofNat (b.size - s) := by
    rw [shrink_movedSize (by omega) (by omega), hv]
  have hys' := hl.2.congr (fun e he => memBlock_shrink_apart m (hbap e (by simpa using he))
    (UInt32.ofNat (b.addr + s)))
  have h := linked_relink ht' hlo hhi rfl trivial hb' hn' hys'
  dsimp only at h
  exact h

end Move

section Near

variable {s : Nat}

/-- The size in the old header of the first block at that point. -/
def firstSize (m : Mem) (a n : UInt32) : UInt32 :=
  (memBlock (setPrev (shrink m a n) n a) a).size

lemma shrink_next (m : Mem) (a n : UInt32) : read32 (shrink m a n) (a + 8) = n :=
  congrArg MemBlock.next (memBlock_shrink_same m a n)

lemma shrink_size (m : Mem) (a n : UInt32) :
    read32 (shrink m a n) (a + 12) = n - a - sizeofMemBlock :=
  congrArg MemBlock.size (memBlock_shrink_same m a n)

lemma toNat_moved (ha : a.toNat + 16 + s ≤ 2 ^ 32) :
    (a + UInt32.ofNat s).toNat = a.toNat + s := by
  have hs := toNat_ofNat_small (k := s) (by omega)
  rw [toNat_add_small (by omega), hs]

lemma offset_above (a : UInt32) {i j k : Nat} (h : i + k = j) :
    a + UInt32.ofNat i + UInt32.ofNat k = a + UInt32.ofNat j := by
  rw [UInt32.add_assoc, ← UInt32.ofNat_add, h]

lemma firstLink_below (h0 : 0 < s) (h4 : s < 4) :
    (firstLink m a (a + UInt32.ofNat s)).toNat = a.toNat / 256 ^ (4 - s) +
      256 ^ s * ((a + UInt32.ofNat s).toNat / 256 ^ s) := by
  have hplace : a + 8 = a + UInt32.ofNat s + 4 + UInt32.ofNat (4 - s) := by
    have h44 : (4 : UInt32) = UInt32.ofNat 4 := rfl
    have h88 : (8 : UInt32) = UInt32.ofNat 8 := rfl
    rw [h44, h88, offset_above a rfl, offset_above a (j := 8) (by omega)]
  have hword := read32_write32_below (shrink m a (a + UInt32.ofNat s)) (a + UInt32.ofNat s + 4) a
    (t := 4 - s) (by omega) (by omega)
  have hsub : 4 - (4 - s) = s := by omega
  rw [← hplace, shrink_next, hsub] at hword
  exact hword

lemma firstLink_four : firstLink m a (a + UInt32.ofNat 4) = a := by
  have hplace : a + UInt32.ofNat 4 + 4 = a + 8 := offset_above a (i := 4) (k := 4) rfl
  have hword := read32_write32_same (shrink m a (a + UInt32.ofNat 4)) (a + UInt32.ofNat 4 + 4) a
  rw [hplace] at hword
  simp only [firstLink, memBlock, setPrev, hplace, hword]

lemma firstLink_above (h4 : 4 < s) (h8 : s < 8) :
    (firstLink m a (a + UInt32.ofNat s)).toNat = (a + UInt32.ofNat s).toNat % 256 ^ (s - 4) +
      256 ^ (s - 4) * (a.toNat % 256 ^ (8 - s)) := by
  have hplace : a + UInt32.ofNat s + 4 = a + 8 + UInt32.ofNat (s - 4) := by
    have h44 : (4 : UInt32) = UInt32.ofNat 4 := rfl
    have h88 : (8 : UInt32) = UInt32.ofNat 8 := rfl
    rw [h44, h88, offset_above a (j := s + 4) rfl, offset_above a (j := s + 4) (by omega)]
  have hword := read32_write32_above (shrink m a (a + UInt32.ofNat s)) (a + 8) a
    (t := s - 4) (by omega) (by omega)
  have hsub : 4 - (s - 4) = 8 - s := by omega
  rw [← hplace, shrink_next, hsub] at hword
  exact hword

/-- A gap too short for a header gives a size that wraps around. -/
lemma toNat_wrapped_size (a : UInt32) (hs : s < 16) :
    (a + UInt32.ofNat s - a - sizeofMemBlock).toNat = 2 ^ 32 - 16 + s := by
  have h16 : sizeofMemBlock.toNat = 16 := rfl
  rw [UInt32.add_comm, UInt32.add_sub_cancel, UInt32.toNat_sub, h16,
    toNat_ofNat_small (by omega)]
  omega

lemma firstSize_below (h0 : 0 < s) (h4 : s ≤ 4) (ha : a.toNat + 16 + s ≤ 2 ^ 32) :
    (firstSize m a (a + UInt32.ofNat s)).toNat = 2 ^ 32 - 16 + s := by
  have hn := toNat_moved (a := a) ha
  have hn4 : (a + UInt32.ofNat s + 4).toNat = a.toNat + s + 4 := by
    rw [toNat_offset (by omega) (by decide), hn]
    rfl
  have h12 : (12 : UInt32).toNat = 12 := rfl
  have hkeep : firstSize m a (a + UInt32.ofNat s) =
      read32 (shrink m a (a + UInt32.ofNat s)) (a + 12) := by
    apply read32_field_congr (by omega) (by decide)
    intro x hlo _
    apply write32_outside _ _ (by omega)
    unfold Outside
    omega
  rw [hkeep, shrink_size, toNat_wrapped_size a (by omega)]

lemma firstSize_above (h4 : 4 < s) (h8 : s < 8) :
    (firstSize m a (a + UInt32.ofNat s)).toNat = a.toNat / 256 ^ (8 - s) +
      256 ^ (s - 4) * ((2 ^ 32 - 16 + s) / 256 ^ (s - 4)) := by
  have hplace : a + 12 = a + UInt32.ofNat s + 4 + UInt32.ofNat (8 - s) := by
    have h44 : (4 : UInt32) = UInt32.ofNat 4 := rfl
    have h12 : (12 : UInt32) = UInt32.ofNat 12 := rfl
    rw [h44, h12, offset_above a rfl, offset_above a (j := 12) (by omega)]
  have hword := read32_write32_below (shrink m a (a + UInt32.ofNat s)) (a + UInt32.ofNat s + 4) a
    (t := 8 - s) (by omega) (by omega)
  have hsub : 4 - (8 - s) = s - 4 := by omega
  rw [← hplace, shrink_size, hsub, toNat_wrapped_size a (by omega)] at hword
  exact hword

/-- The link from the old header to the new one reads back as null. -/
def LinkLost (a s : Nat) : Prop := s < 4 ∧ a < 256 ^ (4 - s) ∧ a + s < 256 ^ s

lemma firstLink_eq_zero_iff (h0 : 0 < s) (h8 : s < 8) (ha : a.toNat + 16 + s ≤ 2 ^ 32)
    (ha0 : a ≠ 0) : firstLink m a (a + UInt32.ofNat s) = 0 ↔ LinkLost a.toNat s := by
  have hn := toNat_moved (a := a) ha
  have hz : (0 : UInt32).toNat = 0 := rfl
  unfold LinkLost
  rcases Nat.lt_trichotomy s 4 with h4 | rfl | h4
  · rw [← UInt32.toNat_inj, firstLink_below h0 h4, hn, hz]
    obtain rfl | rfl | rfl : s = 1 ∨ s = 2 ∨ s = 3 := by omega
    · omega
    · omega
    · omega
  · rw [firstLink_four]
    simp [ha0]
  · rw [← UInt32.toNat_inj, firstLink_above h4 h8, hn, hz]
    obtain rfl | rfl | rfl : s = 5 ∨ s = 6 ∨ s = 7 := by omega
    · omega
    · omega
    · omega

/-- The old header of the first block does not reach the block it points at. -/
lemma firstLink_ne_end (h0 : 0 < s) (h8 : s < 8) (ha : a.toNat + 16 + s ≤ 2 ^ 32) :
    (firstLink m a (a + UInt32.ofNat s)).toNat ≠
      a.toNat + 16 + (firstSize m a (a + UInt32.ofNat s)).toNat := by
  have hn := toNat_moved (a := a) ha
  have hlt := (firstLink m a (a + UInt32.ofNat s)).toNat_lt
  by_cases h4 : s ≤ 4
  · rw [firstSize_below h0 h4 ha]
    omega
  · rw [firstLink_above (by omega) h8] at hlt ⊢
    rw [firstSize_above (by omega) h8, hn]
    rw [hn] at hlt
    obtain rfl | rfl | rfl : s = 5 ∨ s = 6 ∨ s = 7 := by omega
    · omega
    · omega
    · omega

end Near

end SaxonOS.Proofs
