import SaxonOS.Proofs.HeapMove
import SaxonOS.Proofs.HeapRun
import SaxonOS.Proofs.HeapSplit

/-!
# Sound results of `kmalloc_alligned`

What a call owes on a heap whose blocks lie at any addresses, and when a block that is taken
gives it: an aligned block always does, a block whose header is moved does when the bytes the
header is moved to hold its size.
-/

namespace SaxonOS.Proofs
open Lib

/-- A heap with a linked list of blocks that tile it, at any addresses. -/
structure TiledHeap (h : Heap) (bs : List Extent) : Prop where
  first : h.first = headAddr 0 bs
  linked : Linked h.mem 0 bs 0
  tiles : Tiles 16 h.heapStart.toNat bs h.heapEnd.toNat

/-- What a call that returns `p` owes: an aligned address of a used block that is large enough,
in a list that tiles the same region, with the used blocks `bs` held before still in place. -/
structure AlignedResult (h : Heap) (bs : List Extent) (size al p : UInt32) (h' : Heap) : Prop where
  aligned : p.toNat % al.toNat = 0
  start : h'.heapStart = h.heapStart
  end_ : h'.heapEnd = h.heapEnd
  list : ∃ bs', TiledHeap h' bs' ∧
    (∃ c ∈ bs', c.used = true ∧ payload c = p ∧ size.toNat ≤ c.size) ∧
    ∀ b ∈ bs, b.used = true → ∃ c ∈ bs', c.used = true ∧ payload c = payload b ∧ b.size ≤ c.size

/-- `kmalloc_alligned` panics or returns such a result. -/
def AlignedSound (h : Heap) (bs : List Extent) (size al : UInt32) : Prop :=
  match kmallocAlligned h size al with
  | .ok (p, h') => AlignedResult h bs size al p h'
  | .error (.panic _ _) => True
  | .error _ => False

/-- The header of the misaligned block `b` can be moved: the request does not wrap around, the
gap has a block before it or room for a header, and the bytes that become the size of the new
header hold what is left of the block. -/
structure MovesWell (h : Heap) (size al : UInt32) (b : Extent) : Prop where
  fits : b.addr + 16 + alignGap al b + size.toNat < 2 ^ 32
  room : b.addr ≠ h.heapStart.toNat ∨ 16 ≤ alignGap al b
  size : alignGap al b + (movedSize h.mem (UInt32.ofNat b.addr)
    (UInt32.ofNat (b.addr + alignGap al b))).toNat = b.size

/-- The first suitable block is aligned, or its header can be moved. -/
def Served (h : Heap) (size al : UInt32) (bs : List Extent) : Prop :=
  ∃ b, bs.find? (fun c => Suits size al c) = some b ∧ (alignGap al b = 0 ∨ MovesWell h size al b)

/-- The suitable block `b` loses its header to a null link. -/
def Lost (size al : UInt32) (b : Extent) : Prop :=
  Suits size al b ∧ alignGap al b ≠ 0 ∧ LinkLost b.addr (alignGap al b)

/-- No block suits, but for blocks at the front of the list that get lost. -/
def Refused (size al : UInt32) (bs : List Extent) : Prop :=
  ∃ lost rest, bs = lost ++ rest ∧ (∀ c ∈ lost, Lost size al c) ∧ ∀ c ∈ rest, ¬Suits size al c

def AlignedCondition (h : Heap) (bs : List Extent) (size al : UInt32) : Prop :=
  h.first = 0 ∨ Refused size al bs ∨ Served h size al bs

variable {h : Heap} {m m' : Mem} {size al p r : UInt32} {bs pre post xs ys : List Extent}
  {b c : Extent} {lo hi fuel : Nat}

lemma alignedSound_iff (h0 : al ≠ 0)
    (hs : kmallocAllignedSearch size al walkFuel h.mem h.first = .ok (m', r)) :
    AlignedSound h bs size al ↔ (r ≠ 0 → AlignedResult h bs size al (r + sizeofMemBlock)
      { h with mem := splitBlock m' r size }) := by
  unfold AlignedSound kmallocAlligned
  rw [if_neg h0, hs]
  by_cases hr : r = 0
  · simp [bind, Except.bind, hr]
  · simp [bind, Except.bind, hr]

lemma headAddr_place (k : Nat) (b : Extent) (ys : List Extent) :
    headAddr 0 (place 16 k b ++ ys) = UInt32.ofNat b.addr := by
  unfold place
  split <;> rfl

/-- The first extent of `place` is the used one. -/
lemma place_used {k : Nat} (hk : k < b.size) :
    ∃ c ∈ place 16 k b, c.used = true ∧ c.addr = b.addr ∧ k ≤ c.size := by
  unfold place
  split
  · exact ⟨⟨b.addr, k, true⟩, by simp, rfl, rfl, Nat.le_refl k⟩
  · exact ⟨⟨b.addr, b.size, true⟩, by simp, rfl, rfl, Nat.le_of_lt hk⟩

/-- The split of a block leaves its flag unread. -/
lemma splitBlock_of_flag (hl : Linked (setUsed m (UInt32.ofNat b.addr) 0) 0 (xs ++ b :: ys) 0)
    (ht : Tiles 16 lo (xs ++ b :: ys) hi) (hlo : 0 < lo) (hhi : hi < 2 ^ 32)
    (hsize : size.toNat < b.size) :
    Linked (splitBlock m (UInt32.ofNat b.addr) size) 0
      (xs ++ (place 16 size.toNat b ++ ys)) 0 := by
  have hsz := size_lt_of_tiles ht hhi (b := b) (by simp)
  have hsame : SameBut (UInt32.ofNat b.addr) (setUsed m (UInt32.ofNat b.addr) 0) m := by
    intro x hx
    exact (write8_of_ne m 0 hx).symm
  have hb := (linked_append.mp hl).2.1
  have hap : (memBlock (setUsed m (UInt32.ofNat b.addr) 0) (UInt32.ofNat b.addr)).size ≥
      size + sizeofMemBlock + 1 →
      HeaderApart (UInt32.ofNat b.addr) (UInt32.ofNat b.addr + sizeofMemBlock + size) := by
    intro hs
    have hbn := toNat_ofNat_small (k := b.addr) (by omega)
    have h16 : sizeofMemBlock.toNat = 16 := rfl
    rw [hb] at hs
    have hcut := (surplus_iff (b := b) (k := size.toNat) (by omega) (by omega)).mp
      (by rw [UInt32.ofNat_toNat]; exact hs)
    have h1 : (UInt32.ofNat b.addr + sizeofMemBlock).toNat = b.addr + 16 := by
      rw [toNat_add_small (by omega), hbn, h16]
    have h2 : (UInt32.ofNat b.addr + sizeofMemBlock + size).toNat = b.addr + 16 + size.toNat := by
      rw [toNat_add_small (by omega), h1]
    exact ⟨by omega, by omega, by omega⟩
  rw [hsame.splitBlock_eq hap]
  have hsplit := linked_splitBlock hl ht hlo hhi hsize
  rw [UInt32.ofNat_toNat] at hsplit
  exact hsplit

/-- A suitable block of a list that represents the heap but for its own flag gives a sound
result. -/
lemma alignedResult_of_linked (hfirst : h.first = headAddr 0 (xs ++ b :: ys))
    (hl : Linked (setUsed m (UInt32.ofNat b.addr) 0) 0 (xs ++ b :: ys) 0)
    (ht : Tiles 16 h.heapStart.toNat (xs ++ b :: ys) h.heapEnd.toNat) (hlo : 0 < h.heapStart.toNat)
    (hsize : size.toNat < b.size) (hal : (b.addr + 16) % al.toNat = 0)
    (hkeep : ∀ d ∈ bs, d.used = true → ∃ e ∈ xs ++ ys, e.used = true ∧ e.addr = d.addr ∧
      d.size ≤ e.size) :
    AlignedResult h bs size al (UInt32.ofNat b.addr + sizeofMemBlock)
      { h with mem := splitBlock m (UInt32.ofNat b.addr) size } := by
  have hhi := h.heapEnd.toNat_lt
  have hsz := size_lt_of_tiles ht hhi (b := b) (by simp)
  have hp : UInt32.ofNat b.addr + sizeofMemBlock = UInt32.ofNat (b.addr + 16) :=
    (UInt32.ofNat_add _ _).symm
  have hlink := splitBlock_of_flag hl ht hlo hhi hsize
  have htiles := ht.cut size.toNat
  have hhead : h.first = headAddr 0 (xs ++ (place 16 size.toNat b ++ ys)) := by
    rw [hfirst, headAddr_append, headAddr_append, headAddr_place]
    rfl
  refine ⟨?_, rfl, rfl, xs ++ (place 16 size.toNat b ++ ys), ⟨hhead, hlink, htiles⟩, ?_, ?_⟩
  · rw [hp, toNat_ofNat_small (by omega)]
    exact hal
  · obtain ⟨c, hc, hcu, hca, hcs⟩ := place_used hsize
    refine ⟨c, by simp [hc], hcu, ?_, hcs⟩
    rw [payload, hca, hp]
  · intro d hd hdu
    obtain ⟨e, he, heu, hea, hes⟩ := hkeep d hd hdu
    refine ⟨e, ?_, heu, by rw [payload, payload, hea], hes⟩
    rcases List.mem_append.mp he with he | he
    · simp [he]
    · simp [he]

/-- The comparisons at a misaligned block mean what they say when the request does not wrap
around. -/
lemma Suits.room (hs : Suits size al b) (hg : alignGap al b ≠ 0) (hb : b.addr + 16 + b.size < 2 ^ 32)
    (hfit : b.addr + 16 + alignGap al b + size.toNat < 2 ^ 32) :
    alignGap al b + size.toNat + 16 ≤ b.size := by
  have h16 : sizeofMemBlock.toNat = 16 := rfl
  obtain ⟨-, hcmp⟩ := hs
  rw [if_neg hg, UInt32.le_iff_toNat_le, UInt32.le_iff_toNat_le] at hcmp
  have ha := toNat_ofNat_small (k := b.addr + 16 + alignGap al b) (by omega)
  have ht := toNat_ofNat_small (k := b.addr + 16 + b.size) hb
  rw [toNat_add_small (by omega), ha, ht] at hcmp
  obtain ⟨h1, h2⟩ := hcmp
  rw [toNat_add_small (by omega), UInt32.toNat_sub_of_le _ _ (UInt32.le_iff_toNat_le.mpr (by omega)),
    ha, ht, h16] at h2
  omega

lemma MovesWell.movedSize_eq (hw : MovesWell h size al b) :
    movedSize h.mem (UInt32.ofNat b.addr) (UInt32.ofNat (b.addr + alignGap al b)) =
      UInt32.ofNat (b.size - alignGap al b) := by
  rw [← hw.size, Nat.add_sub_cancel_left, UInt32.ofNat_toNat]

/-- The block a sound result hands out, in the list it leaves. -/
lemma AlignedResult.block (hres : AlignedResult h bs size al (r + sizeofMemBlock)
      { h with mem := splitBlock m' r size }) :
    ∃ bs' c, Linked (splitBlock m' r size) 0 bs' 0 ∧
      Tiles 16 h.heapStart.toNat bs' h.heapEnd.toNat ∧ c ∈ bs' ∧ UInt32.ofNat c.addr = r ∧
      size.toNat ≤ c.size := by
  obtain ⟨bs', hT, ⟨c, hc, -, hcp, hcs⟩, -⟩ := hres.list
  refine ⟨bs', c, hT.linked, hT.tiles, hc, ?_, hcs⟩
  rw [payload, UInt32.ofNat_add] at hcp
  exact (UInt32.add_left_inj _).mp hcp

section Results

variable (hh : TiledHeap h bs) (hlo : 0 < h.heapStart.toNat)
include hh hlo

lemma alignedResult_aligned (h0 : al ≠ 0) (hbs : bs = pre ++ b :: post) (hb : Suits size al b)
    (hg : alignGap al b = 0) :
    AlignedResult h bs size al (UInt32.ofNat b.addr + sizeofMemBlock)
      { h with mem := splitBlock h.mem (UInt32.ofNat b.addr) size } := by
  subst hbs
  obtain ⟨hu, hsize⟩ := hb
  rw [if_pos hg] at hsize
  have hflag : Linked (setUsed h.mem (UInt32.ofNat b.addr) 0) 0 (pre ++ b :: post) 0 := by
    have hl := linked_setUsed false hh.linked hh.tiles h.heapEnd.toNat_lt
    have heq : (⟨b.addr, b.size, false⟩ : Extent) = b := by rw [← hu]
    rw [heq] at hl
    exact hl
  apply alignedResult_of_linked hh.first hflag hh.tiles hlo hsize
    ((alignGap_eq_zero_iff h0 b).mp hg)
  intro d hd hdu
  refine ⟨d, ?_, hdu, rfl, Nat.le_refl _⟩
  rcases List.mem_append.mp hd with hd | hd
  · simp [hd]
  · rcases List.mem_cons.mp hd with rfl | hd
    · rw [hu] at hdu
      cases hdu
    · simp [hd]

/-- A sound list in which the header of `b` is moved gives a sound result. -/
lemma alignedResult_moved (h0 : al ≠ 0) (hb : b ∈ bs) (hsu : Suits size al b)
    (hg : alignGap al b ≠ 0) (hw : MovesWell h size al b)
    (hfirst : h.first = headAddr 0
      (xs ++ ⟨b.addr + alignGap al b, b.size - alignGap al b, false⟩ :: ys))
    (hl : Linked (setUsed m' (UInt32.ofNat (b.addr + alignGap al b)) 0) 0
      (xs ++ ⟨b.addr + alignGap al b, b.size - alignGap al b, false⟩ :: ys) 0)
    (ht : Tiles 16 h.heapStart.toNat
      (xs ++ ⟨b.addr + alignGap al b, b.size - alignGap al b, false⟩ :: ys) h.heapEnd.toNat)
    (hkeep : ∀ d ∈ bs, d.used = true → ∃ e ∈ xs ++ ys, e.used = true ∧ e.addr = d.addr ∧
      d.size ≤ e.size) :
    AlignedResult h bs size al (UInt32.ofNat (b.addr + alignGap al b) + sizeofMemBlock)
      { h with mem := splitBlock m' (UInt32.ofNat (b.addr + alignGap al b)) size } := by
  have hbz := size_lt_of_tiles hh.tiles h.heapEnd.toNat_lt hb
  have hroom := hsu.room hg hbz hw.fits
  have hmod : (b.addr + alignGap al b + 16) % al.toNat = 0 := by
    rw [Nat.add_right_comm]
    exact alignGap_mod h0 b
  have hsize : size.toNat < b.size - alignGap al b := by omega
  have hres := alignedResult_of_linked hfirst hl ht hlo hsize hmod hkeep
  exact hres

/-- A header that is moved well away from a predecessor. -/
lemma alignedResult_behind (h0 : al ≠ 0) (hbs : bs = xs ++ c :: b :: ys) (hb : Suits size al b)
    (hg : alignGap al b ≠ 0) (hw : MovesWell h size al b)
    (hm : moveHeader h.mem (UInt32.ofNat b.addr) (UInt32.ofNat (b.addr + 16 + alignGap al b)) =
      (m', r)) :
    AlignedResult h bs size al (r + sizeofMemBlock) { h with mem := splitBlock m' r size } := by
  subst hbs
  have hhi := h.heapEnd.toNat_lt
  have hbm : b ∈ xs ++ c :: b :: ys := by simp
  have hsz := size_lt_of_tiles hh.tiles hhi hbm
  have hfits := hw.fits
  have hroom := hb.room hg hsz hfits
  have hle : alignGap al b ≤ b.size := by omega
  rw [moveHeader_behind hh.linked hh.tiles hlo hhi (by omega)] at hm
  obtain ⟨rfl, rfl⟩ := Prod.mk.inj hm
  have hl := linked_move_behind hh.linked hh.tiles hlo hhi (by omega) hle hw.movedSize_eq
  have ht := tiles_move_behind hh.tiles hle
  rw [List.append_cons] at hl ht
  have hfirst : h.first = headAddr 0 ((xs ++ [⟨c.addr, c.size + alignGap al b, c.used⟩]) ++
      ⟨b.addr + alignGap al b, b.size - alignGap al b, false⟩ :: ys) := by
    rw [hh.first, List.append_assoc, headAddr_append, headAddr_append]
    rfl
  apply alignedResult_moved hh hlo h0 hbm hb hg hw hfirst hl ht
  intro d hd hdu
  simp only [List.mem_append, List.mem_cons] at hd
  rcases hd with hd | rfl | rfl | hd
  · exact ⟨d, by simp [hd], hdu, rfl, Nat.le_refl _⟩
  · exact ⟨⟨d.addr, d.size + alignGap al b, d.used⟩, by simp, hdu, rfl, Nat.le_add_right _ _⟩
  · rw [hb.1] at hdu
    cases hdu
  · exact ⟨d, by simp [hd], hdu, rfl, Nat.le_refl _⟩

/-- A header that is moved well away from the start of the heap. -/
lemma alignedResult_first (h0 : al ≠ 0) (hbs : bs = b :: ys) (hb : Suits size al b)
    (hg : alignGap al b ≠ 0) (hw : MovesWell h size al b)
    (hm : moveHeader h.mem (UInt32.ofNat b.addr) (UInt32.ofNat (b.addr + 16 + alignGap al b)) =
      (m', r)) :
    AlignedResult h bs size al (r + sizeofMemBlock) { h with mem := splitBlock m' r size } := by
  subst hbs
  have hhi := h.heapEnd.toNat_lt
  have hsz := size_lt_of_tiles hh.tiles hhi (b := b) (by simp)
  have hfits := hw.fits
  have hroom := hb.room hg hsz hfits
  have hle : alignGap al b ≤ b.size := by omega
  have h16 : 16 ≤ alignGap al b := by
    rcases hw.room with hne | h16
    · exact absurd hh.tiles.1 hne
    · exact h16
  rw [moveHeader_first_far hh.linked (by omega) (by omega)] at hm
  obtain ⟨rfl, rfl⟩ := Prod.mk.inj hm
  have hl := linked_move_first hh.linked hh.tiles hlo hhi h16 hle hw.movedSize_eq
  have ht := tiles_move_first hh.tiles h16 hle
  rw [List.append_cons] at hl ht
  have hfirst : h.first = headAddr 0 (([] ++ [⟨b.addr, alignGap al b - 16, b.used⟩]) ++
      ⟨b.addr + alignGap al b, b.size - alignGap al b, false⟩ :: ys) := hh.first
  apply alignedResult_moved hh hlo h0 List.mem_cons_self hb hg hw hfirst hl ht
  intro d hd hdu
  rcases List.mem_cons.mp hd with rfl | hd
  · rw [hb.1] at hdu
    cases hdu
  · exact ⟨d, by simp [hd], hdu, rfl, Nat.le_refl _⟩

/-- A sound result for a block whose header was moved says that it was moved well. -/
lemma movesWell_of_result (hb : b ∈ bs) (hsu : Suits size al b) (hg : alignGap al b ≠ 0)
    (hr : r = UInt32.ofNat (b.addr + alignGap al b)) (hle : b.addr + 16 + alignGap al b ≤ 2 ^ 32)
    (hnext : alignGap al b ≤ b.size →
      (memBlock m' r).next = (memBlock h.mem (UInt32.ofNat b.addr)).next ∧
      (memBlock m' r).size = movedSize h.mem (UInt32.ofNat b.addr) r)
    (hres : AlignedResult h bs size al (r + sizeofMemBlock)
      { h with mem := splitBlock m' r size }) : MovesWell h size al b := by
  obtain ⟨bs', c, hl, ht, hc, hca, hcs⟩ := hres.block
  have hhi := h.heapEnd.toNat_lt
  have hcz := size_lt_of_tiles ht hhi hc
  have hbz := size_lt_of_tiles hh.tiles hhi hb
  have hcn : c.addr = b.addr + alignGap al b := by
    have hc' := toNat_ofNat_small (k := c.addr) (by omega)
    rw [← hc', hca, hr, toNat_ofNat_small (by omega)]
  have hfits : b.addr + 16 + alignGap al b + size.toNat < 2 ^ 32 := by omega
  have hroom := hsu.room hg hbz hfits
  obtain ⟨hmn, hms⟩ := hnext (by omega)
  have hend := hh.linked.end_eq hh.tiles hlo hhi hb
  rw [hh.linked.size_eq hh.tiles hhi hb] at hend
  have hsplit := splitBlock_end hl ht hhi hc hca hcs hlo ?_
  · refine ⟨hfits, ?_, ?_⟩
    · by_cases hstart : b.addr = h.heapStart.toNat
      · have := tiles_behind_head ht hc (by omega)
        exact Or.inr (by omega)
      · exact Or.inl hstart
    · rw [hms, hmn, ← hend, hr] at hsplit
      omega
  · intro hn0
    rw [hmn] at hn0 ⊢
    obtain ⟨d, hd, hda⟩ := hh.linked.next_mem hb hn0
    have hdz := size_lt_of_tiles hh.tiles hhi hd
    have hdn := toNat_ofNat_small (k := d.addr) (by omega)
    rw [hda] at hdn
    rw [if_neg hn0] at hend
    omega

end Results

end SaxonOS.Proofs
