import SaxonOS.Proofs.HeapBlocks

/-!
# What `splitBlock` tells about the list it leaves

When the list is sound afterwards, the tail that was cut off is one of its blocks, the size
found in the block handed out was the right one, and the first header was not touched.
-/

namespace SaxonOS.Proofs
open Lib

variable {m m' : Mem} {p : UInt32} {bs : List Extent} {c : Extent} {lo hi : Nat}

lemma Linked.size_eq (hl : Linked m p bs 0) (ht : Tiles 16 lo bs hi) (hhi : hi < 2 ^ 32)
    (hc : c ∈ bs) : (memBlock m (UInt32.ofNat c.addr)).size.toNat = c.size := by
  have hsz := size_lt_of_tiles ht hhi hc
  obtain ⟨pre, post, rfl⟩ := List.append_of_mem hc
  rw [(linked_append.mp hl).2.1, toNat_ofNat_small (by omega)]

/-- A block of the list ends where its `next` begins, or at the end of the heap. -/
lemma Linked.end_eq (hl : Linked m p bs 0) (ht : Tiles 16 lo bs hi) (hlo : 0 < lo)
    (hhi : hi < 2 ^ 32) (hc : c ∈ bs) :
    c.addr + 16 + (memBlock m (UInt32.ofNat c.addr)).size.toNat =
      if (memBlock m (UInt32.ofNat c.addr)).next = 0 then hi
      else (memBlock m (UInt32.ofNat c.addr)).next.toNat := by
  rw [hl.size_eq ht hhi hc]
  obtain ⟨pre, post, rfl⟩ := List.append_of_mem hc
  have hb := (linked_append.mp hl).2.1
  obtain ⟨mid, -, hca, hpost⟩ := tiles_append.mp ht
  rw [hb]
  cases post with
  | nil =>
    rw [headAddr, if_pos rfl, hca]
    exact hpost
  | cons d post =>
    have hd0 := ofNat_addr_ne_zero ht hlo hhi (b := d) (by simp)
    have hd := size_lt_of_tiles ht hhi (b := d) (by simp)
    rw [headAddr, if_neg hd0, toNat_ofNat_small (by omega), hpost.1, hca]

/-- A `next` that is not null is a block of the list. -/
lemma Linked.next_mem (hl : Linked m p bs 0) (hc : c ∈ bs)
    (h0 : (memBlock m (UInt32.ofNat c.addr)).next ≠ 0) :
    ∃ d ∈ bs, UInt32.ofNat d.addr = (memBlock m (UInt32.ofNat c.addr)).next := by
  obtain ⟨pre, post, rfl⟩ := List.append_of_mem hc
  have hb := (linked_append.mp hl).2.1
  rw [hb] at h0 ⊢
  cases post with
  | nil => exact absurd rfl h0
  | cons d post => exact ⟨d, by simp, rfl⟩

/-- The first block lies at the start. -/
lemma tiles_head (ht : Tiles 16 lo bs hi) (hc : c ∈ bs) : ∃ e ∈ bs, e.addr = lo := by
  cases bs with
  | nil => cases hc
  | cons e bs => exact ⟨e, List.mem_cons_self, ht.1⟩

/-- Every other block begins behind the header of the first one. -/
lemma tiles_behind_head (ht : Tiles 16 lo bs hi) (hc : c ∈ bs) (hne : c.addr ≠ lo) :
    lo + 16 ≤ c.addr := by
  obtain ⟨e, he, hea⟩ := tiles_head ht hc
  have hapart := ht.apart he hc (by rintro rfl; exact hne hea)
  have := (ht.bounds hc).1
  omega

lemma splitBlock_next {r size : UInt32} (hs : (memBlock m r).size ≥ size + sizeofMemBlock + 1) :
    (memBlock (splitBlock m r size) r).next = r + sizeofMemBlock + size := by
  unfold splitBlock
  simp only [if_pos hs]
  simp

/-- Memories that differ in the flag at `r` at most. -/
def SameBut (r : UInt32) (m m' : Mem) : Prop := ∀ x, x ≠ r → m' x = m x

lemma SameBut.write8 {r : UInt32} (h : SameBut r m m') (a : UInt32) (v : UInt8) :
    SameBut r (write8 m a v) (write8 m' a v) := by
  intro x hx
  simp [Lib.write8, Function.update, h x hx]

lemma SameBut.write32 {r : UInt32} (h : SameBut r m m') (a v : UInt32) :
    SameBut r (write32 m a v) (write32 m' a v) := by
  intro x hx
  exact write32_congr_at (h x hx) a v

lemma SameBut.next {r : UInt32} (h : SameBut r m m') :
    (memBlock m' r).next = (memBlock m r).next :=
  read32_congr (h _ (by simp)) (h _ (by simp [UInt32.add_assoc]))
    (h _ (by simp [UInt32.add_assoc])) (h _ (by simp [UInt32.add_assoc]))

lemma SameBut.size {r : UInt32} (h : SameBut r m m') :
    (memBlock m' r).size = (memBlock m r).size :=
  read32_congr (h _ (by simp)) (h _ (by simp [UInt32.add_assoc]))
    (h _ (by simp [UInt32.add_assoc])) (h _ (by simp [UInt32.add_assoc]))

lemma SameBut.setUsed_eq {r : UInt32} (h : SameBut r m m') (v : UInt8) :
    setUsed m' r v = setUsed m r v := by
  funext x
  by_cases hx : x = r
  · simp [setUsed, hx, write8_same]
  · rw [setUsed, setUsed, write8_of_ne _ _ hx, write8_of_ne _ _ hx, h x hx]

lemma SameBut.cutTail {r : UInt32} (h : SameBut r m m') (x tmp size rest next : UInt32) :
    SameBut r (cutTail m x tmp size rest next) (cutTail m' x tmp size rest next) := by
  unfold Proofs.cutTail
  have htail := (((h.write8 tmp 0).write32 (tmp + 12) rest).write32 (tmp + 4) x).write32
    (tmp + 8) next
  by_cases h0 : next = 0
  · simp only [h0, ne_eq, not_true, if_false] at htail ⊢
    exact (htail.write32 (x + 12) size).write32 (x + 8) tmp
  · simp only [h0, ne_eq, not_false_iff, if_true]
    exact ((htail.write32 (next + 4) tmp).write32 (x + 12) size).write32 (x + 8) tmp

/-- The flag of the block handed out is written by `splitBlock` and not read. -/
lemma SameBut.splitBlock_eq {r size : UInt32} (h : SameBut r m m')
    (hap : (memBlock m r).size ≥ size + sizeofMemBlock + 1 →
      HeaderApart r (r + sizeofMemBlock + size)) :
    splitBlock m' r size = splitBlock m r size := by
  by_cases hs : (memBlock m r).size ≥ size + sizeofMemBlock + 1
  · rw [splitBlock_eq_cutTail rfl (hap hs) hs,
      splitBlock_eq_cutTail rfl (hap hs) (by rw [h.size]; exact hs), h.size, h.next]
    exact (h.cutTail _ _ _ _ _).setUsed_eq 1
  · unfold splitBlock
    rw [h.size, if_neg hs, if_neg hs]
    exact h.setUsed_eq 1

/-- A word written anywhere but at `x` leaves it alone, when the write may wrap around to the
lowest addresses. -/
lemma setPrev_elsewhere (m : Mem) {a x : UInt32} (v : UInt32) (h8 : 8 ≤ x.toNat)
    (h : x.toNat < a.toNat + 4 ∨ a.toNat + 8 ≤ x.toNat) : setPrev m a v x = m x := by
  have hx := x.toNat_lt
  have ha := a.toNat_lt
  have hne : ∀ k : UInt32, k.toNat < 4 → x ≠ a + 4 + k := by
    intro k hk he
    have h4 : (4 : UInt32).toNat = 4 := rfl
    have hk' := congrArg UInt32.toNat he
    rw [UInt32.toNat_add, UInt32.toNat_add, h4] at hk'
    omega
  refine write32_of_ne m v ?_ (hne 1 (by decide)) (hne 2 (by decide)) (hne 3 (by decide))
  simpa using hne 0 (by decide)

lemma cutTail_outside {a tmp next x : UInt32} (size rest : UInt32) (hap : HeaderApart a tmp)
    (ha : Outside x a 16) (ht : Outside x tmp 16)
    (hn : next ≠ 0 → ∀ m' : Mem, setPrev m' next tmp x = m' x) :
    cutTail m a tmp size rest next x = m x := by
  rw [cutTail, setNext_outside _ hap.left ha, setSize_outside _ hap.left ha]
  by_cases h0 : next = 0
  · rw [if_neg (not_not.mpr h0), setNext_outside _ hap.right ht, setPrev_outside _ hap.right ht,
      setSize_outside _ hap.right ht, setUsed_outside _ hap.right ht]
  · rw [if_pos h0, hn h0, setNext_outside _ hap.right ht, setPrev_outside _ hap.right ht,
      setSize_outside _ hap.right ht, setUsed_outside _ hap.right ht]

section Afterwards

variable {r size x : UInt32} (hl : Linked (splitBlock m r size) 0 bs 0) (ht : Tiles 16 lo bs hi)
  (hhi : hi < 2 ^ 32) (hc : c ∈ bs) (hr : UInt32.ofNat c.addr = r) (hsize : size.toNat ≤ c.size)
include hl ht hhi hc hr hsize

/-- In a list that is sound afterwards the tail that was cut off is a block. -/
lemma splitBlock_tail (hs : (memBlock m r).size ≥ size + sizeofMemBlock + 1) :
    ∃ d ∈ bs, UInt32.ofNat d.addr = r + sizeofMemBlock + size ∧
      d.addr = c.addr + 16 + size.toNat ∧ HeaderApart r (r + sizeofMemBlock + size) := by
  have hsz := size_lt_of_tiles ht hhi hc
  have hrn : r.toNat = c.addr := by rw [← hr, toNat_ofNat_small (by omega)]
  have h16 : sizeofMemBlock.toNat = 16 := rfl
  have hr16 : (r + sizeofMemBlock).toNat = c.addr + 16 := by
    rw [toNat_add_small (by omega), hrn, h16]
  have htmp : (r + sizeofMemBlock + size).toNat = c.addr + 16 + size.toNat := by
    rw [toNat_add_small (by omega), hr16]
  have hnext := splitBlock_next hs
  have h0 : (memBlock (splitBlock m r size) (UInt32.ofNat c.addr)).next ≠ 0 := by
    rw [hr, hnext]
    intro h0
    rw [h0] at htmp
    have : (0 : UInt32).toNat = 0 := rfl
    omega
  obtain ⟨d, hd, hda⟩ := hl.next_mem hc h0
  rw [hr, hnext] at hda
  have hdz := size_lt_of_tiles ht hhi hd
  have hdn : d.addr = c.addr + 16 + size.toNat := by
    rw [← htmp, ← hda, toNat_ofNat_small (by omega)]
  exact ⟨d, hd, hda, hdn, by omega, by omega, by omega⟩

/-- If moreover the block handed out is not the first one, `splitBlock` has not written the
link and the size of the first block. -/
lemma splitBlock_first (hne : lo + 16 ≤ c.addr) (hx : lo + 8 ≤ x.toNat)
    (hx' : x.toNat < lo + 16) : splitBlock m r size x = m x := by
  have hsz := size_lt_of_tiles ht hhi hc
  have hrn : r.toNat = c.addr := by rw [← hr, toNat_ofNat_small (by omega)]
  by_cases hs : (memBlock m r).size ≥ size + sizeofMemBlock + 1
  · obtain ⟨d, hd, hda, hdn, hap⟩ := splitBlock_tail hl ht hhi hc hr hsize hs
    have hdz := size_lt_of_tiles ht hhi hd
    have htmp : (r + sizeofMemBlock + size).toNat = d.addr := by
      rw [← hda, toNat_ofNat_small (by omega)]
    have hcut := splitBlock_eq_cutTail rfl hap hs
    -- The block behind the tail is in the list, or its header is close to the tail's.
    have hfar : (memBlock m r).next ≠ 0 → (memBlock m r).next.toNat = lo ∨
        lo + 16 ≤ (memBlock m r).next.toNat := by
      intro h0
      by_cases hapn : HeaderApart (memBlock m r).next (r + sizeofMemBlock + size)
      · have htail : (memBlock (splitBlock m r size) (UInt32.ofNat d.addr)).next =
            (memBlock m r).next := by
          rw [hda, hcut, memBlock_setUsed_apart _ _ hap,
            memBlock_cutTail_tail _ _ hap (fun _ => hapn)]
        obtain ⟨e, he, hea⟩ := hl.next_mem hd (by rw [htail]; exact h0)
        have hez := size_lt_of_tiles ht hhi he
        rw [← htail, ← hea, toNat_ofNat_small (by omega)]
        by_cases hel : e.addr = lo
        · exact Or.inl hel
        · exact Or.inr (tiles_behind_head ht he hel)
      · exact Or.inr (Nat.le_of_not_lt (fun hlt => hapn ⟨by omega, by omega, by omega⟩))
    rw [hcut, setUsed_outside _ hap.left (Or.inl (by omega))]
    apply cutTail_outside _ _ hap (Or.inl (by omega)) (Or.inl (by omega))
    intro h0 m'
    have := hfar h0
    exact setPrev_elsewhere m' _ (by omega) (by omega)
  · unfold splitBlock
    rw [if_neg hs]
    apply write8_of_ne
    rintro rfl
    omega

/-- The size found in the header of the block handed out reaches to the block behind it. -/
lemma splitBlock_end (hlo : 0 < lo) (hnext : (memBlock m r).next ≠ 0 →
      c.addr + 16 + size.toNat + 16 ≤ (memBlock m r).next.toNat ∧
      (memBlock m r).next.toNat + 16 ≤ 2 ^ 32) :
    c.addr + 16 + (memBlock m r).size.toNat =
      if (memBlock m r).next = 0 then hi else (memBlock m r).next.toNat := by
  have hsz := size_lt_of_tiles ht hhi hc
  have hca := (ht.bounds hc).1
  by_cases hs : (memBlock m r).size ≥ size + sizeofMemBlock + 1
  · obtain ⟨d, hd, hda, hdn, hap⟩ := splitBlock_tail hl ht hhi hc hr hsize hs
    have hdz := size_lt_of_tiles ht hhi hd
    have htmp : (r + sizeofMemBlock + size).toNat = d.addr := by
      rw [← hda, toNat_ofNat_small (by omega)]
    have hapn : (memBlock m r).next ≠ 0 →
        HeaderApart (memBlock m r).next (r + sizeofMemBlock + size) := by
      intro h0
      have := hnext h0
      exact ⟨by omega, by omega, by omega⟩
    have hend := hl.end_eq ht hlo hhi hd
    rw [hda, splitBlock_eq_cutTail rfl hap hs, memBlock_setUsed_apart _ _ hap,
      memBlock_cutTail_tail _ _ hap hapn] at hend
    have h16 : sizeofMemBlock.toNat = 16 := rfl
    have h1 : (1 : UInt32).toNat = 1 := rfl
    rw [ge_iff_le, UInt32.le_iff_toNat_le, UInt32.toNat_add, UInt32.toNat_add, h16, h1] at hs
    have hsub := UInt32.toNat_sub_of_le (memBlock m r).size size
      (UInt32.le_iff_toNat_le.mpr (by omega))
    have hrest := UInt32.toNat_sub_of_le ((memBlock m r).size - size) sizeofMemBlock
      (UInt32.le_iff_toNat_le.mpr (by omega))
    rw [← hend, hrest, hsub, hdn, h16]
    omega
  · have hend := hl.end_eq ht hlo hhi hc
    have hkeep : splitBlock m r size = setUsed m r 1 := by
      unfold splitBlock
      rw [if_neg hs]
    rw [hr, hkeep, memBlock_setUsed_same] at hend
    exact hend

end Afterwards

end SaxonOS.Proofs
