import SaxonOS.Proofs.HeapResults

/-!
# What the heap leaves alone

`kmalloc` and `kfree` write to headers only, so a payload keeps its bytes over both. The headers in
turn determine the list of blocks.
-/

namespace SaxonOS.Proofs
open Lib

/-- The byte `x` is in no header of the blocks. -/
def InNoHeader (bs : List Extent) (x : UInt32) : Prop :=
  ∀ c ∈ bs, x.toNat < c.addr ∨ c.addr + 16 ≤ x.toNat

variable {m m' : Mem} {h : Heap} {bs xs ys : List Extent} {b c : Extent} {lo hi : Nat} {x : UInt32}

lemma InNoHeader.outside (hx : InNoHeader bs x) (ht : Tiles 16 lo bs hi) (hhi : hi < 2 ^ 32)
    (hc : c ∈ bs) : Outside x (UInt32.ofNat c.addr) 16 := by
  have hsz := size_lt_of_tiles ht hhi hc
  have hcn := toNat_ofNat_small (k := c.addr) (by omega)
  have hxc := hx c hc
  unfold Outside
  omega

lemma inNoHeader_payload (ht : Tiles 16 lo bs hi) (hb : b ∈ bs) (hx : b.addr + 16 ≤ x.toNat)
    (hx' : x.toNat < b.addr + 16 + b.size) : InNoHeader bs x := by
  intro c hc
  by_cases hbc : b = c
  · subst hbc
    exact Or.inr hx
  · have hapart := ht.apart hb hc hbc
    omega

/-- Only the addresses of the blocks matter. -/
lemma InNoHeader.of_addr {zs : List Extent} (hx : InNoHeader (xs ++ b :: zs) x)
    (hc : c.addr = b.addr) (hys : ∀ d ∈ ys, d ∈ zs) : InNoHeader (xs ++ c :: ys) x := by
  intro d hd
  rcases List.mem_append.mp hd with hd | hd
  · exact hx d (by simp [hd])
  · rcases List.mem_cons.mp hd with rfl | hd
    · rw [hc]
      exact hx b (by simp)
    · exact hx d (by simp [hys d hd])

section Unique

variable {p p' : UInt32} {bs' zs : List Extent} {d : Extent}

/-- The first block of another list that tiles the region, where the sizes in the headers
agree. -/
lemma first_of_size (hl : Linked m p (d :: zs) 0) (ht : Tiles 16 lo (d :: zs) hi)
    (hl' : Linked m' p' bs' 0) (ht' : Tiles 16 lo bs' hi) (hhi : hi < 2 ^ 32)
    (hsize : (memBlock m' (UInt32.ofNat d.addr)).size =
      (memBlock m (UInt32.ofNat d.addr)).size) :
    ∃ d' ys, bs' = d' :: ys ∧ d'.addr = d.addr ∧ d'.size = d.size := by
  have hd := size_lt_of_tiles ht hhi List.mem_cons_self
  cases bs' with
  | nil =>
    have hbound := (ht.bounds List.mem_cons_self).2
    have hlo := ht.1
    have hend : lo = hi := ht'
    omega
  | cons d' ys =>
    have hd' := size_lt_of_tiles ht' hhi List.mem_cons_self
    have haddr : d'.addr = d.addr := ht'.1.trans ht.1.symm
    refine ⟨d', ys, rfl, haddr, ?_⟩
    rw [← haddr, hl'.1, haddr, hl.1] at hsize
    have hnat := congrArg UInt32.toNat hsize
    dsimp only at hnat
    rwa [toNat_ofNat_small (by omega), toNat_ofNat_small (by omega)] at hnat

/-- The memory determines the list that tiles the region. -/
lemma linked_unique (hl : Linked m p bs 0) (ht : Tiles 16 lo bs hi) (hl' : Linked m p' bs' 0)
    (ht' : Tiles 16 lo bs' hi) (hhi : hi < 2 ^ 32) : bs' = bs := by
  induction bs generalizing lo p p' bs' with
  | nil =>
    cases bs' with
    | nil => rfl
    | cons c ys =>
      have hlo : lo = hi := ht
      have hbound := (ht'.bounds List.mem_cons_self).2
      have hc := ht'.1
      omega
  | cons b bs ih =>
    obtain ⟨c, ys, rfl, haddr, hsize⟩ := first_of_size hl ht hl' ht' hhi rfl
    have hused : c.used = b.used := by
      have hb := hl.1
      have hc := hl'.1
      rw [haddr, hb] at hc
      have hflag := congrArg MemBlock.used hc
      cases hbu : b.used <;> cases hcu : c.used <;> simp_all
    have hcb : c = b := by
      cases b
      cases c
      simp_all
    have hrest := ht'.2
    rw [hsize] at hrest
    rw [hcb, ih hl.2 ht.2 hl'.2 hrest]

end Unique

lemma joinNext_outside {a next : UInt32} (size : UInt32) (ha : a.toNat + 16 ≤ 2 ^ 32)
    (hx : Outside x a 16) (hn : next ≠ 0 → next.toNat + 16 ≤ 2 ^ 32 ∧ Outside x next 16) :
    joinNext m a size next x = m x := by
  unfold joinNext
  by_cases h0 : next = 0
  · simp only [h0, ne_eq, not_true, if_false]
    rw [setNext_outside _ ha hx, setSize_outside _ ha hx]
  · obtain ⟨hn16, hnx⟩ := hn h0
    simp only [h0, ne_eq, not_false_iff, if_true]
    rw [setPrev_outside _ hn16 hnx, setNext_outside _ ha hx, setSize_outside _ ha hx]

section Frames

variable (ht : Tiles 16 lo (xs ++ b :: ys) hi) (hhi : hi < 2 ^ 32)
include ht hhi

lemma headerEnd_of_tiles (hc : c ∈ xs ++ b :: ys) : (UInt32.ofNat c.addr).toNat + 16 ≤ 2 ^ 32 := by
  have hsz := size_lt_of_tiles ht hhi hc
  rw [toNat_ofNat_small (by omega)]
  omega

/-- The header behind a part of the list. -/
lemma headAddr_outside (ws zs : List Extent) (hsub : xs ++ b :: ys = ws ++ zs)
    (hx : InNoHeader (xs ++ b :: ys) x) :
    headAddr 0 zs ≠ 0 → (headAddr 0 zs).toNat + 16 ≤ 2 ^ 32 ∧ Outside x (headAddr 0 zs) 16 := by
  intro h0
  cases zs with
  | nil => exact absurd rfl h0
  | cons d zs =>
    have hd : d ∈ xs ++ b :: ys := by
      rw [hsub]
      simp
    exact ⟨headerEnd_of_tiles ht hhi hd, hx.outside ht hhi hd⟩

end Frames

/-- `splitBlock` writes to the headers of the list it leaves. -/
lemma splitBlock_outside {k : Nat} (hl : Linked m 0 (xs ++ b :: ys) 0)
    (ht : Tiles 16 lo (xs ++ b :: ys) hi) (hhi : hi < 2 ^ 32) (hk : k < b.size)
    (hx : InNoHeader (xs ++ (place 16 k b ++ ys)) x) :
    splitBlock m (UInt32.ofNat b.addr) (UInt32.ofNat k) x = m x := by
  have hsz := size_lt_of_tiles ht hhi (b := b) (by simp)
  have hb := (linked_append.mp hl).2.1
  have hcut := surplus_iff (b := b) (k := k) (by omega) (by omega)
  have hb16 := headerEnd_of_tiles ht hhi (c := b) (by simp)
  have ht' := ht.cut k
  by_cases hs : k + 16 + 1 ≤ b.size
  · simp only [place, if_pos hs, List.cons_append, List.nil_append] at hx ht'
    have hbx : Outside x (UInt32.ofNat b.addr) 16 :=
      hx.outside ht' hhi (c := ⟨b.addr, k, true⟩) (by simp)
    have htx : Outside x (UInt32.ofNat (b.addr + 16 + k)) 16 :=
      hx.outside ht' hhi (c := ⟨b.addr + 16 + k, b.size - k - 16, false⟩) (by simp)
    have hap := headerApart_of_tiles ht' hhi ⟨b.addr + 16 + k, b.size - k - 16, false⟩ (by simp)
    have htmp : UInt32.ofNat b.addr + sizeofMemBlock + UInt32.ofNat k =
        UInt32.ofNat (b.addr + 16 + k) := by
      simp [sizeofMemBlock]
    have hys := headAddr_outside ht' hhi
      (xs ++ [⟨b.addr, k, true⟩, ⟨b.addr + 16 + k, b.size - k - 16, false⟩]) ys (by simp) hx
    rw [splitBlock_eq_cutTail htmp hap (by rw [hb]; exact hcut.mpr hs),
      setUsed_outside _ hb16 hbx]
    apply cutTail_outside _ _ hap hbx htx
    intro h0 m'
    rw [hb] at h0 ⊢
    exact setPrev_outside m' (hys h0).1 (hys h0).2 _
  · simp only [place, if_neg hs, List.cons_append, List.nil_append] at hx ht'
    have hbx : Outside x (UInt32.ofNat b.addr) 16 :=
      hx.outside ht' hhi (c := ⟨b.addr, b.size, true⟩) (by simp)
    unfold splitBlock
    simp only [hb, hcut.not.mpr hs, if_false]
    exact setUsed_outside _ hb16 hbx 1

/-- Joining two blocks writes to their headers and to the one behind them. -/
lemma joinBlocks_outside (size : UInt32) (ht : Tiles 16 lo (xs ++ b :: c :: ys) hi)
    (hhi : hi < 2 ^ 32) (hx : InNoHeader (xs ++ b :: c :: ys) x) :
    joinNext m (UInt32.ofNat b.addr) size (headAddr 0 ys) x = m x := by
  apply joinNext_outside _ (headerEnd_of_tiles ht hhi (by simp)) (hx.outside ht hhi (by simp))
  exact headAddr_outside ht hhi (xs ++ [b, c]) ys (by simp) hx

lemma mergeWithNext_outside (hl : Linked m 0 (xs ++ b :: ys) 0)
    (ht : Tiles 16 lo (xs ++ b :: ys) hi) (hlo : 0 < lo) (hhi : hi < 2 ^ 32)
    (hx : InNoHeader (xs ++ b :: ys) x) : mergeWithNext m (UInt32.ofNat b.addr) x = m x := by
  cases ys with
  | nil => rw [mergeWithNext_last hl]
  | cons c ys =>
    cases hu : c.used with
    | true => rw [mergeWithNext_used hl hu]
    | false =>
      rw [mergeWithNext_free hl ht hlo hhi hu]
      exact joinBlocks_outside _ ht hhi hx

/-- `kfree` writes to the headers of the list it finds. -/
lemma kfreeBlock_outside (hl : Linked m 0 (xs ++ b :: ys) 0)
    (ht : Tiles 16 lo (xs ++ b :: ys) hi) (hlo : 0 < lo) (hhi : hi < 2 ^ 32)
    (hx : InNoHeader (xs ++ b :: ys) x) : kfreeBlock m (UInt32.ofNat b.addr) x = m x := by
  have hl1 := linked_setUsed false hl ht hhi
  have ht1 := ht.mark false
  have hx1 : InNoHeader (xs ++ ⟨b.addr, b.size, false⟩ :: ys) x := hx.of_addr rfl (by simp)
  have hused : setUsed m (UInt32.ofNat b.addr) 0 x = m x :=
    setUsed_outside _ (headerEnd_of_tiles ht hhi (by simp)) (hx.outside ht hhi (by simp)) 0
  simp only [Bool.false_eq_true, if_false] at hl1
  unfold kfreeBlock
  rcases List.eq_nil_or_concat xs with rfl | ⟨xs, a, rfl⟩
  · rw [mergeWithPrev_first hl1]
    exact (mergeWithNext_outside hl1 ht1 hlo hhi hx1).trans hused
  · simp only [List.concat_eq_append, List.append_assoc, List.cons_append, List.nil_append]
      at hl1 ht1 hx1
    cases hu : a.used with
    | false =>
      have hl2 := linked_joinNext hl1 ht1 hlo hhi
      rw [hu] at hl2
      have hx2 : InNoHeader (xs ++ ⟨a.addr, a.size + (16 + b.size), false⟩ :: ys) x :=
        hx1.of_addr rfl (by simp +contextual)
      have hjoin := joinBlocks_outside (m := setUsed m (UInt32.ofNat b.addr) 0)
        (UInt32.ofNat (a.size + (16 + b.size))) ht1 hhi hx1
      rw [mergeWithPrev_free hl1 ht1 hlo hhi hu]
      exact (mergeWithNext_outside hl2 (ht1.merge false) hlo hhi hx2).trans (hjoin.trans hused)
    | true =>
      rw [mergeWithPrev_used hl1 hu]
      rw [List.append_cons] at hl1 ht1 hx1
      exact (mergeWithNext_outside hl1 ht1 hlo hhi hx1).trans hused

/-- The block that `kmalloc(n)` takes. -/
def FirstFit (n : UInt32) (bs : List Extent) (e : Extent) : Prop :=
  bs.find? (fun c => c.used = false ∧ n.toNat < c.size) = some e

/-- What `kmalloc(n)` does on the block `e`: a used block begins there, the used blocks stay, and
bytes outside the headers stay. -/
structure TakesBlock (h : Heap) (bs : List Extent) (n : UInt32) (e : Extent) (h' : Heap)
    (bs' : List Extent) : Prop where
  layout : Layout h' bs'
  start : h'.heapStart = h.heapStart
  block : ∃ c ∈ bs', c.used = true ∧ c.addr = e.addr ∧ n.toNat ≤ c.size
  used : ∀ d ∈ bs, d.used = true → d ∈ bs'
  frame : ∀ x, InNoHeader bs' x → h'.mem x = h.mem x

lemma FirstFit.mem {n : UInt32} {e : Extent} (he : FirstFit n bs e) :
    e ∈ bs ∧ e.used = false ∧ n.toNat < e.size := by
  have hfit := List.find?_some he
  simp only [decide_eq_true_eq] at hfit
  exact ⟨List.mem_of_find?_eq_some he, hfit⟩

/-- The block that is taken lies apart from those in use. -/
lemma TakesBlock.apart {n : UInt32} {e : Extent} {h' : Heap} {bs' : List Extent}
    (ht : TakesBlock h bs n e h' bs') (hL : Layout h bs) (he : FirstFit n bs e) (hc : c ∈ bs)
    (hcu : c.used = true) :
    ∃ d ∈ bs', d.addr = e.addr ∧ n.toNat ≤ d.size ∧
      (c.addr + 16 + c.size ≤ d.addr ∨ d.addr + 16 + d.size ≤ c.addr) := by
  obtain ⟨d, hd, -, hda, hds⟩ := ht.block
  obtain ⟨hem, heu, -⟩ := he.mem
  have hcd : c ≠ d := by
    rintro rfl
    rw [← hL.tiles.addr_injOn (by decide) hc hem hda, hcu] at heu
    cases heu
  exact ⟨d, hd, hda, hds, ht.layout.tiles.apart (ht.used c hc hcu) hd hcd⟩

/-- `kmalloc` of a word-sized request on a laid out heap. -/
theorem kmalloc_takes (hL : Layout h bs) (h0 : h.heapStart ≠ 0) {n : UInt32} (hn : 4 ∣ n.toNat)
    {e : Extent} (he : FirstFit n bs e) :
    ∃ h' bs', kmalloc h n = .ok (payload e, h') ∧ TakesBlock h bs n e h' bs' := by
  obtain ⟨hfit, pre, post, rfl, hpre⟩ := List.find?_eq_some_iff_append.mp he
  simp only [decide_eq_true_eq] at hfit
  have hskip : ∀ c ∈ pre, ¬(c.used = false ∧ n.toNat < c.size) := by
    intro c hc hcf
    have hnot := hpre c hc
    simp [hcf] at hnot
  have hhi := h.heapEnd.toNat_lt
  have hk := kmalloc_first_fit hL h0 rfl hskip hfit.1 hfit.2
  have hlink := linked_splitBlock hL.linked hL.tiles (toNat_pos_of_ne_zero h0) hhi hfit.2
  rw [UInt32.ofNat_toNat] at hlink
  have hsizes : SizesDvd 4 (pre ++ (place 16 n.toNat e ++ post)) := by
    intro d hd
    rcases List.mem_append.mp hd with hd | hd
    · exact hL.sizes d (by simp [hd])
    · rcases List.mem_append.mp hd with hd | hd
      · exact sizesDvd_place (by decide) hn (hL.sizes e (by simp)) d hd
      · exact hL.sizes d (by simp [hd])
  refine ⟨_, pre ++ (place 16 n.toNat e ++ post), hk,
    ⟨hL.first, hlink, hL.tiles.cut _, hL.start, hsizes, hL.nonempty⟩, rfl, ?_, ?_, ?_⟩
  · obtain ⟨c, hc, hcu, hca, hcs⟩ := place_used hfit.2
    exact ⟨c, by simp [hc], hcu, hca, hcs⟩
  · intro d hd hdu
    rcases List.mem_append.mp hd with hd | hd
    · simp [hd]
    · rcases List.mem_cons.mp hd with rfl | hd
      · rw [hfit.1] at hdu
        cases hdu
      · simp [hd]
  · intro x hx
    have hout := splitBlock_outside hL.linked hL.tiles hhi hfit.2 hx
    rwa [UInt32.ofNat_toNat] at hout

/-- Where no free block is larger, `kmalloc` panics. -/
lemma kmalloc_refuses (hL : Layout h bs) {n : UInt32} (hn : n ≠ 1)
    (hnone : ¬(h.heapStart ≠ 0 ∧ ∃ e, FirstFit n bs e)) :
    kmalloc h n = .error (.panic [] "can't allocate memory") := by
  by_cases h0 : h.heapStart = 0
  · exact kmalloc_at_null (hL.first.trans h0) hn
  · have hfind : bs.find? (fun c => c.used = false ∧ n.toNat < c.size) = none := by
      cases hf : bs.find? (fun c => c.used = false ∧ n.toNat < c.size) with
      | none => rfl
      | some e => exact absurd ⟨h0, e, hf⟩ hnone
    apply kmalloc_eq_panic hL h0 hn
    apply allocate_of_unfit
    intro c hc
    simpa using List.find?_eq_none.mp hfind c hc

/-- `kfree` of a block keeps the bytes outside the headers. -/
lemma kfree_outside (hL : Layout h bs) (h0 : h.heapStart ≠ 0) (hb : b ∈ bs)
    (hx : InNoHeader bs x) : (kfree h (payload b)).mem x = h.mem x := by
  obtain ⟨pre, post, rfl⟩ := List.append_of_mem hb
  have hout := kfreeBlock_outside hL.linked hL.tiles (toNat_pos_of_ne_zero h0) h.heapEnd.toNat_lt
    hx
  rw [kfree, payload, ofNat_sub_header]
  dsimp only
  exact hout

def freshHeap : Heap := kheapInit (fun _ => 0) 0x1000 0x1100

lemma freshHeap_layout : Layout freshHeap ([] ++ ⟨0x1000, 240, false⟩ :: []) :=
  layout_kheapInit _ (by decide) (by decide) (by decide)

end SaxonOS.Proofs
