import SaxonOS.Proofs.HeapRealloc

/-!
# Cleared allocation

`kcalloc` multiplies in 32 bits, adds the size of a header to what `kmalloc` returns and clears
nothing. It keeps its word only where it does not return.
-/

namespace SaxonOS.Proofs
open Lib

/-- What `kcalloc` owes for the pointer `q` it returns, with the blocks `bs` before the call. -/
structure CallocResult (bs : List Extent) (nmemb size q : UInt32) (h' : Heap) : Prop where
  product : nmemb.toNat * size.toNat < 2 ^ 32
  inside : ∃ bs', TiledHeap h' bs' ∧ ∃ c ∈ bs', c.used = true ∧ c.addr + 16 ≤ q.toNat ∧
    q.toNat + nmemb.toNat * size.toNat ≤ c.addr + 16 + c.size
  zero : ∀ i < nmemb.toNat * size.toNat, h'.mem (q + UInt32.ofNat i) = 0
  restored : TiledHeap (kfree h' q) bs

/-- Every result is one, whatever the bytes outside the headers are. -/
def CallocSound (h : Heap) (bs : List Extent) (nmemb size : UInt32) : Prop :=
  ∀ m, Layout { h with mem := m } bs → ∀ q h',
    kcalloc { h with mem := m } nmemb size = .ok (q, h') → CallocResult bs nmemb size q h'

/-- `kmalloc(n)` panics: it is not the request of one byte, and no free block is larger. -/
def CannotServe (h : Heap) (bs : List Extent) (n : UInt32) : Prop :=
  n ≠ 1 ∧ (h.heapStart = 0 ∨ ∀ c ∈ bs, ¬(c.used = false ∧ n.toNat < c.size))

section Stale

variable {h : Heap} {bs : List Extent} {b : Extent}

/-- The headers of `bs` over memory that is 0xFF everywhere else. -/
def staleMem (bs : List Extent) (m : Mem) : Mem := fun x =>
  if bs.any (fun b => b.addr ≤ x.toNat ∧ x.toNat < b.addr + 16) then m x else 0xFF

lemma layout_staleMem (hL : Layout h bs) : Layout { h with mem := staleMem bs h.mem } bs := by
  apply hL.congr
  intro b hb x hlo hhi
  apply if_pos
  apply List.any_eq_true.mpr
  exact ⟨b, hb, decide_eq_true ⟨hlo, hhi⟩⟩

lemma staleMem_payload (hL : Layout h bs) (hb : b ∈ bs) {x : UInt32} (hlo : b.addr + 16 ≤ x.toNat)
    (hhi : x.toNat < b.addr + 16 + b.size) : staleMem bs h.mem x = 0xFF := by
  apply if_neg
  intro hany
  obtain ⟨c, hc, hx⟩ := List.any_eq_true.mp hany
  have hx := of_decide_eq_true hx
  by_cases hcb : b = c
  · subst hcb
    omega
  · have hapart := hL.tiles.apart hb hc hcb
    omega

end Stale

section Fits

variable {h h' : Heap} {bs pre post : List Extent} {e : Extent} {nmemb size q : UInt32}

lemma toNat_product (hprod : nmemb.toNat * size.toNat < 2 ^ 32) :
    (size * nmemb).toNat = nmemb.toNat * size.toNat := by
  rw [UInt32.toNat_mul, Nat.mul_comm size.toNat, Nat.mod_eq_of_lt hprod]

/-- The call, in terms of the block `e` that first fit finds. -/
lemma kcalloc_eq (hL : Layout h (pre ++ e :: post)) (h0 : h.heapStart ≠ 0) (hn : nmemb ≠ 0)
    (hs : size ≠ 0) (hpre : ∀ c ∈ pre, ¬(c.used = false ∧ (size * nmemb).toNat < c.size))
    (hu : e.used = false) (hfit : (size * nmemb).toNat < e.size) :
    kcalloc h nmemb size = .ok (UInt32.ofNat (e.addr + 16) + sizeofMemBlock,
      { h with mem := splitBlock h.mem (UInt32.ofNat e.addr) (size * nmemb) }) := by
  have hk := kmalloc_first_fit hL h0 rfl hpre hu hfit
  have hnone : ¬(nmemb = 0 ∨ size = 0) := not_or.mpr ⟨hn, hs⟩
  simp only [kcalloc, if_neg hnone, hk, bind, Except.bind]

/-- The result lies inside a used block only where `e` was handed out whole with 16 bytes to
spare, and then the byte it points to was zero before. -/
lemma CallocResult.stale_zero (hL : Layout h (pre ++ e :: post)) (h0 : h.heapStart ≠ 0)
    (hn : nmemb ≠ 0) (hs : size ≠ 0) (hfit : (size * nmemb).toNat < e.size)
    (hR : CallocResult bs nmemb size (UInt32.ofNat (e.addr + 16) + sizeofMemBlock)
      { h with mem := splitBlock h.mem (UInt32.ofNat e.addr) (size * nmemb) }) :
    e.size = (size * nmemb).toNat + 16 ∧ ∃ x : UInt32, x.toNat = e.addr + 32 ∧ h.mem x = 0 := by
  have hhi := h.heapEnd.toNat_lt
  have h16 : sizeofMemBlock.toNat = 16 := rfl
  have hprod := toNat_product hR.product
  have hpos : 0 < nmemb.toNat * size.toNat :=
    Nat.mul_pos (toNat_pos_of_ne_zero hn) (toNat_pos_of_ne_zero hs)
  obtain ⟨bs', hT, c, hc, hcu, hclo, hchi⟩ := hR.inside
  have he := hL.tiles.bounds (b := e) (by simp)
  have hen := toNat_ofNat_small (k := e.addr + 16) (by omega)
  have hq32 : e.addr + 32 < 2 ^ 32 := by
    by_contra hge
    rw [UInt32.toNat_add, hen, h16] at hclo
    omega
  have hq : (UInt32.ofNat (e.addr + 16) + sizeofMemBlock).toNat = e.addr + 32 := by
    rw [toNat_add_small (by omega), hen, h16]
  rw [hq] at hclo hchi
  -- The memory has one list of blocks, the one first fit leaves.
  have hl := linked_splitBlock hL.linked hL.tiles (toNat_pos_of_ne_zero h0) hhi hfit
  obtain ⟨mid, ht1, ht2⟩ := tiles_append.mp hL.tiles
  have ht := hL.tiles.cut (size * nmemb).toNat
  rw [UInt32.ofNat_toNat] at hl
  rw [linked_unique hl ht hT.linked hT.tiles hhi] at hc
  have hmid := ht2.1
  rcases List.mem_append.mp hc with hc | hc
  · have hbound := ht1.bounds hc
    omega
  rcases List.mem_append.mp hc with hc | hc
  · unfold place at hc
    split_ifs at hc with hcut
    · simp only [List.mem_cons, List.not_mem_nil, or_false] at hc
      rcases hc with rfl | rfl
      · dsimp only at hchi
        omega
      · cases hcu
    · rw [List.mem_singleton.mp hc] at hchi
      dsimp only at hchi
      refine ⟨by omega, UInt32.ofNat (e.addr + 16) + sizeofMemBlock, hq, ?_⟩
      have hz := hR.zero 0 hpos
      have hadd : UInt32.ofNat (e.addr + 16) + sizeofMemBlock + UInt32.ofNat 0 =
          UInt32.ofNat (e.addr + 16) + sizeofMemBlock := UInt32.add_zero _
      have hmem : (⟨e.addr, e.size, true⟩ : Extent) ∈
          pre ++ (place 16 (size * nmemb).toNat e ++ post) := by
        rw [place, if_neg hcut]
        simp
      have hnone := inNoHeader_payload ht hmem (x := UInt32.ofNat (e.addr + 16) + sizeofMemBlock)
        (by rw [hq]; dsimp only; omega) (by rw [hq]; dsimp only; omega)
      have hwhole := splitBlock_outside hL.linked hL.tiles hhi hfit hnone
      rw [UInt32.ofNat_toNat] at hwhole
      dsimp only at hz
      rw [hadd, hwhole] at hz
      exact hz
  · have hbound := ht2.2.bounds hc
    omega

/-- `kmalloc(1)` that finds nothing returns null, and the result is 16. It is inside a block only
where that is the first one at address 0. -/
lemma CallocResult.null_zero (hL : Layout h bs) (hone : size * nmemb = 1)
    (hR : CallocResult bs nmemb size (0 + sizeofMemBlock) h) :
    ∃ b ∈ bs, b.addr = 0 ∧ 0 < b.size ∧ h.mem 16 = 0 := by
  have hprod := toNat_product hR.product
  rw [hone] at hprod
  have h1 : (1 : UInt32).toNat = 1 := rfl
  have h16 : (0 + sizeofMemBlock).toNat = 16 := rfl
  obtain ⟨bs', hT, c, hc, -, hclo, hchi⟩ := hR.inside
  rw [linked_unique hL.linked hL.tiles hT.linked hT.tiles h.heapEnd.toNat_lt] at hc
  exact ⟨c, hc, by omega, by omega, hR.zero 0 (by omega)⟩

lemma kcalloc_null (hk : kmalloc h (size * nmemb) = .ok (0, h)) (hn : nmemb ≠ 0) (hs : size ≠ 0) :
    kcalloc h nmemb size = .ok (0 + sizeofMemBlock, h) := by
  have hnone : ¬(nmemb = 0 ∨ size = 0) := not_or.mpr ⟨hn, hs⟩
  simp only [kcalloc, if_neg hnone, hk, bind, Except.bind]

end Fits

section Iff

variable {h : Heap} {bs : List Extent} {nmemb size : UInt32}

/-- Where `kmalloc` panics there is no result. -/
lemma callocSound_of_cannotServe (hn : nmemb ≠ 0) (hs : size ≠ 0)
    (hcs : CannotServe h bs (size * nmemb)) : CallocSound h bs nmemb size := by
  intro m hL q h' hk
  have hnone : ¬(nmemb = 0 ∨ size = 0) := not_or.mpr ⟨hn, hs⟩
  have hpanic : kmalloc { h with mem := m } (size * nmemb) =
      .error (.panic [] "can't allocate memory") := by
    apply kmalloc_refuses hL hcs.1
    rintro ⟨h0, e, he⟩
    exact hcs.2.resolve_left h0 e he.mem.1 he.mem.2
  simp only [kcalloc, if_neg hnone, hpanic, bind, Except.bind] at hk
  cases hk

lemma not_callocSound_of_null (hL : Layout h bs) (hn : nmemb ≠ 0) (hs : size ≠ 0)
    (hone : size * nmemb = 1)
    (hnull : h.heapStart = 0 ∨ ∀ c ∈ bs, ¬(c.used = false ∧ 1 < c.size)) :
    ¬CallocSound h bs nmemb size := by
  intro hsound
  have hLs := layout_staleMem hL
  have hk : kmalloc { h with mem := staleMem bs h.mem } (size * nmemb) =
      .ok (0, { h with mem := staleMem bs h.mem }) := by
    rw [hone]
    by_cases h0 : h.heapStart = 0
    · exact kmalloc_one_at_null (hLs.first.trans h0)
    · exact kmalloc_one_eq_null hLs h0 (allocate_of_unfit (hnull.resolve_left h0))
  have hR := hsound _ hLs _ _ (kcalloc_null hk hn hs)
  obtain ⟨b, hb, hba, hbs, hz⟩ := hR.null_zero hLs hone
  have h16 : (16 : UInt32).toNat = 16 := rfl
  have hff := staleMem_payload hL hb (x := 16) (by omega) (by omega)
  dsimp only at hz
  rw [hff] at hz
  cases hz

lemma not_callocSound_of_fit (hL : Layout h bs) (hn : nmemb ≠ 0) (hs : size ≠ 0)
    (h0 : h.heapStart ≠ 0) {r : Nat × List Extent}
    (ha : allocate 16 (size * nmemb).toNat bs = some r) : ¬CallocSound h bs nmemb size := by
  intro hsound
  obtain ⟨p, ys⟩ := r
  obtain ⟨pre, e, post, rfl, hpre, hu, hfit, -, -⟩ := allocate_eq_some ha
  have hLs := layout_staleMem hL
  have hR := hsound _ hLs _ _ (kcalloc_eq hLs h0 hn hs hpre hu hfit)
  obtain ⟨hsize, x, hx, hz⟩ := hR.stale_zero hLs h0 hn hs hfit
  have hpos : 0 < (size * nmemb).toNat := by
    rw [toNat_product hR.product]
    exact Nat.mul_pos (toNat_pos_of_ne_zero hn) (toNat_pos_of_ne_zero hs)
  have hff := staleMem_payload hL (b := e) (x := x) (by simp) (by omega) (by omega)
  dsimp only at hz
  rw [hff] at hz
  cases hz

end Iff

/-- `kcalloc` keeps its word over every stale memory exactly where it cannot return. -/
theorem kcalloc_sound_iff (h : Heap) (bs : List Extent) (hL : Layout h bs) (nmemb size : UInt32)
    (hn : nmemb ≠ 0) (hs : size ≠ 0) :
    CallocSound h bs nmemb size ↔ CannotServe h bs (size * nmemb) := by
  constructor
  · intro hsound
    by_contra hcs
    by_cases hnull : h.heapStart = 0 ∨ ∀ c ∈ bs, ¬(c.used = false ∧ (size * nmemb).toNat < c.size)
    · have hone : size * nmemb = 1 := by
        by_contra hne
        exact hcs ⟨hne, hnull⟩
      rw [hone] at hnull
      exact not_callocSound_of_null hL hn hs hone hnull hsound
    · obtain ⟨h0, hfit⟩ := not_or.mp hnull
      cases ha : allocate 16 (size * nmemb).toNat bs with
      | none => exact hfit (allocate_eq_none ha)
      | some r => exact not_callocSound_of_fit hL hn hs h0 ha hsound
  · exact callocSound_of_cannotServe hn hs

/-- On a heap of 240 free bytes a request for 8 breaks the promise and one for 240 panics. -/
theorem kcalloc_sound_iff_fresh :
    (CallocSound freshHeap [⟨0x1000, 240, false⟩] 1 8 ↔
      CannotServe freshHeap [⟨0x1000, 240, false⟩] 8) ∧
    CallocSound freshHeap [⟨0x1000, 240, false⟩] 2 120 := by
  have hL := freshHeap_layout
  refine ⟨kcalloc_sound_iff _ _ hL 1 8 (by decide) (by decide), ?_⟩
  refine (kcalloc_sound_iff _ _ hL 2 120 (by decide) (by decide)).mpr ⟨by decide, Or.inr ?_⟩
  intro c hc
  rw [List.mem_singleton.mp hc]
  decide

/-- `kcalloc(1, 8)` returns 0x1020, behind the end of the block of 8 bytes at 0x1010. -/
theorem kcalloc_returns_behind_block :
    Layout freshHeap [⟨0x1000, 240, false⟩] ∧
    ∃ h', kcalloc freshHeap 1 8 = .ok (0x1020, h') ∧
      ¬CallocResult [⟨0x1000, 240, false⟩] 1 8 0x1020 h' := by
  have hL := freshHeap_layout
  have hk : kcalloc freshHeap 1 8 = .ok _ := kcalloc_eq hL (by decide) (by decide) (by decide)
    (by simp) rfl (by decide)
  refine ⟨hL, _, hk, ?_⟩
  intro hR
  have hsize := (hR.stale_zero hL (by decide) (by decide) (by decide) (by decide)).1
  revert hsize
  decide

end SaxonOS.Proofs
