import SaxonOS.Proofs.HeapLost

/-!
# Aligned allocation on any heap

`kmalloc_alligned` keeps a tiled heap sound when it takes an aligned block. When it moves a
header the result depends on bytes that were never written, and for the first block of the
heap also on the distance of the move.
-/

namespace SaxonOS.Proofs
open Lib

variable {h : Heap} {m m' : Mem} {size al p r : UInt32} {bs pre post xs ys : List Extent}
  {b c : Extent} {lo hi fuel : Nat}

lemma served_iff (hfind : bs.find? (fun c => Suits size al c) = some b) :
    Served h size al bs ↔ alignGap al b = 0 ∨ MovesWell h size al b := by
  unfold Served
  rw [hfind]
  simp

lemma find_suits (hpre : ∀ c ∈ pre, ¬Suits size al c) (hb : Suits size al b) :
    (pre ++ b :: post).find? (fun c => Suits size al c) = some b := by
  rw [List.find?_eq_some_iff_append]
  exact ⟨by simpa using hb, pre, post, rfl, by simpa using hpre⟩

/-- The block behind `b` is apart from a header moved within `b`. -/
lemma headAddr_moved_apart {s : Nat} (ht : Tiles 16 lo (xs ++ b :: ys) hi) (hhi : hi < 2 ^ 32)
    (hs : s ≤ b.size) (hn0 : headAddr 0 ys ≠ 0) :
    HeaderApart (headAddr 0 ys) (UInt32.ofNat (b.addr + s)) := by
  obtain ⟨mid, -, hba, h2⟩ := tiles_append.mp ht
  have hbz := size_lt_of_tiles ht hhi (b := b) (by simp)
  have hd := headAddr_bounds h2 hhi hn0
  have hsn := toNat_ofNat_small (k := b.addr + s) (by omega)
  exact ⟨hd.2, by omega, Or.inr (by omega)⟩

section Exact

variable (hh : TiledHeap h bs) (hlo : 0 < h.heapStart.toNat) (h0 : al ≠ 0)
  (hdvd : al.toNat ∣ 2 ^ 32)
include hh hlo h0 hdvd

lemma result_behind_iff (hbs : bs = xs ++ c :: b :: ys) (hb : Suits size al b)
    (hg : alignGap al b ≠ 0)
    (hm : moveHeader h.mem (UInt32.ofNat b.addr) (UInt32.ofNat (b.addr + 16 + alignGap al b)) =
      (m', r)) :
    AlignedResult h bs size al (r + sizeofMemBlock) { h with mem := splitBlock m' r size } ↔
      MovesWell h size al b := by
  constructor
  · intro hres
    have hhi := h.heapEnd.toNat_lt
    have hbm : b ∈ bs := by simp [hbs]
    have hbz := size_lt_of_tiles hh.tiles hhi hbm
    have hgap := alignGap_le h0 hdvd (b := b) (by omega)
    have hl := hh.linked
    have ht := hh.tiles
    rw [hbs] at hl ht
    rw [moveHeader_behind hl ht hlo hhi hgap] at hm
    obtain ⟨rfl, rfl⟩ := Prod.mk.inj hm
    refine movesWell_of_result hh hlo hbm hb hg rfl hgap (fun hle => ?_) hres
    have htb : Tiles 16 h.heapStart.toNat ((xs ++ [c]) ++ b :: ys) h.heapEnd.toNat := by
      simpa using ht
    have hcn : HeaderApart (UInt32.ofNat c.addr) (UInt32.ofNat (b.addr + alignGap al b)) :=
      headerApart_of_tiles (tiles_move_behind ht hle) hhi
        ⟨b.addr + alignGap al b, b.size - alignGap al b, false⟩ (by simp)
    have hbn := toNat_ofNat_small (k := b.addr) (by omega)
    have hsn := toNat_ofNat_small (k := b.addr + alignGap al b) (by omega)
    have hap := headAddr_moved_apart htb hhi hle
    rw [relink_next _ _ hap, relink_size _ _ hap, memBlock_lengthen_apart _ _ hcn,
      shrink_movedSize (by omega) (by omega), (linked_append.mp hl).2.2.1]
    exact ⟨rfl, rfl⟩
  · intro hw
    exact alignedResult_behind hh hlo h0 hbs hb hg hw hm

lemma result_first_iff (hbs : bs = b :: ys) (hb : Suits size al b) (hg : alignGap al b ≠ 0)
    (hm : moveHeader h.mem (UInt32.ofNat b.addr) (UInt32.ofNat (b.addr + 16 + alignGap al b)) =
      (m', r)) :
    AlignedResult h bs size al (r + sizeofMemBlock) { h with mem := splitBlock m' r size } ↔
      MovesWell h size al b := by
  constructor
  · intro hres
    have hhi := h.heapEnd.toNat_lt
    have hbm : b ∈ bs := by simp [hbs]
    have hbz := size_lt_of_tiles hh.tiles hhi hbm
    have hgap := alignGap_le h0 hdvd (b := b) (by omega)
    by_cases h8 : alignGap al b < 8
    · rw [hbs] at hh
      exact absurd hres (not_result_near hh hlo h0 hg h8 hgap hm)
    · have hl := hh.linked
      have ht := hh.tiles
      rw [hbs] at hl ht
      rw [moveHeader_first_far hl (by omega) hgap] at hm
      obtain ⟨rfl, rfl⟩ := Prod.mk.inj hm
      refine movesWell_of_result hh hlo hbm hb hg rfl hgap (fun hle => ?_) hres
      have htb : Tiles 16 h.heapStart.toNat ([] ++ b :: ys) h.heapEnd.toNat := ht
      have hbn := toNat_ofNat_small (k := b.addr) (by omega)
      have hsn := toNat_ofNat_small (k := b.addr + alignGap al b) (by omega)
      have hap := headAddr_moved_apart htb hhi hle
      rw [relink_next _ _ hap, relink_size _ _ hap, shrink_movedSize (by omega) (by omega), hl.1]
      exact ⟨rfl, rfl⟩
  · intro hw
    exact alignedResult_first hh hlo h0 hbs hb hg hw hm

/-- The header of the first block is broken once it is dropped. -/
lemma dropped_broken (hbs : bs = b :: ys) (hd : Dropped size al h.mem fuel b ys m') :
    Broken h m' := by
  subst hbs
  have hhi := h.heapEnd.toNat_lt
  have hbz := size_lt_of_tiles hh.tiles hhi (b := b) (by simp)
  have hba := hh.tiles.1
  have hbn := toNat_ofNat_small (k := b.addr) (by omega)
  have hstart : UInt32.ofNat b.addr = h.heapStart := by rw [hba, UInt32.ofNat_toNat]
  have hs4 := hd.lost.2.2.1
  have hg := hd.lost.2.1
  have hgap := alignGap_le h0 hdvd (b := b) (by omega)
  have h12 : (12 : UInt32).toNat = 12 := rfl
  have h8 : (0 + 8 : UInt32).toNat = 8 := rfl
  have hsize : (memBlock m' (UInt32.ofNat b.addr)).size =
      firstSize h.mem (UInt32.ofNat b.addr) (UInt32.ofNat (b.addr + alignGap al b)) := by
    apply read32_field_congr (by omega) (by decide)
    intro x hx hx'
    rw [hd.memory]
    apply linkNext_outside _ (by decide) (Or.inr (by omega))
    intro hn0
    have hdb := headAddr_bounds hh.tiles.2 hhi hn0
    exact ⟨hdb.2, Or.inl (by omega)⟩
  unfold Broken
  rw [← hstart, hsize, UInt32.ofNat_add, firstSize_below (by omega) (by omega) (by omega)]
  omega

/-- Each way the search ends is sound exactly when the condition says so. -/
lemma Outcome.sound_iff (ho : Outcome size al h.mem bs m' r) :
    (r ≠ 0 → AlignedResult h bs size al (r + sizeofMemBlock)
      { h with mem := splitBlock m' r size }) ↔ Refused size al bs ∨ Served h size al bs := by
  have href := ho.refused_iff hdvd h0 hh.linked hh.tiles hlo h.heapEnd.toNat_lt
  cases ho with
  | none hnone => exact iff_of_true (fun hr => absurd rfl hr) (Or.inl (refused_of_none hnone))
  | @aligned pre post b hbs hpre hb hg =>
    have hfind : bs.find? (fun d => Suits size al d) = some b := by
      rw [hbs]
      exact find_suits hpre hb
    exact iff_of_true (fun _ => alignedResult_aligned hh hlo h0 hbs hb hg)
      (Or.inr ((served_iff hfind).mpr (Or.inl hg)))
  | @behind xs ys b c _ _ hbs hpre hb hg hm hr =>
    have hfind : bs.find? (fun d => Suits size al d) = some b := by
      rw [hbs, List.append_cons]
      exact find_suits hpre hb
    rw [← href, served_iff hfind, result_behind_iff hh hlo h0 hdvd hbs hb hg hm]
    simp [hr, hg]
  | @first ys b _ _ hbs hb hg hm hr =>
    have hfind : bs.find? (fun d => Suits size al d) = some b := by
      rw [hbs, List.find?_cons_of_pos (by simpa using hb)]
    rw [← href, served_iff hfind, result_first_iff hh hlo h0 hdvd hbs hb hg hm]
    simp [hr, hg]

/-- When the search goes on behind a lost header only a panic is sound. -/
lemma GoesOn.sound_iff (hbs : bs = b :: ys) (hf : bs.length < walkFuel)
    (hgo : GoesOn size al h.mem walkFuel b ys m') :
    AlignedSound h bs size al ↔ Refused size al bs ∨ Served h size al bs := by
  have hhi := h.heapEnd.toNat_lt
  have hl := hh.linked
  have ht := hh.tiles
  have hfirst := hh.first
  rw [hbs] at hl ht hf hfirst
  have hd := hgo.dropped h0 hdvd hl ht hlo hhi
  have hB := dropped_broken hh hlo h0 hdvd hbs hd
  have hne : (h.heapStart.toNat + 16) % al.toNat ≠ 0 := by
    rw [← ht.1]
    exact (alignGap_eq_zero_iff h0 b).not.mp hgo.gap
  have hlen : ys.length < walkFuel - 1 := by
    rw [List.length_cons] at hf
    omega
  obtain ⟨m'', r, hs, hr, hres⟩ := search_broken size bs h0 hdvd hlo hne hhi hd.linked ht.2
    (by omega) hB hlen
  have hserved : ¬Served h size al bs := by
    have hfind : bs.find? (fun d => Suits size al d) = some b := by
      rw [hbs, List.find?_cons_of_pos (by simpa using hgo.suits)]
    rw [served_iff hfind]
    rintro (hg | hw)
    · exact hgo.gap hg
    · have hs4 := hd.lost.2.2.1
      have hroom := hw.room
      have hba := ht.1
      omega
  have hsearch : kmallocAllignedSearch size al walkFuel h.mem h.first = .ok (m'', r) := by
    rw [hfirst, headAddr, hd.search, hs]
  have href : Refused size al bs ↔ r = 0 := by
    rw [hr, hbs, refused_cons_of_suits hgo.suits]
    exact ⟨And.right, fun hx => ⟨hd.lost, hx⟩⟩
  rw [alignedSound_iff h0 hsearch, href]
  constructor
  · intro himp
    by_cases hz : r = 0
    · exact Or.inl hz
    · exact absurd (himp hz) (hres hz)
  · rintro (hz | hsv)
    · exact fun hr0 => absurd hz hr0
    · exact absurd hsv hserved

end Exact

lemma dvd_of_power {al : UInt32} (hal : ∃ k, al.toNat = 2 ^ k) : al ≠ 0 ∧ al.toNat ∣ 2 ^ 32 := by
  obtain ⟨k, hk⟩ := hal
  constructor
  · rintro rfl
    have hpos : 0 < 2 ^ k := Nat.two_pow_pos k
    rw [← hk] at hpos
    exact absurd hpos (by decide)
  · rw [hk]
    apply Nat.pow_dvd_pow
    have hlt := al.toNat_lt
    rw [hk] at hlt
    exact Nat.le_of_lt ((Nat.pow_lt_pow_iff_right (by decide)).mp hlt)

/-- On a heap with a block list the call is sound when it panics or is served. -/
lemma alignedSound_iff_served (hh : TiledHeap h bs) (h0 : al ≠ 0) (hdvd : al.toNat ∣ 2 ^ 32)
    (hf : h.first ≠ 0) :
    AlignedSound h bs size al ↔ Refused size al bs ∨ Served h size al bs := by
  have hhi := h.heapEnd.toNat_lt
  have hlo : 0 < h.heapStart.toNat := by
    apply toNat_pos_of_ne_zero
    intro hz
    have hfirst := hh.first
    have ht := hh.tiles
    cases bs with
    | nil => exact hf hfirst
    | cons b bs =>
      rw [headAddr, ht.1, hz] at hfirst
      exact hf hfirst
  have hlen : bs.length < walkFuel := by
    have hmul := hh.tiles.mul_length_le
    unfold walkFuel
    omega
  rcases search_outcome h0 hdvd hh.linked hh.tiles hlo hhi hlen size with
    ⟨m', r, hs, ho⟩ | ⟨b, ys, m', hbs, hgo⟩
  · rw [← hh.first] at hs
    rw [alignedSound_iff h0 hs]
    exact ho.sound_iff hh hlo h0 hdvd
  · exact hgo.sound_iff hh hlo h0 hdvd hbs hlen

/-- On any tiled heap, for any size and any power of two, `kmalloc_alligned` panics or keeps the
heap sound exactly under `AlignedCondition`. -/
theorem kmalloc_alligned_sound_iff (h : Heap) (bs : List Extent) (size al : UInt32)
    (hh : TiledHeap h bs) (hal : ∃ k, al.toNat = 2 ^ k) :
    AlignedSound h bs size al ↔ AlignedCondition h bs size al := by
  obtain ⟨h0, hdvd⟩ := dvd_of_power hal
  unfold AlignedCondition
  by_cases hf : h.first = 0
  · have hnull := search_null (m := h.mem) size al (show 0 < walkFuel by decide)
    rw [← hf] at hnull
    rw [alignedSound_iff h0 hnull]
    exact iff_of_true (fun hr => absurd hf hr) (Or.inl hf)
  · rw [alignedSound_iff_served hh h0 hdvd hf]
    simp [hf]

/-- The heap from `0x1000` on after one `kmalloc(5)`, which leaves a misaligned free block. -/
def crookedHeap (end_ : UInt32) : Heap :=
  { kheapInit (fun _ => 0) 0x1000 end_ with
    mem := splitBlock (kheapInit (fun _ => 0) 0x1000 end_).mem 0x1000 5 }

lemma crookedStart {end_ : UInt32} {size : Nat} (hend : end_.toNat = 0x1025 + size) :
    Linked (kheapInit (fun _ => 0) 0x1000 end_).mem 0
      ([] ++ ⟨(0x1000 : UInt32).toNat, size + 21, false⟩ :: []) 0 ∧
    Tiles 16 (0x1000 : UInt32).toNat
      ([] ++ ⟨(0x1000 : UInt32).toNat, size + 21, false⟩ :: []) end_.toNat := by
  have hstart : (0x1000 : UInt32).toNat = 0x1000 := rfl
  have hsub : (end_ - 0x1000).toNat - 16 = size + 21 := by
    rw [UInt32.toNat_sub_of_le _ _ (UInt32.le_iff_toNat_le.mpr (by omega))]
    omega
  have hlt : (0x1000 : UInt32).toNat + 16 < end_.toNat := by omega
  have hl := linked_kheapInit (fun _ => 0) hlt
  have ht := tiles_kheapInit hlt
  rw [hsub] at hl ht
  exact ⟨hl, ht⟩

lemma crookedHeap_tiled {end_ : UInt32} {size : Nat} (hend : end_.toNat = 0x1025 + size)
    (h1 : 1 ≤ size) :
    TiledHeap (crookedHeap end_) [⟨0x1000, 5, true⟩, ⟨0x1015, size, false⟩] := by
  obtain ⟨hl, ht⟩ := crookedStart hend
  have hplace : place 16 5 ⟨(0x1000 : UInt32).toNat, size + 21, false⟩ =
      [⟨0x1000, 5, true⟩, ⟨0x1015, size, false⟩] := by
    have hcut : 5 + 16 + 1 ≤ size + 21 := by omega
    have hrest : size + 21 - 5 - 16 = size := by omega
    simp only [place, hcut, if_true, hrest]
    rfl
  have hlink := linked_splitBlock hl ht (by decide) end_.toNat_lt (show 5 < size + 21 by omega)
  have htiles := tiles_place ht 5
  rw [hplace] at hlink htiles
  exact ⟨rfl, hlink, htiles⟩

lemma kmalloc_crookedHeap {end_ : UInt32} (hend : 0x1026 ≤ end_.toNat) :
    kmalloc (kheapInit (fun _ => 0) 0x1000 end_) 5 = .ok (0x1010, crookedHeap end_) := by
  obtain ⟨size, hsize⟩ : ∃ size, end_.toNat = 0x1025 + size := ⟨end_.toNat - 0x1025, by omega⟩
  obtain ⟨hl, ht⟩ := crookedStart hsize
  have hgap : alignGap 4 ⟨(0x1000 : UInt32).toNat, size + 21, false⟩ = 0 :=
    (alignGap_eq_zero_iff (by decide) _).mpr (by simp)
  have hsuits : Suits 5 4 ⟨(0x1000 : UInt32).toNat, size + 21, false⟩ := by
    have h5 : (5 : UInt32).toNat = 5 := rfl
    rw [Suits, if_pos hgap, h5]
    exact ⟨rfl, show 5 < size + 21 by omega⟩
  have hstop := search_stop (by decide) hl ht (by decide) end_.toNat_lt
    (show 1 < walkFuel by decide) (by simp) hsuits
  rw [if_pos hgap] at hstop
  have hsearch : kmallocAllignedSearch 5 4 walkFuel (kheapInit (fun _ => 0) 0x1000 end_).mem
      (kheapInit (fun _ => 0) 0x1000 end_).first =
      .ok ((kheapInit (fun _ => 0) 0x1000 end_).mem, 0x1000) := hstop
  simp only [kmalloc, kmallocAlligned, hsearch]
  rfl

/-- A header that finds the right size in the bytes it is moved to. -/
theorem kmalloc_alligned_sound_moved :
    kmalloc (kheapInit (fun _ => 0) 0x1000 0x1127) 5 = .ok (0x1010, crookedHeap 0x1127) ∧
    AlignedSound (crookedHeap 0x1127) [⟨0x1000, 5, true⟩, ⟨0x1015, 0x102, false⟩] 8 4 := by
  have htiled : TiledHeap (crookedHeap 0x1127) [⟨0x1000, 5, true⟩, ⟨0x1015, 0x102, false⟩] :=
    crookedHeap_tiled rfl (by decide)
  refine ⟨kmalloc_crookedHeap (by decide), ?_⟩
  rw [kmalloc_alligned_sound_iff _ _ 8 4 htiled ⟨2, rfl⟩]
  refine Or.inr (Or.inr ⟨⟨0x1015, 0x102, false⟩, by decide, Or.inr ⟨?_, ?_, ?_⟩⟩)
  · decide
  · decide
  · decide +kernel

/-- A header that does not: the block it heads would end behind the heap. -/
theorem kmalloc_alligned_spoils_heap :
    kmalloc (kheapInit (fun _ => 0) 0x1000 0x1100) 5 = .ok (0x1010, crookedHeap 0x1100) ∧
    TiledHeap (crookedHeap 0x1100) [⟨0x1000, 5, true⟩, ⟨0x1015, 0xDB, false⟩] ∧
    ¬AlignedSound (crookedHeap 0x1100) [⟨0x1000, 5, true⟩, ⟨0x1015, 0xDB, false⟩] 8 4 := by
  have htiled : TiledHeap (crookedHeap 0x1100) [⟨0x1000, 5, true⟩, ⟨0x1015, 0xDB, false⟩] :=
    crookedHeap_tiled rfl (by decide)
  have hfind : [⟨0x1000, 5, true⟩, ⟨0x1015, 0xDB, false⟩].find? (fun c => Suits 8 4 c) =
      some ⟨0x1015, 0xDB, false⟩ := by decide
  refine ⟨kmalloc_crookedHeap (by decide), htiled, ?_⟩
  rw [alignedSound_iff_served htiled (by decide) (by decide) (by decide), served_iff hfind]
  rintro (hrefused | hgap | hmoves)
  · have hnot : ¬Refused 8 4 ([⟨0x1000, 5, true⟩] ++ ⟨0x1015, 0xDB, false⟩ :: []) :=
      not_refused (by decide) (by decide) (by simp)
    exact hnot hrefused
  · revert hgap
    decide
  · have hsize := hmoves.size
    revert hsize
    decide +kernel

end SaxonOS.Proofs
