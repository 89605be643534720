import SaxonOS.Proofs.HeapRun

/-!
# Freeing everything

Every step of the heap keeps free blocks apart, so when the last live pointer is freed the
list is one block again, whatever the order of the frees.
-/

namespace SaxonOS.Proofs
open Lib

variable {start end_ : UInt32} {s : HeapState} {bs : List Extent}

/-- Freeing one live pointer leaves the other ones live. -/
lemma live_after_free {live : List (UInt32 × UInt32)} {p : UInt32} {order : List UInt32}
    (hn : (live.map Prod.fst).Nodup) (hp : (p :: order).Perm (live.map Prod.fst)) :
    order.Perm ((live.filter (fun e => e.1 ≠ p)).map Prod.fst) := by
  have hcons : (p :: order).Nodup := hp.nodup_iff.mpr hn
  have hne : ∀ q ∈ order, q ≠ p := by
    rintro q hq rfl
    exact (List.nodup_cons.mp hcons).1 hq
  have hrest : (p :: order).filter (fun q => q ≠ p) = order := by
    rw [List.filter_cons_of_neg (by simp)]
    exact List.filter_eq_self.mpr (fun q hq => by simpa using hne q hq)
  have hfilter := hp.filter (fun q => decide (q ≠ p))
  rw [hrest, List.filter_map] at hfilter
  exact hfilter

/-- `kfree` of the live pointers, in any order, is a run that ends with none live. -/
lemma heapInv_freeAll (order : List UInt32) (hc : Coalesced bs) (hI : HeapInv start end_ s bs)
    (hp : order.Perm (s.live.map Prod.fst)) :
    ∃ bs', Coalesced bs' ∧ HeapInv start end_ ⟨order.foldl kfree s.heap, []⟩ bs' := by
  induction order generalizing s bs with
  | nil =>
    have hnone : s.live = [] := List.map_eq_nil_iff.mp hp.symm.eq_nil
    refine ⟨bs, hc, ?_⟩
    rw [List.foldl_nil, ← hnone]
    exact hI
  | cons p order ih =>
    obtain ⟨e, he, rfl⟩ := List.mem_map.mp (hp.subset List.mem_cons_self)
    have hfree : HeapStep s (.free e.1)
        ⟨kfree s.heap e.1, s.live.filter (fun d => d.1 ≠ e.1)⟩ := ⟨⟨e.2, he⟩, rfl⟩
    obtain ⟨bs', hedit, hI'⟩ := heapInv_step hI hfree
    have hrest := ih (hedit.coalesced hc) hI' (live_after_free hI.nodup hp)
    rw [List.foldl_cons]
    exact hrest

/-- With nothing live the list is the block that `kheap_init` made. -/
lemma HeapInv.initial_block (hI : HeapInv start end_ s bs) (hc : Coalesced bs)
    (hlive : s.live = []) :
    s.heap.first = start ∧ memBlock s.heap.mem start = ⟨0, 0, 0, end_ - start - sizeofMemBlock⟩ := by
  have hfree : ∀ b ∈ bs, b.used = false := by
    intro b hb
    by_contra hu
    obtain ⟨n, hn⟩ := hI.live.used b hb (by simpa using hu)
    rw [hlive] at hn
    cases hn
  have hone := hc.eq_singleton hI.layout.tiles hI.layout.nonempty hfree
  have htiles := hI.layout.tiles
  have hlink := hI.layout.linked
  rw [hone] at hlink htiles
  rw [hI.start, hI.end_] at hlink htiles
  have hblock := hlink.1
  refine ⟨hI.layout.first.trans hI.start, ?_⟩
  have hle : start.toNat + 16 ≤ end_.toNat := by
    have := htiles.2
    simp only [Tiles] at this
    omega
  have hsize : UInt32.ofNat (end_.toNat - start.toNat - 16) = end_ - start - sizeofMemBlock := by
    have hsub := UInt32.toNat_sub_of_le end_ start (UInt32.le_iff_toNat_le.mpr (by omega))
    have h16 : sizeofMemBlock.toNat = 16 := rfl
    apply UInt32.toNat_inj.mp
    rw [UInt32.toNat_sub_of_le _ _ (UInt32.le_iff_toNat_le.mpr (by omega)), hsub, h16,
      toNat_ofNat_small]
    have := end_.toNat_lt
    omega
  simpa [headAddr, hsize] using hblock

/-- In every run no two neighbouring blocks are free, and freeing the live pointers in any
order gives back the initial block list. -/
theorem kheap_free_all_restores (mem : Mem) (start end_ : UInt32) (h4 : start.toNat % 4 = 0)
    (hd : (end_ - start).toNat % 4 = 0) (hlt : start.toNat + 16 < end_.toNat)
    {tr : List (HeapState × HeapOp)} {s : HeapState}
    (hr : Run HeapStep ⟨kheapInit mem start end_, []⟩ tr s) :
    (∃ bs, HeapSound start end_ s bs ∧ Coalesced bs) ∧
    ∀ order : List UInt32, order.Perm (s.live.map Prod.fst) →
      (order.foldl kfree s.heap).first = start ∧
      memBlock (order.foldl kfree s.heap).mem start =
        ⟨0, 0, 0, (kheapInit mem start end_).heapSize - sizeofMemBlock⟩ := by
  obtain ⟨bs, hc, hI⟩ := heapInv_run mem h4 hd hlt hr
  refine ⟨⟨bs, hI.sound, hc⟩, fun order hp => ?_⟩
  obtain ⟨bs', hc', hI'⟩ := heapInv_freeAll order hc hI hp
  exact hI'.initial_block hc' rfl

theorem kheap_free_all_restores_two :
    ∃ (p q : UInt32) (h₁ h₂ : Heap),
      kmalloc (kheapInit (fun _ => 0xFF) 0x1000 0x1060) 8 = .ok (p, h₁) ∧
      kmalloc h₁ 8 = .ok (q, h₂) ∧
      memBlock (kfree (kfree h₂ p) q).mem 0x1000 = ⟨0, 0, 0, 0x50⟩ ∧
      memBlock (kfree (kfree h₂ q) p).mem 0x1000 = ⟨0, 0, 0, 0x50⟩ := by
  have h0 : (kheapInit (fun _ => 0xFF) 0x1000 0x1060).heapStart ≠ 0 := by decide
  have hL : Layout (kheapInit (fun _ => 0xFF) 0x1000 0x1060) _ :=
    layout_kheapInit (fun _ => 0xFF) (by decide) (by decide) (by decide)
  obtain ⟨m₁, hk₁, hL₁⟩ := kmalloc_eq_allocate hL h0 (by decide)
    (show allocate 16 (8 : UInt32).toNat _ =
      some (0x1010, [⟨0x1000, 8, true⟩, ⟨0x1018, 0x38, false⟩]) by decide)
  obtain ⟨m₂, hk₂, -⟩ := kmalloc_eq_allocate hL₁ h0 (by decide)
    (show allocate 16 (8 : UInt32).toNat _ =
      some (0x1028, [⟨0x1000, 8, true⟩, ⟨0x1018, 8, true⟩, ⟨0x1030, 0x20, false⟩]) by decide)
  generalize { kheapInit (fun _ => 0xFF) 0x1000 0x1060 with mem := m₁ } = h₁ at hk₁ hk₂
  generalize { h₁ with mem := m₂ } = h₂ at hk₂
  refine ⟨_, _, h₁, h₂, hk₁, hk₂, ?_⟩
  have hfirst : HeapStep ⟨kheapInit (fun _ => 0xFF) 0x1000 0x1060, []⟩ (.malloc 8)
      ⟨h₁, [(UInt32.ofNat 0x1010, 8)]⟩ := ⟨by decide, _, _, hk₁, rfl⟩
  have hsecond : HeapStep ⟨h₁, [(UInt32.ofNat 0x1010, 8)]⟩ (.malloc 8)
      ⟨h₂, [(UInt32.ofNat 0x1028, 8), (UInt32.ofNat 0x1010, 8)]⟩ := ⟨by decide, _, _, hk₂, rfl⟩
  have hall := (kheap_free_all_restores (fun _ => 0xFF) 0x1000 0x1060 (by decide) (by decide)
    (by decide) ((Run.nil.cons hfirst).cons hsecond)).2
  exact ⟨(hall [UInt32.ofNat 0x1010, UInt32.ofNat 0x1028] (List.Perm.swap _ _ _)).2,
    (hall [UInt32.ofNat 0x1028, UInt32.ofNat 0x1010] (List.Perm.refl _)).2⟩

end SaxonOS.Proofs
