import SaxonOS.Proofs.HeapFrame

/-!
# Allocation and the free right after it

Free blocks have no free neighbours, so a `kfree` right after a `kmalloc` merges exactly what the
`kmalloc` has split. The search of `kmalloc` wants a block larger than the request, so a free
block of exactly the size asked for is passed over.
-/

namespace SaxonOS.Proofs
open Lib

variable {m m' : Mem} {h h' : Heap} {bs : List Extent} {b : Extent} {p n : UInt32}
  {start end_ : UInt32} {s : HeapState}

/-- One list in two memories has the same headers in both. -/
lemma Linked.memBlock_eq (hl : Linked m p bs n) (hl' : Linked m' p bs n) (hb : b ∈ bs) :
    memBlock m' (UInt32.ofNat b.addr) = memBlock m (UInt32.ofNat b.addr) := by
  induction bs generalizing p with
  | nil => cases hb
  | cons c bs ih =>
    rcases List.mem_cons.mp hb with rfl | hb
    · exact hl'.1.trans hl.1.symm
    · exact ih hl.2 hl'.2 hb

/-- `kfree` right after `kmalloc` lays the old list out again. -/
lemma layout_kmalloc_kfree (hL : Layout h bs) (hc : Coalesced bs) (hn : 4 ∣ n.toNat)
    (hk : kmalloc h n = .ok (p, h')) : Layout (kfree h' p) bs := by
  obtain ⟨h0, q, ys, m', ha, rfl, rfl, hL'⟩ := allocate_of_kmalloc hL hn hk
  obtain ⟨a, k, rfl, -, -, hused⟩ := allocate_used ha
  have hnew : (⟨a, k, true⟩ : Extent) ∈ ys := (hused _ rfl).mpr (Or.inl rfl)
  have hfree := kfree_release hL' h0 hnew
  rwa [release_allocate (by decide) hc hL.tiles ha] at hfree

/-- The heap `h'` has the blocks of `h`, with the same headers. -/
structure SameBlocks (bs : List Extent) (h h' : Heap) : Prop where
  first : h'.first = h.first
  header : ∀ b ∈ bs, memBlock h'.mem (UInt32.ofNat b.addr) = memBlock h.mem (UInt32.ofNat b.addr)

/-- In every run a `kfree` right after a `kmalloc` restores the block list: addresses, sizes,
flags and links. -/
theorem kmalloc_kfree_restores (mem : Mem) (start end_ : UInt32) (h4 : start.toNat % 4 = 0)
    (hd : (end_ - start).toNat % 4 = 0) (hlt : start.toNat + 16 < end_.toNat)
    {tr : List (HeapState × HeapOp)} {s : HeapState}
    (hr : Run HeapStep ⟨kheapInit mem start end_, []⟩ tr s) :
    ∃ bs, HeapSound start end_ s bs ∧ ∀ size p h', size.toNat % 4 = 0 →
      kmalloc s.heap size = .ok (p, h') →
      HeapSound start end_ ⟨kfree h' p, s.live⟩ bs ∧ SameBlocks bs s.heap (kfree h' p) := by
  obtain ⟨bs, hc, hI⟩ := heapInv_run mem h4 hd hlt hr
  refine ⟨bs, hI.sound, ?_⟩
  intro size p h' hmod hk
  have hn : 4 ∣ size.toNat := Nat.dvd_of_mod_eq_zero hmod
  have hL' := layout_kmalloc_kfree hI.layout hc hn hk
  obtain ⟨-, q, ys, m', -, -, rfl, -⟩ := allocate_of_kmalloc hI.layout hn hk
  have hI' : HeapInv start end_ ⟨kfree { s.heap with mem := m' } p, s.live⟩ bs := by
    refine ⟨hL', ?_, ?_, hI.live, hI.nodup, ?_⟩
    · simpa using hI.start
    · simpa using hI.end_
    · simpa using hI.null
  exact ⟨hI'.sound, by simp, fun b hb => hI.layout.linked.memBlock_eq hL'.linked hb⟩

/-- A heap of 48 free bytes of which 8 are taken and given back. -/
theorem kmalloc_kfree_restores_eight :
    ∃ p h' bs, kmalloc (kheapInit (fun _ => 0xFF) 0x1000 0x1040) 8 = .ok (p, h') ∧
      HeapSound 0x1000 0x1040 ⟨kfree h' p, []⟩ bs ∧
      SameBlocks bs (kheapInit (fun _ => 0xFF) 0x1000 0x1040) (kfree h' p) := by
  have hL : Layout (kheapInit (fun _ => 0xFF) 0x1000 0x1040) _ :=
    layout_kheapInit (fun _ => 0xFF) (by decide) (by decide) (by decide)
  obtain ⟨m', hk, -⟩ := kmalloc_eq_allocate hL (by decide) (by decide)
    (show allocate 16 (8 : UInt32).toNat _ =
      some (0x1010, [⟨0x1000, 8, true⟩, ⟨0x1018, 24, false⟩]) by decide)
  obtain ⟨bs, -, hall⟩ := kmalloc_kfree_restores (fun _ => 0xFF) 0x1000 0x1040 (by decide)
    (by decide) (by decide) Run.nil
  obtain ⟨hsound, hsame⟩ := hall 8 _ _ (by decide) hk
  exact ⟨_, _, bs, hk, hsound, hsame⟩

/-- A request for which some free block is large enough is served. -/
def ServesFit (h : Heap) (bs : List Extent) (size : UInt32) : Prop :=
  (∃ b ∈ bs, b.used = false ∧ size.toNat ≤ b.size) → ∃ p h', kmalloc h size = .ok (p, h') ∧ p ≠ 0

/-- A free block is larger than the request, unless none is large enough. -/
def RoomToSpare (h : Heap) (bs : List Extent) (size : UInt32) : Prop :=
  (∃ b ∈ bs, b.used = false ∧ size.toNat ≤ b.size) → h.heapStart ≠ 0 ∧ Fits size.toNat bs

lemma kmalloc_returns_iff (hL : Layout h bs) (hn : 4 ∣ n.toNat) :
    (∃ p h', kmalloc h n = .ok (p, h') ∧ p ≠ 0) ↔ h.heapStart ≠ 0 ∧ Fits n.toNat bs := by
  constructor
  · rintro ⟨p, h', hk, -⟩
    obtain ⟨h0, q, ys, m', ha, -, -, -⟩ := allocate_of_kmalloc hL hn hk
    obtain ⟨pre, b, post, rfl, -, hu, hsize, -, -⟩ := allocate_eq_some ha
    exact ⟨h0, b, by simp, hu, hsize⟩
  · rintro ⟨h0, c, hc, hu, hsize⟩
    cases ha : allocate 16 n.toNat bs with
    | none => exact absurd ⟨hu, hsize⟩ (allocate_eq_none ha c hc)
    | some r =>
      obtain ⟨q, ys⟩ := r
      obtain ⟨m', hk, -⟩ := kmalloc_eq_allocate hL h0 hn ha
      obtain ⟨pre, b, post, rfl, -, -, -, rfl, -⟩ := allocate_eq_some ha
      refine ⟨_, _, hk, ?_⟩
      intro hp
      have hb := hL.toNat_payload (b := b) (by simp)
      rw [payload, hp] at hb
      have hz : (0 : UInt32).toNat = 0 := rfl
      omega

/-- The sizes of the live pointers are those of the requests. -/
lemma live_sizes {s₀ : Heap} {tr : List (HeapState × HeapOp)}
    (hr : Run HeapStep ⟨s₀, []⟩ tr s) : ∀ e ∈ s.live, 4 ∣ e.2.toNat := by
  refine hr.invariant (I := fun s => ∀ e ∈ s.live, 4 ∣ e.2.toNat) (C := fun _ _ => True)
    (by simp) ?_ (fun _ _ => trivial)
  intro s op s' hI _ hs
  cases op with
  | malloc size =>
    obtain ⟨hmod, p, h', -, rfl⟩ := hs
    intro e he
    rcases List.mem_cons.mp he with rfl | he
    · exact Nat.dvd_of_mod_eq_zero hmod
    · exact hI e he
  | free ptr =>
    obtain ⟨-, rfl⟩ := hs
    intro e he
    exact hI e (List.mem_filter.mp he).1
  | store addr value =>
    obtain ⟨-, rfl⟩ := hs
    exact hI

/-- In every run a request that fits is served exactly if a free block is larger than it, and one
for the size of a block that was just freed exactly if the block has bytes to spare, can grow
into a free neighbour, or another free block is larger. -/
theorem kmalloc_serves_iff (mem : Mem) (start end_ : UInt32) (h4 : start.toNat % 4 = 0)
    (hd : (end_ - start).toNat % 4 = 0) (hlt : start.toNat + 16 < end_.toNat)
    {tr : List (HeapState × HeapOp)} {s : HeapState}
    (hr : Run HeapStep ⟨kheapInit mem start end_, []⟩ tr s) :
    ∃ bs, HeapSound start end_ s bs ∧
      (∀ size, size.toNat % 4 = 0 → (ServesFit s.heap bs size ↔ RoomToSpare s.heap bs size)) ∧
      ∀ b ∈ bs, ∀ n, (payload b, n) ∈ s.live →
        ((∃ q h', kmalloc (kfree s.heap (payload b)) n = .ok (q, h') ∧ q ≠ 0) ↔
          n.toNat < b.size ∨ FreeNeighbour 16 bs b ∨ Fits n.toNat bs) := by
  obtain ⟨bs, -, hI⟩ := heapInv_run mem h4 hd hlt hr
  have hsound := hI.sound
  refine ⟨bs, hsound, ?_, ?_⟩
  · intro size hmod
    unfold ServesFit RoomToSpare
    rw [kmalloc_returns_iff hI.layout (Nat.dvd_of_mod_eq_zero hmod)]
  · intro b hb n hlive
    have h0 : s.heap.heapStart ≠ 0 := by
      intro h0
      rw [hI.null h0] at hlive
      cases hlive
    obtain ⟨c, hc, hcu, hcb⟩ := (hsound.used_iff_live (payload b)).mpr ⟨n, hlive⟩
    rw [hI.layout.payload_inj hc hb hcb] at hcu
    have hfree := kfree_release hI.layout h0 hb
    rw [payload, kmalloc_returns_iff hfree (live_sizes hr _ hlive),
      release_fits (by decide) hI.layout.tiles hb hcu (hsound.room b hb n hlive)]
    simp [h0]

/-- A heap of 48 free bytes serves a request for 8, and serves it again after a `kfree`. -/
theorem kmalloc_serves_iff_eight :
    ∃ h', kmalloc (kheapInit (fun _ => 0xFF) 0x1000 0x1040) 8 = .ok (UInt32.ofNat 0x1010, h') ∧
      ∃ q h'', kmalloc (kfree h' (UInt32.ofNat 0x1010)) 8 = .ok (q, h'') ∧ q ≠ 0 := by
  have hL : Layout (kheapInit (fun _ => 0xFF) 0x1000 0x1040) _ :=
    layout_kheapInit (fun _ => 0xFF) (by decide) (by decide) (by decide)
  obtain ⟨m', hk, hL'⟩ := kmalloc_eq_allocate hL (by decide) (by decide)
    (show allocate 16 (8 : UInt32).toNat _ =
      some (0x1010, [⟨0x1000, 8, true⟩, ⟨0x1018, 24, false⟩]) by decide)
  have hmalloc : HeapStep ⟨kheapInit (fun _ => 0xFF) 0x1000 0x1040, []⟩ (.malloc 8)
      ⟨_, [(UInt32.ofNat 0x1010, 8)]⟩ := ⟨by decide, _, _, hk, rfl⟩
  obtain ⟨bs, hsound, -, hagain⟩ := kmalloc_serves_iff (fun _ => 0xFF) 0x1000 0x1040 (by decide)
    (by decide) (by decide) (Run.nil.cons hmalloc)
  have hbs := linked_unique hL'.linked hL'.tiles hsound.linked hsound.tiles
    (UInt32.toNat_lt _)
  refine ⟨_, hk, (hagain ⟨0x1000, 8, true⟩ ?_ 8 ?_).mpr (Or.inr (Or.inr ⟨⟨0x1018, 24, false⟩, ?_⟩))⟩
  · simp [hbs]
  · exact List.mem_cons_self
  · rw [hbs]
    decide

/-- It has no 48 bytes to give: the only free block has exactly that size. -/
theorem kmalloc_refuses_exact_fit :
    HeapSound 0x1000 0x1040 ⟨kheapInit (fun _ => 0xFF) 0x1000 0x1040, []⟩ [⟨0x1000, 48, false⟩] ∧
    kmalloc (kheapInit (fun _ => 0xFF) 0x1000 0x1040) 48 =
      .error (.panic [] "can't allocate memory") ∧
    ¬ServesFit (kheapInit (fun _ => 0xFF) 0x1000 0x1040) [⟨0x1000, 48, false⟩] 48 := by
  have hL : Layout (kheapInit (fun _ => 0xFF) 0x1000 0x1040) _ :=
    layout_kheapInit (fun _ => 0xFF) (by decide) (by decide) (by decide)
  have hI : ∃ bs, Coalesced bs ∧
      HeapInv 0x1000 0x1040 ⟨kheapInit (fun _ => 0xFF) 0x1000 0x1040, []⟩ bs :=
    heapInv_run (fun _ => 0xFF) (by decide) (by decide) (by decide) Run.nil
  obtain ⟨bs, -, hI⟩ := hI
  have hsound := hI.sound
  have hbs := linked_unique hL.linked hL.tiles hsound.linked hsound.tiles
    (UInt32.toNat_lt _)
  have hpanic := kmalloc_eq_panic hL (by decide) (by decide)
    (show allocate 16 (48 : UInt32).toNat _ = none by decide)
  rw [hbs] at hsound
  refine ⟨hsound, hpanic, ?_⟩
  intro hserves
  obtain ⟨p, h', hk, -⟩ := hserves ⟨_, List.mem_cons_self, rfl, by decide⟩
  rw [hpanic] at hk
  cases hk

end SaxonOS.Proofs
