import SaxonOS.Proofs.BufferSteps

/-!
# Coherence of the cache

For one device, every loaded record is reached from the bucket of its block, no two of them
have one label, and each holds the last payload left for its block; the sectors of the blocks
that are not loaded are up to date on the disk. A miss keeps this when the record it recycles
is not held and no other loaded record is reached through it only.
-/

namespace SaxonOS.Proofs
open Lib

/-- What the block should hold: the last payload a holder left, or else the sector. -/
def logical (disk : UInt32 → UInt32 → Payload) (s : CacheState) (d : UInt16) (a b : UInt32) :
    Payload :=
  (s.left b d).getD (disk a b)

def OnDevice (d : UInt16) : CacheOp → Prop
  | .get _ dev => dev = d
  | .put _ => True
  | .modify _ _ => True

/-- A miss recycles a record that is not held, and every other loaded record is reached from
the bucket of its block without passing the recycled one. -/
def CleanMiss (s : CacheState) : CacheOp → Prop
  | .get block dev => findBlock s.world.cache block dev = .ok none →
      ∀ i, s.world.cache.lruBuff = .node i → (∀ h ∈ s.held, h.buff ≠ i) ∧
        ∀ j, j ≠ i → (s.world.cache.pool j).dev ≠ 0 →
          j ∈ walkUntil (Cache.next s.world.cache) i maxBuffer
            (s.world.cache.buffHead (bucket (s.world.cache.pool j).blockNum))
  | .put _ => True
  | .modify _ _ => True

/-- At most one record is labelled with a block of the device. -/
def UniqueLabels (d : UInt16) (c : Cache) : Prop :=
  ∀ b i j, Labelled (c.pool i) b d → Labelled (c.pool j) b d → i = j

/-- A `get_block` that returns gives a record with the label asked for and with the payload the
block should hold. -/
def GetsLogical (fs : Devfs) (disk : UInt32 → UInt32 → Payload) (d : UInt16) (s : CacheState)
    (op : CacheOp) : Prop :=
  ∀ b i w', op = .get b d → getBlock fs s.world b d = .ok (i, w') →
    Labelled (w'.cache.pool i) b d ∧
      ∃ a, findBdev fs d = .ok a ∧ (w'.cache.pool i).buff = logical disk s d a b

/-- A loaded record is reached from its bucket. -/
def Reached (c : Cache) (i : Buff) : Prop :=
  ∃ xs, (i :: xs).Nodup ∧ Seg (Cache.next c) (c.buffHead (bucket (c.pool i).blockNum)) xs (.node i)

structure CoherentInv (fs : Devfs) (disk : UInt32 → UInt32 → Payload) (d : UInt16)
    (s : CacheState) : Prop where
  dev : ∀ i, (s.world.cache.pool i).dev ≠ 0 →
    (s.world.cache.pool i).dev = d ∧ ∃ a, findBdev fs d = .ok a
  reached : ∀ i, (s.world.cache.pool i).dev ≠ 0 → Reached s.world.cache i
  unique : ∀ i j, (s.world.cache.pool i).dev ≠ 0 → (s.world.cache.pool j).dev ≠ 0 →
    (s.world.cache.pool i).blockNum = (s.world.cache.pool j).blockNum → i = j
  payload : ∀ i a, (s.world.cache.pool i).dev ≠ 0 → findBdev fs d = .ok a →
    (s.world.cache.pool i).buff = logical disk s d a (s.world.cache.pool i).blockNum ∧
    ((s.world.cache.pool i).dirty ≠ 1 → s.world.disk a (s.world.cache.pool i).blockNum =
      logical disk s d a (s.world.cache.pool i).blockNum)
  clean : ∀ i, (s.world.cache.pool i).dev = 0 → (s.world.cache.pool i).dirty ≠ 1
  sector : ∀ b a, findBdev fs d = .ok a →
    (∀ i, (s.world.cache.pool i).dev ≠ 0 → (s.world.cache.pool i).blockNum ≠ b) →
    s.world.disk a b = logical disk s d a b
  held : ∀ h ∈ s.held, Labelled (s.world.cache.pool h.buff) h.block h.dev ∧ h.dev = d

variable {fs : Devfs} {disk : UInt32 → UInt32 → Payload} {d : UInt16} {s s' : CacheState}
  {op : CacheOp} {i j : Buff} {block : UInt32} {w' : World}

lemma writeSector_same (disk : UInt32 → UInt32 → Payload) (a b : UInt32) (p : Payload) :
    writeSector disk a b p a b = p := by
  simp [writeSector]

lemma writeSector_other (disk : UInt32 → UInt32 → Payload) (a : UInt32) {b b' : UInt32}
    (p : Payload) (h : b' ≠ b) : writeSector disk a b p a b' = disk a b' := by
  simp [writeSector, h]

/-- A loaded record is found by the search. -/
lemma findBlock_loaded (hI : CoherentInv fs disk d s) (hd : d ≠ 0)
    (hl : Labelled (s.world.cache.pool i) block d) :
    findBlock s.world.cache block d = .ok (some i) := by
  have hi : (s.world.cache.pool i).dev ≠ 0 := by
    rw [hl.2]
    exact hd
  obtain ⟨xs, hnd, hseg⟩ := hI.reached i hi
  rw [hl.1] at hseg
  obtain ⟨hixs, hxs⟩ := List.nodup_cons.mp hnd
  have hlen : xs.length ≤ maxBuffer := by simpa using hxs.length_le_card
  refine searchChain_finds hseg (Nat.lt_succ_of_le hlen) hl fun x hx hlx => hixs ?_
  have hdx : (s.world.cache.pool x).dev ≠ 0 := by
    rw [hlx.2]
    exact hd
  rw [hI.unique i x hi hdx (hl.1.trans hlx.1.symm)]
  exact hx

lemma not_loaded_of_miss (hI : CoherentInv fs disk d s) (hd : d ≠ 0)
    (hf : findBlock s.world.cache block d = .ok none) (j : Buff)
    (hj : (s.world.cache.pool j).dev ≠ 0) : (s.world.cache.pool j).blockNum ≠ block := by
  intro hb
  have hfound := findBlock_loaded hI hd ⟨hb, (hI.dev j hj).1⟩
  rw [hf] at hfound
  cases hfound

/-- A step that keeps the labels and the chains has only the payloads and the disk to answer
for. -/
lemma CoherentInv.of_kept (hI : CoherentInv fs disk d s)
    (hlabel : ∀ j, (s'.world.cache.pool j).blockNum = (s.world.cache.pool j).blockNum ∧
      (s'.world.cache.pool j).dev = (s.world.cache.pool j).dev)
    (hnext : Cache.next s'.world.cache = Cache.next s.world.cache)
    (hheads : s'.world.cache.buffHead = s.world.cache.buffHead)
    (hpayload : ∀ i a, (s.world.cache.pool i).dev ≠ 0 → findBdev fs d = .ok a →
      (s'.world.cache.pool i).buff = logical disk s' d a (s.world.cache.pool i).blockNum ∧
      ((s'.world.cache.pool i).dirty ≠ 1 → s'.world.disk a (s.world.cache.pool i).blockNum =
        logical disk s' d a (s.world.cache.pool i).blockNum))
    (hclean : ∀ i, (s.world.cache.pool i).dev = 0 → (s'.world.cache.pool i).dirty ≠ 1)
    (hsector : ∀ b a, findBdev fs d = .ok a →
      (∀ i, (s.world.cache.pool i).dev ≠ 0 → (s.world.cache.pool i).blockNum ≠ b) →
      s'.world.disk a b = logical disk s' d a b)
    (hheld : ∀ h ∈ s'.held, Labelled (s'.world.cache.pool h.buff) h.block h.dev ∧ h.dev = d) :
    CoherentInv fs disk d s' := by
  refine ⟨fun i => ?_, fun i => ?_, fun i j => ?_, fun i a => ?_, fun i => ?_, fun b a ha hno => ?_,
    hheld⟩
  · rw [(hlabel i).2]
    exact hI.dev i
  · rw [(hlabel i).2, Reached, (hlabel i).1, hnext, hheads]
    exact hI.reached i
  · rw [(hlabel i).2, (hlabel j).2, (hlabel i).1, (hlabel j).1]
    exact hI.unique i j
  · rw [(hlabel i).2, (hlabel i).1]
    exact hpayload i a
  · rw [(hlabel i).2]
    exact hclean i
  · refine hsector b a ha fun i hi => ?_
    have := hno i
    rw [(hlabel i).1, (hlabel i).2] at this
    exact this hi

/-- A hit leaves dirty bytes and disk alone, or writes its dirty record to the disk. -/
lemma Hit.io_cases {w : World} {dev : UInt16} (h : Hit fs w i block dev w') :
    (w'.disk = w.disk ∧ ∀ j, (w'.cache.pool j).dirty = (w.cache.pool j).dirty) ∨
    ((w.cache.pool i).dirty = 1 ∧ (∀ j, j ≠ i → (w'.cache.pool j).dirty = (w.cache.pool j).dirty) ∧
      ∃ a, findBdev fs dev = .ok a ∧ w'.disk = writeSector w.disk a block (w.cache.pool i).buff) := by
  have hother : ∀ j, j ≠ i → (w'.cache.pool j).dirty = (w.cache.pool j).dirty :=
    fun j hj => (sameContent (h.other j hj)).dirty
  have hself := (sameContent h.self).dirty
  have hkeep : (w'.cache.pool i).dirty = (w.cache.pool i).dirty →
      ∀ j, (w'.cache.pool j).dirty = (w.cache.pool j).dirty := by
    intro hi j
    by_cases hj : j = i
    · rw [hj, hi]
    · exact hother j hj
  rcases h.io with ⟨hc, hdisk, -⟩ | ⟨hc, ⟨hd, hdisk, -⟩ | ⟨hd, a, ha, hdisk, -⟩⟩
  · rw [if_neg hc] at hself
    exact Or.inl ⟨hdisk, hkeep hself⟩
  · rw [if_pos hc, cleaned, if_neg hd] at hself
    exact Or.inl ⟨hdisk, hkeep hself⟩
  · exact Or.inr ⟨hd, hother, a, ha, hdisk⟩

lemma coherent_hit (hI : CoherentInv fs disk d s) (hd : d ≠ 0)
    (hl : Labelled (s.world.cache.pool i) block d) (h : Hit fs s.world i block d w') :
    CoherentInv fs disk d { s with world := w', held := ⟨i, block, d⟩ :: s.held } := by
  have hi : (s.world.cache.pool i).dev ≠ 0 := by
    rw [hl.2]
    exact hd
  have hlog : ∀ a b, logical disk { s with world := w', held := ⟨i, block, d⟩ :: s.held } d a b =
      logical disk s d a b := fun a b => rfl
  refine hI.of_kept (fun j => ⟨(h.data j).1, (h.data j).2.1⟩) h.next_eq h.heads.1 ?_ ?_ ?_ ?_
  · intro j a hj ha
    obtain ⟨hbuff, hsec⟩ := hI.payload j a hj ha
    refine ⟨(h.data j).2.2.trans hbuff, fun hdirty => ?_⟩
    rw [hlog]
    rcases h.io_cases with ⟨hdisk, hsame⟩ | ⟨-, hsame, a', ha', hdisk⟩
    · change w'.disk a _ = _
      rw [hdisk]
      exact hsec ((hsame j) ▸ hdirty)
    · rw [ha] at ha'
      obtain rfl := Except.ok.inj ha'
      change w'.disk a _ = _
      rw [hdisk]
      by_cases hji : j = i
      · rw [hji] at hbuff ⊢
        rw [hl.1] at hbuff ⊢
        rw [writeSector_same, hbuff]
      · have hne : (s.world.cache.pool j).blockNum ≠ block := by
          intro hb
          exact hji (hI.unique j i hj hi (hb.trans hl.1.symm))
        rw [writeSector_other _ _ _ hne]
        exact hsec ((hsame j hji) ▸ hdirty)
  · intro j hj
    have hji : j ≠ i := by
      rintro rfl
      exact hi hj
    have hdirty := (sameContent (h.other j hji)).dirty
    change (w'.cache.pool j).dirty ≠ 1
    rw [hdirty]
    exact hI.clean j hj
  · intro b a ha hno
    rw [hlog, ← hI.sector b a ha hno]
    rcases h.io_cases with ⟨hdisk, -⟩ | ⟨-, -, a', ha', hdisk⟩
    · change w'.disk a b = _
      rw [hdisk]
    · rw [ha] at ha'
      obtain rfl := Except.ok.inj ha'
      have hne : b ≠ block := by
        rintro rfl
        exact hno i hi hl.1
      change w'.disk a b = _
      rw [hdisk, writeSector_other _ _ _ hne]
  · intro g hg
    rcases List.mem_cons.mp hg with rfl | hg
    · exact ⟨h.labelled hl, rfl⟩
    · obtain ⟨⟨h1, h2⟩, hdev⟩ := hI.held g hg
      exact ⟨⟨(h.data g.buff).1.trans h1, (h.data g.buff).2.1.trans h2⟩, hdev⟩

lemma coherent_put (hI : CoherentInv fs disk d s) {hd : Handle} {c : Cache}
    (h : putBlock s.world.cache hd.buff = .ok c) :
    CoherentInv fs disk d
      { s with world := { s.world with cache := c }, held := s.held.erase hd } := by
  have hdata := putBlock_data h
  obtain ⟨hnext, hheads⟩ := putBlock_chains h
  refine hI.of_kept (fun j => ⟨(hdata j).1, (hdata j).2.1⟩) hnext hheads ?_ ?_ hI.sector ?_
  · intro j a hj ha
    obtain ⟨hbuff, hsec⟩ := hI.payload j a hj ha
    refine ⟨(hdata j).2.2.1.trans hbuff, fun hdirty => hsec ?_⟩
    rw [← (hdata j).2.2.2]
    exact hdirty
  · intro j hj
    change (c.pool j).dirty ≠ 1
    rw [(hdata j).2.2.2]
    exact hI.clean j hj
  · intro g hg
    obtain ⟨⟨h1, h2⟩, hdev⟩ := hI.held g (List.mem_of_mem_erase hg)
    exact ⟨⟨(hdata g.buff).1.trans h1, (hdata g.buff).2.1.trans h2⟩, hdev⟩

lemma logical_modify (s : CacheState) (w : World) (b : UInt32) (p : Payload) (a b' : UInt32) :
    logical disk ⟨w, s.held, Function.update s.left b (Function.update (s.left b) d (some p))⟩ d a b' =
      if b' = b then p else logical disk s d a b' := by
  unfold logical
  dsimp only
  by_cases hb : b' = b
  · rw [if_pos hb, hb, Function.update_self, Function.update_self]
    rfl
  · rw [if_neg hb, Function.update_of_ne hb]

lemma coherent_modify (hI : CoherentInv fs disk d s) (hd : d ≠ 0) {g : Handle} (hg : g ∈ s.held)
    (p : Payload) :
    CoherentInv fs disk d ⟨holderWrite s.world g.buff p, s.held,
      Function.update s.left g.block (Function.update (s.left g.block) g.dev (some p))⟩ := by
  obtain ⟨⟨hnum, hdev⟩, hgd⟩ := hI.held g hg
  rw [hgd] at hdev ⊢
  have hi : (s.world.cache.pool g.buff).dev ≠ 0 := by
    rw [hdev]
    exact hd
  have hdata := holderWrite_data s.world g.buff p
  refine hI.of_kept hdata (holderWrite_next _ _ _) rfl ?_ ?_ ?_ ?_
  · intro j a hj ha
    rw [logical_modify]
    change ((holderWrite s.world g.buff p).cache.pool j).buff = _ ∧
      (((holderWrite s.world g.buff p).cache.pool j).dirty ≠ 1 → _)
    rw [holderWrite_pool]
    by_cases hji : j = g.buff
    · rw [if_pos hji, hji, if_pos hnum]
      exact ⟨rfl, fun h => absurd rfl h⟩
    · have hne : (s.world.cache.pool j).blockNum ≠ g.block := by
        intro hb
        exact hji (hI.unique j g.buff hj hi (hb.trans hnum.symm))
      rw [if_neg hji, if_neg hne]
      exact hI.payload j a hj ha
  · intro j hj
    have hji : j ≠ g.buff := by
      rintro rfl
      exact hi hj
    change ((holderWrite s.world g.buff p).cache.pool j).dirty ≠ 1
    rw [holderWrite_pool, if_neg hji]
    exact hI.clean j hj
  · intro b a ha hno
    have hne : b ≠ g.block := by
      rintro rfl
      exact hno g.buff hi hnum
    rw [logical_modify, if_neg hne]
    exact hI.sector b a ha hno
  · intro g' hg'
    obtain ⟨⟨h1, h2⟩, hdev'⟩ := hI.held g' hg'
    exact ⟨⟨(hdata g'.buff).1.trans h1, (hdata g'.buff).2.trans h2⟩, hdev'⟩

/-! ### Misses -/

/-- After the eviction the disk is up to date on the block the record had, and unchanged
elsewhere. -/
lemma evicted_disk (hI : CoherentInv fs disk d s) (h : Miss fs s.world i block d w') {a : UInt32}
    (ha : findBdev fs d = .ok a) :
    ((s.world.cache.pool i).dev ≠ 0 → w'.disk a (s.world.cache.pool i).blockNum =
      logical disk s d a (s.world.cache.pool i).blockNum) ∧
    ∀ b, ((s.world.cache.pool i).dev ≠ 0 → b ≠ (s.world.cache.pool i).blockNum) →
      w'.disk a b = s.world.disk a b := by
  obtain ⟨_, log, -, hw, -, -⟩ := h.self
  rcases hw with ⟨hclean, hdisk, -⟩ | ⟨hdirty, a', ha', hdisk, -⟩
  · rw [hdisk]
    exact ⟨fun hi => (hI.payload i a hi ha).2 hclean, fun b _ => rfl⟩
  · have hi : (s.world.cache.pool i).dev ≠ 0 := fun h0 => hI.clean i h0 hdirty
    rw [(hI.dev i hi).1, ha] at ha'
    obtain rfl := Except.ok.inj ha'
    rw [hdisk]
    constructor
    · intro _
      rw [writeSector_same]
      exact (hI.payload i a hi ha).1
    · intro b hb
      exact writeSector_other _ _ _ (hb hi)

lemma reached_miss (h : Miss fs s.world i block d w') (hj : j ≠ i)
    (hwalk : j ∈ walkUntil (Cache.next s.world.cache) i maxBuffer
      (s.world.cache.buffHead (bucket (s.world.cache.pool j).blockNum))) : Reached w'.cache j := by
  obtain ⟨-, xs, hxs, hseg⟩ := seg_of_mem_walkUntil hwalk
  obtain ⟨ys, hsub, hnd, hys⟩ := hseg.simple
  have hiy : i ∉ ys := fun hm => hxs (hsub hm)
  have hys' := hys.update hiy (s.world.cache.buffHead (bucket block))
  rw [Reached, h.next_eq, h.heads, (h.data hj).1]
  by_cases hb : bucket (s.world.cache.pool j).blockNum = bucket block
  · rw [hb, Function.update_self]
    refine ⟨i :: ys, ?_, rfl, ?_⟩
    · obtain ⟨hjy, hnd⟩ := List.nodup_cons.mp hnd
      simp only [List.nodup_cons, List.mem_cons, not_or]
      exact ⟨⟨hj, hjy⟩, hiy, hnd⟩
    · rw [Function.update_self]
      rw [hb] at hys'
      exact hys'
  · rw [Function.update_of_ne hb]
    exact ⟨ys, hnd, hys'⟩

lemma unique_miss (hI : CoherentInv fs disk d s) (hd : d ≠ 0)
    (hf : findBlock s.world.cache block d = .ok none) (h : Miss fs s.world i block d w') {k : Buff}
    (hj : (w'.cache.pool j).dev ≠ 0) (hk : (w'.cache.pool k).dev ≠ 0)
    (hjk : (w'.cache.pool j).blockNum = (w'.cache.pool k).blockNum) : j = k := by
  have hno := not_loaded_of_miss hI hd hf
  have hnum := h.labelled.1
  by_cases hji : j = i
  · by_cases hki : k = i
    · rw [hji, hki]
    · rw [hji, hnum, (h.data hki).1] at hjk
      exact absurd hjk.symm (hno k ((h.data hki).2.1 ▸ hk))
  · by_cases hki : k = i
    · rw [hki, hnum, (h.data hji).1] at hjk
      exact absurd hjk (hno j ((h.data hji).2.1 ▸ hj))
    · rw [(h.data hji).1, (h.data hki).1] at hjk
      exact hI.unique j k ((h.data hji).2.1 ▸ hj) ((h.data hki).2.1 ▸ hk) hjk

/-- The new label was on no record, so its sector was up to date and the eviction left it. -/
lemma missed_sector (hI : CoherentInv fs disk d s) (hd : d ≠ 0)
    (hf : findBlock s.world.cache block d = .ok none) (h : Miss fs s.world i block d w')
    {a : UInt32} (ha : findBdev fs d = .ok a) : w'.disk a block = logical disk s d a block := by
  have hno := not_loaded_of_miss hI hd hf
  rw [(evicted_disk hI h ha).2 block fun hi hb => hno i hi hb.symm]
  exact hI.sector block a ha hno

lemma payload_miss (hI : CoherentInv fs disk d s) (hd : d ≠ 0)
    (hf : findBlock s.world.cache block d = .ok none) (h : Miss fs s.world i block d w')
    {a : UInt32} (hj : (w'.cache.pool j).dev ≠ 0) (ha : findBdev fs d = .ok a) :
    (w'.cache.pool j).buff = logical disk s d a (w'.cache.pool j).blockNum ∧
      ((w'.cache.pool j).dirty ≠ 1 → w'.disk a (w'.cache.pool j).blockNum =
        logical disk s d a (w'.cache.pool j).blockNum) := by
  by_cases hji : j = i
  · have hsector := missed_sector hI hd hf h ha
    obtain ⟨a', log, ha', -, -, hself⟩ := h.self
    rw [ha] at ha'
    obtain rfl := Except.ok.inj ha'
    have hbuff := (sameContent (content_eq_of_core hself)).buff
    rw [hji, h.labelled.1]
    exact ⟨hbuff.trans hsector, fun _ => hsector⟩
  · obtain ⟨hn, hv, hb, hdirty⟩ := h.data hji
    have hj' : (s.world.cache.pool j).dev ≠ 0 := hv ▸ hj
    rw [hn, hb, hdirty, (evicted_disk hI h ha).2 _ fun hi hjb => hji (hI.unique j i hj' hi hjb)]
    exact hI.payload j a hj' ha

lemma sector_miss (hI : CoherentInv fs disk d s) (h : Miss fs s.world i block d w') {a b : UInt32}
    (ha : findBdev fs d = .ok a)
    (hb : ∀ j, (w'.cache.pool j).dev ≠ 0 → (w'.cache.pool j).blockNum ≠ b) :
    w'.disk a b = logical disk s d a b := by
  by_cases hbi : (s.world.cache.pool i).dev ≠ 0 ∧ b = (s.world.cache.pool i).blockNum
  · rw [hbi.2]
    exact (evicted_disk hI h ha).1 hbi.1
  · rw [(evicted_disk hI h ha).2 b fun hi hb' => hbi ⟨hi, hb'⟩]
    apply hI.sector b a ha
    intro j hj hjb
    by_cases hji : j = i
    · rw [hji] at hj hjb
      exact hbi ⟨hj, hjb.symm⟩
    · obtain ⟨hn, hv, -⟩ := h.data hji
      exact hb j (hv ▸ hj) (hn.trans hjb)

lemma coherent_miss (hI : CoherentInv fs disk d s) (hd : d ≠ 0)
    (hf : findBlock s.world.cache block d = .ok none) (h : Miss fs s.world i block d w')
    (hfree : ∀ g ∈ s.held, g.buff ≠ i)
    (hwalk : ∀ j, j ≠ i → (s.world.cache.pool j).dev ≠ 0 →
      j ∈ walkUntil (Cache.next s.world.cache) i maxBuffer
        (s.world.cache.buffHead (bucket (s.world.cache.pool j).blockNum))) :
    CoherentInv fs disk d { s with world := w', held := ⟨i, block, d⟩ :: s.held } := by
  obtain ⟨hnum, hdev⟩ := h.labelled
  refine ⟨fun j hj => ?_, fun j hj => ?_, fun j k hj hk => unique_miss hI hd hf h hj hk,
    fun j a hj ha => payload_miss hI hd hf h hj ha, fun j hj => ?_,
    fun b a ha hb => sector_miss hI h ha hb, fun g hg => ?_⟩
  · by_cases hji : j = i
    · obtain ⟨a, -, ha, -⟩ := h.self
      rw [hji]
      exact ⟨hdev, a, ha⟩
    · change (w'.cache.pool j).dev = d ∧ _
      rw [(h.data hji).2.1]
      exact hI.dev j ((h.data hji).2.1 ▸ hj)
  · by_cases hji : j = i
    · rw [hji]
      refine ⟨[], by simp, ?_⟩
      change w'.cache.buffHead (bucket (w'.cache.pool i).blockNum) = .node i
      rw [hnum, h.heads, Function.update_self]
    · exact reached_miss h hji (hwalk j hji ((h.data hji).2.1 ▸ hj))
  · by_cases hji : j = i
    · rw [hji] at hj
      exact absurd (hdev.symm.trans hj) hd
    · change (w'.cache.pool j).dirty ≠ 1
      rw [(h.data hji).2.2.2]
      exact hI.clean j ((h.data hji).2.1 ▸ hj)
  · rcases List.mem_cons.mp hg with rfl | hg
    · exact ⟨⟨hnum, hdev⟩, rfl⟩
    · obtain ⟨⟨h1, h2⟩, hgd⟩ := hI.held g hg
      obtain ⟨hn, hv, -⟩ := h.data (hfree g hg)
      exact ⟨⟨hn.trans h1, hv.trans h2⟩, hgd⟩

lemma coherent_step (hI : CoherentInv fs disk d s) (hd : d ≠ 0) (hdev : OnDevice d op)
    (hC : CleanMiss s op) (h : s.exec fs op = some s') : CoherentInv fs disk d s' := by
  rcases exec_cases h with ⟨block, dev, i, w', rfl, -, hl, hhit, rfl⟩ |
    ⟨block, dev, i, w', rfl, hf, hmiss, rfl⟩ | ⟨g, c, rfl, -, hput, rfl⟩ | ⟨g, payload, rfl, hg, rfl⟩
  · obtain rfl : dev = d := hdev
    exact coherent_hit hI hd hl hhit
  · obtain rfl : dev = d := hdev
    obtain ⟨hfree, hwalk⟩ := hC hf i hmiss.lru
    exact coherent_miss hI hd hf hmiss hfree hwalk
  · exact coherent_put hI hput
  · exact coherent_modify hI hd hg payload

lemma getsLogical_of_inv (hI : CoherentInv fs disk d s) (hd : d ≠ 0) (hC : CleanMiss s op) :
    GetsLogical fs disk d s op := by
  rintro b i w' rfl hget
  have hexec : s.exec fs (.get b d) =
      some { s with world := w', held := ⟨i, b, d⟩ :: s.held } := by
    rw [CacheState.exec, hget]
  have hdev : OnDevice d (.get b d) := rfl
  have hI' := coherent_step hI hd hdev hC hexec
  obtain ⟨hl, -⟩ := hI'.held ⟨i, b, d⟩ List.mem_cons_self
  have hloaded : (w'.cache.pool i).dev ≠ 0 := by
    rw [hl.2]
    exact hd
  obtain ⟨-, a, ha⟩ := hI'.dev i hloaded
  have hbuff := (hI'.payload i a hloaded ha).1
  refine ⟨hl, a, ha, hbuff.trans ?_⟩
  change logical disk s d a (w'.cache.pool i).blockNum = _
  rw [hl.1]

lemma CoherentInv.uniqueLabels (hI : CoherentInv fs disk d s) (hd : d ≠ 0) :
    UniqueLabels d s.world.cache := by
  intro b i j hi hj
  refine hI.unique i j ?_ ?_ (hi.1.trans hj.1.symm)
  · rw [hi.2]
    exact hd
  · rw [hj.2]
    exact hd

lemma coherent_fresh (fs : Devfs) (disk : UInt32 → UInt32 → Payload) (d : UInt16) :
    CoherentInv fs disk d (freshState disk) := by
  have hview : ∀ i, ((freshState disk).world.cache.pool i).dev = 0 ∧
      ((freshState disk).world.cache.pool i).dirty = 0 := by
    intro i
    have hu := initBuffer_unlinked (fun _ => zeroed) i
    exact ⟨congrArg BufferHead.dev hu, congrArg BufferHead.dirty hu⟩
  refine ⟨fun i hi => absurd (hview i).1 hi, fun i hi => absurd (hview i).1 hi,
    fun i _ hi => absurd (hview i).1 hi, fun i _ hi => absurd (hview i).1 hi, fun i _ => ?_,
    fun _ _ _ _ => rfl, by simp [freshState]⟩
  rw [(hview i).2]
  decide

/-- The cache is coherent for a nonzero device in every run in which each miss recycles a record
that is not held and through which no other loaded record is reached. -/
theorem cache_coherent (fs : Devfs) (disk : UInt32 → UInt32 → Payload) (d : UInt16) (hd : d ≠ 0)
    {tr : List (CacheState × CacheOp)} {s : CacheState} (hr : CacheRun fs disk tr s)
    (hC : ∀ p ∈ tr, OnDevice d p.2 ∧ CleanMiss p.1 p.2) :
    UniqueLabels d s.world.cache ∧ ∀ p ∈ tr, GetsLogical fs disk d p.1 p.2 := by
  have hstep : ∀ s op s', CoherentInv fs disk d s → OnDevice d op ∧ CleanMiss s op →
      s.exec fs op = some s' → CoherentInv fs disk d s' :=
    fun s op s' hI hC h => coherent_step hI hd hC.1 hC.2 h
  have h₀ := coherent_fresh fs disk d
  refine ⟨(hr.invariant h₀ hstep hC).uniqueLabels hd, fun p hp => ?_⟩
  exact getsLogical_of_inv (hr.visited h₀ hstep hC p hp) hd (hC p hp).2

instance (d : UInt16) (op : CacheOp) : Decidable (OnDevice d op) :=
  match op with
  | .get _ dev => inferInstanceAs (Decidable (dev = d))
  | .put _ => isTrue trivial
  | .modify _ _ => isTrue trivial

instance (s : CacheState) (op : CacheOp) : Decidable (CleanMiss s op) :=
  match op with
  | .get block dev => inferInstanceAs (Decidable (findBlock s.world.cache block dev = .ok none →
      ∀ i, s.world.cache.lruBuff = .node i → (∀ h ∈ s.held, h.buff ≠ i) ∧
        ∀ j, j ≠ i → (s.world.cache.pool j).dev ≠ 0 →
          j ∈ walkUntil (Cache.next s.world.cache) i maxBuffer
            (s.world.cache.buffHead (bucket (s.world.cache.pool j).blockNum))))
  | .put _ => isTrue trivial
  | .modify _ _ => isTrue trivial

/-- Block 5 is changed, evicted for block 6 and read again. -/
theorem cache_coherent_written_back :
    ∃ tr s, CacheRun oneDisk numberedDisk tr s ∧ tr.length = 6 ∧
      UniqueLabels 0x300 s.world.cache ∧
      ∀ p ∈ tr, GetsLogical oneDisk numberedDisk 0x300 p.1 p.2 := by
  have hrun : ((execTrace (CacheState.exec oneDisk) (freshState numberedDisk)
      [.get 5 0x300, .modify ⟨0, 5, 0x300⟩ fun _ => 0xAA, .put ⟨0, 5, 0x300⟩, .get 6 0x300,
        .put ⟨0, 6, 0x300⟩, .get 5 0x300]).map fun r =>
        decide (r.1.length = 6 ∧ ∀ p ∈ r.1, OnDevice 0x300 p.2 ∧ CleanMiss p.1 p.2)) =
      some true := by
    decide +kernel
  obtain ⟨r, hr, hlen, hC⟩ := exists_run_of_decide hrun
  exact ⟨r.1, r.2, hr, hlen, cache_coherent oneDisk numberedDisk 0x300 (by decide) hr hC⟩

/-- Block 5 is held and changed. Block 261 goes in front of it on its chain, is released, and
its record is recycled for block 7: the chain ends there, and block 5 is read again from the
disk into a second record. -/
theorem stale_second_copy :
    ∃ tr s i w', CacheRun oneDisk numberedDisk tr s ∧ (∀ p ∈ tr, OnDevice 0x300 p.2) ∧
      (∃ h ∈ s.held, h.buff = 0 ∧ h.block = 5) ∧ s.left 5 0x300 = some (fun _ => 0xAA) ∧
      getBlock oneDisk s.world 5 0x300 = .ok (i, w') ∧ i = 2 ∧
      ¬UniqueLabels 0x300 w'.cache ∧
      ¬GetsLogical oneDisk numberedDisk 0x300 s (.get 5 0x300) := by
  have hrun : ((execTrace (CacheState.exec oneDisk) (freshState numberedDisk)
      [.get 5 0x300, .modify ⟨0, 5, 0x300⟩ fun _ => 0xAA, .get 261 0x300, .put ⟨1, 261, 0x300⟩,
        .get 7 0x300]).bind fun r =>
        (getBlock oneDisk r.2.world 5 0x300).toOption.map fun q =>
          decide ((∀ p ∈ r.1, OnDevice 0x300 p.2) ∧ (∃ h ∈ r.2.held, h.buff = 0 ∧ h.block = 5) ∧
            r.2.left 5 0x300 = some (fun _ => 0xAA) ∧ q.1 = 2 ∧
            Labelled (q.2.cache.pool 0) 5 0x300 ∧ Labelled (q.2.cache.pool 2) 5 0x300 ∧
            (q.2.cache.pool 2).buff ⟨0, by decide⟩ = 5)) = some true := by
    decide +kernel
  obtain ⟨r, hexec, h⟩ := Option.bind_eq_some_iff.mp hrun
  obtain ⟨⟨i, w'⟩, hget, h⟩ := Option.map_eq_some_iff.mp h
  obtain ⟨hdev, hheld, hleft, rfl, hl0, hl2, hbuff⟩ := of_decide_eq_true h
  have hget := eq_ok_of_toOption hget
  have hr : CacheRun oneDisk numberedDisk r.1 r.2 := run_of_execTrace hexec
  refine ⟨r.1, r.2, 2, w', hr, hdev, hheld, hleft, hget, rfl, fun hu => ?_, fun hlog => ?_⟩
  · exact absurd (hu 5 0 2 hl0 hl2) (by decide)
  · obtain ⟨-, a, -, hpay⟩ := hlog 5 2 w' rfl hget
    rw [logical, hleft, Option.getD_some] at hpay
    rw [hpay] at hbuff
    exact absurd hbuff (by decide)

end SaxonOS.Proofs
