import Mathlib.Algebra.BigOperators.Group.Finset.Piecewise
import Mathlib.Algebra.Order.BigOperators.Group.Finset
import SaxonOS.Proofs.BufferInsertion

/-!
# How often a record is loaded

The last release of a record leaves its count at 1, so that the release after the next load finds
2 and does not put the record on the free list. Over zeroed memory every record is loaded at most
twice, and the one at the end of the list once, so that the cache never reads more than
`2 * MAX_BUFFER - 1` different sectors.
-/

namespace SaxonOS.Proofs
open Lib

/-- How often a record can still be loaded: twice before the first load, and once as long as it is
on the free list or will be put there by its last release. -/
def livesOf (onList : Prop) [Decidable onList] (count : UInt32) (holders : Nat) : Nat :=
  if count = 0 then 2 else if onList ∨ count.toNat = holders then 1 else 0

def lives (s : CacheState) (i : Buff) : Nat :=
  livesOf (OnFreeList s.world.cache i) (s.world.cache.pool i).count (holders s i)

/-- A `get_block` that finds its sector in no record. -/
def IsMiss (s : CacheState) : CacheOp → Prop
  | .get block dev => findBlock s.world.cache block dev = .ok none
  | .put _ => False
  | .modify _ _ => False

instance (s : CacheState) (op : CacheOp) : Decidable (IsMiss s op) :=
  match op with
  | .get block dev => inferInstanceAs (Decidable (findBlock s.world.cache block dev = .ok none))
  | .put _ => isFalse id
  | .modify _ _ => isFalse id

def misses (tr : List (CacheState × CacheOp)) : Nat := tr.countP fun p => IsMiss p.1 p.2

/-- The sectors asked for, with the device number. -/
def sectorsGot : List (CacheState × CacheOp) → Finset (UInt32 × UInt16)
  | [] => ∅
  | (_, .get block dev) :: tr => insert (block, dev) (sectorsGot tr)
  | _ :: tr => sectorsGot tr

variable {fs : Devfs} {disk : UInt32 → UInt32 → Payload} {s s' : CacheState} {op : CacheOp}
  {free : List Buff} {i j : Buff} {block : UInt32} {dev : UInt16} {w' : World}

lemma lives_eq (hI : FreeInv s free) (i : Buff) :
    lives s i = livesOf (i ∈ free) (s.world.cache.pool i).count (holders s i) := by
  simp only [lives, livesOf, onFreeList_iff hI]

section Record

variable {p q : Prop} [Decidable p] [Decidable q] {count : UInt32} {n : Nat}

lemma livesOf_congr (h : p ↔ q) : livesOf p count n = livesOf q count n := by
  simp only [livesOf, h]

lemma livesOf_succ (h0 : count ≠ 0) (hmax : count ≠ 0xFFFFFFFF) :
    livesOf p (count + 1) (n + 1) = livesOf p count n := by
  have hsucc := toNat_succ_count hmax
  have hne : count + 1 ≠ 0 := fun h => by simp [h] at hsucc
  rw [livesOf, livesOf, if_neg h0, if_neg hne, hsucc]
  simp only [Nat.add_right_cancel_iff]

lemma livesOf_pred (hgt : count > 1) : livesOf p (count - 1) n = livesOf p count (n + 1) := by
  obtain ⟨hlt, hpred⟩ := toNat_pred_count hgt
  have h0 : count ≠ 0 := fun h => by simp [h] at hlt
  have hne : count - 1 ≠ 0 := fun h => by
    rw [h] at hpred
    have hz : (0 : UInt32).toNat = 0 := rfl
    omega
  have hiff : (count.toNat - 1 = n) ↔ count.toNat = n + 1 := by omega
  rw [livesOf, livesOf, if_neg h0, if_neg hne, hpred]
  simp only [hiff]

/-- A load takes one life. -/
lemma livesOf_load (hp : p) (hq : ¬q) (hc : CountOk p count n) (hmax : count ≠ 0xFFFFFFFF) :
    livesOf q (count + 1) (n + 1) + 1 = livesOf p count n := by
  have hsucc := toNat_succ_count hmax
  have hne : count + 1 ≠ 0 := fun h => by simp [h] at hsucc
  rw [livesOf, livesOf, if_neg hne, hsucc]
  rcases hc with ⟨-, rfl, rfl⟩ | ⟨hn, -⟩ | hc
  · simp [hq]
  · exact absurd hp hn
  · have h0 : count ≠ 0 := fun h => by simp [h] at hc
    rw [if_neg h0, if_pos (Or.inl hp), if_neg]
    rintro (h | h)
    · exact hq h
    · omega

/-- The last release of a first life puts the record on the list. -/
lemma livesOf_release (hq : q) (h1 : count.toNat = 1) :
    livesOf q count 0 = livesOf p count 1 := by
  have h0 : count ≠ 0 := fun h => by simp [h] at h1
  rw [livesOf, livesOf, if_neg h0, if_neg h0, if_pos (Or.inl hq), if_pos (Or.inr h1)]

end Record

lemma lives_hit (hI : FreeInv s free) (h : Hit fs s.world i block dev w')
    (h0 : (s.world.cache.pool i).count ≠ 0) (hmax : (s.world.cache.pool i).count ≠ 0xFFFFFFFF)
    (j : Buff) : lives { s with world := w', held := ⟨i, block, dev⟩ :: s.held } j = lives s j := by
  rw [lives_eq (freeInv_hit hI h h0 hmax), lives_eq hI, holders_cons]
  simp only [(h.counts j).2]
  by_cases hji : j = i
  · rw [if_pos hji, if_pos hji.symm, hji]
    exact livesOf_succ h0 hmax
  · rw [if_neg hji, if_neg (Ne.symm hji), Nat.add_zero]
    rfl

lemma lives_miss (hI : FreeInv s free) (h : Miss fs s.world i block dev w')
    (hmax : (s.world.cache.pool i).count ≠ 0xFFFFFFFF) (j : Buff) :
    lives { s with world := w', held := ⟨i, block, dev⟩ :: s.held } j + (if j = i then 1 else 0) =
      lives s j := by
  obtain ⟨rest, rfl, hI'⟩ := freeInv_miss hI h hmax
  have hi := (List.nodup_cons.mp hI.list.nodup).1
  rw [lives_eq hI', lives_eq hI, holders_cons]
  simp only [(h.counts j).2]
  by_cases hji : j = i
  · rw [if_pos hji, if_pos hji.symm, if_pos hji, hji]
    exact livesOf_load List.mem_cons_self hi (hI.count i) hmax
  · rw [if_neg hji, if_neg (Ne.symm hji), if_neg hji, Nat.add_zero]
    exact livesOf_congr (by simp [hji])

lemma lives_put {hd : Handle} (hI : FreeInv s free) (hm : hd ∈ s.held) {c : Cache}
    (h : putBlock s.world.cache hd.buff = .ok c) (j : Buff) :
    lives { s with world := { s.world with cache := c }, held := s.held.erase hd } j =
      lives s j := by
  obtain ⟨free', hI', hcase⟩ := freeInv_put hI hm h
  obtain ⟨-, hcounts⟩ := putBlock_counts h
  have hh := holders_erase hm j
  rw [lives_eq hI', lives_eq hI, hh]
  change livesOf _ (c.pool j).count ((s.held.erase hd).countP fun h => h.buff = j) = _
  rcases hcase with ⟨hgt, rfl⟩ | ⟨hle, hlast, hoff, rfl⟩
  · obtain ⟨-, hc⟩ | ⟨hle, -⟩ := hcounts
    · rw [hc]
      by_cases hji : j = hd.buff
      · rw [if_pos hji, if_pos hji.symm, hji]
        exact livesOf_pred hgt
      · rw [if_neg hji, if_neg (Ne.symm hji), Nat.add_zero]
    · exact absurd hgt hle
  · obtain ⟨hgt, -⟩ | ⟨-, hc⟩ := hcounts
    · exact absurd hgt hle
    · rw [hc]
      by_cases hji : j = hd.buff
      · obtain ⟨-, h1, -⟩ := last_release hI hm hle
        rw [if_pos hji.symm] at hh ⊢
        rw [hji] at hh ⊢
        have hzero : (s.held.erase hd).countP (fun h => h.buff = hd.buff) = 0 := by omega
        rw [hzero]
        exact livesOf_release List.mem_cons_self h1
      · rw [if_neg (Ne.symm hji), Nat.add_zero]
        exact livesOf_congr (by simp [hji])

lemma lives_modify (hI : FreeInv s free) (payload : Payload)
    (left : UInt32 → UInt16 → Option Payload) (j : Buff) :
    lives ⟨holderWrite s.world i payload, s.held, left⟩ j = lives s j := by
  rw [lives_eq (freeInv_modify hI payload left), lives_eq hI]
  change livesOf _ ((holderWrite s.world i payload).cache.pool j).count (holders s j) = _
  rw [holderWrite_pool]
  split
  · next hji => rw [hji]
  · rfl

lemma insertInv_fresh (disk : UInt32 → UInt32 → Payload) :
    InsertInv (freshState disk) (List.finRange maxBuffer) :=
  ⟨freeInv_fresh disk, fun i _ => congrArg BufferHead.dev (initBuffer_unlinked (fun _ => zeroed) i)⟩

lemma fewHolders_of_held (hn : s.held.length + 3 < 2 ^ 32) : FewHolders fs s op := by
  intro s' h i
  have hle : holders s' i ≤ s'.held.length := List.countP_le_length
  have hlen : s'.held.length ≤ s.held.length + 1 := by
    rcases exec_cases h with ⟨_, _, _, _, -, -, -, -, rfl⟩ | ⟨_, _, _, _, -, -, -, rfl⟩ |
      ⟨hd, _, -, -, -, rfl⟩ | ⟨_, _, -, -, rfl⟩
    · exact Nat.le_refl _
    · exact Nat.le_refl _
    · exact Nat.le_succ_of_le List.length_erase_le
    · exact Nat.le_succ _
  omega

lemma insertInv_step (hI : InsertInv s free) (hdev : NonzeroDev op) (hfew : FewHolders fs s op)
    (h : s.exec fs op = some s') : ∃ free', InsertInv s' free' ∧ FreeStep s free s' free' op := by
  have hsafe := hI.countSafe hdev hfew h
  obtain ⟨free', hI', hstep⟩ := freeInv_step hI.list hsafe h
  exact ⟨free', ⟨hI', unloaded_step hI hsafe h⟩, hstep⟩

/-- A load takes a life of the record at `lru_buff`, and no other step takes one. -/
lemma lives_step (hI : InsertInv s free) (hdev : NonzeroDev op) (hfew : FewHolders fs s op)
    (h : s.exec fs op = some s') (j : Buff) :
    lives s' j + (if IsMiss s op ∧ s.world.cache.lruBuff = .node j then 1 else 0) = lives s j := by
  have hsafe := hI.countSafe hdev hfew h
  rcases exec_cases h with ⟨block, dev, i, w', rfl, hf, hl, hhit, rfl⟩ |
    ⟨block, dev, i, w', rfl, hf, hmiss, rfl⟩ | ⟨hd, c, rfl, hm, hput, rfl⟩ |
    ⟨hd, payload, rfl, hm, rfl⟩
  · obtain ⟨h0, hmax⟩ := hsafe.1 i hf
    rw [if_neg, Nat.add_zero]
    · exact lives_hit hI.list hhit h0 hmax j
    · rintro ⟨hmiss, -⟩
      cases hf.symm.trans hmiss
  · have hiff : (IsMiss s (.get block dev) ∧ s.world.cache.lruBuff = .node j) ↔ j = i := by
      rw [hmiss.lru, Ptr.node.injEq, and_iff_right (show IsMiss s (.get block dev) from hf),
        eq_comm]
    rw [← lives_miss hI.list hmiss (hsafe.2 hf i hmiss.lru) j]
    simp only [hiff]
  · rw [if_neg fun h => h.1]
    exact lives_put hI.list hm hput j
  · rw [if_neg fun h => h.1]
    exact lives_modify hI.list payload _ j

lemma loads_sum (h : s.exec fs op = some s') :
    (∑ j, if IsMiss s op ∧ s.world.cache.lruBuff = .node j then 1 else 0) =
      if IsMiss s op then 1 else 0 := by
  by_cases hmiss : IsMiss s op
  · obtain ⟨i, hlru⟩ : ∃ i, s.world.cache.lruBuff = .node i := by
      rcases exec_cases h with ⟨block, dev, i, w', rfl, hf, -⟩ |
        ⟨block, dev, i, w', rfl, -, hm, rfl⟩ | ⟨hd, c, rfl, -⟩ | ⟨hd, payload, rfl, -⟩
      · cases hf.symm.trans hmiss
      · exact ⟨i, hm.lru⟩
      · exact hmiss.elim
      · exact hmiss.elim
    simp [hmiss, hlru]
  · simp [hmiss]

/-- A record keeps its label, or is the one that has been got. -/
lemma label_step (h : s.exec fs op = some s') (j : Buff) :
    ((s'.world.cache.pool j).blockNum = (s.world.cache.pool j).blockNum ∧
      (s'.world.cache.pool j).dev = (s.world.cache.pool j).dev) ∨
    op = .get (s'.world.cache.pool j).blockNum (s'.world.cache.pool j).dev := by
  rcases exec_cases h with ⟨block, dev, i, w', rfl, -, -, hhit, rfl⟩ |
    ⟨block, dev, i, w', rfl, -, hmiss, rfl⟩ | ⟨hd, c, rfl, -, hput, rfl⟩ |
    ⟨hd, payload, rfl, -, rfl⟩
  · exact Or.inl ⟨(hhit.data j).1, (hhit.data j).2.1⟩
  · by_cases hji : j = i
    · refine Or.inr ?_
      rw [hji, hmiss.labelled.1, hmiss.labelled.2]
    · exact Or.inl ⟨(hmiss.data hji).1, (hmiss.data hji).2.1⟩
  · exact Or.inl ⟨(putBlock_data hput j).1, (putBlock_data hput j).2.1⟩
  · exact Or.inl (holderWrite_data s.world hd.buff payload j)

lemma labelled_of_hit (h : s.exec fs (.get block dev) = some s')
    (hno : ¬IsMiss s (.get block dev)) : ∃ i, Labelled (s.world.cache.pool i) block dev := by
  rcases exec_cases h with ⟨_, _, i, _, hop, -, hl, -⟩ | ⟨_, _, _, _, hop, hf, -⟩ |
    ⟨_, _, hop, -⟩ | ⟨_, _, hop, -⟩
  · obtain ⟨rfl, rfl⟩ := CacheOp.get.inj hop
    exact ⟨i, hl⟩
  · obtain ⟨rfl, rfl⟩ := CacheOp.get.inj hop
    exact absurd hf hno
  · cases hop
  · cases hop

/-- What is left of the lives, with the sectors that the records are labelled with. -/
structure LivesInv (tr : List (CacheState × CacheOp)) (s : CacheState) : Prop where
  inserted : ∃ free, InsertInv s free
  sum : misses tr + ∑ i, lives s i = 2 * maxBuffer
  labels : ∀ i, (s.world.cache.pool i).dev ≠ 0 →
    ((s.world.cache.pool i).blockNum, (s.world.cache.pool i).dev) ∈ sectorsGot tr
  card : (sectorsGot tr).card ≤ misses tr

lemma misses_cons (s : CacheState) (op : CacheOp) (tr : List (CacheState × CacheOp)) :
    misses ((s, op) :: tr) = misses tr + if IsMiss s op then 1 else 0 := by
  simp [misses, List.countP_cons]

lemma sectorsGot_cons {tr : List (CacheState × CacheOp)} (s : CacheState) (op : CacheOp)
    {q : UInt32 × UInt16} (h : q ∈ sectorsGot tr) : q ∈ sectorsGot ((s, op) :: tr) := by
  cases op with
  | get block dev => exact Finset.mem_insert_of_mem h
  | put hd => exact h
  | modify hd payload => exact h

lemma lives_fresh (disk : UInt32 → UInt32 → Payload) (i : Buff) : lives (freshState disk) i = 2 :=
  if_pos (congrArg BufferHead.count (initBuffer_unlinked (fun _ => zeroed) i))

lemma livesInv_fresh (disk : UInt32 → UInt32 → Payload) : LivesInv [] (freshState disk) := by
  have hdev : ∀ i, ((freshState disk).world.cache.pool i).dev = 0 :=
    fun i => congrArg BufferHead.dev (initBuffer_unlinked (fun _ => zeroed) i)
  refine ⟨⟨_, insertInv_fresh disk⟩, ?_, fun i hd => absurd (hdev i) hd, Nat.le_refl _⟩
  rw [Finset.sum_congr rfl fun i _ => lives_fresh disk i]
  simp [misses, Nat.mul_comm]

lemma livesInv_step {tr : List (CacheState × CacheOp)} (hI : LivesInv tr s) (hnz : NonzeroDev op)
    (hfew : FewHolders fs s op) (h : s.exec fs op = some s') : LivesInv ((s, op) :: tr) s' := by
  obtain ⟨free, hins⟩ := hI.inserted
  refine ⟨(insertInv_step hins hnz hfew h).imp fun _ h => h.1, ?_, fun j hd => ?_, ?_⟩
  · have hsum := hI.sum
    rw [Finset.sum_congr rfl fun j _ => (lives_step hins hnz hfew h j).symm,
      Finset.sum_add_distrib] at hsum
    rw [misses_cons, ← loads_sum h]
    omega
  · rcases label_step h j with ⟨hnum, hdev⟩ | hget
    · rw [hdev] at hd
      rw [hnum, hdev]
      exact sectorsGot_cons s op (hI.labels j hd)
    · rw [hget]
      exact Finset.mem_insert_self _ _
  · rw [misses_cons]
    cases op with
    | get block dev =>
      split
      · exact (Finset.card_insert_le _ _).trans (Nat.add_le_add_right hI.card 1)
      · next hno =>
        have hmem : (block, dev) ∈ sectorsGot tr := by
          obtain ⟨i, hl⟩ := labelled_of_hit h hno
          have hlab := hI.labels i (by rw [hl.2]; exact hnz)
          rwa [hl.1, hl.2] at hlab
        change (insert (block, dev) (sectorsGot tr)).card ≤ _
        rw [Finset.insert_eq_of_mem hmem]
        exact hI.card
    | put hd => exact hI.card.trans (Nat.le_add_right _ _)
    | modify hd payload => exact hI.card.trans (Nat.le_add_right _ _)

/-- The record at the end of the list. -/
def endBuff : Buff := Fin.ofNat maxBuffer (maxBuffer - 1)

/-- Records come back to the front only. When the record at the end is loaded, the list is empty. -/
def EndInv (s : CacheState) : Prop :=
  ∃ free, InsertInv s free ∧
    ((∃ front, free = front ++ [endBuff] ∧ lives s endBuff = 2) ∨ (free = [] ∧ lives s endBuff = 1))

lemma endInv_fresh (disk : UInt32 → UInt32 → Payload) : EndInv (freshState disk) := by
  exact ⟨_, insertInv_fresh disk, Or.inl ⟨_, List.finRange_succ_last, lives_fresh disk endBuff⟩⟩

lemma putBlock_empty (hI : FreeInv s []) (hc : ¬(s.world.cache.pool i).count > 1) :
    putBlock s.world.cache i = .error .nullDeref := by
  have hlru : s.world.cache.lruBuff = .null := hI.list
  rw [putBlock, if_neg hc, if_neg (hI.flags i), hlru]
  rfl

lemma endInv_step (hI : EndInv s) (hdev : NonzeroDev op) (hfew : FewHolders fs s op)
    (h : s.exec fs op = some s') : EndInv s' := by
  obtain ⟨free, hins, hend⟩ := hI
  obtain ⟨free', hins', hstep⟩ := insertInv_step hins hdev hfew h
  have hkeep : ¬(IsMiss s op ∧ s.world.cache.lruBuff = .node endBuff) →
      lives s' endBuff = lives s endBuff := by
    intro hno
    rw [← lives_step hins hdev hfew h endBuff, if_neg hno, Nat.add_zero]
  refine ⟨free', hins', ?_⟩
  rcases hend with ⟨front, rfl, h2⟩ | ⟨rfl, h1⟩
  · cases hstep with
    | hit hf hfree hh =>
      exact Or.inl ⟨front, hfree, (hkeep fun hm => by cases hf.symm.trans hm.1).trans h2⟩
    | miss hf hfree hh =>
      cases front with
      | nil =>
        obtain ⟨rfl, rfl⟩ := List.cons.inj hfree
        refine Or.inr ⟨rfl, ?_⟩
        have hlru : s.world.cache.lruBuff = .node endBuff := hins.list.list.1
        have hlives := lives_step hins hdev hfew h endBuff
        rw [if_pos ⟨hf, hlru⟩] at hlives
        omega
      | cons k front =>
        obtain ⟨rfl, rfl⟩ := List.cons.inj hfree
        have hlru : s.world.cache.lruBuff = .node k := hins.list.list.1
        have hk : k ≠ endBuff := by
          have hnd := hins.list.list.nodup
          rintro rfl
          simp at hnd
        refine Or.inl ⟨front, rfl, (hkeep fun hm => hk ?_).trans h2⟩
        exact Ptr.node.inj (hlru.symm.trans hm.2)
    | lower hm hc hfree hh => exact Or.inl ⟨front, hfree, (hkeep fun hm => hm.1).trans h2⟩
    | @insert hd hm hc hlast hoff hfree hh =>
      exact Or.inl ⟨hd.buff :: front, hfree, (hkeep fun hm => hm.1).trans h2⟩
    | modify hfree hh => exact Or.inl ⟨front, hfree, (hkeep fun hm => hm.1).trans h2⟩
  · have hlru : s.world.cache.lruBuff = .null := hins.list.list
    have hlives := (hkeep fun hm => by rw [hlru] at hm; cases hm.2).trans h1
    refine Or.inr ⟨?_, hlives⟩
    cases hstep with
    | hit hf hfree hh => exact hfree
    | miss hf hfree hh => cases hfree
    | lower hm hc hfree hh => exact hfree
    | insert hm hc hlast hoff hfree hh =>
      rw [CacheState.exec, if_pos hm, putBlock_empty hins.list hc] at h
      cases h
    | modify hfree hh => exact hfree

lemma livesInv_run {tr : List (CacheState × CacheOp)} (hr : CacheRun fs disk tr s)
    (hC : ∀ p ∈ tr, NonzeroDev p.2 ∧ FewHolders fs p.1 p.2) : LivesInv tr s := by
  induction hr with
  | nil => exact livesInv_fresh disk
  | cons hr hs ih =>
    rw [List.forall_mem_cons] at hC
    exact livesInv_step (ih hC.2) hC.1.1 hC.1.2 hs

lemma endInv_run {tr : List (CacheState × CacheOp)} (hr : CacheRun fs disk tr s)
    (hC : ∀ p ∈ tr, NonzeroDev p.2 ∧ FewHolders fs p.1 p.2) : EndInv s :=
  hr.invariant (C := fun s op => NonzeroDev op ∧ FewHolders fs s op) (endInv_fresh disk)
    (fun _ _ _ hI hC h => endInv_step hI hC.1 hC.2 h) hC

lemma misses_le {tr : List (CacheState × CacheOp)} (hr : CacheRun fs disk tr s)
    (hC : ∀ p ∈ tr, NonzeroDev p.2 ∧ FewHolders fs p.1 p.2) : misses tr ≤ 2 * maxBuffer - 1 := by
  obtain ⟨free, -, hend⟩ := endInv_run hr hC
  have hone : 1 ≤ lives s endBuff := by
    rcases hend with ⟨-, -, h2⟩ | ⟨-, h1⟩ <;> omega
  have hle := Finset.single_le_sum (fun i _ => Nat.zero_le (lives s i)) (Finset.mem_univ endBuff)
  have hsum := (livesInv_run hr hC).sum
  omega

end SaxonOS.Proofs
