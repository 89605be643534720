import SaxonOS.Proofs.BufferSteps

/-!
# Counts, holders and the free list

Over a run, a record is on the free list with no user counted and no holder (it was never
loaded), or off the list with its holders counted exactly (its first life), or its count is
one more than its holders (it has been released once). All that is true of recycling,
leaking and double insertion follows from this relation.
-/

namespace SaxonOS.Proofs
open Lib

/-- The number of outstanding `get_block` calls on a record. -/
def holders (s : CacheState) (i : Buff) : Nat := s.held.countP fun h => h.buff = i

/-- The record is met from `lru_buff` through `next_free`. -/
def OnFreeList (c : Cache) (i : Buff) : Prop := i ∈ walk (Cache.nextFree c) maxBuffer c.lruBuff

instance (c : Cache) (i : Buff) : Decidable (OnFreeList c i) :=
  inferInstanceAs (Decidable (i ∈ walk (Cache.nextFree c) maxBuffer c.lruBuff))

/-- How `count` relates to the free list and to the holders. -/
def CountOk (onList : Prop) (count : UInt32) (holders : Nat) : Prop :=
  (onList ∧ count = 0 ∧ holders = 0) ∨ (¬onList ∧ count.toNat = holders ∧ 1 ≤ holders) ∨
    count.toNat = holders + 1

/-- The free list is `free`, and every count is as it should be. -/
structure FreeInv (s : CacheState) (free : List Buff) : Prop where
  list : Seg (Cache.nextFree s.world.cache) s.world.cache.lruBuff free .null
  flags : ∀ i, (s.world.cache.pool i).flags ≠ classDir
  count : ∀ i, CountOk (i ∈ free) (s.world.cache.pool i).count (holders s i)

variable {fs : Devfs} {s s' : CacheState} {op : CacheOp} {free : List Buff} {i j : Buff}
  {block : UInt32} {dev : UInt16} {w' : World} {hd : Handle}

lemma onFreeList_iff (hI : FreeInv s free) : OnFreeList s.world.cache i ↔ i ∈ free := by
  have hw := hI.list.mem_walk (a := i)
  rw [Fintype.card_fin] at hw
  exact hw

lemma holders_cons (h : Handle) (held : List Handle) (w : World)
    (left : UInt32 → UInt16 → Option Payload) (j : Buff) :
    holders ⟨w, h :: held, left⟩ j =
      held.countP (fun h => h.buff = j) + if h.buff = j then 1 else 0 := by
  simp [holders, List.countP_cons]

lemma holders_erase (hm : hd ∈ s.held) (j : Buff) :
    holders s j = (s.held.erase hd).countP (fun h => h.buff = j) + if hd.buff = j then 1 else 0 := by
  rw [holders, (List.perm_cons_erase hm).countP_eq, List.countP_cons]
  simp

lemma holders_pos (hm : hd ∈ s.held) : 1 ≤ holders s hd.buff := by
  rw [holders_erase hm, if_pos rfl]
  omega

lemma toNat_succ_count {count : UInt32} (h : count ≠ 0xFFFFFFFF) :
    (count + 1).toNat = count.toNat + 1 := by
  have hne : count.toNat ≠ 0xFFFFFFFF := fun he => h (UInt32.toNat_inj.mp he)
  have hlt := count.toNat_lt
  have h1 : (1 : UInt32).toNat = 1 := rfl
  rw [UInt32.toNat_add, h1]
  omega

lemma toNat_pred_count {count : UInt32} (h : count > 1) :
    1 < count.toNat ∧ (count - 1).toNat = count.toNat - 1 := by
  have hlt : 1 < count.toNat := UInt32.lt_iff_toNat_lt.mp h
  have h1 : (1 : UInt32).toNat = 1 := rfl
  refine ⟨hlt, ?_⟩
  rw [UInt32.toNat_sub_of_le _ _ (UInt32.le_iff_toNat_le.mpr (by omega)), h1]

lemma freeInv_hit (hI : FreeInv s free) (h : Hit fs s.world i block dev w')
    (h0 : (s.world.cache.pool i).count ≠ 0) (hmax : (s.world.cache.pool i).count ≠ 0xFFFFFFFF) :
    FreeInv { s with world := w', held := ⟨i, block, dev⟩ :: s.held } free := by
  refine ⟨?_, fun j => ?_, fun j => ?_⟩
  · change Seg (Cache.nextFree w'.cache) w'.cache.lruBuff free .null
    rw [h.nextFree_eq h0, h.heads.2.1]
    exact hI.list
  · change (w'.cache.pool j).flags ≠ classDir
    rw [(h.counts j).1]
    exact hI.flags j
  · change CountOk (j ∈ free) (w'.cache.pool j).count _
    rw [(h.counts j).2, holders_cons]
    have hj := hI.count j
    by_cases hji : j = i
    · rw [if_pos hji, if_pos hji.symm]
      rw [hji] at hj ⊢
      rcases hj with ⟨-, hc, -⟩ | ⟨hn, hc, hh⟩ | hc
      · exact absurd hc h0
      · exact Or.inr (Or.inl ⟨hn, by rw [toNat_succ_count hmax, hc]; rfl, Nat.le_add_left 1 _⟩)
      · exact Or.inr (Or.inr (by rw [toNat_succ_count hmax, hc]; rfl))
    · rw [if_neg hji, if_neg (fun h => hji h.symm)]
      exact hj

lemma freeInv_miss (hI : FreeInv s free) (h : Miss fs s.world i block dev w')
    (hmax : (s.world.cache.pool i).count ≠ 0xFFFFFFFF) :
    ∃ rest, free = i :: rest ∧
      FreeInv { s with world := w', held := ⟨i, block, dev⟩ :: s.held } rest := by
  have hlist := hI.list
  rw [h.lru] at hlist
  cases free with
  | nil => cases hlist
  | cons k rest =>
    obtain ⟨hk, hrest⟩ := hlist
    obtain rfl := Ptr.node.inj hk
    have hnd := hI.list.nodup
    have hi := (List.nodup_cons.mp hnd).1
    refine ⟨rest, rfl, ?_, fun j => ?_, fun j => ?_⟩
    · change Seg (Cache.nextFree w'.cache) w'.cache.lruBuff rest .null
      rw [h.nextFree_eq, h.rest.1]
      exact hrest.update hi .null
    · change (w'.cache.pool j).flags ≠ classDir
      rw [(h.counts j).1]
      exact hI.flags j
    · change CountOk (j ∈ rest) (w'.cache.pool j).count _
      rw [(h.counts j).2, holders_cons]
      have hj := hI.count j
      by_cases hji : j = i
      · rw [if_pos hji, if_pos hji.symm]
        rw [hji] at hj ⊢
        rcases hj with ⟨-, hc, hh⟩ | ⟨hn, -, -⟩ | hc
        · refine Or.inr (Or.inl ⟨hi, ?_, Nat.le_add_left 1 _⟩)
          rw [toNat_succ_count hmax, hc]
          exact congrArg (· + 1) hh.symm
        · exact absurd List.mem_cons_self hn
        · exact Or.inr (Or.inr (by rw [toNat_succ_count hmax, hc]; rfl))
      · rw [if_neg hji, if_neg (fun h => hji h.symm)]
        simp only [CountOk, List.mem_cons, hji, false_or] at hj ⊢
        exact hj

/-- A release that puts the record on the free list is the last one, and finds it off the list. -/
lemma last_release (hI : FreeInv s free) (hm : hd ∈ s.held)
    (hle : ¬(s.world.cache.pool hd.buff).count > 1) :
    hd.buff ∉ free ∧ (s.world.cache.pool hd.buff).count.toNat = 1 ∧ holders s hd.buff = 1 := by
  have hpos := holders_pos hm
  have hle' : (s.world.cache.pool hd.buff).count.toNat ≤ 1 := by
    rw [gt_iff_lt, UInt32.lt_iff_toNat_lt] at hle
    exact Nat.le_of_not_lt hle
  rcases hI.count hd.buff with ⟨-, -, h0⟩ | ⟨hn, hc', -⟩ | hc'
  · omega
  · exact ⟨hn, by omega, by omega⟩
  · omega

/-- A release: the count goes down, or the record was off the list and is put on it. -/
lemma freeInv_put (hI : FreeInv s free) (hm : hd ∈ s.held) {c : Cache}
    (h : putBlock s.world.cache hd.buff = .ok c) :
    ∃ free', FreeInv { s with world := { s.world with cache := c }, held := s.held.erase hd } free' ∧
      (((s.world.cache.pool hd.buff).count > 1 ∧ free' = free) ∨
        (¬(s.world.cache.pool hd.buff).count > 1 ∧ holders s hd.buff = 1 ∧ hd.buff ∉ free ∧
          free' = hd.buff :: free)) := by
  have hpos := holders_pos hm
  obtain ⟨hflags, hcases⟩ := putBlock_free h (hI.flags hd.buff)
  have hflags' : ∀ j, (c.pool j).flags ≠ classDir := by
    intro j
    rw [hflags j]
    exact hI.flags j
  rcases hcases with ⟨hgt, hnext, hlru, hc⟩ | ⟨hle, hnext, hlru, hc⟩
  · obtain ⟨h1, hpred⟩ := toNat_pred_count hgt
    refine ⟨free, ⟨?_, hflags', fun j => ?_⟩, Or.inl ⟨hgt, rfl⟩⟩
    · change Seg (Cache.nextFree c) c.lruBuff free .null
      rw [hnext, hlru]
      exact hI.list
    · change CountOk (j ∈ free) (c.pool j).count ((s.held.erase hd).countP fun h => h.buff = j)
      have hj := hI.count j
      have hh := holders_erase hm j
      rw [hc]
      by_cases hji : j = hd.buff
      · rw [if_pos hji]
        rw [if_pos hji.symm] at hh
        rw [hji] at hj hh ⊢
        rcases hj with ⟨-, -, h0⟩ | ⟨hn, hc', -⟩ | hc'
        · omega
        · exact Or.inr (Or.inl ⟨hn, by omega, by omega⟩)
        · exact Or.inr (Or.inr (by omega))
      · rw [if_neg hji]
        rw [if_neg (fun h => hji h.symm), Nat.add_zero] at hh
        rw [← hh]
        exact hj
  · obtain ⟨hn, hone, hlast⟩ := last_release hI hm hle
    refine ⟨hd.buff :: free, ⟨?_, hflags', fun j => ?_⟩, Or.inr ⟨hle, hlast, hn, rfl⟩⟩
    · change Seg (Cache.nextFree c) c.lruBuff (hd.buff :: free) .null
      rw [hnext, hlru]
      refine ⟨rfl, ?_⟩
      rw [Function.update_self]
      exact hI.list.update hn _
    · change CountOk (j ∈ hd.buff :: free) (c.pool j).count
        ((s.held.erase hd).countP fun h => h.buff = j)
      have hj := hI.count j
      have hh := holders_erase hm j
      rw [hc]
      by_cases hji : j = hd.buff
      · rw [if_pos hji.symm] at hh
        rw [hji] at hh ⊢
        exact Or.inr (Or.inr (by omega))
      · rw [if_neg (fun h => hji h.symm), Nat.add_zero] at hh
        rw [← hh]
        simp only [CountOk, List.mem_cons, hji, false_or] at hj ⊢
        exact hj

lemma freeInv_modify (hI : FreeInv s free) (payload : Payload)
    (left : UInt32 → UInt16 → Option Payload) :
    FreeInv ⟨holderWrite s.world i payload, s.held, left⟩ free := by
  have hnext : Cache.nextFree (holderWrite s.world i payload).cache =
      Cache.nextFree s.world.cache := by
    funext j
    rw [Cache.nextFree, Cache.nextFree, holderWrite_pool]
    split
    · next hji => rw [hji]
    · rfl
  have hview : ∀ j, ((holderWrite s.world i payload).cache.pool j).flags =
      (s.world.cache.pool j).flags ∧ ((holderWrite s.world i payload).cache.pool j).count =
      (s.world.cache.pool j).count := by
    intro j
    rw [holderWrite_pool]
    split
    · next hji =>
      rw [hji]
      exact ⟨rfl, rfl⟩
    · exact ⟨rfl, rfl⟩
  refine ⟨?_, fun j => ?_, fun j => ?_⟩
  · change Seg (Cache.nextFree (holderWrite s.world i payload).cache) s.world.cache.lruBuff free _
    rw [hnext]
    exact hI.list
  · change ((holderWrite s.world i payload).cache.pool j).flags ≠ classDir
    rw [(hview j).1]
    exact hI.flags j
  · change CountOk (j ∈ free) ((holderWrite s.world i payload).cache.pool j).count (holders s j)
    rw [(hview j).2]
    exact hI.count j

/-- A `get_block` does not take the branch for `count == 0` and does not make the count wrap. -/
def CountSafe (s : CacheState) : CacheOp → Prop
  | .get block dev =>
    (∀ i, findBlock s.world.cache block dev = .ok (some i) →
      (s.world.cache.pool i).count ≠ 0 ∧ (s.world.cache.pool i).count ≠ 0xFFFFFFFF) ∧
    (findBlock s.world.cache block dev = .ok none → ∀ i, s.world.cache.lruBuff = .node i →
      (s.world.cache.pool i).count ≠ 0xFFFFFFFF)
  | .put _ => True
  | .modify _ _ => True

instance (s : CacheState) (op : CacheOp) : Decidable (CountSafe s op) :=
  match op with
  | .get block dev => inferInstanceAs (Decidable (
      (∀ i, findBlock s.world.cache block dev = .ok (some i) →
        (s.world.cache.pool i).count ≠ 0 ∧ (s.world.cache.pool i).count ≠ 0xFFFFFFFF) ∧
      (findBlock s.world.cache block dev = .ok none → ∀ i, s.world.cache.lruBuff = .node i →
        (s.world.cache.pool i).count ≠ 0xFFFFFFFF)))
  | .put _ => isTrue trivial
  | .modify _ _ => isTrue trivial

/-- What a step does to the free list and to the holders. -/
inductive FreeStep (s : CacheState) (free : List Buff) (s' : CacheState) (free' : List Buff) :
    CacheOp → Prop
  | hit {block : UInt32} {dev : UInt16} {i : Buff}
      (hf : findBlock s.world.cache block dev = .ok (some i)) (hfree : free' = free)
      (hh : ∀ j, holders s' j = holders s j + if i = j then 1 else 0) :
      FreeStep s free s' free' (.get block dev)
  | miss {block : UInt32} {dev : UInt16} {i : Buff}
      (hf : findBlock s.world.cache block dev = .ok none) (hfree : free = i :: free')
      (hh : ∀ j, holders s' j = holders s j + if i = j then 1 else 0) :
      FreeStep s free s' free' (.get block dev)
  | lower {hd : Handle} (hm : hd ∈ s.held) (hc : (s.world.cache.pool hd.buff).count > 1)
      (hfree : free' = free)
      (hh : ∀ j, holders s j = holders s' j + if hd.buff = j then 1 else 0) :
      FreeStep s free s' free' (.put hd)
  | insert {hd : Handle} (hm : hd ∈ s.held) (hc : ¬(s.world.cache.pool hd.buff).count > 1)
      (hlast : holders s hd.buff = 1) (hoff : hd.buff ∉ free) (hfree : free' = hd.buff :: free)
      (hh : ∀ j, holders s j = holders s' j + if hd.buff = j then 1 else 0) :
      FreeStep s free s' free' (.put hd)
  | modify {hd : Handle} {payload : Payload} (hfree : free' = free)
      (hh : ∀ j, holders s' j = holders s j) : FreeStep s free s' free' (.modify hd payload)

theorem freeInv_step (hI : FreeInv s free) (hC : CountSafe s op) (h : s.exec fs op = some s') :
    ∃ free', FreeInv s' free' ∧ FreeStep s free s' free' op := by
  rcases exec_cases h with ⟨block, dev, i, w', rfl, hf, -, hhit, rfl⟩ |
    ⟨block, dev, i, w', rfl, hf, hmiss, rfl⟩ | ⟨hd, c, rfl, hm, hput, rfl⟩ |
    ⟨hd, payload, rfl, hm, rfl⟩
  · obtain ⟨h0, hmax⟩ := hC.1 i hf
    exact ⟨free, freeInv_hit hI hhit h0 hmax, .hit hf rfl (fun j => holders_cons _ _ _ _ j)⟩
  · obtain ⟨rest, rfl, hI'⟩ := freeInv_miss hI hmiss (hC.2 hf i hmiss.lru)
    exact ⟨rest, hI', .miss hf rfl (fun j => holders_cons _ _ _ _ j)⟩
  · obtain ⟨free', hI', ⟨hc, rfl⟩ | ⟨hc, hlast, hoff, rfl⟩⟩ := freeInv_put hI hm hput
    · exact ⟨_, hI', .lower hm hc rfl (fun j => holders_erase hm j)⟩
    · exact ⟨_, hI', .insert hm hc hlast hoff rfl (fun j => holders_erase hm j)⟩
  · exact ⟨free, freeInv_modify hI payload _, .modify rfl (fun j => rfl)⟩

lemma freeInv_fresh (disk : UInt32 → UInt32 → Payload) :
    FreeInv (freshState disk) (List.finRange maxBuffer) := by
  have hview : ∀ i, ((freshState disk).world.cache.pool i).flags = 0 ∧
      ((freshState disk).world.cache.pool i).count = 0 := by
    intro i
    have hu := initBuffer_unlinked (fun _ => zeroed) i
    exact ⟨congrArg BufferHead.flags hu, congrArg BufferHead.count hu⟩
  refine ⟨?_, fun i => ?_, fun i => Or.inl ⟨List.mem_finRange i, (hview i).2, rfl⟩⟩
  · change Seg (Cache.nextFree (initBuffer fun _ => zeroed)) (initBuffer fun _ => zeroed).lruBuff _ _
    rw [(initBuffer_heads _).2]
    exact fresh_free
  · rw [(hview i).1]
    decide

end SaxonOS.Proofs
