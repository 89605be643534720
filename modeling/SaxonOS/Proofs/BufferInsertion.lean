import SaxonOS.Proofs.BufferFreeList

/-!
# Insertions into the free list

`put_block` inserts a record only when its last holder of a first life releases it, and then
the record is off the list, unless its 32-bit count has wrapped.
-/

namespace SaxonOS.Proofs
open Lib

/-- The free list ends, has no record twice, and a `put_block` that inserts a record finds it
off the list. -/
def FreeListSound (s : CacheState) : Prop :=
  ∃ free, Seg (Cache.nextFree s.world.cache) s.world.cache.lruBuff free .null ∧ free.Nodup ∧
    ∀ h ∈ s.held, ¬(s.world.cache.pool h.buff).count > 1 → h.buff ∉ free

def NonzeroDev : CacheOp → Prop
  | .get _ dev => dev ≠ 0
  | .put _ => True
  | .modify _ _ => True

/-- After the step no record has more than 2^32 - 2 outstanding `get_block` calls. -/
def FewHolders (fs : Devfs) (s : CacheState) (op : CacheOp) : Prop :=
  ∀ s', s.exec fs op = some s' → ∀ i, holders s' i ≤ 2 ^ 32 - 2

structure InsertInv (s : CacheState) (free : List Buff) : Prop where
  list : FreeInv s free
  unloaded : ∀ i, (s.world.cache.pool i).count = 0 → (s.world.cache.pool i).dev = 0

variable {fs : Devfs} {s s' : CacheState} {op : CacheOp} {free : List Buff} {i : Buff}

lemma count_ne_max (hI : FreeInv s free) (h : holders s i + 1 ≤ 2 ^ 32 - 2) :
    (s.world.cache.pool i).count ≠ 0xFFFFFFFF := by
  intro hmax
  have hbig : (0xFFFFFFFF : UInt32).toNat = 0xFFFFFFFF := rfl
  have hz : (0 : UInt32).toNat = 0 := rfl
  rcases hI.count i with ⟨-, hc, -⟩ | ⟨-, hc, -⟩ | hc
  · rw [hmax] at hc
    cases hc
  · rw [hmax] at hc
    omega
  · rw [hmax] at hc
    omega

lemma InsertInv.countSafe (hI : InsertInv s free) (hdev : NonzeroDev op)
    (hfew : FewHolders fs s op) (h : s.exec fs op = some s') : CountSafe s op := by
  have hbound := hfew s' h
  rcases exec_cases h with ⟨block, dev, i, w', rfl, hf, hl, -, rfl⟩ |
    ⟨block, dev, i, w', rfl, hf, hmiss, rfl⟩ | ⟨hd, c, rfl, -, -, -⟩ | ⟨hd, payload, rfl, -, -⟩
  · have hi := hbound i
    rw [holders_cons, if_pos rfl] at hi
    have hmax := count_ne_max hI.list hi
    refine ⟨fun k hk => ?_, fun hnone => ?_⟩
    · rw [hf] at hk
      obtain rfl := Option.some.inj (Except.ok.inj hk)
      exact ⟨fun h0 => hdev (hl.2.symm.trans (hI.unloaded i h0)), hmax⟩
    · rw [hf] at hnone
      cases hnone
  · have hi := hbound i
    rw [holders_cons, if_pos rfl] at hi
    have hmax := count_ne_max hI.list hi
    refine ⟨fun k hk => ?_, fun _ k hk => ?_⟩
    · rw [hf] at hk
      cases hk
    · rw [hmiss.lru] at hk
      obtain rfl := Ptr.node.inj hk
      exact hmax
  · trivial
  · trivial

lemma count_succ_ne_zero {count : UInt32} (h : count ≠ 0xFFFFFFFF) : count + 1 ≠ 0 := by
  intro h0
  have hs := toNat_succ_count h
  rw [h0] at hs
  cases hs

lemma unloaded_step (hI : InsertInv s free) (hsafe : CountSafe s op) (h : s.exec fs op = some s') :
    ∀ i, (s'.world.cache.pool i).count = 0 → (s'.world.cache.pool i).dev = 0 := by
  intro j h0
  rcases exec_cases h with ⟨block, dev, i, w', rfl, hf, -, hhit, rfl⟩ |
    ⟨block, dev, i, w', rfl, hf, hmiss, rfl⟩ | ⟨hd, c, rfl, hm, hput, rfl⟩ |
    ⟨hd, payload, rfl, -, rfl⟩
  · change (w'.cache.pool j).count = 0 at h0
    rw [(hhit.counts j).2] at h0
    split at h0
    · exact absurd h0 (count_succ_ne_zero (hsafe.1 i hf).2)
    · exact (hhit.data j).2.1.trans (hI.unloaded j h0)
  · change (w'.cache.pool j).count = 0 at h0
    rw [(hmiss.counts j).2] at h0
    split at h0
    · exact absurd h0 (count_succ_ne_zero (hsafe.2 hf i hmiss.lru))
    · next hji => exact (hmiss.data hji).2.1.trans (hI.unloaded j h0)
  · change (c.pool j).count = 0 at h0
    have hdev := (putBlock_data hput j).2.1
    rcases (putBlock_free hput (hI.list.flags hd.buff)).2 with ⟨hgt, -, -, hc⟩ | ⟨-, -, -, hc⟩
    · rw [hc] at h0
      split at h0
      · obtain ⟨h1, hpred⟩ := toNat_pred_count hgt
        rw [h0] at hpred
        have hz : (0 : UInt32).toNat = 0 := rfl
        omega
      · exact hdev.trans (hI.unloaded j h0)
    · rw [hc] at h0
      exact hdev.trans (hI.unloaded j h0)
  · refine (holderWrite_data s.world hd.buff payload j).2.trans (hI.unloaded j ?_)
    change ((holderWrite s.world hd.buff payload).cache.pool j).count = 0 at h0
    rw [holderWrite_pool] at h0
    split at h0
    · next hji =>
      rw [hji]
      exact h0
    · exact h0

/-- The free list has no record twice and no record is inserted that is on it, in every run on
nonzero devices with at most 2^32 - 2 outstanding calls on any record. -/
theorem free_list_sound (fs : Devfs) (disk : UInt32 → UInt32 → Payload)
    {tr : List (CacheState × CacheOp)} {s : CacheState} (hr : CacheRun fs disk tr s)
    (hC : ∀ p ∈ tr, NonzeroDev p.2 ∧ FewHolders fs p.1 p.2) : FreeListSound s := by
  have h₀ : ∃ free, InsertInv (freshState disk) free := by
    refine ⟨_, freeInv_fresh disk, fun i _ => ?_⟩
    exact congrArg BufferHead.dev (initBuffer_unlinked (fun _ => zeroed) i)
  have hstep : ∀ s op s', (∃ free, InsertInv s free) → NonzeroDev op ∧ FewHolders fs s op →
      s.exec fs op = some s' → ∃ free, InsertInv s' free := by
    rintro s op s' ⟨free, hI⟩ ⟨hdev, hfew⟩ h
    have hsafe := hI.countSafe hdev hfew h
    obtain ⟨free', hI', -⟩ := freeInv_step hI.list hsafe h
    exact ⟨free', hI', unloaded_step hI hsafe h⟩
  obtain ⟨free, hI⟩ := hr.invariant h₀ hstep hC
  exact ⟨free, hI.list.list, hI.list.list.nodup, fun h hm hle => (last_release hI.list hm hle).1⟩

instance (op : CacheOp) : Decidable (NonzeroDev op) :=
  match op with
  | .get _ dev => inferInstanceAs (Decidable (dev ≠ 0))
  | .put _ => isTrue trivial
  | .modify _ _ => isTrue trivial

theorem free_list_sound_shared :
    ∃ tr s, CacheRun oneDisk numberedDisk tr s ∧ tr.length = 5 ∧ FreeListSound s := by
  have hrun : ((execTrace (CacheState.exec oneDisk) (freshState numberedDisk)
      [.get 5 0x300, .get 5 0x300, .put ⟨0, 5, 0x300⟩, .get 6 0x300, .put ⟨0, 5, 0x300⟩]).map fun r =>
        decide (r.1.length = 5 ∧ ∀ p ∈ r.1, NonzeroDev p.2 ∧
          (p.1.exec oneDisk p.2).all fun s' => decide (s'.held.length ≤ 2))) = some true := by
    decide +kernel
  obtain ⟨r, hr, hlen, hall⟩ := exists_run_of_decide hrun
  refine ⟨r.1, r.2, hr, hlen, free_list_sound oneDisk numberedDisk hr fun p hp => ?_⟩
  obtain ⟨hdev, hfew⟩ := hall p hp
  refine ⟨hdev, fun s' h i => ?_⟩
  rw [h] at hfew
  have hle : s'.held.length ≤ 2 := of_decide_eq_true hfew
  exact (List.countP_le_length.trans hle).trans (by decide)

/-- Record 0 holds block 5, is at the front of the free list and has been taken `n` times since
it was put there. -/
structure TakenAgain (n : Nat) (s : CacheState) : Prop where
  head : s.world.cache.buffHead (bucket 5) = .node 0
  label : Labelled (s.world.cache.pool 0) 5 0x300
  count : (s.world.cache.pool 0).count = UInt32.ofNat (n + 1)
  lru : s.world.cache.lruBuff = .node 0
  flags : (s.world.cache.pool 0).flags ≠ classDir
  held : n ≠ 0 → ⟨0, 5, 0x300⟩ ∈ s.held

lemma getHit_counted (fs : Devfs) {w : World} (block : UInt32) (dev : UInt16)
    (h : (w.cache.pool i).count ≠ 0) : ∃ w', getHit fs w i block dev = .ok (i, w') := by
  unfold getHit
  simp only [if_neg h]
  exact ⟨_, rfl⟩

lemma takenAgain_step {n : Nat} (hK : TakenAgain n s) (hn : n + 1 < 2 ^ 32) :
    ∃ s', s.exec fs (.get 5 0x300) = some s' ∧ TakenAgain (n + 1) s' := by
  have hf : findBlock s.world.cache 5 0x300 = .ok (some 0) := by
    rw [findBlock, hK.head, searchChain]
    exact if_pos hK.label
  have h0 : (s.world.cache.pool 0).count ≠ 0 := by
    intro h0
    have hc := congrArg UInt32.toNat (hK.count.symm.trans h0)
    rw [toNat_ofNat_small hn] at hc
    cases hc
  obtain ⟨w', hw⟩ := getHit_counted fs 5 0x300 h0
  have hget : getBlock fs s.world 5 0x300 = .ok (0, w') := by
    unfold getBlock
    rw [hf]
    exact hw
  have hhit := (getHit_ok hw).2
  refine ⟨{ s with world := w', held := ⟨0, 5, 0x300⟩ :: s.held }, ?_, ?_⟩
  · rw [CacheState.exec, hget]
  · refine ⟨?_, hhit.labelled hK.label, ?_, ?_, ?_, fun _ => List.mem_cons_self⟩
    · change w'.cache.buffHead (bucket 5) = _
      rw [hhit.heads.1]
      exact hK.head
    · change (w'.cache.pool 0).count = _
      rw [(hhit.counts 0).2, if_pos rfl, hK.count]
      exact (UInt32.ofNat_add (n + 1) 1).symm
    · change w'.cache.lruBuff = _
      rw [hhit.heads.2.1]
      exact hK.lru
    · change (w'.cache.pool 0).flags ≠ _
      rw [(hhit.counts 0).1]
      exact hK.flags

lemma takenAgain_run (n : Nat) (hn : n < 2 ^ 32) :
    ∃ tr s, CacheRun oneDisk numberedDisk tr s ∧ (∀ p ∈ tr, NonzeroDev p.2) ∧ TakenAgain n s := by
  induction n with
  | zero =>
    have hrun : ((execTrace (CacheState.exec oneDisk) (freshState numberedDisk)
        [.get 5 0x300, .put ⟨0, 5, 0x300⟩]).map fun r =>
          decide ((∀ p ∈ r.1, NonzeroDev p.2) ∧ r.2.world.cache.buffHead (bucket 5) = .node 0 ∧
            Labelled (r.2.world.cache.pool 0) 5 0x300 ∧ (r.2.world.cache.pool 0).count = 1 ∧
            r.2.world.cache.lruBuff = .node 0 ∧ (r.2.world.cache.pool 0).flags ≠ classDir)) =
        some true := by
      decide +kernel
    obtain ⟨r, hr, hdev, hhead, hlabel, hcount, hlru, hflags⟩ := exists_run_of_decide hrun
    exact ⟨r.1, r.2, hr, hdev, hhead, hlabel, hcount, hlru, hflags, fun h => absurd rfl h⟩
  | succ n ih =>
    obtain ⟨tr, s, hr, hdev, hK⟩ := ih (by omega)
    obtain ⟨s', hexec, hK'⟩ := takenAgain_step hK hn
    refine ⟨_, s', hr.cons hexec, fun p hp => ?_, hK'⟩
    rcases List.mem_cons.mp hp with rfl | hp
    · exact (by decide : (0x300 : UInt16) ≠ 0)
    · exact hdev p hp

/-- After one release, 2^32 - 1 more `get_block` calls on the same block make the count 0, and
the next `put_block` inserts the record at the front of the list it is on: the list loops. -/
theorem wrapped_count_inserts_twice :
    ∃ tr s s' h, CacheRun oneDisk numberedDisk tr s ∧ (∀ p ∈ tr, NonzeroDev p.2) ∧ h ∈ s.held ∧
      OnFreeList s.world.cache h.buff ∧ ¬FreeListSound s ∧ s.exec oneDisk (.put h) = some s' ∧
      ¬∃ free, Seg (Cache.nextFree s'.world.cache) s'.world.cache.lruBuff free .null := by
  obtain ⟨tr, s, hr, hdev, hK⟩ := takenAgain_run (2 ^ 32 - 1) (by decide)
  have hm := hK.held (by decide)
  have hcount : (s.world.cache.pool 0).count = 0 := hK.count
  have hle : ¬(s.world.cache.pool 0).count > 1 := by
    rw [hcount]
    decide
  obtain ⟨c, hput⟩ : ∃ c, putBlock s.world.cache 0 = .ok c := by
    rw [putBlock, if_neg hle, if_neg hK.flags, hK.lru]
    exact ⟨_, rfl⟩
  have hloop : Cache.nextFree c 0 = .node 0 ∧ c.lruBuff = .node 0 := by
    rcases (putBlock_free hput hK.flags).2 with ⟨hgt, -⟩ | ⟨-, hnext, hlru, -⟩
    · exact absurd hgt hle
    · rw [hnext, Function.update_self]
      exact ⟨hK.lru, hlru⟩
  have hon : OnFreeList s.world.cache 0 := by
    rw [OnFreeList, hK.lru]
    exact List.mem_cons_self
  refine ⟨tr, s, { s with world := { s.world with cache := c }, held := s.held.erase ⟨0, 5, 0x300⟩ },
    ⟨0, 5, 0x300⟩, hr, hdev, hm, hon, ?_, ?_, ?_⟩
  · rintro ⟨free, hlist, -, hoff⟩
    have hmem : (0 : Buff) ∈ free := by
      cases free with
      | nil =>
        rw [hK.lru] at hlist
        cases hlist
      | cons k rest =>
        have hk := hlist.1
        rw [hK.lru] at hk
        obtain rfl := Ptr.node.inj hk
        exact List.mem_cons_self
    exact hoff _ hm hle hmem
  · rw [CacheState.exec, if_pos hm]
    simp only [hput]
  · rintro ⟨free, hlist⟩
    change Seg (Cache.nextFree c) c.lruBuff free .null at hlist
    rw [hloop.2] at hlist
    exact not_seg_of_loop hloop.1 hlist

end SaxonOS.Proofs
