import SaxonOS.Proofs.BufferFreeList

/-!
# Recycling and leaking of records

A held record is recycled only after a `get_block` hit it while it was on the free list, and
a record is lost only when its last holder releases it in a second life, where its count is
still 2.
-/

namespace SaxonOS.Proofs
open Lib

variable {fs : Devfs} {s s' : CacheState} {op : CacheOp} {free free' : List Buff} {i : Buff}

/-- A step does not recycle a held record, keeps the label of every held record and changes
its payload only as a write of a holder. -/
def HeldKept (fs : Devfs) (s : CacheState) (op : CacheOp) : Prop :=
  (∀ block dev i w', op = .get block dev → findBlock s.world.cache block dev = .ok none →
    getBlock fs s.world block dev = .ok (i, w') → ∀ h ∈ s.held, h.buff ≠ i) ∧
  ∀ s', s.exec fs op = some s' → ∀ h ∈ s.held,
    (s'.world.cache.pool h.buff).blockNum = (s.world.cache.pool h.buff).blockNum ∧
    (s'.world.cache.pool h.buff).dev = (s.world.cache.pool h.buff).dev ∧
    ((∀ g payload, op = .modify g payload → g.buff ≠ h.buff) →
      (s'.world.cache.pool h.buff).buff = (s.world.cache.pool h.buff).buff)

/-- A `get_block` that hits finds its record off the free list and its count below the
largest value. -/
def HitOffList (s : CacheState) : CacheOp → Prop
  | .get block dev => ∀ i, findBlock s.world.cache block dev = .ok (some i) →
      ¬OnFreeList s.world.cache i ∧ (s.world.cache.pool i).count ≠ 0xFFFFFFFF
  | .put _ => True
  | .modify _ _ => True

structure RecycleInv (s : CacheState) (free : List Buff) : Prop where
  list : FreeInv s free
  unheld : ∀ i ∈ free, holders s i = 0
  labels : ∀ h ∈ s.held, Labelled (s.world.cache.pool h.buff) h.block h.dev

lemma holders_ne_zero {h : Handle} (hm : h ∈ s.held) : holders s h.buff ≠ 0 :=
  Nat.ne_of_gt (holders_pos hm)

lemma lru_mem_free (hI : FreeInv s free) (hl : s.world.cache.lruBuff = .node i) : i ∈ free := by
  have hlist := hI.list
  rw [hl] at hlist
  cases free with
  | nil => cases hlist
  | cons k rest =>
    obtain rfl := Ptr.node.inj hlist.1
    exact List.mem_cons_self

lemma RecycleInv.countSafe (hI : RecycleInv s free) (hC : HitOffList s op) : CountSafe s op := by
  cases op with
  | get block dev =>
    refine ⟨fun i hf => ?_, fun _ i hl => ?_⟩
    · obtain ⟨hoff, hmax⟩ := hC i hf
      rw [onFreeList_iff hI.list] at hoff
      refine ⟨fun h0 => ?_, hmax⟩
      rcases hI.list.count i with ⟨hm, -, -⟩ | ⟨-, hc, hh⟩ | hc
      · exact hoff hm
      · rw [h0] at hc
        have hz : (0 : UInt32).toNat = 0 := rfl
        omega
      · rw [h0] at hc
        cases hc
    · intro hmax
      have hm := lru_mem_free hI.list hl
      have h0 := hI.unheld i hm
      have hbig : (0xFFFFFFFF : UInt32).toNat = 0xFFFFFFFF := rfl
      rcases hI.list.count i with ⟨-, hc, -⟩ | ⟨-, -, hh⟩ | hc
      · rw [hmax] at hc
        cases hc
      · omega
      · rw [hmax] at hc
        omega
  | put _ => trivial
  | modify _ _ => trivial

lemma heldKept_of_inv (hI : RecycleInv s free) : HeldKept fs s op := by
  have hfresh : ∀ block dev i w', Miss fs s.world i block dev w' → ∀ h ∈ s.held, h.buff ≠ i := by
    rintro block dev i w' hmiss h hm rfl
    exact holders_ne_zero hm (hI.unheld _ (lru_mem_free hI.list hmiss.lru))
  refine ⟨?_, fun s' hexec h hm => ?_⟩
  · rintro block dev i w' rfl hf hget
    rcases getBlock_cases hget with ⟨hf', -, -⟩ | ⟨-, hmiss⟩
    · rw [hf] at hf'
      cases hf'
    · exact hfresh block dev i w' hmiss
  · rcases exec_cases hexec with ⟨block, dev, i, w', rfl, -, -, hhit, rfl⟩ |
      ⟨block, dev, i, w', rfl, -, hmiss, rfl⟩ | ⟨hd, c, rfl, -, hput, rfl⟩ |
      ⟨hd, payload, rfl, -, rfl⟩
    · obtain ⟨h1, h2, h3⟩ := hhit.data h.buff
      exact ⟨h1, h2, fun _ => h3⟩
    · obtain ⟨h1, h2, h3, -⟩ := hmiss.data (hfresh block dev i w' hmiss h hm)
      exact ⟨h1, h2, fun _ => h3⟩
    · obtain ⟨h1, h2, h3, -⟩ := putBlock_data hput h.buff
      exact ⟨h1, h2, fun _ => h3⟩
    · obtain ⟨h1, h2⟩ := holderWrite_data s.world hd.buff payload h.buff
      refine ⟨h1, h2, fun hne => ?_⟩
      change ((holderWrite s.world hd.buff payload).cache.pool h.buff).buff = _
      rw [holderWrite_pool, if_neg (fun he => hne hd payload rfl he.symm)]

lemma recycleInv_step (hI : RecycleInv s free) (hC : HitOffList s op) (h : s.exec fs op = some s') :
    ∃ free', RecycleInv s' free' := by
  obtain ⟨free', hI', hstep⟩ := freeInv_step hI.list (hI.countSafe hC) h
  refine ⟨free', hI', ?_, ?_⟩
  · intro j hj
    cases hstep with
    | @hit block dev i hf hfree hh =>
      rw [hfree] at hj
      have hij : i ≠ j := by
        rintro rfl
        exact (hC i hf).1 ((onFreeList_iff hI.list).mpr hj)
      rw [hh, if_neg hij, hI.unheld j hj]
    | @miss block dev i hf hfree hh =>
      have hnd := hI.list.list.nodup
      rw [hfree, List.nodup_cons] at hnd
      have hij : i ≠ j := by
        rintro rfl
        exact hnd.1 hj
      have hmem : j ∈ free := by
        rw [hfree]
        exact List.mem_cons_of_mem _ hj
      rw [hh, if_neg hij, hI.unheld j hmem]
    | lower hm hc hfree hh =>
      have hj0 := hI.unheld j (hfree ▸ hj)
      have hhj := hh j
      omega
    | @insert hd hm hc hlast hoff hfree hh =>
      have hhj := hh j
      rw [hfree] at hj
      rcases List.mem_cons.mp hj with rfl | hj
      · rw [if_pos rfl] at hhj
        omega
      · have hj0 := hI.unheld j hj
        omega
    | modify hfree hh => rw [hh, hI.unheld j (hfree ▸ hj)]
  · intro h' hm'
    have hkept : HeldKept fs s op := heldKept_of_inv hI
    have hold : h' ∈ s.held → Labelled (s'.world.cache.pool h'.buff) h'.block h'.dev := by
      intro hm
      obtain ⟨h1, h2, -⟩ := hkept.2 s' h h' hm
      obtain ⟨hl1, hl2⟩ := hI.labels h' hm
      exact ⟨h1.trans hl1, h2.trans hl2⟩
    rcases exec_cases h with ⟨block, dev, i, w', rfl, -, hl, hhit, rfl⟩ |
      ⟨block, dev, i, w', rfl, -, hmiss, rfl⟩ | ⟨hd, c, rfl, -, hput, rfl⟩ |
      ⟨hd, payload, rfl, -, rfl⟩
    · rcases List.mem_cons.mp hm' with rfl | hm
      · exact hhit.labelled hl
      · exact hold hm
    · rcases List.mem_cons.mp hm' with rfl | hm
      · exact hmiss.labelled
      · exact hold hm
    · exact hold (List.mem_of_mem_erase hm')
    · exact hold hm'

lemma recycleInv_fresh (disk : UInt32 → UInt32 → Payload) :
    RecycleInv (freshState disk) (List.finRange maxBuffer) :=
  ⟨freeInv_fresh disk, fun _ _ => rfl, by simp [freshState]⟩

/-- In every run in which no `get_block` hits a record that is on the free list, a held record
keeps its label and is not recycled. -/
theorem held_never_recycled (fs : Devfs) (disk : UInt32 → UInt32 → Payload)
    {tr : List (CacheState × CacheOp)} {s : CacheState} (hr : CacheRun fs disk tr s)
    (hC : ∀ p ∈ tr, HitOffList p.1 p.2) :
    (∀ h ∈ s.held, Labelled (s.world.cache.pool h.buff) h.block h.dev) ∧
      ∀ p ∈ tr, HeldKept fs p.1 p.2 := by
  have h₀ : ∃ free, RecycleInv (freshState disk) free := ⟨_, recycleInv_fresh disk⟩
  have hstep : ∀ s op s', (∃ free, RecycleInv s free) → HitOffList s op →
      s.exec fs op = some s' → ∃ free, RecycleInv s' free :=
    fun s op s' ⟨free, hI⟩ hC h => recycleInv_step hI hC h
  obtain ⟨free, hI⟩ := hr.invariant h₀ hstep hC
  refine ⟨hI.labels, fun p hp => ?_⟩
  obtain ⟨free', hI'⟩ := hr.visited h₀ hstep hC p hp
  exact heldKept_of_inv hI'

instance (s : CacheState) (op : CacheOp) : Decidable (HitOffList s op) :=
  match op with
  | .get block dev => inferInstanceAs (Decidable (∀ i,
      findBlock s.world.cache block dev = .ok (some i) →
        ¬OnFreeList s.world.cache i ∧ (s.world.cache.pool i).count ≠ 0xFFFFFFFF))
  | .put _ => isTrue trivial
  | .modify _ _ => isTrue trivial

theorem held_never_recycled_two_holders :
    ∃ tr s, CacheRun oneDisk numberedDisk tr s ∧ s.held = [⟨1, 6, 0x300⟩, ⟨0, 5, 0x300⟩] ∧
      (∀ h ∈ s.held, Labelled (s.world.cache.pool h.buff) h.block h.dev) ∧
      ∀ p ∈ tr, HeldKept oneDisk p.1 p.2 := by
  have hrun : ((execTrace (CacheState.exec oneDisk) (freshState numberedDisk)
      [.get 5 0x300, .get 5 0x300, .get 6 0x300, .put ⟨0, 5, 0x300⟩]).map fun r =>
        decide (r.2.held = [⟨1, 6, 0x300⟩, ⟨0, 5, 0x300⟩] ∧ ∀ p ∈ r.1, HitOffList p.1 p.2)) =
      some true := by
    decide +kernel
  obtain ⟨r, hr, hheld, hC⟩ := exists_run_of_decide hrun
  exact ⟨r.1, r.2, hr, hheld, held_never_recycled oneDisk numberedDisk hr hC⟩

/-- Block 5 is released and taken again, and the miss on block 6 recycles its record. -/
theorem held_record_recycled :
    ∃ tr s w', CacheRun oneDisk numberedDisk tr s ∧ s.held = [⟨0, 5, 0x300⟩] ∧
      getBlock oneDisk s.world 6 0x300 = .ok (0, w') ∧ (w'.cache.pool 0).blockNum = 6 ∧
      ¬HeldKept oneDisk s (.get 6 0x300) := by
  have hrun : ((execTrace (CacheState.exec oneDisk) (freshState numberedDisk)
      [.get 5 0x300, .put ⟨0, 5, 0x300⟩, .get 5 0x300]).bind fun r =>
        (getBlock oneDisk r.2.world 6 0x300).toOption.map fun q =>
          decide (r.2.held = [⟨0, 5, 0x300⟩] ∧ q.1 = 0 ∧ (q.2.cache.pool 0).blockNum = 6 ∧
            findBlock r.2.world.cache 6 0x300 = .ok none)) = some true := by
    decide +kernel
  obtain ⟨r, hexec, h⟩ := Option.bind_eq_some_iff.mp hrun
  obtain ⟨⟨i, w'⟩, hget, h⟩ := Option.map_eq_some_iff.mp h
  obtain ⟨hheld, rfl, hnum, hf⟩ := of_decide_eq_true h
  have hget := eq_ok_of_toOption hget
  have hr : CacheRun oneDisk numberedDisk r.1 r.2 := run_of_execTrace hexec
  refine ⟨r.1, r.2, w', hr, hheld, hget, hnum, fun hkept => ?_⟩
  have hmem : (⟨0, 5, 0x300⟩ : Handle) ∈ r.2.held := by simp [hheld]
  exact hkept.1 6 0x300 0 w' rfl hf hget ⟨0, 5, 0x300⟩ hmem rfl

/-- Every record without a holder is on the free list, and so there is one as long as some
record is not held. -/
structure NoLeak (s : CacheState) : Prop where
  listed : ∀ i, holders s i = 0 → OnFreeList s.world.cache i
  lru : (s.held.map Handle.buff).dedup.length ≤ maxBuffer - 1 →
    ∃ i, s.world.cache.lruBuff = .node i

/-- The last release of a record that is off the free list finds no second user counted. -/
def LastRelease (s : CacheState) : CacheOp → Prop
  | .put hd => holders s hd.buff = 1 → ¬OnFreeList s.world.cache hd.buff →
      ¬(s.world.cache.pool hd.buff).count > 1
  | .get _ _ => True
  | .modify _ _ => True

structure LeakInv (s : CacheState) (free : List Buff) : Prop where
  list : FreeInv s free
  listed : ∀ i, holders s i = 0 → i ∈ free

lemma leakInv_step (hI : LeakInv s free) (hsafe : CountSafe s op) (hlast : LastRelease s op)
    (h : s.exec fs op = some s') : ∃ free', LeakInv s' free' := by
  obtain ⟨free', hI', hstep⟩ := freeInv_step hI.list hsafe h
  refine ⟨free', hI', fun j hj => ?_⟩
  cases hstep with
  | @hit block dev i hf hfree hh =>
    have hhj := hh j
    rw [hfree]
    exact hI.listed j (by omega)
  | @miss block dev i hf hfree hh =>
    have hhj := hh j
    have hmem := hI.listed j (by omega)
    rw [hfree] at hmem
    rcases List.mem_cons.mp hmem with rfl | hmem
    · rw [if_pos rfl] at hhj
      omega
    · exact hmem
  | @lower hd hm hc hfree hh =>
    have hhj := hh j
    rw [hfree]
    by_cases hij : hd.buff = j
    · rw [if_pos hij, hj] at hhj
      rw [← hij] at hhj ⊢
      by_contra hoff
      rw [← onFreeList_iff hI.list] at hoff
      exact hlast hhj hoff hc
    · rw [if_neg hij] at hhj
      exact hI.listed j (by omega)
  | @insert hd hm hc hone hoff hfree hh =>
    have hhj := hh j
    rw [hfree]
    by_cases hij : hd.buff = j
    · rw [hij]
      exact List.mem_cons_self
    · rw [if_neg hij] at hhj
      exact List.mem_cons_of_mem _ (hI.listed j (by omega))
  | modify hfree hh =>
    have hhj := hh j
    rw [hfree]
    exact hI.listed j (by omega)

lemma exists_unheld (h : (s.held.map Handle.buff).dedup.length ≤ maxBuffer - 1) :
    ∃ i, holders s i = 0 := by
  by_contra hall
  have hmem : ∀ i, i ∈ s.held.map Handle.buff := by
    intro i
    by_contra hi
    apply hall
    refine ⟨i, List.countP_eq_zero.mpr fun h hh hbuff => hi ?_⟩
    exact List.mem_map.mpr ⟨h, hh, of_decide_eq_true hbuff⟩
  have hcard : Fintype.card Buff ≤ (s.held.map Handle.buff).dedup.length := by
    rw [← List.card_toFinset, ← Finset.card_univ]
    apply Finset.card_le_card
    intro i _
    exact List.mem_toFinset.mpr (hmem i)
  rw [Fintype.card_fin] at hcard
  exact absurd (hcard.trans h) (by decide)

lemma LeakInv.noLeak (hI : LeakInv s free) : NoLeak s := by
  refine ⟨fun i hi => (onFreeList_iff hI.list).mpr (hI.listed i hi), fun hfew => ?_⟩
  obtain ⟨i, hi⟩ := exists_unheld hfew
  have hmem := hI.listed i hi
  have hlist := hI.list.list
  cases free with
  | nil => cases hmem
  | cons k rest => exact ⟨k, hlist.1⟩

/-- In every run in which counts are safe and each last release of a record off the free list
finds it with one user counted, no record is lost. -/
theorem pool_never_leaks (fs : Devfs) (disk : UInt32 → UInt32 → Payload)
    {tr : List (CacheState × CacheOp)} {s : CacheState} (hr : CacheRun fs disk tr s)
    (hC : ∀ p ∈ tr, CountSafe p.1 p.2 ∧ LastRelease p.1 p.2) : NoLeak s := by
  have h₀ : ∃ free, LeakInv (freshState disk) free :=
    ⟨_, freeInv_fresh disk, fun i _ => List.mem_finRange i⟩
  have hstep : ∀ s op s', (∃ free, LeakInv s free) → CountSafe s op ∧ LastRelease s op →
      s.exec fs op = some s' → ∃ free, LeakInv s' free :=
    fun s op s' ⟨free, hI⟩ hC h => leakInv_step hI hC.1 hC.2 h
  obtain ⟨free, hI⟩ := hr.invariant h₀ hstep hC
  exact hI.noLeak

instance (s : CacheState) (op : CacheOp) : Decidable (LastRelease s op) :=
  match op with
  | .put hd => inferInstanceAs (Decidable (holders s hd.buff = 1 →
      ¬OnFreeList s.world.cache hd.buff → ¬(s.world.cache.pool hd.buff).count > 1))
  | .get _ _ => isTrue trivial
  | .modify _ _ => isTrue trivial

theorem pool_never_leaks_first_lives :
    ∃ tr s, CacheRun oneDisk numberedDisk tr s ∧ tr.length = 4 ∧ NoLeak s := by
  have hrun : ((execTrace (CacheState.exec oneDisk) (freshState numberedDisk)
      [.get 5 0x300, .get 6 0x300, .put ⟨0, 5, 0x300⟩, .put ⟨1, 6, 0x300⟩]).map fun r =>
        decide (r.1.length = 4 ∧ ∀ p ∈ r.1, CountSafe p.1 p.2 ∧ LastRelease p.1 p.2)) =
      some true := by
    decide +kernel
  obtain ⟨r, hr, hlen, hC⟩ := exists_run_of_decide hrun
  exact ⟨r.1, r.2, hr, hlen, pool_never_leaks oneDisk numberedDisk hr hC⟩

/-- A record loaded twice and released twice has no holder and is not on the free list. -/
theorem record_lost_in_second_life :
    ∃ tr s, CacheRun oneDisk numberedDisk tr s ∧ tr.length = 4 ∧ s.held = [] ∧
      ¬OnFreeList s.world.cache 0 ∧ ¬NoLeak s := by
  have hrun : ((execTrace (CacheState.exec oneDisk) (freshState numberedDisk)
      [.get 5 0x300, .put ⟨0, 5, 0x300⟩, .get 6 0x300, .put ⟨0, 6, 0x300⟩]).map fun r =>
        decide (r.1.length = 4 ∧ r.2.held = [] ∧ ¬OnFreeList r.2.world.cache 0)) = some true := by
    decide +kernel
  obtain ⟨r, hr, hlen, hheld, hoff⟩ := exists_run_of_decide hrun
  refine ⟨r.1, r.2, hr, hlen, hheld, hoff, fun hN => hoff (hN.listed 0 ?_)⟩
  rw [holders, hheld]
  rfl

end SaxonOS.Proofs
