import SaxonOS.Proofs.BufferSteps

/-!
# Walks along the hash chains end

A miss puts the record at `lru_buff` at the front of the chain of the block asked for and
does not take it out of the chains it is on. All chains still end exactly when the record
was not on that chain already.
-/

namespace SaxonOS.Proofs
open Lib

/-- Following `next` reaches `NULL` from every bucket, and so the search of `get_block` ends. -/
structure ChainsEnd (c : Cache) : Prop where
  ends : ∀ h, ∃ xs, Seg (Cache.next c) (c.buffHead h) xs .null
  search : ∀ block dev, findBlock c block dev ≠ .error .diverge

/-- The chains end after the step. -/
def EndsAfter (fs : Devfs) (s : CacheState) (op : CacheOp) : Prop :=
  ∀ s', s.exec fs op = some s' → ChainsEnd s'.world.cache

/-- A `get_block` that misses finds the record at `lru_buff` off the chain of its block. -/
def LruOffChain (s : CacheState) : CacheOp → Prop
  | .get block dev => findBlock s.world.cache block dev = .ok none →
      ∀ i, s.world.cache.lruBuff = .node i →
        i ∉ walk (Cache.next s.world.cache) maxBuffer (s.world.cache.buffHead (bucket block))
  | .put _ => True
  | .modify _ _ => True

variable {fs : Devfs} {c : Cache} {s s' : CacheState} {op : CacheOp}

lemma chainsEnd_of_ends (h : ∀ g, ∃ xs, Seg (Cache.next c) (c.buffHead g) xs .null) :
    ChainsEnd c := by
  refine ⟨h, fun block dev hdiv => ?_⟩
  obtain ⟨xs, hxs⟩ := h (bucket block)
  have hlen : xs.length ≤ maxBuffer := by simpa using hxs.nodup.length_le_card
  obtain ⟨r, hr⟩ := searchChain_ends hxs (Nat.lt_succ_of_le hlen)
  rw [findBlock, hr] at hdiv
  cases hdiv

lemma mem_walk_iff {xs : List Buff} {p : Ptr Buff} {i : Buff} (h : Seg (Cache.next c) p xs .null) :
    i ∈ walk (Cache.next c) maxBuffer p ↔ i ∈ xs := by
  have hw := h.mem_walk (a := i)
  rwa [Fintype.card_fin] at hw

lemma chainsEnd_step (hI : ChainsEnd s.world.cache) (h : s.exec fs op = some s') :
    (EndsAfter fs s op ↔ LruOffChain s op) ∧ (EndsAfter fs s op → ChainsEnd s'.world.cache) := by
  refine ⟨?_, fun hends => hends s' h⟩
  have hafter : EndsAfter fs s op ↔ ChainsEnd s'.world.cache := by
    constructor
    · exact fun hends => hends s' h
    · intro hends t ht
      rw [h] at ht
      rwa [← Option.some.inj ht]
  rw [hafter]
  rcases exec_chains h with ⟨hnext, hheads, hno⟩ | ⟨block, dev, i, rfl, hf, hlru, hnext, hheads⟩
  · have hends : ChainsEnd s'.world.cache := by
      apply chainsEnd_of_ends
      rw [hnext, hheads]
      exact hI.ends
    have hoff : LruOffChain s op := by
      cases op with
      | get block dev => exact fun hf => absurd hf (hno block dev rfl)
      | put _ => trivial
      | modify _ _ => trivial
    exact iff_of_true hends hoff
  · obtain ⟨xs, hxs⟩ := hI.ends (bucket block)
    have hmove := moveFront_ends_iff (i := i) hI.ends hxs
    rw [← hnext, ← hheads] at hmove
    constructor
    · intro hends _ k hk
      rw [hlru] at hk
      obtain rfl := Ptr.node.inj hk
      rw [mem_walk_iff hxs]
      exact hmove.mp hends.ends
    · intro hoff
      have hi := hoff hf i hlru
      rw [mem_walk_iff hxs] at hi
      exact chainsEnd_of_ends (hmove.mpr hi)

lemma chainsEnd_fresh : ChainsEnd (initBuffer fun _ => zeroed) := by
  apply chainsEnd_of_ends
  intro h
  rw [(initBuffer_heads _).1]
  by_cases hh : h = 0
  · rw [hh, Function.update_self]
    exact ⟨_, fresh_chain⟩
  · rw [Function.update_of_ne hh]
    exact ⟨[], rfl⟩

/-- The chains end in every state of a run exactly when no miss of it finds the record at
`lru_buff` on the chain of the block asked for. -/
theorem chains_end_iff (fs : Devfs) (disk : UInt32 → UInt32 → Payload) :
    ChainsEnd (freshState disk).world.cache ∧ ∀ tr s, CacheRun fs disk tr s →
      ((∀ p ∈ tr, EndsAfter fs p.1 p.2) ↔ ∀ p ∈ tr, LruOffChain p.1 p.2) := by
  refine ⟨chainsEnd_fresh, fun tr s hr => ?_⟩
  have h₀ : ChainsEnd (freshState disk).world.cache := chainsEnd_fresh
  exact hr.forall_iff h₀ (fun _ _ _ hI h => chainsEnd_step hI h)

instance (s : CacheState) (op : CacheOp) : Decidable (LruOffChain s op) :=
  match op with
  | .get block dev => inferInstanceAs (Decidable (findBlock s.world.cache block dev = .ok none →
      ∀ i, s.world.cache.lruBuff = .node i →
        i ∉ walk (Cache.next s.world.cache) maxBuffer (s.world.cache.buffHead (bucket block))))
  | .put _ => isTrue trivial
  | .modify _ _ => isTrue trivial

theorem chains_end_iff_recycled :
    ∃ tr s, CacheRun oneDisk numberedDisk tr s ∧ tr.length = 3 ∧
      ∀ p ∈ tr, EndsAfter oneDisk p.1 p.2 := by
  have hrun : ((execTrace (CacheState.exec oneDisk) (freshState numberedDisk)
      [.get 5 0x300, .put ⟨0, 5, 0x300⟩, .get 6 0x300]).map fun r =>
        decide (r.1.length = 3 ∧ ∀ p ∈ r.1, LruOffChain p.1 p.2)) = some true := by
    decide +kernel
  obtain ⟨r, hr, hlen, hoff⟩ := exists_run_of_decide hrun
  exact ⟨r.1, r.2, hr, hlen, ((chains_end_iff oneDisk numberedDisk).2 r.1 r.2 hr).mpr hoff⟩

/-- The first `get_block` of block 0 makes record 0 its own successor. -/
theorem chain_loops_after_block_zero :
    ∃ tr s, CacheRun oneDisk numberedDisk tr s ∧ tr.length = 1 ∧ ¬ChainsEnd s.world.cache ∧
      findBlock s.world.cache 256 0x300 = .error .diverge := by
  have hrun : ((execTrace (CacheState.exec oneDisk) (freshState numberedDisk)
      [.get 0 0x300]).map fun r => decide (r.1.length = 1 ∧
        r.2.world.cache.buffHead 0 = .node 0 ∧ Cache.next r.2.world.cache 0 = .node 0 ∧
        findBlock r.2.world.cache 256 0x300 = .error .diverge)) = some true := by
    decide +kernel
  obtain ⟨r, hr, hlen, hhead, hloop, hdiv⟩ := exists_run_of_decide hrun
  refine ⟨r.1, r.2, hr, hlen, fun hends => ?_, hdiv⟩
  obtain ⟨xs, hxs⟩ := hends.ends 0
  rw [hhead] at hxs
  exact not_seg_of_loop hloop hxs

end SaxonOS.Proofs
