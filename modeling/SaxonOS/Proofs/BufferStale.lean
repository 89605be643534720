import SaxonOS.Proofs.BufferFreeList

/-!
# Stale heap bytes

`init_buffer` links the records it gets from `kmalloc` and leaves everything else in them as
it finds it. Two executions of the same calls, over two prior contents of that memory, run in
lockstep as long as the stale bytes that `get_block` and `put_block` do read agree: the dirty
byte, the count and the class of a record that a miss takes, the labels met by a first search
of bucket 0, and the two links of the last record, which must not lead out of the records.
-/

namespace SaxonOS.Proofs
open Lib

/-- The state after `init_buffer` over memory that holds `prior`. -/
def startState (prior : Buff → BufferHead) (disk : UInt32 → UInt32 → Payload) : CacheState :=
  ⟨⟨initBuffer prior, disk, []⟩, [], fun _ _ => none⟩

abbrev View := List Event × List (UInt32 × UInt16 × Payload)

/-- The transfers so far, and the label and payload of every buffer that is held, the one
returned last first. -/
def CacheState.visible (s : CacheState) : View :=
  (s.world.log, s.held.map fun h => ((s.world.cache.pool h.buff).blockNum,
    (s.world.cache.pool h.buff).dev, (s.world.cache.pool h.buff).buff))

/-- What the callers and the disk see of an execution, call by call. -/
def observe (fs : Devfs) (s : CacheState) (ops : List CacheOp) : List (Option View) :=
  outputs (CacheState.exec fs) CacheState.visible s ops

def NoWrite (v : View) : Prop := ∀ a lba, Event.write a lba ∉ v.1

/-- The record that `init_buffer` allocates last. -/
def lastBuff : Buff := 99

/-- The step is a `get_block` that misses and takes the record `i`. -/
def Takes (s : CacheState) (op : CacheOp) (i : Buff) : Prop :=
  ∃ block dev, op = .get block dev ∧ findBlock s.world.cache block dev = .ok none ∧
    s.world.cache.lruBuff = .node i

/-- No test of the next `n` calls tells the counts of two records with `h` holders apart: they
are equal, or both exceed the holders. -/
def CountAgree (h n : Nat) (b₁ b₂ : BufferHead) : Prop :=
  (b₁.count = b₂.count ∧ (b₁.flags = classDir ↔ b₂.flags = classDir)) ∨
    (h < b₁.count.toNat ∧ b₁.count.toNat + n < 2 ^ 32 ∧
      h < b₂.count.toNat ∧ b₂.count.toNat + n < 2 ^ 32)

/-- The two contents hold the same link, and it is `NULL` or a record: behind any other address
`get_block` would go on in bytes that the two executions need not share. -/
def SameLink (q₁ q₂ : Ptr Buff) : Prop := q₁ = q₂ ∧ q₁ ≠ .wild

/-- The stale bytes of the record `i` make no difference to a run of `n` calls. -/
structure StaleAgree (n : Nat) (i : Buff) (b₁ b₂ : BufferHead) : Prop where
  clean : b₁.dirty ≠ 1 ∧ b₂.dirty ≠ 1
  nextFree : i = lastBuff → SameLink b₁.nextFree b₂.nextFree
  count : CountAgree 0 n b₁ b₂

/-- A first request for bucket 0 searches all the records. -/
def FirstSearchAgrees (p₁ p₂ : Buff → BufferHead) (ops : List CacheOp) : Prop :=
  ∀ block dev, ops.head? = some (.get block dev) → bucket block = 0 →
    SameLink (p₁ lastBuff).next (p₂ lastBuff).next ∧
      ∀ i, ¬Labelled (p₁ i) block dev ∧ ¬Labelled (p₂ i) block dev

variable {p₁ p₂ : Buff → BufferHead} {L : Set Buff} {c₁ c₂ c₁' c₂' : Cache} {w₁ w₂ w₁' w₂' : World}
  {fs : Devfs} {i j : Buff} {block : UInt32} {dev : UInt16} {f₁ f₂ : BufferHead → BufferHead}
  {q₁ q₂ : Ptr Buff}

/-! ### The free list in lockstep -/

/-- The free links of a record are the same in both executions. The forward one may still be
the stale one, in the last record before it is loaded. -/
structure LinkRec (p₁ p₂ : Buff → BufferHead) (L : Set Buff) (i : Buff) (b₁ b₂ : BufferHead) :
    Prop where
  prevFree : b₁.prevFree = b₂.prevFree
  nextFree : b₁.nextFree = b₂.nextFree ∨ (i ∉ L ∧ i = lastBuff ∧
    b₁.nextFree = (p₁ i).nextFree ∧ b₂.nextFree = (p₂ i).nextFree)

structure LinkSim (p₁ p₂ : Buff → BufferHead) (L : Set Buff) (c₁ c₂ : Cache) : Prop where
  heads : c₁.buffHead = c₂.buffHead
  lru : c₁.lruBuff = c₂.lruBuff
  mru : c₁.mruBuff = c₂.mruBuff
  recs : ∀ i, LinkRec p₁ p₂ L i (c₁.pool i) (c₂.pool i)

lemma LinkSim.nextFree (h : LinkSim p₁ p₂ L c₁ c₂) (hi : i ∈ L) :
    (c₁.pool i).nextFree = (c₂.pool i).nextFree :=
  (h.recs i).nextFree.resolve_right fun hs => hs.1 hi

lemma LinkSim.modify (h : LinkSim p₁ p₂ L c₁ c₂)
    (hf : ∀ b₁ b₂, LinkRec p₁ p₂ L i b₁ b₂ → LinkRec p₁ p₂ L i (f₁ b₁) (f₂ b₂)) :
    LinkSim p₁ p₂ L (c₁.modify i f₁) (c₂.modify i f₂) := by
  refine ⟨h.heads, h.lru, h.mru, fun j => ?_⟩
  rw [modify_pool, modify_pool]
  split
  · next hj =>
    rw [hj]
    exact hf _ _ (h.recs i)
  · exact h.recs j

lemma LinkSim.store (h : LinkSim p₁ p₂ L c₁ c₂) (hq : q₁ = q₂)
    (hf : ∀ i b₁ b₂, LinkRec p₁ p₂ L i b₁ b₂ → LinkRec p₁ p₂ L i (f₁ b₁) (f₂ b₂)) :
    Agree (LinkSim p₁ p₂ L) (c₁.store q₁ f₁) (c₂.store q₂ f₂) := by
  subst hq
  cases q₁ with
  | null => exact .error _
  | wild => exact .error _
  | node k => exact .ok (h.modify (hf k))

lemma LinkSim.storeIf (h : LinkSim p₁ p₂ L c₁ c₂) (hq : q₁ = q₂)
    (hf : ∀ i b₁ b₂, LinkRec p₁ p₂ L i b₁ b₂ → LinkRec p₁ p₂ L i (f₁ b₁) (f₂ b₂)) :
    Agree (LinkSim p₁ p₂ L) (c₁.storeIf q₁ f₁) (c₂.storeIf q₂ f₂) := by
  subst hq
  rw [Cache.storeIf, Cache.storeIf]
  split
  · exact .ok h
  · exact h.store rfl hf

structure WorldSim (p₁ p₂ : Buff → BufferHead) (L : Set Buff) (w₁ w₂ : World) : Prop where
  links : LinkSim p₁ p₂ L w₁.cache w₂.cache
  disk : w₁.disk = w₂.disk
  log : w₁.log = w₂.log

lemma writeBack_clean {w : World} (hd : (w.cache.pool i).dirty ≠ 1) :
    writeBack fs w i dev block = .ok w := if_neg hd

lemma unlinkFree_agree (h : WorldSim p₁ p₂ L w₁ w₂) (hi : i ∈ L)
    (hd₁ : (w₁.cache.pool i).dirty ≠ 1) (hd₂ : (w₂.cache.pool i).dirty ≠ 1) :
    Agree (WorldSim p₁ p₂ L) (unlinkFree fs w₁ i block dev) (unlinkFree fs w₂ i block dev) := by
  have hnf := h.links.nextFree hi
  refine (h.links.storeIf (h.links.recs i).prevFree ?_).bind fun c₁ c₂ h₁ h₂ hc => ?_
  · exact fun k b₁ b₂ hb => ⟨hb.prevFree, Or.inl hnf⟩
  refine (hc.storeIf (hc.nextFree hi) ?_).bind fun c₁' c₂' h₁' h₂' hc' => ?_
  · exact fun k b₁ b₂ hb => ⟨(hc.recs i).prevFree, hb.nextFree⟩
  have hkeep : ∀ {c c' c'' : Cache} {q q' : Ptr Buff} {l l' : Ptr Buff},
      c.storeIf q (fun b => { b with nextFree := l }) = .ok c' →
      c'.storeIf q' (fun b => { b with prevFree := l' }) = .ok c'' → (c.pool i).dirty ≠ 1 →
      ((((c''.modify i fun b => { b with nextFree := .null }).modify i
        fun b => { b with prevFree := .null })).pool i).dirty ≠ 1 := by
    intro c c' c'' q q' l l' hs hs' hd
    rw [modify_keep BufferHead.dirty (by intro b; rfl), modify_keep BufferHead.dirty (by intro b; rfl),
      storeIf_keep BufferHead.dirty (by intro b; rfl) hs',
      storeIf_keep BufferHead.dirty (by intro b; rfl) hs]
    exact hd
  rw [writeBack_clean (hkeep h₁ h₁' hd₁), writeBack_clean (hkeep h₂ h₂' hd₂)]
  refine .ok ⟨?_, h.disk, h.log⟩
  dsimp only
  refine (hc'.modify ?_).modify ?_
  · exact fun b₁ b₂ hb => ⟨hb.prevFree, Or.inl rfl⟩
  · exact fun b₁ b₂ hb => ⟨rfl, hb.nextFree⟩

lemma getHit_agree (h : WorldSim p₁ p₂ L w₁ w₂) (hi : i ∈ L)
    (hd₁ : (w₁.cache.pool i).dirty ≠ 1) (hd₂ : (w₂.cache.pool i).dirty ≠ 1)
    (hc : (w₁.cache.pool i).count = 0 ↔ (w₂.cache.pool i).count = 0) :
    Agree (fun r₁ r₂ => r₁.1 = r₂.1 ∧ WorldSim p₁ p₂ L r₁.2 r₂.2) (getHit fs w₁ i block dev)
      (getHit fs w₂ i block dev) := by
  have hlog : WorldSim p₁ p₂ L { w₁ with log := .printhex32 block :: w₁.log }
      { w₂ with log := .printhex32 block :: w₂.log } :=
    ⟨h.links, h.disk, by rw [h.log]⟩
  refine Agree.bind (R := WorldSim p₁ p₂ L) ?_ fun w₁' w₂' _ _ hw => ?_
  · by_cases h0 : (w₁.cache.pool i).count = 0
    · rw [if_pos h0, if_pos (hc.mp h0)]
      exact unlinkFree_agree hlog hi hd₁ hd₂
    · rw [if_neg h0, if_neg (h0 ∘ hc.mpr)]
      exact .ok hlog
  · refine .ok ⟨rfl, ?_, hw.disk, hw.log⟩
    dsimp only
    refine hw.links.modify ?_
    exact fun b₁ b₂ hb => ⟨hb.prevFree, hb.nextFree⟩

lemma loadBlock_agree (h : WorldSim p₁ p₂ L w₁ w₂) (hd₁ : (w₁.cache.pool i).dirty ≠ 1)
    (hd₂ : (w₂.cache.pool i).dirty ≠ 1) :
    Agree (WorldSim p₁ p₂ L) (loadBlock fs w₁ i block dev) (loadBlock fs w₂ i block dev) := by
  rw [loadBlock, loadBlock, writeBack_clean hd₁, writeBack_clean hd₂]
  refine (Agree.refl (findBdev fs dev)).bind ?_
  rintro a _ - - rfl
  refine .ok ⟨?_, h.disk, by simp only [ataRead, h.log]⟩
  dsimp only [ataRead]
  refine (((h.links.modify ?_).modify ?_).modify ?_).modify ?_
  all_goals exact fun b₁ b₂ hb => ⟨hb.prevFree, hb.nextFree⟩

lemma linkFront_agree (h : LinkSim p₁ p₂ L c₁ c₂) :
    Agree (LinkSim p₁ p₂ L) (linkFront c₁ i block) (linkFront c₂ i block) := by
  have hnext : LinkSim p₁ p₂ L
      (c₁.modify i fun b => { b with next := c₁.buffHead (bucket block) })
      (c₂.modify i fun b => { b with next := c₂.buffHead (bucket block) }) :=
    h.modify fun b₁ b₂ hb => ⟨hb.prevFree, hb.nextFree⟩
  refine (hnext.storeIf ?_ ?_).bind fun c₁' c₂' _ _ hc => ?_
  · rw [modify_pool, modify_pool, if_pos rfl, if_pos rfl, h.heads]
  · exact fun k b₁ b₂ hb => ⟨hb.prevFree, hb.nextFree⟩
  have hfront : LinkSim p₁ p₂ L
      { c₁' with buffHead := Function.update c₁'.buffHead (bucket block) (.node i) }
      { c₂' with buffHead := Function.update c₂'.buffHead (bucket block) (.node i) } :=
    ⟨by rw [hc.heads], hc.lru, hc.mru, hc.recs⟩
  refine .ok (((hfront.modify ?_).modify ?_).modify ?_)
  · exact fun b₁ b₂ hb => ⟨hb.prevFree, Or.inl rfl⟩
  · exact fun b₁ b₂ hb => ⟨rfl, hb.nextFree⟩
  · exact fun b₁ b₂ hb => ⟨hb.prevFree, hb.nextFree⟩

lemma getMiss_agree (h : WorldSim p₁ p₂ L w₁ w₂)
    (htake : ∀ i, w₁.cache.lruBuff = .node i → (w₁.cache.pool i).nextFree = (w₂.cache.pool i).nextFree ∧
      (w₁.cache.pool i).dirty ≠ 1 ∧ (w₂.cache.pool i).dirty ≠ 1) :
    Agree (fun r₁ r₂ => r₁.1 = r₂.1 ∧ WorldSim p₁ p₂ L r₁.2 r₂.2) (getMiss fs w₁ block dev)
      (getMiss fs w₂ block dev) := by
  rw [getMiss, getMiss, ← h.links.lru]
  cases hlru : w₁.cache.lruBuff with
  | null => exact .error _
  | wild => exact .error _
  | node i =>
    obtain ⟨hnf, hd₁, hd₂⟩ := htake i hlru
    have hpop : LinkSim p₁ p₂ L { w₁.cache with lruBuff := (w₁.cache.pool i).nextFree }
        { w₂.cache with lruBuff := (w₂.cache.pool i).nextFree } :=
      ⟨h.links.heads, hnf, h.links.mru, h.links.recs⟩
    refine (hpop.storeIf hnf ?_).bind fun c₁ c₂ h₁ h₂ hc => ?_
    · exact fun k b₁ b₂ hb => ⟨rfl, hb.nextFree⟩
    have hload : WorldSim p₁ p₂ L { w₁ with cache := c₁ } { w₂ with cache := c₂ } :=
      ⟨hc, h.disk, h.log⟩
    refine (loadBlock_agree hload ?_ ?_).bind fun w₁' w₂' _ _ hw => ?_
    · rw [storeIf_keep BufferHead.dirty (by intro b; rfl) h₁]
      exact hd₁
    · rw [storeIf_keep BufferHead.dirty (by intro b; rfl) h₂]
      exact hd₂
    refine (linkFront_agree hw.links).bind fun c₁' c₂' _ _ hc' => ?_
    exact .ok ⟨rfl, hc', hw.disk, hw.log⟩

lemma putBlock_agree (h : LinkSim p₁ p₂ L c₁ c₂)
    (hc : (c₁.pool i).count > 1 ↔ (c₂.pool i).count > 1)
    (hdir : ¬(c₁.pool i).count > 1 →
      ((c₁.pool i).flags = classDir ↔ (c₂.pool i).flags = classDir)) :
    Agree (LinkSim p₁ p₂ L) (putBlock c₁ i) (putBlock c₂ i) := by
  rw [putBlock, putBlock]
  by_cases h1 : (c₁.pool i).count > 1
  · rw [if_pos h1, if_pos (hc.mp h1)]
    exact .ok (h.modify fun b₁ b₂ hb => ⟨hb.prevFree, hb.nextFree⟩)
  · rw [if_neg h1, if_neg (h1 ∘ hc.mpr)]
    by_cases hf : (c₁.pool i).flags = classDir
    · rw [if_pos hf, if_pos ((hdir h1).mp hf)]
      refine (h.store h.mru ?_).bind fun c₁' c₂' _ _ hc' => ?_
      · exact fun k b₁ b₂ hb => ⟨hb.prevFree, Or.inl rfl⟩
      have hm : LinkSim p₁ p₂ L (c₁'.modify i fun b => { b with prevFree := c₁'.mruBuff })
          (c₂'.modify i fun b => { b with prevFree := c₂'.mruBuff }) :=
        hc'.modify fun b₁ b₂ hb => ⟨hc'.mru, hb.nextFree⟩
      exact .ok ⟨hm.heads, hm.lru, rfl, hm.recs⟩
    · rw [if_neg hf, if_neg (hf ∘ (hdir h1).mpr)]
      refine (h.store h.lru ?_).bind fun c₁' c₂' _ _ hc' => ?_
      · exact fun k b₁ b₂ hb => ⟨rfl, hb.nextFree⟩
      have hl : LinkSim p₁ p₂ L (c₁'.modify i fun b => { b with nextFree := c₁'.lruBuff })
          (c₂'.modify i fun b => { b with nextFree := c₂'.lruBuff }) :=
        hc'.modify fun b₁ b₂ hb => ⟨hb.prevFree, Or.inl hc'.lru⟩
      exact .ok ⟨hl.heads, rfl, hl.mru, hl.recs⟩

variable {b₁ b₂ b₁' b₂' : BufferHead} {h n : Nat}

lemma CountAgree.zero_iff (hc : CountAgree h n b₁ b₂) : b₁.count = 0 ↔ b₂.count = 0 := by
  rcases hc with ⟨hc, -⟩ | ⟨h₁, -, h₂, -⟩
  · rw [hc]
  · simp only [← UInt32.toNat_inj, UInt32.toNat_zero]
    omega

lemma CountAgree.last_iff (hc : CountAgree h n b₁ b₂) (hh : 1 ≤ h) :
    (b₁.count > 1 ↔ b₂.count > 1) ∧
      (¬b₁.count > 1 → (b₁.flags = classDir ↔ b₂.flags = classDir)) := by
  rcases hc with ⟨hc, hf⟩ | ⟨h₁, -, h₂, -⟩
  · rw [hc]
    exact ⟨Iff.rfl, fun _ => hf⟩
  · simp only [gt_iff_lt, UInt32.lt_iff_toNat_lt, UInt32.toNat_one]
    exact ⟨⟨fun _ => by omega, fun _ => by omega⟩, fun hlt => by omega⟩

lemma CountAgree.mono (hc : CountAgree h n b₁ b₂) {h' n' : Nat} (hh : h' ≤ h) (hn : n' ≤ n)
    (hf₁ : b₁'.flags = b₁.flags) (hc₁ : b₁'.count = b₁.count) (hf₂ : b₂'.flags = b₂.flags)
    (hc₂ : b₂'.count = b₂.count) : CountAgree h' n' b₁' b₂' := by
  rw [CountAgree, hf₁, hc₁, hf₂, hc₂]
  rcases hc with hc | ⟨h₁, hn₁, h₂, hn₂⟩
  · exact Or.inl hc
  · exact Or.inr ⟨by omega, by omega, by omega, by omega⟩

lemma CountAgree.succ (hc : CountAgree h (n + 1) b₁ b₂) (hf₁ : b₁'.flags = b₁.flags)
    (hc₁ : b₁'.count = b₁.count + 1) (hf₂ : b₂'.flags = b₂.flags)
    (hc₂ : b₂'.count = b₂.count + 1) : CountAgree (h + 1) n b₁' b₂' := by
  rw [CountAgree, hf₁, hc₁, hf₂, hc₂]
  rcases hc with ⟨hc, hf⟩ | ⟨h₁, hn₁, h₂, hn₂⟩
  · exact Or.inl ⟨by rw [hc], hf⟩
  · refine Or.inr ?_
    rw [UInt32.toNat_add, UInt32.toNat_add, UInt32.toNat_one]
    omega

lemma CountAgree.pred (hc : CountAgree (h + 1) (n + 1) b₁ b₂) (hf₁ : b₁'.flags = b₁.flags)
    (hc₁ : b₁'.count = b₁.count - 1) (hf₂ : b₂'.flags = b₂.flags)
    (hc₂ : b₂'.count = b₂.count - 1) : CountAgree h n b₁' b₂' := by
  rw [CountAgree, hf₁, hc₁, hf₂, hc₂]
  rcases hc with ⟨hc, hf⟩ | ⟨h₁, hn₁, h₂, hn₂⟩
  · exact Or.inl ⟨by rw [hc], hf⟩
  · refine Or.inr ?_
    rw [UInt32.toNat_sub, UInt32.toNat_sub, UInt32.toNat_one]
    omega

/-- The pointer leads to no record outside `L`. -/
def PtrIn (L : Set Buff) (p : Ptr Buff) : Prop := ∀ i, p = .node i → i ∈ L

/-- The chains run through loaded records only. -/
structure Enclosed (L : Set Buff) (c : Cache) : Prop where
  heads : ∀ k, PtrIn L (c.buffHead k)
  next : ∀ i ∈ L, PtrIn L (Cache.next c i)

lemma searchChain_congr {fuel : Nat} {p : Ptr Buff}
    (hlab : ∀ i ∈ L, Labelled (c₁.pool i) block dev ↔ Labelled (c₂.pool i) block dev)
    (hnext : ∀ i ∈ L, Cache.next c₁ i = Cache.next c₂ i) (hin : ∀ i ∈ L, PtrIn L (Cache.next c₁ i))
    (hp : PtrIn L p) :
    searchChain c₁.pool block dev fuel p = searchChain c₂.pool block dev fuel p ∧
      ∀ i, searchChain c₁.pool block dev fuel p = .ok (some i) → i ∈ L := by
  induction fuel generalizing p with
  | zero => exact ⟨rfl, fun i hi => by cases hi⟩
  | succ fuel ih =>
    cases p with
    | null => exact ⟨rfl, fun i hi => by cases hi⟩
    | wild => exact ⟨rfl, fun i hi => by cases hi⟩
    | node j =>
      have hj : j ∈ L := hp j rfl
      have hlj := hlab j hj
      have hnj := hnext j hj
      unfold Labelled at hlj
      unfold Cache.next at hnj
      rw [searchChain, searchChain, ← hnj]
      by_cases hl : (c₁.pool j).blockNum = block ∧ (c₁.pool j).dev = dev
      · rw [if_pos hl, if_pos (hlj.mp hl)]
        refine ⟨rfl, fun i hi => ?_⟩
        obtain rfl := Option.some.inj (Except.ok.inj hi)
        exact hj
      · rw [if_neg hl, if_neg (hl ∘ hlj.mpr)]
        exact ih (hin j hj)

/-! ### The simulation -/

/-- A loaded record in the two executions. -/
structure LoadedRec (h n : Nat) (b₁ b₂ : BufferHead) : Prop where
  blockNum : b₁.blockNum = b₂.blockNum
  dev : b₁.dev = b₂.dev
  buff : b₁.buff = b₂.buff
  next : b₁.next = b₂.next
  clean : b₁.dirty ≠ 1 ∧ b₂.dirty ≠ 1
  count : CountAgree h n b₁ b₂

/-- The fields that `init_buffer` leaves and a miss reads are still those found. -/
def Untouched (b prior : BufferHead) : Prop :=
  b.flags = prior.flags ∧ b.dirty = prior.dirty ∧ b.count = prior.count

/-- The two executions agree on all that was loaded, the records in `L`, with `n` of `total`
calls to come. -/
structure StaleSim (p₁ p₂ : Buff → BufferHead) (total : Nat) (L : Set Buff) (n : Nat)
    (s₁ s₂ : CacheState) : Prop where
  budget : n ≤ total
  worlds : WorldSim p₁ p₂ L s₁.world s₂.world
  held : s₁.held = s₂.held
  heldLoaded : ∀ hd ∈ s₁.held, hd.buff ∈ L
  noWrite : ∀ a lba, Event.write a lba ∉ s₁.world.log
  loaded : ∀ i ∈ L, LoadedRec (holders s₁ i) n (s₁.world.cache.pool i) (s₂.world.cache.pool i)
  stale : ∀ i, i ∉ L → Untouched (s₁.world.cache.pool i) (p₁ i) ∧
    Untouched (s₂.world.cache.pool i) (p₂ i)

variable {total : Nat} {s₁ s₂ : CacheState} {hd : Handle}

lemma StaleSim.findBlock_eq (hs : StaleSim p₁ p₂ total L n s₁ s₂)
    (hL : Enclosed L s₁.world.cache) (block : UInt32) (dev : UInt16) :
    findBlock s₁.world.cache block dev = findBlock s₂.world.cache block dev ∧
      ∀ i, findBlock s₁.world.cache block dev = .ok (some i) → i ∈ L := by
  have hlab : ∀ i ∈ L, Labelled (s₁.world.cache.pool i) block dev ↔
      Labelled (s₂.world.cache.pool i) block dev := by
    intro i hi
    rw [Labelled, Labelled, (hs.loaded i hi).blockNum, (hs.loaded i hi).dev]
  unfold findBlock
  rw [← hs.worlds.links.heads]
  exact searchChain_congr hlab (fun i hi => (hs.loaded i hi).next) hL.next (hL.heads (bucket block))

/-- What a call does to a record it does not load. -/
structure Kept (b b' : BufferHead) : Prop where
  blockNum : b'.blockNum = b.blockNum
  dev : b'.dev = b.dev
  buff : b'.buff = b.buff
  next : b'.next = b.next
  clean : b.dirty ≠ 1 → b'.dirty ≠ 1
  flags : b'.flags = b.flags

lemma kept_of_content {b b' : BufferHead} (h : content b' = content b) : Kept b b' := by
  have hs := sameContent h
  exact ⟨hs.blockNum, hs.dev, hs.buff, hs.next, fun hd => by rwa [hs.dirty], hs.flags⟩

lemma Hit.kept {w w' : World} (h : Hit fs w i block dev w') (j : Buff) :
    Kept (w.cache.pool j) (w'.cache.pool j) := by
  by_cases hj : j = i
  · rw [hj]
    have hs := sameContent h.self
    refine ⟨hs.blockNum, hs.dev, hs.buff, hs.next, fun hd => ?_, hs.flags⟩
    rw [hs.dirty]
    change (if (w.cache.pool i).count = 0 then cleaned (w.cache.pool i).dirty
      else (w.cache.pool i).dirty) ≠ 1
    split
    · exact cleaned_ne_one _
    · exact hd
  · exact kept_of_content (h.other j hj)

lemma putBlock_kept {c c' : Cache} (h : putBlock c i = .ok c') (j : Buff) :
    Kept (c.pool j) (c'.pool j) := by
  obtain ⟨hb, hd, hp, hdirty⟩ := putBlock_data h j
  exact ⟨hb, hd, hp, congrFun (putBlock_chains h).1 j, fun hne => by rwa [hdirty],
    (putBlock_counts h).1 j⟩

lemma LoadedRec.keep {h' n' : Nat} (hl : LoadedRec h n b₁ b₂) (k₁ : Kept b₁ b₁') (k₂ : Kept b₂ b₂')
    (hc : CountAgree h' n' b₁' b₂') : LoadedRec h' n' b₁' b₂' where
  blockNum := by rw [k₁.blockNum, k₂.blockNum, hl.blockNum]
  dev := by rw [k₁.dev, k₂.dev, hl.dev]
  buff := by rw [k₁.buff, k₂.buff, hl.buff]
  next := by rw [k₁.next, k₂.next, hl.next]
  clean := ⟨k₁.clean hl.clean.1, k₂.clean hl.clean.2⟩
  count := hc

lemma StaleSim.hit (hs : StaleSim p₁ p₂ total L (n + 1) s₁ s₂) (hi : i ∈ L)
    (h₁ : Hit fs s₁.world i block dev w₁') (h₂ : Hit fs s₂.world i block dev w₂')
    (hw : WorldSim p₁ p₂ L w₁' w₂') :
    StaleSim p₁ p₂ total L n { s₁ with world := w₁', held := ⟨i, block, dev⟩ :: s₁.held }
      { s₂ with world := w₂', held := ⟨i, block, dev⟩ :: s₂.held } := by
  have hb := hs.budget
  refine ⟨by omega, hw, by rw [hs.held], ?_, ?_, fun j hj => ?_, fun j hj => ?_⟩
  · intro hd hmem
    rcases List.mem_cons.mp hmem with rfl | hmem
    · exact hi
    · exact hs.heldLoaded hd hmem
  · intro a lba
    have hlog : w₁'.log = .printhex32 block :: s₁.world.log := by
      rcases h₁.io with ⟨-, -, hlog⟩ | ⟨-, hwb⟩
      · exact hlog
      · exact (hwb.of_clean (hs.loaded i hi).clean.1).2
    rw [hlog]
    exact not_mem_log (by simp) hs.noWrite a lba
  · refine (hs.loaded j hj).keep (h₁.kept j) (h₂.kept j) ?_
    have hc₁ := (h₁.counts j).2
    have hc₂ := (h₂.counts j).2
    rw [holders_cons]
    by_cases hji : j = i
    · rw [if_pos hji.symm]
      rw [if_pos hji, ← hji] at hc₁ hc₂
      exact (hs.loaded j hj).count.succ (h₁.kept j).flags hc₁ (h₂.kept j).flags hc₂
    · rw [if_neg (Ne.symm hji)]
      rw [if_neg hji] at hc₁ hc₂
      exact (hs.loaded j hj).count.mono le_rfl (Nat.le_succ n) (h₁.kept j).flags hc₁
        (h₂.kept j).flags hc₂
  · have hji : j ≠ i := fun h => hj (h ▸ hi)
    obtain ⟨⟨hf₁, hd₁, hc₁⟩, hf₂, hd₂, hc₂⟩ := hs.stale j hj
    have e₁ := sameContent (h₁.other j hji)
    have e₂ := sameContent (h₂.other j hji)
    exact ⟨⟨e₁.flags.trans hf₁, e₁.dirty.trans hd₁, e₁.count.trans hc₁⟩,
      e₂.flags.trans hf₂, e₂.dirty.trans hd₂, e₂.count.trans hc₂⟩

lemma StaleSim.put (hs : StaleSim p₁ p₂ total L (n + 1) s₁ s₂) (hm : hd ∈ s₁.held)
    (h₁ : putBlock s₁.world.cache hd.buff = .ok c₁') (h₂ : putBlock s₂.world.cache hd.buff = .ok c₂')
    (hc : LinkSim p₁ p₂ L c₁' c₂') :
    StaleSim p₁ p₂ total L n
      { s₁ with world := { s₁.world with cache := c₁' }, held := s₁.held.erase hd }
      { s₂ with world := { s₂.world with cache := c₂' }, held := s₂.held.erase hd } := by
  have hb := hs.budget
  have hi := hs.heldLoaded hd hm
  have hpos := holders_pos hm
  obtain ⟨hlast, -⟩ := (hs.loaded _ hi).count.last_iff hpos
  refine ⟨by omega, ⟨hc, hs.worlds.disk, hs.worlds.log⟩, by rw [hs.held], ?_, hs.noWrite, fun j hj => ?_,
    fun j hj => ?_⟩
  · intro hd' hmem
    exact hs.heldLoaded hd' (List.mem_of_mem_erase hmem)
  · refine (hs.loaded j hj).keep (putBlock_kept h₁ j) (putBlock_kept h₂ j) ?_
    have hcount := (hs.loaded j hj).count
    have hf₁ := (putBlock_kept h₁ j).flags
    have hf₂ := (putBlock_kept h₂ j).flags
    rw [holders_erase hm] at hcount
    change CountAgree ((s₁.held.erase hd).countP fun h => h.buff = j) n _ _
    rcases (putBlock_counts h₁).2 with ⟨hgt, hc₁⟩ | ⟨hgt, hc₁⟩
    · obtain ⟨-, hc₂⟩ := (putBlock_counts h₂).2.resolve_right fun h => h.1 (hlast.mp hgt)
      by_cases hji : j = hd.buff
      · rw [if_pos hji.symm] at hcount
        refine hcount.pred hf₁ ?_ hf₂ ?_
        · rw [hc₁, if_pos hji, hji]
        · rw [hc₂, if_pos hji, hji]
      · rw [if_neg (Ne.symm hji)] at hcount
        refine hcount.mono le_rfl (Nat.le_succ n) hf₁ ?_ hf₂ ?_
        · rw [hc₁, if_neg hji]
        · rw [hc₂, if_neg hji]
    · obtain ⟨-, hc₂⟩ := (putBlock_counts h₂).2.resolve_left fun h => hgt (hlast.mpr h.1)
      exact hcount.mono (Nat.le_add_right _ _) (Nat.le_succ n) hf₁ (hc₁ j) hf₂ (hc₂ j)
  · have hji : j ≠ hd.buff := fun h => hj (h ▸ hi)
    obtain ⟨⟨hf₁, hd₁, hc₁⟩, hf₂, hd₂, hc₂⟩ := hs.stale j hj
    have hcount : ∀ {c c' : Cache}, putBlock c hd.buff = .ok c' →
        (c'.pool j).count = (c.pool j).count := by
      intro c c' hput
      rcases (putBlock_counts hput).2 with ⟨-, h⟩ | ⟨-, h⟩
      · rw [h, if_neg hji]
      · exact h j
    exact ⟨⟨(putBlock_kept h₁ j).flags.trans hf₁, (putBlock_data h₁ j).2.2.2.trans hd₁,
        (hcount h₁).trans hc₁⟩,
      (putBlock_kept h₂ j).flags.trans hf₂, (putBlock_data h₂ j).2.2.2.trans hd₂,
        (hcount h₂).trans hc₂⟩

/-- A record that a miss may take reads the same in both executions. -/
lemma StaleSim.taken (hs : StaleSim p₁ p₂ total L n s₁ s₂)
    (hst : StaleAgree total i (p₁ i) (p₂ i)) :
    (s₁.world.cache.pool i).nextFree = (s₂.world.cache.pool i).nextFree ∧
      (s₁.world.cache.pool i).dirty ≠ 1 ∧ (s₂.world.cache.pool i).dirty ≠ 1 ∧
      CountAgree (holders s₁ i) n (s₁.world.cache.pool i) (s₂.world.cache.pool i) := by
  by_cases hi : i ∈ L
  · have hl := hs.loaded i hi
    exact ⟨hs.worlds.links.nextFree hi, hl.clean.1, hl.clean.2, hl.count⟩
  · obtain ⟨⟨hf₁, hd₁, hc₁⟩, hf₂, hd₂, hc₂⟩ := hs.stale i hi
    have hzero : holders s₁ i = 0 := by
      refine List.countP_eq_zero.mpr fun hd hmem => ?_
      simp only [decide_eq_true_eq]
      exact fun h => hi (h ▸ hs.heldLoaded hd hmem)
    refine ⟨?_, hd₁ ▸ hst.clean.1, hd₂ ▸ hst.clean.2, ?_⟩
    · rcases (hs.worlds.links.recs i).nextFree with h | ⟨-, hlast, h₁, h₂⟩
      · exact h
      · rw [h₁, h₂, (hst.nextFree hlast).1]
    · rw [hzero]
      exact hst.count.mono le_rfl hs.budget hf₁ hc₁ hf₂ hc₂

lemma WorldSim.load (hw : WorldSim p₁ p₂ L w₁' w₂') (h₁ : Miss fs w₁ i block dev w₁')
    (h₂ : Miss fs w₂ i block dev w₂') : WorldSim p₁ p₂ (insert i L) w₁' w₂' := by
  refine ⟨⟨hw.links.heads, hw.links.lru, hw.links.mru, fun j => ?_⟩, hw.disk, hw.log⟩
  have hj := hw.links.recs j
  refine ⟨hj.prevFree, ?_⟩
  by_cases hji : j = i
  · have e₁ := congrFun h₁.nextFree_eq j
    have e₂ := congrFun h₂.nextFree_eq j
    rw [hji, Function.update_self] at e₁ e₂
    rw [hji]
    exact Or.inl (e₁.trans e₂.symm)
  · rcases hj.nextFree with h | ⟨hL, hs⟩
    · exact Or.inl h
    · exact Or.inr ⟨fun hmem => hmem.elim hji hL, hs⟩

lemma LoadedRec.of_miss (hd : w₁'.disk = w₂'.disk) (hb : w₁.cache.buffHead = w₂.cache.buffHead)
    (h₁ : Miss fs w₁ i block dev w₁') (h₂ : Miss fs w₂ i block dev w₂')
    (hc : CountAgree h n (w₁'.cache.pool i) (w₂'.cache.pool i)) :
    LoadedRec h n (w₁'.cache.pool i) (w₂'.cache.pool i) := by
  obtain ⟨a₁, log₁, ha₁, -, -, hself₁⟩ := h₁.self
  obtain ⟨a₂, log₂, ha₂, -, -, hself₂⟩ := h₂.self
  obtain rfl : a₁ = a₂ := Except.ok.inj (ha₁.symm.trans ha₂)
  have e₁ := sameContent (content_eq_of_core hself₁)
  have e₂ := sameContent (content_eq_of_core hself₂)
  refine ⟨e₁.blockNum.trans e₂.blockNum.symm, e₁.dev.trans e₂.dev.symm, ?_, ?_, ⟨?_, ?_⟩, hc⟩
  · rw [e₁.buff, e₂.buff]
    exact congrFun (congrFun hd a₁) block
  · rw [e₁.next, e₂.next]
    exact congrFun hb (bucket block)
  · rw [e₁.dirty]
    exact cleaned_ne_one _
  · rw [e₂.dirty]
    exact cleaned_ne_one _

lemma StaleSim.miss (hs : StaleSim p₁ p₂ total L (n + 1) s₁ s₂)
    (hst : StaleAgree total i (p₁ i) (p₂ i)) (h₁ : Miss fs s₁.world i block dev w₁')
    (h₂ : Miss fs s₂.world i block dev w₂') (hw : WorldSim p₁ p₂ L w₁' w₂') :
    StaleSim p₁ p₂ total (insert i L) n
      { s₁ with world := w₁', held := ⟨i, block, dev⟩ :: s₁.held }
      { s₂ with world := w₂', held := ⟨i, block, dev⟩ :: s₂.held } := by
  have hb := hs.budget
  obtain ⟨-, hclean₁, -, hcount⟩ := hs.taken hst
  refine ⟨by omega, hw.load h₁ h₂, by rw [hs.held], ?_, ?_, fun j hj => ?_, fun j hj => ?_⟩
  · intro hd hmem
    rcases List.mem_cons.mp hmem with rfl | hmem
    · exact Set.mem_insert _ _
    · exact Set.mem_insert_of_mem _ (hs.heldLoaded hd hmem)
  · intro a lba
    obtain ⟨a', log, -, hwb, hlog, -⟩ := h₁.self
    dsimp only
    rw [hlog, (hwb.of_clean hclean₁).2]
    exact not_mem_log (by simp) hs.noWrite a lba
  · have hc₁ := h₁.counts j
    have hc₂ := h₂.counts j
    rw [holders_cons]
    by_cases hji : j = i
    · rw [if_pos hji.symm]
      rw [if_pos hji, ← hji] at hc₁ hc₂
      rw [← hji] at hcount h₁ h₂
      exact .of_miss hw.disk hs.worlds.links.heads h₁ h₂ (hcount.succ hc₁.1 hc₁.2 hc₂.1 hc₂.2)
    · rw [if_neg (Ne.symm hji)]
      rw [if_neg hji] at hc₁ hc₂
      have hl := hs.loaded j (hj.resolve_left hji)
      refine hl.keep (kept_of_content (content_eq_of_core (h₁.other j hji)))
        (kept_of_content (content_eq_of_core (h₂.other j hji))) ?_
      exact hl.count.mono le_rfl (Nat.le_succ n) hc₁.1 hc₁.2 hc₂.1 hc₂.2
  · have hji : j ≠ i := fun h => hj (Or.inl h)
    obtain ⟨⟨hf₁, hd₁, hc₁⟩, hf₂, hd₂, hc₂⟩ := hs.stale j fun h => hj (Or.inr h)
    have e₁ := sameContent (content_eq_of_core (h₁.other j hji))
    have e₂ := sameContent (content_eq_of_core (h₂.other j hji))
    exact ⟨⟨e₁.flags.trans hf₁, e₁.dirty.trans hd₁, e₁.count.trans hc₁⟩,
      e₂.flags.trans hf₂, e₂.dirty.trans hd₂, e₂.count.trans hc₂⟩

/-- A miss closes the chains over the record it takes. -/
lemma Enclosed.miss {w w' : World} (hm : Miss fs w i block dev w')
    (hheads : ∀ k, PtrIn (insert i L) (w.cache.buffHead k))
    (hnext : ∀ j ∈ L, PtrIn (insert i L) (Cache.next w.cache j)) :
    Enclosed (insert i L) w'.cache := by
  refine ⟨fun k => ?_, fun j hj => ?_⟩
  · rw [hm.heads, Function.update_apply]
    split
    · rintro _ ⟨⟩
      exact Set.mem_insert _ _
    · exact hheads k
  · rw [hm.next_eq, Function.update_apply]
    split
    · exact hheads _
    · next hji => exact hnext j (hj.resolve_left hji)

lemma getBlock_agree (fs : Devfs) (hs : StaleSim p₁ p₂ total L n s₁ s₂)
    (heq : findBlock s₁.world.cache block dev = findBlock s₂.world.cache block dev)
    (hfind : ∀ i, findBlock s₁.world.cache block dev = .ok (some i) → i ∈ L)
    (htake : ∀ i, Takes s₁ (.get block dev) i → StaleAgree total i (p₁ i) (p₂ i)) :
    Agree (fun r₁ r₂ => r₁.1 = r₂.1 ∧ WorldSim p₁ p₂ L r₁.2 r₂.2)
      (getBlock fs s₁.world block dev) (getBlock fs s₂.world block dev) := by
  rw [getBlock, getBlock, ← heq]
  refine (Agree.refl (findBlock s₁.world.cache block dev)).bind ?_
  rintro r _ hr - rfl
  cases r with
  | some i =>
    have hl := hs.loaded i (hfind i hr)
    exact getHit_agree hs.worlds (hfind i hr) hl.clean.1 hl.clean.2 hl.count.zero_iff
  | none =>
    refine getMiss_agree hs.worlds fun i hlru => ?_
    obtain ⟨hnf, hd₁, hd₂, -⟩ := hs.taken (htake i ⟨block, dev, rfl, hr, hlru⟩)
    exact ⟨hnf, hd₁, hd₂⟩

def Lockstep (p₁ p₂ : Buff → BufferHead) (total n : Nat) (s₁ s₂ : CacheState) : Prop :=
  ∃ L, StaleSim p₁ p₂ total L n s₁ s₂ ∧ Enclosed L s₁.world.cache

/-- Both calls fail, or both return and the executions go on in lockstep. -/
def StepTogether (fs : Devfs) (p₁ p₂ : Buff → BufferHead) (total n : Nat) (s₁ s₂ : CacheState)
    (op : CacheOp) : Prop :=
  (s₁.exec fs op = none ∧ s₂.exec fs op = none) ∨
    ∃ s₁' s₂', s₁.exec fs op = some s₁' ∧ s₂.exec fs op = some s₂' ∧ Lockstep p₁ p₂ total n s₁' s₂'

/-- The call is no write of a holder, and the stale bytes of a record it takes agree. -/
def StaleStep (p₁ p₂ : Buff → BufferHead) (total : Nat) (s : CacheState) (op : CacheOp) : Prop :=
  (∀ hd payload, op ≠ .modify hd payload) ∧
    ∀ i, Takes s op i → StaleAgree total i (p₁ i) (p₂ i)

lemma get_together (hs : StaleSim p₁ p₂ total L (n + 1) s₁ s₂)
    (heq : findBlock s₁.world.cache block dev = findBlock s₂.world.cache block dev)
    (hfind : ∀ i, findBlock s₁.world.cache block dev = .ok (some i) →
      i ∈ L ∧ Enclosed L s₁.world.cache)
    (htake : ∀ i, Takes s₁ (.get block dev) i → StaleAgree total i (p₁ i) (p₂ i))
    (hclose : ∀ i w', Miss fs s₁.world i block dev w' → Enclosed (insert i L) w'.cache) :
    StepTogether fs p₁ p₂ total n s₁ s₂ (.get block dev) := by
  have hag := getBlock_agree fs hs heq (fun i hi => (hfind i hi).1) htake
  simp only [StepTogether, CacheState.exec]
  generalize hg₁ : getBlock fs s₁.world block dev = x₁ at hag ⊢
  generalize hg₂ : getBlock fs s₂.world block dev = x₂ at hag ⊢
  cases hag with
  | error e => exact Or.inl ⟨rfl, rfl⟩
  | @ok r₁ r₂ h =>
    obtain ⟨i, w₁'⟩ := r₁
    obtain ⟨_, w₂'⟩ := r₂
    obtain ⟨rfl, hw⟩ := h
    refine Or.inr ⟨_, _, rfl, rfl, ?_⟩
    rcases getBlock_cases hg₁ with ⟨hf₁, -, hit₁⟩ | ⟨hf₁, miss₁⟩
    · rcases getBlock_cases hg₂ with ⟨-, -, hit₂⟩ | ⟨hf₂, -⟩
      · obtain ⟨hi, hL⟩ := hfind i hf₁
        refine ⟨L, hs.hit hi hit₁ hit₂ hw, ?_, ?_⟩
        · exact fun k => hit₁.heads.1 ▸ hL.heads k
        · exact fun j hj => hit₁.next_eq ▸ hL.next j hj
      · rw [← heq, hf₁] at hf₂
        cases hf₂
    · rcases getBlock_cases hg₂ with ⟨hf₂, -⟩ | ⟨-, miss₂⟩
      · rw [← heq, hf₁] at hf₂
        cases hf₂
      · have hst := htake i ⟨block, dev, rfl, hf₁, miss₁.lru⟩
        exact ⟨insert i L, hs.miss hst miss₁ miss₂ hw, hclose i w₁' miss₁⟩

lemma put_together (hs : StaleSim p₁ p₂ total L (n + 1) s₁ s₂) (hL : Enclosed L s₁.world.cache) :
    StepTogether fs p₁ p₂ total n s₁ s₂ (.put hd) := by
  simp only [StepTogether, CacheState.exec]
  by_cases hm : hd ∈ s₁.held
  · have hm₂ : hd ∈ s₂.held := hs.held ▸ hm
    simp only [if_pos hm, if_pos hm₂]
    obtain ⟨hlast, hdir⟩ := (hs.loaded _ (hs.heldLoaded hd hm)).count.last_iff (holders_pos hm)
    have hag := putBlock_agree hs.worlds.links hlast hdir
    generalize hp₁ : putBlock s₁.world.cache hd.buff = x₁ at hag ⊢
    generalize hp₂ : putBlock s₂.world.cache hd.buff = x₂ at hag ⊢
    cases hag with
    | error e => exact Or.inl ⟨rfl, rfl⟩
    | @ok c₁' c₂' hc =>
      refine Or.inr ⟨_, _, rfl, rfl, L, hs.put hm hp₁ hp₂ hc, ?_, ?_⟩
      · exact fun k => (putBlock_chains hp₁).2 ▸ hL.heads k
      · exact fun j hj => (putBlock_chains hp₁).1 ▸ hL.next j hj
  · have hm₂ : hd ∉ s₂.held := hs.held ▸ hm
    simp only [if_neg hm, if_neg hm₂]
    exact Or.inl ⟨trivial, trivial⟩

/-- One call in lockstep, once the chains hold loaded records only. -/
lemma step_together {op : CacheOp} (hR : Lockstep p₁ p₂ total (n + 1) s₁ s₂)
    (hop : StaleStep p₁ p₂ total s₁ op) : StepTogether fs p₁ p₂ total n s₁ s₂ op := by
  obtain ⟨L, hs, hL⟩ := hR
  obtain ⟨hop, htake⟩ := hop
  cases op with
  | get block dev =>
    obtain ⟨heq, hin⟩ := hs.findBlock_eq hL block dev
    refine get_together hs heq (fun i hi => ⟨hin i hi, hL⟩) htake fun i w' hm => ?_
    have hsub : ∀ p, PtrIn L p → PtrIn (insert i L) p :=
      fun p hp j hj => Set.mem_insert_of_mem _ (hp j hj)
    exact .miss hm (fun k => hsub _ (hL.heads k)) (fun j hj => hsub _ (hL.next j hj))
  | put hd => exact put_together hs hL
  | modify hd payload => exact absurd rfl (hop hd payload)

/-- What an observer sees of two executions in lockstep. -/
lemma Lockstep.visible (hR : Lockstep p₁ p₂ total n s₁ s₂) :
    s₁.visible = s₂.visible ∧ NoWrite s₁.visible := by
  obtain ⟨L, hs, -⟩ := hR
  refine ⟨?_, hs.noWrite⟩
  unfold CacheState.visible
  rw [← hs.worlds.log, ← hs.held]
  refine congrArg (Prod.mk _) (List.map_congr_left fun hd hmem => ?_)
  have hl := hs.loaded _ (hs.heldLoaded hd hmem)
  rw [hl.blockNum, hl.dev, hl.buff]

lemma Lockstep.observe_eq {ops : List CacheOp} (hR : Lockstep p₁ p₂ total ops.length s₁ s₂)
    (hC : ∀ p ∈ attempts (CacheState.exec fs) s₁ ops, StaleStep p₁ p₂ total p.1 p.2) :
    observe fs s₁ ops = observe fs s₂ ops ∧ ∀ v, some v ∈ observe fs s₁ ops → NoWrite v := by
  refine outputs_eq (R := Lockstep p₁ p₂ total) (C := StaleStep p₁ p₂ total) (P := NoWrite) ?_ ?_ hR
    hC
  · exact fun _ _ _ h => h.visible
  · exact fun _ _ _ _ h hop => step_together h hop

/-! ### After `init_buffer` -/

lemma linkBuffer_links (c : Cache) {current new : Buff} (hne : current ≠ new) (i : Buff) :
    ((linkBuffer c current new).pool i).next =
        (if i = current then .node new else (c.pool i).next) ∧
      ((linkBuffer c current new).pool i).nextFree =
        (if i = current then .node new else (c.pool i).nextFree) ∧
      ((linkBuffer c current new).pool i).prevFree =
        (if i = new then .node current else (c.pool i).prevFree) := by
  simp only [linkBuffer, modify_pool]
  by_cases hc : i = current
  · have hn : i ≠ new := hc ▸ hne
    simp [hc, hne]
  · by_cases hn : i = new
    · simp [hn, Ne.symm hne]
    · simp [hc, hn]

/-- The first `n` turns of the loop link the records up to `n` and no others. -/
lemma initBufferLoop_links (c : Cache) {n : Nat} (hn : n < maxBuffer) (i : Buff) :
    ((initBufferLoop n c).pool i).next =
        (if i.val < n then .node (Fin.ofNat maxBuffer (i.val + 1)) else (c.pool i).next) ∧
      ((initBufferLoop n c).pool i).nextFree =
        (if i.val < n then .node (Fin.ofNat maxBuffer (i.val + 1)) else (c.pool i).nextFree) ∧
      ((initBufferLoop n c).pool i).prevFree =
        (if 0 < i.val ∧ i.val ≤ n then .node (Fin.ofNat maxBuffer (i.val - 1))
          else (c.pool i).prevFree) := by
  induction n with
  | zero =>
    refine ⟨rfl, rfl, ?_⟩
    rw [if_neg (by omega)]
    rfl
  | succ n ih =>
    obtain ⟨hnext, hfree, hprev⟩ := ih (by omega)
    have hcur : (Fin.ofNat maxBuffer n).val = n := Nat.mod_eq_of_lt (by omega)
    have hnew : (Fin.ofNat maxBuffer (n + 1)).val = n + 1 := Nat.mod_eq_of_lt hn
    have hne : Fin.ofNat maxBuffer n ≠ Fin.ofNat maxBuffer (n + 1) := by
      rw [Ne, Fin.ext_iff, hcur, hnew]
      omega
    obtain ⟨hl, hlf, hlp⟩ := linkBuffer_links (initBufferLoop n c) hne i
    simp only [Fin.ext_iff, hcur, hnew] at hl hlf hlp
    rw [initBufferLoop, hl, hlf, hlp, hnext, hfree, hprev]
    refine ⟨?_, ?_, ?_⟩
    · by_cases hi : i.val = n
      · rw [if_pos hi, if_pos (by omega), hi]
      · rw [if_neg hi]
        exact if_congr (by omega) rfl rfl
    · by_cases hi : i.val = n
      · rw [if_pos hi, if_pos (by omega), hi]
      · rw [if_neg hi]
        exact if_congr (by omega) rfl rfl
    · by_cases hi : i.val = n + 1
      · rw [if_pos hi, if_pos (by omega), hi, Nat.add_sub_cancel]
      · rw [if_neg hi]
        exact if_congr (by omega) rfl rfl

/-- Of the links, only the forward ones of the last record stay stale. -/
lemma initBuffer_links (prior : Buff → BufferHead) (i : Buff) :
    ((initBuffer prior).pool i).next = (if i = lastBuff then (prior i).next
        else .node (Fin.ofNat maxBuffer (i.val + 1))) ∧
      ((initBuffer prior).pool i).nextFree = (if i = lastBuff then (prior i).nextFree
        else .node (Fin.ofNat maxBuffer (i.val + 1))) ∧
      ((initBuffer prior).pool i).prevFree =
        (if i = 0 then .null else .node (Fin.ofNat maxBuffer (i.val - 1))) := by
  have hlt : i.val < 100 := i.isLt
  have hlast : i = lastBuff ↔ ¬i.val < maxBuffer - 1 := by
    rw [Fin.ext_iff]
    change i.val = 99 ↔ ¬i.val < 99
    omega
  have hzero : i = 0 ↔ ¬(0 < i.val ∧ i.val ≤ maxBuffer - 1) := by
    rw [Fin.ext_iff]
    change i.val = 0 ↔ ¬(0 < i.val ∧ i.val ≤ 99)
    omega
  unfold initBuffer
  dsimp only
  obtain ⟨hnext, hfree, hprev⟩ := initBufferLoop_links
    (((⟨prior, Function.update (fun _ => .null) 0 (.node 0), .null, .node 0⟩ : Cache).modify 0
      fun b => { b with prev := .null }).modify 0 fun b => { b with prevFree := .null })
    (show maxBuffer - 1 < maxBuffer by decide) i
  rw [hnext, hfree, hprev]
  refine ⟨?_, ?_, ?_⟩
  · rw [if_congr hlast rfl rfl, ite_not]
    rw [modify_keep BufferHead.next (by intro b; rfl), modify_keep BufferHead.next (by intro b; rfl)]
  · rw [if_congr hlast rfl rfl, ite_not]
    rw [modify_keep BufferHead.nextFree (by intro b; rfl),
      modify_keep BufferHead.nextFree (by intro b; rfl)]
  · by_cases hi : i = 0
    · rw [if_pos hi, if_neg (hzero.mp hi), modify_pool, if_pos hi]
    · rw [if_neg hi, if_pos (not_not.mp (hi ∘ hzero.mpr))]

lemma start_untouched (prior : Buff → BufferHead) (i : Buff) :
    Untouched ((initBuffer prior).pool i) (prior i) ∧
      ((initBuffer prior).pool i).blockNum = (prior i).blockNum ∧
      ((initBuffer prior).pool i).dev = (prior i).dev := by
  have h := initBuffer_unlinked prior i
  unfold unlinked at h
  simp only [BufferHead.mk.injEq] at h
  obtain ⟨hf, hb, hd, hdev, hc, -⟩ := h
  exact ⟨⟨hf, hd, hc⟩, hb, hdev⟩

variable (p₁ p₂ : Buff → BufferHead) (disk : UInt32 → UInt32 → Payload)

lemma startState_sim (total : Nat) :
    StaleSim p₁ p₂ total ∅ total (startState p₁ disk) (startState p₂ disk) := by
  refine ⟨le_rfl, ⟨⟨?_, ?_, rfl, fun i => ?_⟩, rfl, rfl⟩, rfl, ?_, ?_, ?_, ?_⟩
  · exact (initBuffer_heads p₁).1.trans (initBuffer_heads p₂).1.symm
  · exact (initBuffer_heads p₁).2.trans (initBuffer_heads p₂).2.symm
  · obtain ⟨-, hf₁, hp₁⟩ := initBuffer_links p₁ i
    obtain ⟨-, hf₂, hp₂⟩ := initBuffer_links p₂ i
    refine ⟨hp₁.trans hp₂.symm, ?_⟩
    change ((initBuffer p₁).pool i).nextFree = ((initBuffer p₂).pool i).nextFree ∨ _
    by_cases hi : i = lastBuff
    · rw [if_pos hi] at hf₁ hf₂
      exact Or.inr ⟨Set.notMem_empty i, hi, hf₁, hf₂⟩
    · rw [if_neg hi] at hf₁ hf₂
      exact Or.inl (hf₁.trans hf₂.symm)
  · intro hd hmem
    cases hmem
  · intro a lba hmem
    cases hmem
  · intro i hi
    exact absurd hi (Set.notMem_empty i)
  · intro i _
    exact ⟨(start_untouched p₁ i).1, (start_untouched p₂ i).1⟩

/-- Nothing is loaded at first, and only record 0 heads a chain. -/
lemma startState_encloses {w' : World} {fs : Devfs} {i : Buff} {block : UInt32} {dev : UInt16}
    (hm : Miss fs (startState p₁ disk).world i block dev w') : Enclosed (insert i ∅) w'.cache := by
  refine .miss hm (fun k => ?_) fun j hj => absurd hj (Set.notMem_empty j)
  have hi : i = 0 := Ptr.node.inj (hm.lru.symm.trans (initBuffer_heads p₁).2)
  change PtrIn (insert i ∅) ((initBuffer p₁).buffHead k)
  rw [(initBuffer_heads p₁).1, Function.update_apply]
  split
  · rintro _ ⟨⟩
    exact Or.inl hi.symm
  · rintro _ ⟨⟩

/-- The first search passes stale records only. -/
lemma startState_find {ops : List CacheOp} {block : UInt32} {dev : UInt16}
    (hf : FirstSearchAgrees p₁ p₂ ops) (hop : ops.head? = some (.get block dev)) :
    findBlock (initBuffer p₁) block dev = findBlock (initBuffer p₂) block dev ∧
      ∀ i, findBlock (initBuffer p₁) block dev ≠ .ok (some i) := by
  unfold findBlock
  rw [(initBuffer_heads p₁).1, (initBuffer_heads p₂).1, Function.update_apply]
  split
  · next hb =>
    obtain ⟨⟨hlink, -⟩, hlab⟩ := hf block dev hop hb
    have hno : ∀ i, ¬Labelled ((initBuffer p₁).pool i) block dev ∧
        ¬Labelled ((initBuffer p₂).pool i) block dev := by
      intro i
      obtain ⟨-, hb₁, hd₁⟩ := start_untouched p₁ i
      obtain ⟨-, hb₂, hd₂⟩ := start_untouched p₂ i
      rw [Labelled, Labelled, hb₁, hd₁, hb₂, hd₂]
      exact hlab i
    have hnext : ∀ i, Cache.next (initBuffer p₁) i = Cache.next (initBuffer p₂) i := by
      intro i
      rw [Cache.next, Cache.next, (initBuffer_links p₁ i).1, (initBuffer_links p₂ i).1]
      split
      · next hi =>
        rw [hi]
        exact hlink
      · rfl
    have hsearch : searchChain (initBuffer p₁).pool block dev (maxBuffer + 1) (.node 0) =
        searchChain (initBuffer p₂).pool block dev (maxBuffer + 1) (.node 0) :=
      (searchChain_congr (fun i _ => iff_of_false (hno i).1 (hno i).2) (fun i _ => hnext i)
        (fun i _ j _ => Set.mem_univ j) (fun j _ => Set.mem_univ j)).1
    refine ⟨hsearch, fun i hi => ?_⟩
    exact (hno i).1 (searchChain_some hi).1
  · have hnull : ∀ pool, searchChain pool block dev (maxBuffer + 1) .null = .ok none := fun _ => rfl
    rw [hnull, hnull]
    refine ⟨rfl, fun i hi => ?_⟩
    cases hi

lemma first_together {fs : Devfs} {op : CacheOp} {ops : List CacheOp}
    (hf : FirstSearchAgrees p₁ p₂ (op :: ops))
    (hop : StaleStep p₁ p₂ (ops.length + 1) (startState p₁ disk) op) :
    StepTogether fs p₁ p₂ (ops.length + 1) ops.length (startState p₁ disk) (startState p₂ disk)
      op := by
  obtain ⟨hop, htake⟩ := hop
  cases op with
  | get block dev =>
    obtain ⟨heq, hno⟩ := startState_find p₁ p₂ hf rfl
    refine get_together (startState_sim p₁ p₂ disk _) heq (fun i hi => absurd hi (hno i)) htake ?_
    exact fun i w' hm => startState_encloses p₁ disk hm
  | put hd => exact Or.inl ⟨rfl, rfl⟩
  | modify hd payload => exact absurd rfl (hop hd payload)

/-- Two executions of the same `get_block` and `put_block` calls, over two prior contents of the
memory `init_buffer` gets, do the same transfers, write nothing to the disk and show their
callers the same labels and payloads, if the stale bytes of the records that a miss takes agree
where they are read, no stale link that is followed leads out of the records, and a first search
of bucket 0 meets no stale label. -/
theorem stale_bytes_unseen (fs : Devfs) (p₁ p₂ : Buff → BufferHead)
    (disk : UInt32 → UInt32 → Payload) (ops : List CacheOp)
    (hops : ∀ op ∈ ops, ∀ hd payload, op ≠ .modify hd payload)
    (hfirst : FirstSearchAgrees p₁ p₂ ops)
    (htake : ∀ p ∈ attempts (CacheState.exec fs) (startState p₁ disk) ops, ∀ i, Takes p.1 p.2 i →
      StaleAgree ops.length i (p₁ i) (p₂ i)) :
    observe fs (startState p₁ disk) ops = observe fs (startState p₂ disk) ops ∧
      ∀ v, some v ∈ observe fs (startState p₁ disk) ops → NoWrite v := by
  cases ops with
  | nil => simp [observe, outputs]
  | cons op ops =>
    have hop : StaleStep p₁ p₂ (ops.length + 1) (startState p₁ disk) op :=
      ⟨hops op List.mem_cons_self, htake (startState p₁ disk, op) (by simp [attempts])⟩
    have hfirst' : StepTogether fs p₁ p₂ (ops.length + 1) ops.length (startState p₁ disk)
        (startState p₂ disk) op := first_together p₁ p₂ disk hfirst hop
    rcases hfirst' with ⟨h₁, h₂⟩ | ⟨s₁, s₂, h₁, h₂, hR⟩
    · simp [observe, outputs, h₁, h₂]
    · have hrest : ∀ p ∈ attempts (CacheState.exec fs) s₁ ops,
          StaleStep p₁ p₂ (ops.length + 1) p.1 p.2 := by
        intro p hp
        refine ⟨hops p.2 (List.mem_cons_of_mem _ (mem_of_attempts hp)), htake p ?_⟩
        simp [attempts, h₁, hp]
      obtain ⟨heq, hno⟩ := hR.observe_eq hrest
      obtain ⟨hv, hw⟩ := hR.visible
      unfold observe at heq hno ⊢
      simp only [outputs, h₁, h₂]
      refine ⟨by rw [hv, heq], fun v hmem => ?_⟩
      rcases List.mem_cons.mp hmem with hhead | hmem
      · rw [Option.some.inj hhead]
        exact hw
      · exact hno v hmem

/-- Stale labels and payloads, and no class, count or dirty byte. -/
def staleLabels : Buff → BufferHead :=
  fun _ => { zeroed with blockNum := 9, dev := 0x300, buff := fun _ => 0xEE }

/-- Block 256 is loaded, released and found again over stale payloads and labels, and block 9
misses although every record that was never loaded is labelled with it. -/
theorem stale_labels_unseen :
    observe oneDisk (startState staleLabels numberedDisk)
        [.get 256 0x300, .put ⟨0, 256, 0x300⟩, .get 256 0x300, .get 9 0x300] =
      observe oneDisk (startState (fun _ => zeroed) numberedDisk)
        [.get 256 0x300, .put ⟨0, 256, 0x300⟩, .get 256 0x300, .get 9 0x300] ∧
    ∃ v, some v ∈ observe oneDisk (startState staleLabels numberedDisk)
        [.get 256 0x300, .put ⟨0, 256, 0x300⟩, .get 256 0x300, .get 9 0x300] ∧
      v.1 = [.read 0x1000 9, .printhex32 256, .read 0x1000 256] ∧ NoWrite v := by
  have hobs := stale_bytes_unseen oneDisk staleLabels (fun _ => zeroed) numberedDisk
    [.get 256 0x300, .put ⟨0, 256, 0x300⟩, .get 256 0x300, .get 9 0x300] (by simp)
    (by
      rintro block dev ⟨⟩ -
      exact ⟨⟨rfl, by decide⟩, by decide⟩)
    (fun _ _ i _ => ⟨(by decide : (0 : UInt8) ≠ 1 ∧ (0 : UInt8) ≠ 1),
      fun _ => ⟨rfl, (by decide : (Ptr.null : Ptr Buff) ≠ .wild)⟩, Or.inl ⟨rfl, Iff.rfl⟩⟩)
  have hlog : ((observe oneDisk (startState staleLabels numberedDisk)
      [.get 256 0x300, .put ⟨0, 256, 0x300⟩, .get 256 0x300, .get 9 0x300]).map
        (Option.map Prod.fst)).getLast? =
      some (some [.read 0x1000 9, .printhex32 256, .read 0x1000 256]) := by
    decide +kernel
  refine ⟨hobs.1, ?_⟩
  obtain ⟨o, hmem, ho⟩ := List.mem_map.mp (List.mem_of_getLast? hlog)
  obtain ⟨v, rfl, hv⟩ := Option.map_eq_some_iff.mp ho
  exact ⟨v, hmem, hv, hobs.2 v hmem⟩

/-- A stale dirty byte in the first record. -/
def staleDirty : Buff → BufferHead := fun i => if i = 0 then { zeroed with dirty := 1 } else zeroed

/-- The first miss writes the stale payload of the first record to the sector of its stale
label. -/
theorem stale_dirty_written :
    observe oneDisk (startState staleDirty numberedDisk) [.get 5 0x300] ≠
        observe oneDisk (startState (fun _ => zeroed) numberedDisk) [.get 5 0x300] ∧
      ∃ v, some v ∈ observe oneDisk (startState staleDirty numberedDisk) [.get 5 0x300] ∧
        v.1 = [.read 0x1000 5, .write 0x1000 0] ∧ ¬NoWrite v := by
  have hlog : (observe oneDisk (startState staleDirty numberedDisk) [.get 5 0x300]).map
      (Option.map Prod.fst) = [some [.read 0x1000 5, .write 0x1000 0]] := by
    decide +kernel
  have hlog₀ : (observe oneDisk (startState (fun _ => zeroed) numberedDisk) [.get 5 0x300]).map
      (Option.map Prod.fst) = [some [.read 0x1000 5]] := by
    decide +kernel
  refine ⟨fun h => ?_, ?_⟩
  · rw [h, hlog₀] at hlog
    cases hlog
  · have hmem : some [Event.read 0x1000 5, .write 0x1000 0] ∈
        (observe oneDisk (startState staleDirty numberedDisk) [.get 5 0x300]).map
          (Option.map Prod.fst) := by
      rw [hlog]
      exact List.mem_cons_self
    obtain ⟨o, hmem, ho⟩ := List.mem_map.mp hmem
    obtain ⟨v, rfl, hv⟩ := Option.map_eq_some_iff.mp ho
    refine ⟨v, hmem, hv, fun hno => hno 0x1000 0 ?_⟩
    rw [hv]
    decide

end SaxonOS.Proofs
