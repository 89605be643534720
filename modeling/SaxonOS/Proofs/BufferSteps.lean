import SaxonOS.Buffer
import SaxonOS.Lib.Run

/-!
# What one cache call does

`get_block` is a hit or a miss and `put_block` a decrement or an insertion. `Hit`, `Miss`
and `putBlock_cases` say all that each of them changes, up to the back links `prev` and
`prev_free`; every invariant of the cache is derived from these.
-/

namespace SaxonOS.Proofs
open Lib

variable {fs : Devfs} {w w' : World} {c c' : Cache} {i j k : Buff} {block : UInt32} {dev : UInt16}
  {p : Ptr Buff} {f : BufferHead → BufferHead}

lemma modify_pool (c : Cache) (i : Buff) (f : BufferHead → BufferHead) (j : Buff) :
    (c.modify i f).pool j = if j = i then f (c.pool i) else c.pool j := by
  simp [Cache.modify, Function.update_apply]

/-- A store keeps what the stored field has no part in. -/
lemma modify_keep {β : Type} (g : BufferHead → β) (hg : ∀ b, g (f b) = g b) (c : Cache)
    (i j : Buff) : g ((c.modify i f).pool j) = g (c.pool j) := by
  rw [modify_pool]
  split
  · next h => rw [hg, h]
  · rfl

lemma store_ok (h : c.store p f = .ok c') : ∃ k, p = .node k ∧ c' = c.modify k f := by
  cases p with
  | null => cases h
  | wild => cases h
  | node k => exact ⟨k, rfl, (Except.ok.inj h).symm⟩

lemma store_heads (h : c.store p f = .ok c') :
    c'.buffHead = c.buffHead ∧ c'.lruBuff = c.lruBuff ∧ c'.mruBuff = c.mruBuff := by
  obtain ⟨k, -, rfl⟩ := store_ok h
  exact ⟨rfl, rfl, rfl⟩

lemma store_keep {β : Type} (g : BufferHead → β) (hg : ∀ b, g (f b) = g b)
    (h : c.store p f = .ok c') (j : Buff) : g (c'.pool j) = g (c.pool j) := by
  obtain ⟨k, -, rfl⟩ := store_ok h
  exact modify_keep g hg c k j

lemma storeIf_ok (h : c.storeIf p f = .ok c') : c' = c ∨ ∃ k, c' = c.modify k f := by
  rw [Cache.storeIf] at h
  split at h
  · exact Or.inl (Except.ok.inj h).symm
  · obtain ⟨k, -, hk⟩ := store_ok h
    exact Or.inr ⟨k, hk⟩

lemma storeIf_heads (h : c.storeIf p f = .ok c') :
    c'.buffHead = c.buffHead ∧ c'.lruBuff = c.lruBuff ∧ c'.mruBuff = c.mruBuff := by
  rcases storeIf_ok h with rfl | ⟨k, rfl⟩
  · exact ⟨rfl, rfl, rfl⟩
  · exact ⟨rfl, rfl, rfl⟩

lemma storeIf_keep {β : Type} (g : BufferHead → β) (hg : ∀ b, g (f b) = g b)
    (h : c.storeIf p f = .ok c') (j : Buff) : g (c'.pool j) = g (c.pool j) := by
  rcases storeIf_ok h with rfl | ⟨k, rfl⟩
  · rfl
  · exact modify_keep g hg c k j

/-- A record without its back links. -/
def core (b : BufferHead) : BufferHead := { b with prev := .null, prevFree := .null }

/-- A record without its back links and its place in the free list. -/
def content (b : BufferHead) : BufferHead := { core b with nextFree := .null }

structure SameContent (b b' : BufferHead) : Prop where
  flags : b.flags = b'.flags
  blockNum : b.blockNum = b'.blockNum
  dirty : b.dirty = b'.dirty
  dev : b.dev = b'.dev
  count : b.count = b'.count
  next : b.next = b'.next
  buff : b.buff = b'.buff

lemma sameContent {b b' : BufferHead} (h : content b = content b') : SameContent b b' := by
  cases b
  cases b'
  cases h
  exact ⟨rfl, rfl, rfl, rfl, rfl, rfl, rfl⟩

lemma content_eq_of_core {b b' : BufferHead} (h : core b = core b') : content b = content b' := by
  rw [content, content, h]

lemma nextFree_of_core {b b' : BufferHead} (h : core b = core b') : b.nextFree = b'.nextFree := by
  cases b
  cases b'
  cases h
  rfl

def writeSector (disk : UInt32 → UInt32 → Payload) (bdev lba : UInt32) (src : Payload) :
    UInt32 → UInt32 → Payload :=
  Function.update disk bdev (Function.update (disk bdev) lba src)

/-- What a record's dirty byte is after `writeBack`. -/
def cleaned (dirty : UInt8) : UInt8 := if dirty = 1 then 0 else dirty

lemma cleaned_ne_one (dirty : UInt8) : cleaned dirty ≠ 1 := by
  rw [cleaned]
  split
  · decide
  · assumption

/-- The disk and the log of `w'` are those of `w`, or, if the record was dirty, those after
its payload went to the sector. -/
def WroteBack (fs : Devfs) (w : World) (i : Buff) (dev : UInt16) (block : UInt32)
    (disk : UInt32 → UInt32 → Payload) (log : List Event) : Prop :=
  ((w.cache.pool i).dirty ≠ 1 ∧ disk = w.disk ∧ log = w.log) ∨
    ((w.cache.pool i).dirty = 1 ∧ ∃ a, findBdev fs dev = .ok a ∧
      disk = writeSector w.disk a block (w.cache.pool i).buff ∧ log = .write a block :: w.log)

lemma writeBack_ok (h : writeBack fs w i dev block = .ok w') :
    w'.cache.buffHead = w.cache.buffHead ∧ w'.cache.lruBuff = w.cache.lruBuff ∧
      w'.cache.mruBuff = w.cache.mruBuff ∧
      (∀ j, w'.cache.pool j = if j = i then
        { w.cache.pool i with dirty := cleaned (w.cache.pool i).dirty } else w.cache.pool j) ∧
      WroteBack fs w i dev block w'.disk w'.log := by
  rw [writeBack] at h
  split at h
  · next hd =>
    obtain ⟨a, ha, h⟩ := bind_eq_ok h
    obtain rfl := Except.ok.inj h
    refine ⟨rfl, rfl, rfl, fun j => ?_, Or.inr ⟨hd, a, ha, rfl, rfl⟩⟩
    rw [cleaned, if_pos hd]
    exact modify_pool w.cache i (fun b => { b with dirty := 0 }) j
  · next hd =>
    obtain rfl := Except.ok.inj h
    refine ⟨rfl, rfl, rfl, fun j => ?_, Or.inl ⟨hd, rfl, rfl⟩⟩
    rw [cleaned, if_neg hd]
    split
    · next hj => rw [hj]
    · rfl

/-! ### Hits -/

/-- A `get_block` that finds the record `i`. -/
structure Hit (fs : Devfs) (w : World) (i : Buff) (block : UInt32) (dev : UInt16) (w' : World) :
    Prop where
  heads : w'.cache.buffHead = w.cache.buffHead ∧ w'.cache.lruBuff = w.cache.lruBuff ∧
    w'.cache.mruBuff = w.cache.mruBuff
  other : ∀ j, j ≠ i → content (w'.cache.pool j) = content (w.cache.pool j)
  self : content (w'.cache.pool i) = content { w.cache.pool i with
    count := (w.cache.pool i).count + 1
    dirty := if (w.cache.pool i).count = 0 then cleaned (w.cache.pool i).dirty
      else (w.cache.pool i).dirty }
  free : (w.cache.pool i).count ≠ 0 → ∀ j, core (w'.cache.pool j) =
    if j = i then core { w.cache.pool i with count := (w.cache.pool i).count + 1 }
    else core (w.cache.pool j)
  io : ((w.cache.pool i).count ≠ 0 ∧ w'.disk = w.disk ∧ w'.log = .printhex32 block :: w.log) ∨
    ((w.cache.pool i).count = 0 ∧
      WroteBack fs { w with log := .printhex32 block :: w.log } i dev block w'.disk w'.log)

lemma WroteBack.congr {w₁ w₂ : World} {disk : UInt32 → UInt32 → Payload} {log : List Event}
    (h : WroteBack fs w₁ i dev block disk log)
    (hd : (w₁.cache.pool i).dirty = (w₂.cache.pool i).dirty)
    (hp : (w₁.cache.pool i).buff = (w₂.cache.pool i).buff) (hdisk : w₁.disk = w₂.disk)
    (hlog : w₁.log = w₂.log) : WroteBack fs w₂ i dev block disk log := by
  unfold WroteBack at h ⊢
  rw [hd, hp, hdisk, hlog] at h
  exact h

lemma WroteBack.of_clean {disk : UInt32 → UInt32 → Payload} {log : List Event}
    (h : WroteBack fs w i dev block disk log) (hd : (w.cache.pool i).dirty ≠ 1) :
    disk = w.disk ∧ log = w.log := by
  rcases h with ⟨-, hdisk, hlog⟩ | ⟨h1, -⟩
  · exact ⟨hdisk, hlog⟩
  · exact absurd h1 hd

lemma not_mem_log {e : Event} {log : List Event} (he : ∀ a lba, e ≠ .write a lba)
    (h : ∀ a lba, Event.write a lba ∉ log) (a lba : UInt32) : Event.write a lba ∉ e :: log := by
  intro hm
  rcases List.mem_cons.mp hm with hm | hm
  · exact he a lba hm.symm
  · exact h a lba hm

lemma unlinkFree_ok (h : unlinkFree fs w i block dev = .ok w') :
    (w'.cache.buffHead = w.cache.buffHead ∧ w'.cache.lruBuff = w.cache.lruBuff ∧
      w'.cache.mruBuff = w.cache.mruBuff) ∧
      (∀ j, content (w'.cache.pool j) = if j = i then
        content { w.cache.pool i with dirty := cleaned (w.cache.pool i).dirty }
        else content (w.cache.pool j)) ∧
      WroteBack fs w i dev block w'.disk w'.log := by
  obtain ⟨c₁, h₁, h⟩ := bind_eq_ok h
  obtain ⟨c₂, h₂, h⟩ := bind_eq_ok h
  obtain ⟨c₃, hc₃⟩ : ∃ c₃, c₃ = (c₂.modify i fun b => { b with nextFree := .null }).modify i
      fun b => { b with prevFree := .null } := ⟨_, rfl⟩
  change writeBack fs { w with cache := ((c₂.modify i fun b => { b with nextFree := .null }).modify i
      fun b => { b with prevFree := .null }) } i dev block = .ok w' at h
  rw [← hc₃] at h
  have hkeep : ∀ j, content (c₃.pool j) = content (w.cache.pool j) := by
    intro j
    rw [hc₃]
    refine (modify_keep content ?_ _ i j).trans ((modify_keep content ?_ _ i j).trans
      ((storeIf_keep content ?_ h₂ j).trans (storeIf_keep content ?_ h₁ j)))
    all_goals
      intro b
      rfl
  obtain ⟨hb₁, hl₁, hm₁⟩ := storeIf_heads h₁
  obtain ⟨hb₂, hl₂, hm₂⟩ := storeIf_heads h₂
  obtain ⟨hb, hl, hm, hpool, hio⟩ := writeBack_ok h
  rw [hc₃] at hb hl hm
  refine ⟨⟨hb.trans (hb₂.trans hb₁), hl.trans (hl₂.trans hl₁), hm.trans (hm₂.trans hm₁)⟩, ?_, ?_⟩
  · intro j
    rw [hpool]
    by_cases hj : j = i
    · rw [if_pos hj, if_pos hj]
      change { content (c₃.pool i) with dirty := cleaned (content (c₃.pool i)).dirty } =
        { content (w.cache.pool i) with dirty := cleaned (content (w.cache.pool i)).dirty }
      rw [hkeep]
    · rw [if_neg hj, if_neg hj]
      exact hkeep j
  · have hi := sameContent (hkeep i)
    exact hio.congr hi.dirty hi.buff rfl rfl

lemma getHit_ok (h : getHit fs w i block dev = .ok (k, w')) : k = i ∧ Hit fs w i block dev w' := by
  obtain ⟨w₁, h₁, h⟩ := bind_eq_ok h
  obtain ⟨rfl, rfl⟩ := Prod.mk.inj (Except.ok.inj h)
  refine ⟨rfl, ?_⟩
  by_cases hc : (w.cache.pool i).count = 0
  · rw [if_pos hc] at h₁
    obtain ⟨hheads, hcontent, hio⟩ := unlinkFree_ok h₁
    refine ⟨hheads, ?_, ?_, fun h => absurd hc h, Or.inr ⟨hc, hio⟩⟩
    · intro j hj
      rw [modify_pool, if_neg hj, hcontent, if_neg hj]
    · have hi := hcontent i
      rw [if_pos rfl] at hi
      rw [modify_pool, if_pos rfl, if_pos hc]
      change { content (w₁.cache.pool i) with count := (content (w₁.cache.pool i)).count + 1 } = _
      rw [hi]
      rfl
  · rw [if_neg hc] at h₁
    obtain rfl := Except.ok.inj h₁
    refine ⟨⟨rfl, rfl, rfl⟩, ?_, ?_, ?_, Or.inl ⟨hc, rfl, rfl⟩⟩
    · intro j hj
      rw [modify_pool, if_neg hj]
    · rw [modify_pool, if_pos rfl, if_neg hc]
    · intro _ j
      rw [modify_pool]
      split
      · rfl
      · rfl

/-! ### Misses -/

/-- A `get_block` that takes the record `i` from the front of the free list. -/
structure Miss (fs : Devfs) (w : World) (i : Buff) (block : UInt32) (dev : UInt16) (w' : World) :
    Prop where
  lru : w.cache.lruBuff = .node i
  rest : w'.cache.lruBuff = (w.cache.pool i).nextFree ∧ w'.cache.mruBuff = w.cache.mruBuff
  heads : w'.cache.buffHead = Function.update w.cache.buffHead (bucket block) (.node i)
  other : ∀ j, j ≠ i → core (w'.cache.pool j) = core (w.cache.pool j)
  self : ∃ a log, findBdev fs dev = .ok a ∧
    WroteBack fs w i (w.cache.pool i).dev (w.cache.pool i).blockNum w'.disk log ∧
    w'.log = .read a block :: log ∧
    core (w'.cache.pool i) = core { w.cache.pool i with
      blockNum := block
      dirty := cleaned (w.cache.pool i).dirty
      dev := dev
      count := (w.cache.pool i).count + 1
      next := w.cache.buffHead (bucket block)
      nextFree := .null
      buff := w'.disk a block }

lemma loadBlock_ok (h : loadBlock fs w i block dev = .ok w') :
    (w'.cache.buffHead = w.cache.buffHead ∧ w'.cache.lruBuff = w.cache.lruBuff ∧
      w'.cache.mruBuff = w.cache.mruBuff) ∧
      (∀ j, j ≠ i → w'.cache.pool j = w.cache.pool j) ∧
      ∃ a log, findBdev fs dev = .ok a ∧
        WroteBack fs w i (w.cache.pool i).dev (w.cache.pool i).blockNum w'.disk log ∧
        w'.log = .read a block :: log ∧
        w'.cache.pool i = { w.cache.pool i with
          blockNum := block
          dirty := cleaned (w.cache.pool i).dirty
          dev := dev
          count := (w.cache.pool i).count + 1
          buff := w'.disk a block } := by
  obtain ⟨w₁, h₁, h⟩ := bind_eq_ok h
  obtain ⟨a, ha, h⟩ := bind_eq_ok h
  obtain rfl := Except.ok.inj h
  obtain ⟨hb, hl, hm, hpool, hio⟩ := writeBack_ok h₁
  refine ⟨⟨hb, hl, hm⟩, ?_, a, w₁.log, ha, hio, rfl, ?_⟩
  · intro j hj
    simp only [ataRead, modify_pool, if_neg hj, hpool]
  · simp only [ataRead, modify_pool, if_pos, hpool]

lemma linkFront_ok (h : linkFront c i block = .ok c') :
    c'.buffHead = Function.update c.buffHead (bucket block) (.node i) ∧ c'.lruBuff = c.lruBuff ∧
      c'.mruBuff = c.mruBuff ∧ ∀ j, core (c'.pool j) = if j = i then
        core { c.pool i with next := c.buffHead (bucket block), nextFree := .null }
        else core (c.pool j) := by
  obtain ⟨c₁, h₁, h⟩ := bind_eq_ok h
  obtain rfl := Except.ok.inj h
  obtain ⟨hb, hl, hm⟩ := storeIf_heads h₁
  have hcore := storeIf_keep core (by intro b; rfl) h₁
  refine ⟨?_, hl, hm, fun j => ?_⟩
  · simp only [Cache.modify, hb]
  · by_cases hj : j = i
    · rw [if_pos hj, hj]
      simp only [modify_pool, if_pos]
      change { core (c₁.pool i) with nextFree := .null } = _
      rw [hcore, modify_pool, if_pos rfl]
      rfl
    · rw [if_neg hj]
      simp only [modify_pool, if_neg hj]
      rw [hcore, modify_pool, if_neg hj]

lemma getMiss_ok (h : getMiss fs w block dev = .ok (i, w')) : Miss fs w i block dev w' := by
  rw [getMiss] at h
  split at h
  · cases h
  · cases h
  · next k hk =>
    obtain ⟨c₁, h₁, h⟩ := bind_eq_ok h
    obtain ⟨w₂, h₂, h⟩ := bind_eq_ok h
    obtain ⟨c₃, h₃, h⟩ := bind_eq_ok h
    obtain ⟨rfl, rfl⟩ := Prod.mk.inj (Except.ok.inj h)
    obtain ⟨hb₁, hl₁, hm₁⟩ := storeIf_heads h₁
    have hcore₁ := storeIf_keep core (by intro b; rfl) h₁
    have hk₁ := sameContent (content_eq_of_core (hcore₁ k))
    obtain ⟨⟨hb₂, hl₂, hm₂⟩, hother₂, a, log, ha, hio, hlog, hself₂⟩ := loadBlock_ok h₂
    obtain ⟨hb₃, hl₃, hm₃, hcore₃⟩ := linkFront_ok h₃
    rw [show w₂.cache.buffHead = w.cache.buffHead from hb₂.trans hb₁] at hb₃ hcore₃
    refine ⟨hk, ⟨hl₃.trans (hl₂.trans hl₁), hm₃.trans (hm₂.trans hm₁)⟩, hb₃, ?_, a, log, ha, ?_, hlog,
      ?_⟩
    · intro j hj
      rw [hcore₃, if_neg hj, hother₂ j hj]
      exact hcore₁ j
    · rw [hk₁.dev, hk₁.blockNum] at hio
      exact hio.congr hk₁.dirty hk₁.buff rfl rfl
    · rw [hcore₃, if_pos rfl, hself₂]
      change { core (c₁.pool k) with
        blockNum := block
        dirty := cleaned (core (c₁.pool k)).dirty
        dev := dev
        count := (core (c₁.pool k)).count + 1
        next := w.cache.buffHead (bucket block)
        nextFree := .null
        buff := w₂.disk a block } = _
      rw [hcore₁ k]
      rfl

def Labelled (b : BufferHead) (block : UInt32) (dev : UInt16) : Prop :=
  b.blockNum = block ∧ b.dev = dev

instance (b : BufferHead) (block : UInt32) (dev : UInt16) : Decidable (Labelled b block dev) :=
  inferInstanceAs (Decidable (_ ∧ _))

def Cache.next (c : Cache) (i : Buff) : Ptr Buff := (c.pool i).next

def Cache.nextFree (c : Cache) (i : Buff) : Ptr Buff := (c.pool i).nextFree

variable {fuel : Nat} {xs : List Buff}

lemma searchChain_some (h : searchChain c.pool block dev fuel p = .ok (some i)) :
    Labelled (c.pool i) block dev ∧ ∃ xs, Seg (Cache.next c) p xs (.node i) := by
  induction fuel generalizing p with
  | zero => cases h
  | succ fuel ih =>
    cases p with
    | null => cases h
    | wild => cases h
    | node j =>
      rw [searchChain] at h
      split at h
      · next hj =>
        obtain rfl := Option.some.inj (Except.ok.inj h)
        exact ⟨hj, [], rfl⟩
      · obtain ⟨hi, xs, hxs⟩ := ih h
        exact ⟨hi, j :: xs, rfl, hxs⟩

/-- A chain that ends is searched to its first match or to its end. -/
lemma searchChain_ends (hs : Seg (Cache.next c) p xs .null) (hf : xs.length < fuel) :
    ∃ r, searchChain c.pool block dev fuel p = .ok r := by
  induction xs generalizing p fuel with
  | nil =>
    cases hs
    obtain ⟨n, rfl⟩ := Nat.exists_eq_add_of_le' (Nat.succ_le_of_lt hf)
    exact ⟨none, rfl⟩
  | cons x xs ih =>
    obtain ⟨rfl, hxs⟩ := hs
    obtain ⟨n, rfl⟩ := Nat.exists_eq_add_of_le' (Nat.succ_le_of_lt hf)
    rw [← Nat.add_one, ← Nat.add_assoc, searchChain]
    split
    · exact ⟨some x, rfl⟩
    · exact ih hxs (by rw [List.length_cons]; omega)

/-- A record that is reached, and has its label to itself on the way, is found. -/
lemma searchChain_finds (hs : Seg (Cache.next c) p xs (.node i)) (hf : xs.length < fuel)
    (hi : Labelled (c.pool i) block dev) (hno : ∀ x ∈ xs, ¬Labelled (c.pool x) block dev) :
    searchChain c.pool block dev fuel p = .ok (some i) := by
  induction xs generalizing p fuel with
  | nil =>
    cases hs
    obtain ⟨n, rfl⟩ := Nat.exists_eq_add_of_le' (Nat.succ_le_of_lt hf)
    exact if_pos hi
  | cons x xs ih =>
    obtain ⟨rfl, hxs⟩ := hs
    obtain ⟨n, rfl⟩ := Nat.exists_eq_add_of_le' (Nat.succ_le_of_lt hf)
    have hx : ¬((c.pool x).blockNum = block ∧ (c.pool x).dev = dev) := hno x List.mem_cons_self
    rw [← Nat.add_one, ← Nat.add_assoc, searchChain, if_neg hx]
    refine ih hxs ?_ (fun y hy => hno y (List.mem_cons_of_mem _ hy))
    rw [List.length_cons]
    omega

theorem getBlock_cases (h : getBlock fs w block dev = .ok (i, w')) :
    (findBlock w.cache block dev = .ok (some i) ∧ Labelled (w.cache.pool i) block dev ∧
      Hit fs w i block dev w') ∨
    (findBlock w.cache block dev = .ok none ∧ Miss fs w i block dev w') := by
  obtain ⟨r, hr, h⟩ := bind_eq_ok h
  cases r with
  | some k =>
    obtain ⟨rfl, hhit⟩ := getHit_ok h
    exact Or.inl ⟨hr, (searchChain_some hr).1, hhit⟩
  | none => exact Or.inr ⟨hr, getMiss_ok h⟩

theorem putBlock_cases (h : putBlock c i = .ok c') :
    ((c.pool i).count > 1 ∧ c' = c.modify i fun b => { b with count := b.count - 1 }) ∨
    (¬(c.pool i).count > 1 ∧ (c.pool i).flags = classDir ∧ c'.buffHead = c.buffHead ∧
      c'.lruBuff = c.lruBuff ∧ ∀ j, content (c'.pool j) = content (c.pool j)) ∨
    (¬(c.pool i).count > 1 ∧ (c.pool i).flags ≠ classDir ∧ c'.buffHead = c.buffHead ∧
      c'.lruBuff = .node i ∧ (∃ k, c.lruBuff = .node k) ∧ ∀ j, core (c'.pool j) =
        if j = i then core { c.pool i with nextFree := c.lruBuff } else core (c.pool j)) := by
  rw [putBlock] at h
  split at h
  · next hc => exact Or.inl ⟨hc, (Except.ok.inj h).symm⟩
  · next hc =>
    split at h
    · next hflags =>
      obtain ⟨c₁, h₁, h⟩ := bind_eq_ok h
      obtain rfl := Except.ok.inj h
      obtain ⟨hb, hl, -⟩ := store_heads h₁
      have hcontent := store_keep content (by intro b; rfl) h₁
      refine Or.inr (Or.inl ⟨hc, hflags, hb, hl, fun j => ?_⟩)
      rw [← hcontent j]
      change content ((c₁.modify i fun b => { b with prevFree := c₁.mruBuff }).pool j) = _
      exact modify_keep content (by intro b; rfl) c₁ i j
    · next hflags =>
      obtain ⟨c₁, h₁, h⟩ := bind_eq_ok h
      obtain rfl := Except.ok.inj h
      obtain ⟨k, hk, -⟩ := store_ok h₁
      obtain ⟨hb, hl, -⟩ := store_heads h₁
      have hcore := store_keep core (by intro b; rfl) h₁
      refine Or.inr (Or.inr ⟨hc, hflags, hb, rfl, ⟨k, hk⟩, fun j => ?_⟩)
      change core ((c₁.modify i fun b => { b with nextFree := c₁.lruBuff }).pool j) = _
      rw [modify_pool, hl]
      split
      · change { core (c₁.pool i) with nextFree := c.lruBuff } = _
        rw [hcore]
        rfl
      · exact hcore j

lemma Hit.next_eq (h : Hit fs w i block dev w') : Cache.next w'.cache = Cache.next w.cache := by
  funext j
  by_cases hj : j = i
  · rw [hj]
    exact (sameContent h.self).next
  · exact (sameContent (h.other j hj)).next

lemma Miss.next_eq (h : Miss fs w i block dev w') : Cache.next w'.cache =
    Function.update (Cache.next w.cache) i (w.cache.buffHead (bucket block)) := by
  funext j
  by_cases hj : j = i
  · obtain ⟨a, log, -, -, -, hself⟩ := h.self
    rw [hj, Function.update_self]
    exact (sameContent (content_eq_of_core hself)).next
  · rw [Function.update_of_ne hj]
    exact (sameContent (content_eq_of_core (h.other j hj))).next

lemma putBlock_chains (h : putBlock c i = .ok c') :
    Cache.next c' = Cache.next c ∧ c'.buffHead = c.buffHead := by
  rcases putBlock_cases h with ⟨-, rfl⟩ | ⟨-, -, hb, -, hc⟩ | ⟨-, -, hb, -, -, hc⟩
  · refine ⟨?_, rfl⟩
    funext j
    exact modify_keep BufferHead.next (by intro b; rfl) c i j
  · refine ⟨?_, hb⟩
    funext j
    exact (sameContent (hc j)).next
  · refine ⟨?_, hb⟩
    funext j
    have hcj := hc j
    split at hcj
    · next hji =>
      rw [hji] at hcj ⊢
      exact (sameContent (content_eq_of_core hcj)).next
    · exact (sameContent (content_eq_of_core hcj)).next

lemma Hit.data (h : Hit fs w i block dev w') (j : Buff) :
    (w'.cache.pool j).blockNum = (w.cache.pool j).blockNum ∧
      (w'.cache.pool j).dev = (w.cache.pool j).dev ∧
      (w'.cache.pool j).buff = (w.cache.pool j).buff := by
  by_cases hj : j = i
  · have hs := sameContent h.self
    rw [hj]
    exact ⟨hs.blockNum, hs.dev, hs.buff⟩
  · have hs := sameContent (h.other j hj)
    exact ⟨hs.blockNum, hs.dev, hs.buff⟩

lemma Miss.data (h : Miss fs w i block dev w') {j : Buff} (hj : j ≠ i) :
    (w'.cache.pool j).blockNum = (w.cache.pool j).blockNum ∧
      (w'.cache.pool j).dev = (w.cache.pool j).dev ∧
      (w'.cache.pool j).buff = (w.cache.pool j).buff ∧
      (w'.cache.pool j).dirty = (w.cache.pool j).dirty := by
  have hs := sameContent (content_eq_of_core (h.other j hj))
  exact ⟨hs.blockNum, hs.dev, hs.buff, hs.dirty⟩

lemma Miss.labelled (h : Miss fs w i block dev w') : Labelled (w'.cache.pool i) block dev := by
  obtain ⟨a, log, -, -, -, hself⟩ := h.self
  have hs := sameContent (content_eq_of_core hself)
  exact ⟨hs.blockNum, hs.dev⟩

lemma Hit.labelled (h : Hit fs w i block dev w') (hl : Labelled (w.cache.pool i) block dev) :
    Labelled (w'.cache.pool i) block dev :=
  ⟨(h.data i).1.trans hl.1, (h.data i).2.1.trans hl.2⟩

lemma putBlock_data (h : putBlock c i = .ok c') (j : Buff) :
    (c'.pool j).blockNum = (c.pool j).blockNum ∧ (c'.pool j).dev = (c.pool j).dev ∧
      (c'.pool j).buff = (c.pool j).buff ∧ (c'.pool j).dirty = (c.pool j).dirty := by
  rcases putBlock_cases h with ⟨-, rfl⟩ | ⟨-, -, -, -, hc⟩ | ⟨-, -, -, -, -, hc⟩
  · rw [modify_pool]
    split
    · next hji =>
      rw [hji]
      exact ⟨rfl, rfl, rfl, rfl⟩
    · exact ⟨rfl, rfl, rfl, rfl⟩
  · have hs := sameContent (hc j)
    exact ⟨hs.blockNum, hs.dev, hs.buff, hs.dirty⟩
  · have hcj := hc j
    split at hcj
    · next hji =>
      have hs := sameContent (content_eq_of_core hcj)
      rw [hji] at hs ⊢
      exact ⟨hs.blockNum, hs.dev, hs.buff, hs.dirty⟩
    · have hs := sameContent (content_eq_of_core hcj)
      exact ⟨hs.blockNum, hs.dev, hs.buff, hs.dirty⟩

lemma putBlock_counts (h : putBlock c i = .ok c') :
    (∀ j, (c'.pool j).flags = (c.pool j).flags) ∧
      (((c.pool i).count > 1 ∧ ∀ j, (c'.pool j).count =
          if j = i then (c.pool i).count - 1 else (c.pool j).count) ∨
        (¬(c.pool i).count > 1 ∧ ∀ j, (c'.pool j).count = (c.pool j).count)) := by
  rcases putBlock_cases h with ⟨hc, rfl⟩ | ⟨hc, -, -, -, hcont⟩ | ⟨hc, -, -, -, -, hcore⟩
  · refine ⟨modify_keep BufferHead.flags (by intro b; rfl) c i, Or.inl ⟨hc, fun j => ?_⟩⟩
    rw [modify_pool]
    split
    · rfl
    · rfl
  · exact ⟨fun j => (sameContent (hcont j)).flags,
      Or.inr ⟨hc, fun j => (sameContent (hcont j)).count⟩⟩
  · have hview : ∀ j, (c'.pool j).flags = (c.pool j).flags ∧
        (c'.pool j).count = (c.pool j).count := by
      intro j
      have hs := hcore j
      split at hs
      · next hji =>
        rw [hji] at hs ⊢
        exact ⟨(sameContent (content_eq_of_core hs)).flags,
          (sameContent (content_eq_of_core hs)).count⟩
      · exact ⟨(sameContent (content_eq_of_core hs)).flags,
          (sameContent (content_eq_of_core hs)).count⟩
    exact ⟨fun j => (hview j).1, Or.inr ⟨hc, fun j => (hview j).2⟩⟩

lemma Hit.nextFree_eq (h : Hit fs w i block dev w') (hc : (w.cache.pool i).count ≠ 0) :
    Cache.nextFree w'.cache = Cache.nextFree w.cache := by
  funext j
  have hj := h.free hc j
  split at hj
  · next hji =>
    have hf := nextFree_of_core hj
    rw [hji] at hf ⊢
    exact hf
  · exact nextFree_of_core hj

lemma Miss.nextFree_eq (h : Miss fs w i block dev w') :
    Cache.nextFree w'.cache = Function.update (Cache.nextFree w.cache) i .null := by
  funext j
  by_cases hj : j = i
  · obtain ⟨a, log, -, -, -, hself⟩ := h.self
    have hf := nextFree_of_core hself
    rw [hj, Function.update_self]
    exact hf
  · rw [Function.update_of_ne hj]
    exact nextFree_of_core (h.other j hj)

/-- `get_block` counts one more user of the record it returns. -/
lemma Hit.counts (h : Hit fs w i block dev w') (j : Buff) :
    (w'.cache.pool j).flags = (w.cache.pool j).flags ∧ (w'.cache.pool j).count =
      if j = i then (w.cache.pool i).count + 1 else (w.cache.pool j).count := by
  by_cases hj : j = i
  · have hs := sameContent h.self
    rw [hj, if_pos rfl]
    exact ⟨hs.flags, hs.count⟩
  · have hs := sameContent (h.other j hj)
    rw [if_neg hj]
    exact ⟨hs.flags, hs.count⟩

lemma Miss.counts (h : Miss fs w i block dev w') (j : Buff) :
    (w'.cache.pool j).flags = (w.cache.pool j).flags ∧ (w'.cache.pool j).count =
      if j = i then (w.cache.pool i).count + 1 else (w.cache.pool j).count := by
  by_cases hj : j = i
  · obtain ⟨a, log, -, -, -, hself⟩ := h.self
    have hs := sameContent (content_eq_of_core hself)
    rw [hj, if_pos rfl]
    exact ⟨hs.flags, hs.count⟩
  · have hs := sameContent (content_eq_of_core (h.other j hj))
    rw [if_neg hj]
    exact ⟨hs.flags, hs.count⟩

/-- `put_block` of a regular file's block counts one user less, or puts the record at the front
of the free list and leaves its count. -/
lemma putBlock_free (h : putBlock c i = .ok c') (hflags : (c.pool i).flags ≠ classDir) :
    (∀ j, (c'.pool j).flags = (c.pool j).flags) ∧
    (((c.pool i).count > 1 ∧ Cache.nextFree c' = Cache.nextFree c ∧ c'.lruBuff = c.lruBuff ∧
        ∀ j, (c'.pool j).count = if j = i then (c.pool i).count - 1 else (c.pool j).count) ∨
      (¬(c.pool i).count > 1 ∧ Cache.nextFree c' = Function.update (Cache.nextFree c) i c.lruBuff ∧
        c'.lruBuff = .node i ∧ ∀ j, (c'.pool j).count = (c.pool j).count)) := by
  obtain ⟨hsame, hcount⟩ := putBlock_counts h
  refine ⟨hsame, ?_⟩
  rcases putBlock_cases h with ⟨hc, rfl⟩ | ⟨-, hdir, -⟩ | ⟨hc, -, -, hlru, -, hcore⟩
  · have hless := (hcount.resolve_right fun h => h.1 hc).2
    refine Or.inl ⟨hc, ?_, rfl, hless⟩
    funext j
    exact modify_keep BufferHead.nextFree (by intro b; rfl) c i j
  · exact absurd hdir hflags
  · have hkept := (hcount.resolve_left fun h => hc h.1).2
    refine Or.inr ⟨hc, ?_, hlru, hkept⟩
    funext j
    have hj := hcore j
    split at hj
    · next hji =>
      have hf := nextFree_of_core hj
      rw [hji] at hf ⊢
      rw [Function.update_self]
      exact hf
    · next hji =>
      rw [Function.update_of_ne hji]
      exact nextFree_of_core hj

/-- What `init_buffer` leaves as it finds it: all but the links. -/
def unlinked (b : BufferHead) : BufferHead :=
  { b with next := .null, prev := .null, nextFree := .null, prevFree := .null }

lemma linkBuffer_unlinked (c : Cache) (current new i : Buff) :
    unlinked ((linkBuffer c current new).pool i) = unlinked (c.pool i) := by
  unfold linkBuffer
  dsimp only
  refine (modify_keep unlinked ?_ _ new i).trans ((modify_keep unlinked ?_ _ new i).trans
    ((modify_keep unlinked ?_ _ current i).trans (modify_keep unlinked ?_ _ current i)))
  all_goals
    intro b
    rfl

lemma initBufferLoop_unlinked (n : Nat) (c : Cache) (i : Buff) :
    unlinked ((initBufferLoop n c).pool i) = unlinked (c.pool i) := by
  induction n with
  | zero => rfl
  | succ n ih => rw [initBufferLoop, linkBuffer_unlinked, ih]

lemma initBufferLoop_heads (n : Nat) (c : Cache) :
    (initBufferLoop n c).buffHead = c.buffHead ∧ (initBufferLoop n c).lruBuff = c.lruBuff := by
  induction n with
  | zero => exact ⟨rfl, rfl⟩
  | succ n ih => exact ih

lemma initBuffer_unlinked (prior : Buff → BufferHead) (i : Buff) :
    unlinked ((initBuffer prior).pool i) = unlinked (prior i) := by
  unfold initBuffer
  dsimp only
  rw [initBufferLoop_unlinked]
  refine (modify_keep unlinked ?_ _ 0 i).trans (modify_keep unlinked ?_ _ 0 i)
  all_goals
    intro b
    rfl

lemma initBuffer_heads (prior : Buff → BufferHead) :
    (initBuffer prior).buffHead = Function.update (fun _ => .null) 0 (.node 0) ∧
      (initBuffer prior).lruBuff = .node 0 := by
  unfold initBuffer
  dsimp only
  rw [(initBufferLoop_heads _ _).1, (initBufferLoop_heads _ _).2]
  exact ⟨rfl, rfl⟩

/-! ### Balanced runs -/

/-- One outstanding `get_block(block, dev)`, which returned the record `buff`. -/
structure Handle where
  buff : Buff
  block : UInt32
  dev : UInt16
  deriving DecidableEq

/-- The cache with its outstanding handles and, for every block, the last payload a holder
left in it. -/
structure CacheState where
  world : World
  held : List Handle
  left : UInt32 → UInt16 → Option Payload

inductive CacheOp
  | get (block : UInt32) (dev : UInt16)
  | put (h : Handle)
  | modify (h : Handle) (payload : Payload)

/-- A holder writes `payload` and sets `dirty`. -/
def holderWrite (w : World) (i : Buff) (payload : Payload) : World :=
  { w with cache := w.cache.modify i fun b => { b with buff := payload, dirty := 1 } }

lemma holderWrite_pool (w : World) (i : Buff) (payload : Payload) (j : Buff) :
    (holderWrite w i payload).cache.pool j =
      if j = i then { w.cache.pool i with buff := payload, dirty := 1 } else w.cache.pool j :=
  modify_pool w.cache i (fun b => { b with buff := payload, dirty := 1 }) j

lemma holderWrite_data (w : World) (i : Buff) (payload : Payload) (j : Buff) :
    ((holderWrite w i payload).cache.pool j).blockNum = (w.cache.pool j).blockNum ∧
      ((holderWrite w i payload).cache.pool j).dev = (w.cache.pool j).dev := by
  rw [holderWrite_pool]
  split
  · next hji =>
    rw [hji]
    exact ⟨rfl, rfl⟩
  · exact ⟨rfl, rfl⟩

lemma holderWrite_next (w : World) (i : Buff) (payload : Payload) :
    Cache.next (holderWrite w i payload).cache = Cache.next w.cache := by
  funext j
  rw [Cache.next, Cache.next, holderWrite_pool]
  split
  · next h => rw [h]
  · rfl

/-- One call that returns, or one write of a holder. -/
def CacheState.exec (fs : Devfs) (s : CacheState) : CacheOp → Option CacheState
  | .get block dev =>
    match getBlock fs s.world block dev with
    | .ok (i, w) => some { s with world := w, held := ⟨i, block, dev⟩ :: s.held }
    | .error _ => none
  | .put h =>
    if h ∈ s.held then
      match putBlock s.world.cache h.buff with
      | .ok c => some { s with world := { s.world with cache := c }, held := s.held.erase h }
      | .error _ => none
    else none
  | .modify h payload =>
    if h ∈ s.held then
      some { s with
        world := holderWrite s.world h.buff payload
        left := Function.update s.left h.block
          (Function.update (s.left h.block) h.dev (some payload)) }
    else none

/-- A record of zeroed heap memory. -/
def zeroed : BufferHead := ⟨0, 0, 0, 0, 0, .null, .null, .null, .null, fun _ => 0⟩

/-- The state after `init_buffer` over zeroed memory. -/
def freshState (disk : UInt32 → UInt32 → Payload) : CacheState :=
  ⟨⟨initBuffer fun _ => zeroed, disk, []⟩, [], fun _ _ => none⟩

abbrev CacheRun (fs : Devfs) (disk : UInt32 → UInt32 → Payload) :
    List (CacheState × CacheOp) → CacheState → Prop :=
  Run (fun s op s' => CacheState.exec fs s op = some s') (freshState disk)

variable {s s' : CacheState} {op : CacheOp}

/-- The step of a run is a hit, a miss, a release or a write of a holder. -/
theorem exec_cases (h : s.exec fs op = some s') :
    (∃ block dev i w', op = .get block dev ∧ findBlock s.world.cache block dev = .ok (some i) ∧
      Labelled (s.world.cache.pool i) block dev ∧ Hit fs s.world i block dev w' ∧
      s' = { s with world := w', held := ⟨i, block, dev⟩ :: s.held }) ∨
    (∃ block dev i w', op = .get block dev ∧ findBlock s.world.cache block dev = .ok none ∧
      Miss fs s.world i block dev w' ∧
      s' = { s with world := w', held := ⟨i, block, dev⟩ :: s.held }) ∨
    (∃ hd c, op = .put hd ∧ hd ∈ s.held ∧ putBlock s.world.cache hd.buff = .ok c ∧
      s' = { s with world := { s.world with cache := c }, held := s.held.erase hd }) ∨
    (∃ hd payload, op = .modify hd payload ∧ hd ∈ s.held ∧
      s' = { s with
        world := holderWrite s.world hd.buff payload
        left := Function.update s.left hd.block
          (Function.update (s.left hd.block) hd.dev (some payload)) }) := by
  cases op with
  | get block dev =>
    rw [CacheState.exec] at h
    split at h
    · next i w hget =>
      obtain rfl := Option.some.inj h
      rcases getBlock_cases hget with ⟨hf, hl, hhit⟩ | ⟨hf, hmiss⟩
      · exact Or.inl ⟨block, dev, i, w, rfl, hf, hl, hhit, rfl⟩
      · exact Or.inr (Or.inl ⟨block, dev, i, w, rfl, hf, hmiss, rfl⟩)
    · cases h
  | put hd =>
    rw [CacheState.exec] at h
    split at h
    · next hmem =>
      split at h
      · next c hput =>
        obtain rfl := Option.some.inj h
        exact Or.inr (Or.inr (Or.inl ⟨hd, c, rfl, hmem, hput, rfl⟩))
      · cases h
    · cases h
  | modify hd payload =>
    rw [CacheState.exec] at h
    split at h
    · next hmem =>
      obtain rfl := Option.some.inj h
      exact Or.inr (Or.inr (Or.inr ⟨hd, payload, rfl, hmem, rfl⟩))
    · cases h

/-- Only a miss changes the hash chains: it moves the record at `lru_buff` to the front. -/
theorem exec_chains (h : s.exec fs op = some s') :
    (Cache.next s'.world.cache = Cache.next s.world.cache ∧
      s'.world.cache.buffHead = s.world.cache.buffHead ∧
      ∀ block dev, op = .get block dev → findBlock s.world.cache block dev ≠ .ok none) ∨
    ∃ block dev i, op = .get block dev ∧ findBlock s.world.cache block dev = .ok none ∧
      s.world.cache.lruBuff = .node i ∧
      Cache.next s'.world.cache = Function.update (Cache.next s.world.cache) i
        (s.world.cache.buffHead (bucket block)) ∧
      s'.world.cache.buffHead = Function.update s.world.cache.buffHead (bucket block) (.node i) := by
  rcases exec_cases h with ⟨block, dev, i, w', rfl, hf, -, hhit, rfl⟩ |
    ⟨block, dev, i, w', rfl, hf, hmiss, rfl⟩ | ⟨hd, c, rfl, -, hput, rfl⟩ | ⟨hd, payload, rfl, -, rfl⟩
  · refine Or.inl ⟨hhit.next_eq, hhit.heads.1, ?_⟩
    rintro _ _ ⟨⟩
    simp [hf]
  · exact Or.inr ⟨block, dev, i, rfl, hf, hmiss.lru, hmiss.next_eq, hmiss.heads⟩
  · obtain ⟨hnext, hheads⟩ := putBlock_chains hput
    exact Or.inl ⟨hnext, hheads, fun _ _ h => by cases h⟩
  · exact Or.inl ⟨holderWrite_next _ _ _, rfl, fun _ _ h => by cases h⟩

lemma fresh_chain :
    Seg (Cache.next (initBuffer fun _ => zeroed)) (.node 0) (List.finRange maxBuffer) .null := by
  decide +kernel

lemma fresh_free :
    Seg (Cache.nextFree (initBuffer fun _ => zeroed)) (.node 0) (List.finRange maxBuffer)
      .null := by
  decide +kernel

/-- One disk behind every device number. -/
def oneDisk : Devfs := ⟨0x1000, fun _ => ⟨0, 0⟩⟩

/-- Every byte of sector `b` is `b`. -/
def numberedDisk : UInt32 → UInt32 → Payload := fun _ lba _ => lba.toUInt8

end SaxonOS.Proofs
