import SaxonOS.Proofs.BufferLives
import SaxonOS.Proofs.CacheReaders
import SaxonOS.Proofs.Ext2Lookup

/-!
# Runs of the readers of the cache

From the mount of a volume on, the buffer of the group descriptors is never recycled as long as
nothing but the readers uses the cache. What they read is then what is on the disk.
-/

namespace SaxonOS.Proofs
open Lib Lib.Holding

/-- The cache with the handles given out, as a store of the sectors of a device. -/
def cacheStore (fs : Devfs) (dev : UInt16) : CellStore CacheState UInt32 Payload Handle Fault where
  get s block := do
    let (i, w) ← getBlock fs s.world block dev
    .ok (⟨i, block, dev⟩, { s with world := w, held := ⟨i, block, dev⟩ :: s.held })
  look s h := (s.world.cache.pool h.buff).buff
  put s h := do
    let c ← putBlock s.world.cache h.buff
    .ok { s with world := { s.world with cache := c }, held := s.held.erase h }

variable {fs : Devfs} {disk : UInt32 → UInt32 → Payload} {dev : UInt16} {a : UInt32}
  {s s' : CacheState} {block : UInt32} {h p : Handle} {free : List Buff}
  {others held held' : List Handle}

lemma cacheStore_get (hget : (cacheStore fs dev).get s block = .ok (h, s')) :
    s.exec fs (.get block dev) = some s' ∧ h = ⟨h.buff, block, dev⟩ ∧ s'.held = h :: s.held := by
  obtain ⟨⟨i, w⟩, hg, hget⟩ := bind_eq_ok hget
  obtain ⟨rfl, rfl⟩ := Prod.mk.inj (Except.ok.inj hget)
  exact ⟨by rw [CacheState.exec, hg], rfl, rfl⟩

lemma cacheStore_put (hm : h ∈ s.held) (hput : (cacheStore fs dev).put s h = .ok s') :
    s.exec fs (.put h) = some s' ∧ s'.held = s.held.erase h := by
  obtain ⟨c, hp, hput⟩ := bind_eq_ok hput
  obtain rfl := Except.ok.inj hput
  exact ⟨by rw [CacheState.exec, if_pos hm, hp], rfl⟩

/-! ### Between the calls -/

/-- Nothing is written. -/
structure CleanCache (fs : Devfs) (disk : UInt32 → UInt32 → Payload) (s : CacheState)
    (free : List Buff) : Prop where
  inserted : InsertInv s free
  data : ReadOnly fs disk s.world

/-- What has been got holds the sector that was asked for. -/
lemma CleanCache.get (hI : CleanCache fs disk s free) (hdev : dev ≠ 0)
    (ha : findBdev fs dev = .ok a) (hn : s.held.length + 3 < 2 ^ 32)
    (hget : (cacheStore fs dev).get s block = .ok (h, s')) :
    ∃ free', CleanCache fs disk s' free' ∧ FreeStep s free s' free' (.get block dev) ∧
      Labelled (s'.world.cache.pool h.buff) block dev ∧
      (s'.world.cache.pool h.buff).buff = disk a block ∧
      (s'.world.cache.pool h.buff).count = (s.world.cache.pool h.buff).count + 1 ∧
      ∀ j, j ∉ free ∨ j ≠ h.buff →
        (s'.world.cache.pool j).blockNum = (s.world.cache.pool j).blockNum ∧
        (s'.world.cache.pool j).dev = (s.world.cache.pool j).dev := by
  obtain ⟨hexec, -, hheld⟩ := cacheStore_get hget
  have hnz : NonzeroDev (.get block dev) := hdev
  obtain ⟨free', hins, hstep⟩ := insertInv_step hI.inserted hnz (fewHolders_of_held hn) hexec
  have hrec : ∀ {w' : World} {i : Buff}, ReadOnly fs disk w' →
      Labelled (w'.cache.pool i) block dev → (w'.cache.pool i).buff = disk a block := by
    intro w' i hdata hl
    obtain ⟨a', ha', hb⟩ := (hdata.record i).sector (by rw [hl.2]; exact hdev)
    rw [hl.2, ha] at ha'
    rw [hb, hl.1, Except.ok.inj ha']
  rcases exec_cases hexec with ⟨_, _, i, w', hop, -, hl, hhit, rfl⟩ |
    ⟨_, _, i, w', hop, -, hmiss, rfl⟩ | ⟨_, _, hop, -⟩ | ⟨_, _, hop, -⟩
  · obtain ⟨rfl, rfl⟩ := CacheOp.get.inj hop
    obtain rfl := (List.cons.inj hheld).1
    have hdata : ReadOnly fs disk w' := readOnly_hit hI.data hhit
    exact ⟨free', ⟨hins, hdata⟩, hstep, hhit.labelled hl, hrec hdata (hhit.labelled hl),
      (hhit.counts _).2.trans (if_pos rfl), fun j _ => ⟨(hhit.data j).1, (hhit.data j).2.1⟩⟩
  · obtain ⟨rfl, rfl⟩ := CacheOp.get.inj hop
    obtain rfl := (List.cons.inj hheld).1
    have hdata : ReadOnly fs disk w' := readOnly_miss hI.data hmiss
    refine ⟨free', ⟨hins, hdata⟩, hstep, hmiss.labelled, hrec hdata hmiss.labelled,
      (hmiss.counts _).2.trans (if_pos rfl), fun j hj => ?_⟩
    have hji : j ≠ i := by
      rcases hj with hj | hj
      · rintro rfl
        exact hj (lru_mem_free hI.inserted.list hmiss.lru)
      · exact hj
    exact ⟨(hmiss.data hji).1, (hmiss.data hji).2.1⟩
  · cases hop
  · cases hop

lemma CleanCache.put (hI : CleanCache fs disk s free) (hm : h ∈ s.held)
    (hput : (cacheStore fs dev).put s h = .ok s') :
    ∃ free', CleanCache fs disk s' free' ∧ FreeStep s free s' free' (.put h) ∧
      ∀ j, (s'.world.cache.pool j).blockNum = (s.world.cache.pool j).blockNum ∧
        (s'.world.cache.pool j).dev = (s.world.cache.pool j).dev := by
  obtain ⟨hexec, -⟩ := cacheStore_put hm hput
  have hsafe : CountSafe s (.put h) := trivial
  obtain ⟨free', hlist, hstep⟩ := freeInv_step hI.inserted.list hsafe hexec
  have hins : InsertInv s' free' := ⟨hlist, unloaded_step hI.inserted hsafe hexec⟩
  rcases exec_cases hexec with ⟨_, _, _, _, hop, -⟩ | ⟨_, _, _, _, hop, -⟩ |
    ⟨hd, c, hop, -, hp, rfl⟩ | ⟨_, _, hop, -⟩
  · cases hop
  · cases hop
  · obtain rfl := CacheOp.put.inj hop
    exact ⟨free', ⟨hins, readOnly_put hI.data hp⟩, hstep,
      fun j => ⟨(putBlock_data hp j).1, (putBlock_data hp j).2.1⟩⟩
  · cases hop

/-- The buffer of `p` stays held, beside those of `others` and of the calls that run. -/
structure Pinned (fs : Devfs) (disk : UInt32 → UInt32 → Payload) (p : Handle)
    (others held : List Handle) (s : CacheState) : Prop where
  clean : ∃ free, CleanCache fs disk s free ∧ p.buff ∉ free
  label : Labelled (s.world.cache.pool p.buff) p.block p.dev
  out : (held ++ p :: others).Perm s.held

lemma Pinned.get (hI : Pinned fs disk p others held s) (hdev : dev ≠ 0)
    (ha : findBdev fs dev = .ok a) (hn : held.length < 2 ^ 32 - 4 - others.length)
    (hget : (cacheStore fs dev).get s block = .ok (h, s')) :
    h.block = block ∧ (cacheStore fs dev).look s' h = disk a block ∧
      Pinned fs disk p others (h :: held) s' := by
  obtain ⟨free, hclean, hoff⟩ := hI.clean
  have hlen := hI.out.length_eq
  simp only [List.length_append, List.length_cons] at hlen
  obtain ⟨-, hh, hheld⟩ := cacheStore_get hget
  obtain ⟨free', hclean', hstep, -, hbuff, -, hkeep⟩ := hclean.get hdev ha (by omega) hget
  obtain ⟨hnum, hd⟩ := hkeep p.buff (Or.inl hoff)
  refine ⟨by rw [hh], hbuff, ⟨free', hclean', ?_⟩, ⟨hnum.trans hI.label.1, hd.trans hI.label.2⟩, ?_⟩
  · cases hstep with
    | hit hf hfree hh => rwa [hfree]
    | miss hf hfree hh =>
      rw [hfree] at hoff
      exact fun hm => hoff (List.mem_cons_of_mem _ hm)
  · rw [hheld]
    exact hI.out.cons h

/-- A buffer that is held twice is not put on the free list. -/
lemma two_holders (hI : Pinned fs disk p others (held ++ h :: held') s) (hp : h.buff = p.buff) :
    2 ≤ holders s h.buff := by
  rw [holders, ← hI.out.countP_eq]
  simp only [List.countP_append, List.countP_cons, hp, decide_true, if_true]
  omega

lemma Pinned.put (hI : Pinned fs disk p others (held ++ h :: held') s)
    (hput : (cacheStore fs dev).put s h = .ok s') : Pinned fs disk p others (held ++ held') s' := by
  obtain ⟨free, hclean, hoff⟩ := hI.clean
  have hm : h ∈ s.held := hI.out.subset (by simp)
  obtain ⟨free', hclean', hstep, hkeep⟩ := hclean.put hm hput
  obtain ⟨hnum, hd⟩ := hkeep p.buff
  refine ⟨⟨free', hclean', ?_⟩, ⟨hnum.trans hI.label.1, hd.trans hI.label.2⟩, ?_⟩
  · cases hstep with
    | lower hm hc hfree hh => rwa [hfree]
    | insert hm hc hlast hoff' hfree hh =>
      rw [hfree, List.mem_cons]
      rintro (hp | hp)
      · have htwo := two_holders hI hp.symm
        omega
      · exact hoff hp
  · rw [(cacheStore_put hm hput).2]
    have hperm : (h :: (held ++ held' ++ p :: others)).Perm s.held := by
      refine List.Perm.trans ?_ hI.out
      rw [List.append_assoc, List.append_assoc, List.cons_append]
      exact List.perm_middle.symm
    simpa using hperm.erase h

lemma pinned_serves (hdev : dev ≠ 0) (ha : findBdev fs dev = .ok a) :
    Serves (cacheStore fs dev) (disk a) Handle.block (2 ^ 32 - 4 - others.length)
      (Pinned fs disk p others) fun _ _ => True :=
  ⟨fun _ _ _ _ _ hI hn _ hget => hI.get hdev ha hn hget, fun _ _ _ _ _ hI hput => hI.put hput⟩

lemma Pinned.look (hI : Pinned fs disk p others held s) (hdev : p.dev ≠ 0)
    (ha : findBdev fs p.dev = .ok a) : (cacheStore fs dev).look s p = disk a p.block := by
  obtain ⟨free, hclean, -⟩ := hI.clean
  obtain ⟨a', ha', hb⟩ := (hclean.data.record p.buff).sector (by rw [hI.label.2]; exact hdev)
  rw [hI.label.2, ha] at ha'
  rw [hI.label.1, ← Except.ok.inj ha'] at hb
  exact hb

/-- Every buffer that is held shows its sector. -/
structure Tracked (fs : Devfs) (disk : UInt32 → UInt32 → Payload) (dev : UInt16) (p : Handle)
    (others held : List Handle) (s : CacheState) : Prop where
  pinned : Pinned fs disk p others held s
  recycle : ∃ free, RecycleInv s free
  device : ∀ h ∈ s.held, h.dev = dev

lemma tracked_serves (hdev : dev ≠ 0) (ha : findBdev fs dev = .ok a) :
    Serves (cacheStore fs dev) (disk a) Handle.block (2 ^ 32 - 4 - others.length)
      (Tracked fs disk dev p others) fun s block => HitOffList s (.get block dev) := by
  refine ⟨fun held s block h s' hI hn hC hget => ?_, fun held held' s h s' hI hput => ?_⟩
  · obtain ⟨hb, hl, hp⟩ := hI.pinned.get hdev ha hn hget
    obtain ⟨hexec, hh, hheld⟩ := cacheStore_get hget
    obtain ⟨free, hrec⟩ := hI.recycle
    refine ⟨hb, hl, hp, recycleInv_step hrec hC hexec, ?_⟩
    rw [hheld, List.forall_mem_cons]
    exact ⟨by rw [hh], hI.device⟩
  · have hm : h ∈ s.held := hI.pinned.out.subset (by simp)
    obtain ⟨hexec, hheld⟩ := cacheStore_put hm hput
    obtain ⟨free, hrec⟩ := hI.recycle
    have hC : HitOffList s (.put h) := trivial
    refine ⟨hI.pinned.put hput, recycleInv_step hrec hC hexec, ?_⟩
    rw [hheld]
    exact fun h' hh' => hI.device h' (List.mem_of_mem_erase hh')

lemma Tracked.look (hI : Tracked fs disk dev p others held s) (hdev : dev ≠ 0)
    (ha : findBdev fs dev = .ok a) (hh : h ∈ s.held) :
    (cacheStore fs dev).look s h = disk a h.block := by
  obtain ⟨free, hrec⟩ := hI.recycle
  obtain ⟨free', hclean, -⟩ := hI.pinned.clean
  obtain ⟨hnum, hd⟩ := hrec.labels h hh
  rw [hI.device h hh] at hd
  obtain ⟨a', ha', hb⟩ := (hclean.data.record h.buff).sector (by rw [hd]; exact hdev)
  rw [hd, ha] at ha'
  rw [hnum, ← Except.ok.inj ha'] at hb
  exact hb

/-! ### Runs -/

/-- A call of a reader, or the release of a buffer that an earlier call kept. -/
inductive ReaderOp : Type 1
  | call {α : Type} (c : ReaderCall α)
  | put (h : Handle)

def ReaderOp.Step (fs : Devfs) (dev : UInt16) (g : Geometry) (p : Handle) (s : CacheState) :
    ReaderOp → CacheState → Prop
  | call c, s' => ∃ r, (c.via g).via (cacheStore fs dev) p p s = .ok r ∧ r.state = s'
  | put h, s' => h ∈ s.held.erase p ∧ (cacheStore fs dev).put s h = .ok s'

/-- There is room for what a call adds to the counts. -/
def FewHeld (s : CacheState) : Prop := s.held.length + 5 ≤ 2 ^ 32

instance (s : CacheState) : Decidable (FewHeld s) := inferInstanceAs (Decidable (_ ≤ _))

/-- Every `get_block` of the call meets the condition `C`. -/
def ReaderOp.Meets (fs : Devfs) (dev : UInt16) (g : Geometry) (p : Handle)
    (C : CacheState → UInt32 → Prop) (s : CacheState) : ReaderOp → Prop
  | call c => ∀ r, (c.via g).via (cacheStore fs dev) p p s = .ok r → ∀ q ∈ r.gets, C q.1 q.2
  | put _ => True

/-- It does not matter to `J` which of the buffers that are held belong to the calls that run. -/
structure Handover (p : Handle) (J : List Handle → List Handle → CacheState → Prop) : Prop where
  out : ∀ {others held s}, J others held s → (held ++ p :: others).Perm s.held
  swap : ∀ {others held others' held' s}, (held ++ others).Perm (held' ++ others') →
    J others held s → J others' held' s

lemma pinned_handover : Handover p (Pinned fs disk p) := by
  refine ⟨fun hI => hI.out, fun hperm hI => ⟨hI.clean, hI.label, List.Perm.trans ?_ hI.out⟩⟩
  exact List.perm_middle.trans ((hperm.symm.cons p).trans List.perm_middle.symm)

lemma tracked_handover : Handover p (Tracked fs disk dev p) :=
  ⟨fun hI => hI.pinned.out,
    fun hperm hI => ⟨pinned_handover.swap hperm hI.pinned, hI.recycle, hI.device⟩⟩

lemma kept_held {α : Type} {prog : Reader α} {r : Ending CacheState UInt32 Handle α}
    (hr : prog.via (cacheStore fs dev) p h s = .ok r) : (r.kept ++ s.held).Perm r.state.held := by
  refine via_kept (fun s k h s' hget => ?_) (fun s h s' hm hput => ?_) hr
  · rw [(cacheStore_get hget).2.2]
  · rw [(cacheStore_put hm hput).2]
    exact List.perm_cons_erase hm

section Runs

variable {g : Geometry} {J : List Handle → List Handle → CacheState → Prop}
  {C : CacheState → UInt32 → Prop} {α : Type} {c : ReaderCall α}
  {r : Ending CacheState UInt32 Handle α}

lemma few_room (hI : (p :: others).Perm s.held)
    (hr : (c.via g).via (cacheStore fs dev) p p s = .ok r) (hn : FewHeld r.state) :
    r.kept.length + 2 ≤ 2 ^ 32 - 4 - others.length := by
  have hlen := (kept_held hr).length_eq
  have hout := hI.length_eq
  simp only [List.length_append, List.length_cons] at hlen hout
  rw [FewHeld] at hn
  omega

lemma call_keeps (hJ : Handover p J)
    (hs : ∀ others, Serves (cacheStore fs dev) (disk a) Handle.block (2 ^ 32 - 4 - others.length)
      (J others) C)
    (hI : J others [] s) (hr : (c.via g).via (cacheStore fs dev) p p s = .ok r)
    (hn : FewHeld r.state) (hC : ∀ q ∈ r.gets, C q.1 q.2) : J (r.kept ++ others) [] r.state := by
  have hroom := few_room (hJ.out hI) hr hn
  have hI' := via_keeps (hs others) (via_within c) hI hr (by rw [List.length_nil]; omega) hC
  exact hJ.swap (by simp) hI'

lemma release_keeps_run (hJ : Handover p J)
    (hs : ∀ others, Serves (cacheStore fs dev) (disk a) Handle.block (2 ^ 32 - 4 - others.length)
      (J others) C)
    (hI : J others [] s) (hm : h ∈ s.held.erase p) (hput : (cacheStore fs dev).put s h = .ok s') :
    J (others.erase h) [] s' := by
  have hout : (s.held.erase p).Perm others := by
    simpa using ((hJ.out hI).erase p).symm
  have hperm : ([] ++ others).Perm ([h] ++ others.erase h) :=
    List.perm_cons_erase (hout.subset hm)
  exact (hs (others.erase h)).put [] [] s h s' (hJ.swap hperm hI) hput

lemma reader_run_keeps (hJ : Handover p J)
    (hs : ∀ others, Serves (cacheStore fs dev) (disk a) Handle.block (2 ^ 32 - 4 - others.length)
      (J others) C)
    {s₀ : CacheState} (h₀ : J [] [] s₀) {tr : List (CacheState × ReaderOp)}
    (hr : Run (ReaderOp.Step fs dev g p) s₀ tr s) (hn : FewHeld s) (hfew : ∀ q ∈ tr, FewHeld q.1)
    (hC : ∀ q ∈ tr, q.2.Meets fs dev g p C q.1) : ∃ others, J others [] s := by
  induction hr with
  | nil => exact ⟨[], h₀⟩
  | @cons tr s s' op hr hstep ih =>
    obtain ⟨others, hI⟩ := ih (hfew _ List.mem_cons_self)
      (fun q hq => hfew q (List.mem_cons_of_mem _ hq))
      (fun q hq => hC q (List.mem_cons_of_mem _ hq))
    cases op with
    | call c =>
      obtain ⟨r, hcall, rfl⟩ := hstep
      exact ⟨_, call_keeps hJ hs hI hcall hn (hC _ List.mem_cons_self r hcall)⟩
    | put h => exact ⟨_, release_keeps_run hJ hs hI hstep.1 hstep.2⟩

end Runs

section Calls

variable {g : Geometry} {α : Type} {c : ReaderCall α} {r : Ending CacheState UInt32 Handle α}

lemma reader_reads (hp : p.dev = dev) (hb : p.block = bgdSector g) (hdev : dev ≠ 0)
    (ha : findBdev fs dev = .ok a) (hI : Pinned fs disk p others [] s) (hno : ¬c.IsLookup)
    (hr : (c.via g).via (cacheStore fs dev) p p s = .ok r) (hn : FewHeld r.state) :
    c.plain g (disk a) = .ok r.value := by
  have hlook : ∀ held s, Pinned fs disk p others held s →
      (cacheStore fs dev).look s p = disk a p.block :=
    fun held s hI => hI.look (hp ▸ hdev) (hp ▸ ha)
  have hroom := few_room hI.out hr hn
  have hideal := via_sound (pinned_serves hdev ha) (via_within c) (fun _ => hlook)
    (fun hl => absurd hl hno) (Or.inl rfl) hI hr (by rw [List.length_nil]; omega)
    (fun _ _ => trivial)
  rw [hb, via_ideal] at hideal
  exact hideal

lemma lookup_reads (hp : p.dev = dev) (hb : p.block = bgdSector g) (hdev : dev ≠ 0)
    (ha : findBdev fs dev = .ok a) (hI : Tracked fs disk dev p others [] s)
    (hr : (c.via g).via (cacheStore fs dev) p p s = .ok r) (hn : FewHeld r.state)
    (hC : ∀ q ∈ r.gets, HitOffList q.1 (.get q.2 dev)) : c.plain g (disk a) = .ok r.value := by
  have hlook : ∀ held s, Tracked fs disk dev p others held s → ∀ h, h = p ∨ h ∈ held →
      (cacheStore fs dev).look s h = disk a h.block := by
    intro held s hI h hh
    refine hI.look hdev ha (hI.pinned.out.subset ?_)
    rcases hh with rfl | hh
    · simp
    · simp [hh]
  have hroom := few_room hI.pinned.out hr hn
  have hideal := via_sound (tracked_serves hdev ha) (via_within c)
    (fun _ held s hI => hlook held s hI p (Or.inl rfl)) (fun _ => hlook) (Or.inl rfl) hI hr
    (by rw [List.length_nil]; omega) hC
  rw [hb, via_ideal] at hideal
  exact hideal

end Calls

/-! ### The mount -/

/-- The records that are labelled with a device are off the free list. -/
def LabelledOff (s : CacheState) (free : List Buff) : Prop :=
  ∀ i, (s.world.cache.pool i).dev ≠ 0 → i ∉ free

lemma LabelledOff.hitOffList (hoff : LabelledOff s free) (hI : FreeInv s free) (hdev : dev ≠ 0)
    (hn : s.held.length + 3 < 2 ^ 32) : HitOffList s (.get block dev) := by
  intro i hf
  obtain ⟨⟨-, hd⟩, -⟩ := searchChain_some hf
  rw [onFreeList_iff hI]
  have hle : holders s i ≤ s.held.length := List.countP_le_length
  exact ⟨hoff i (by rw [hd]; exact hdev), count_ne_max hI (by omega)⟩

lemma only_holder {i : Buff} (hheld : s.held = []) (hheld' : s'.held = [h])
    (hh : ∀ j, holders s' j = holders s j + if i = j then 1 else 0) : h.buff = i := by
  have hone := hh i
  rw [if_pos rfl, holders, holders, hheld', hheld] at hone
  by_contra hne
  simp [hne] at hone

/-- A visit to a sector that is not in the cache, where only the first record of the free list has
been loaded before. -/
lemma visit_front {i : Buff} {rest : List Buff} {s₁ s₂ : CacheState}
    (hI : CleanCache fs disk s (i :: rest)) (hrec : ∃ free, RecycleInv s free)
    (hone : ∀ j, j ≠ i → (s.world.cache.pool j).dev = 0)
    (hnew : ¬Labelled (s.world.cache.pool i) block dev) (hheld : s.held = []) (hdev : dev ≠ 0)
    (ha : findBdev fs dev = .ok a) (hget : (cacheStore fs dev).get s block = .ok (h, s₁))
    (hput : (cacheStore fs dev).put s₁ h = .ok s₂) :
    (cacheStore fs dev).look s₁ h = disk a block ∧ s₂.held = [] ∧
      (∃ free, RecycleInv s₂ free) ∧ (∀ j, j ≠ i → (s₂.world.cache.pool j).dev = 0) ∧
      Labelled (s₂.world.cache.pool i) block dev ∧
      ((s.world.cache.pool i).count = 0 → CleanCache fs disk s₂ (i :: rest)) ∧
      ((s.world.cache.pool i).count = 1 → CleanCache fs disk s₂ rest) := by
  have hfew : s.held.length + 3 < 2 ^ 32 := by
    rw [hheld]
    decide
  have hnone : ∀ j, findBlock s.world.cache block dev ≠ .ok (some j) := by
    intro j hf
    obtain ⟨hl, -⟩ := searchChain_some hf
    by_cases hj : j = i
    · exact hnew (hj ▸ hl)
    · exact hdev (hl.2.symm.trans (hone j hj))
  obtain ⟨hexec, -, hh₁⟩ := cacheStore_get hget
  have hm : h ∈ s₁.held := by
    rw [hh₁]
    exact List.mem_cons_self
  obtain ⟨free₁, hI₁, hstep₁, hl, hbuff, hcount, hkeep⟩ := hI.get hdev ha hfew hget
  obtain ⟨free₂, hI₂, hstep₂, hkeep₂⟩ := hI₁.put hm hput
  obtain ⟨free, hrec⟩ := hrec
  have hC : HitOffList s (.get block dev) := fun j hf => absurd hf (hnone j)
  have hC' : HitOffList s₁ (.put h) := trivial
  obtain ⟨free', hrec'⟩ := recycleInv_step hrec hC hexec
  obtain ⟨hexec₂, hh₂⟩ := cacheStore_put hm hput
  obtain ⟨rfl, rfl⟩ : h.buff = i ∧ free₁ = rest := by
    cases hstep₁ with
    | hit hf hfree hh => exact absurd hf (hnone _)
    | @miss _ _ k hf hfree hh =>
      obtain ⟨rfl, rfl⟩ := List.cons.inj hfree
      exact ⟨only_holder hheld (hheld ▸ hh₁) hh, rfl⟩
  refine ⟨hbuff, by rw [hh₂, hh₁, hheld]; simp, recycleInv_step hrec' hC' hexec₂, fun j hj => ?_,
    ⟨(hkeep₂ _).1.trans hl.1, (hkeep₂ _).2.trans hl.2⟩, fun h0 => ?_, fun h1 => ?_⟩
  · rw [(hkeep₂ j).2, (hkeep j (Or.inr hj)).2]
    exact hone j hj
  · cases hstep₂ with
    | lower hm hc hfree hh =>
      rw [hcount, h0] at hc
      exact absurd hc (by decide)
    | insert hm hc hlast hoff hfree hh => rwa [hfree] at hI₂
  · cases hstep₂ with
    | lower hm hc hfree hh => rwa [hfree] at hI₂
    | insert hm hc hlast hoff hfree hh =>
      rw [hcount, h1] at hc
      exact absurd (by decide) hc

lemma fresh_clean (fs : Devfs) (disk : UInt32 → UInt32 → Payload) :
    CleanCache fs disk (freshState disk) (List.finRange maxBuffer) :=
  ⟨insertInv_fresh disk, readOnly_init fs disk⟩

lemma count_after_visit (hI : CleanCache fs disk s free) (hheld : s.held = []) {i : Buff}
    (hd : (s.world.cache.pool i).dev ≠ 0) : (s.world.cache.pool i).count = 1 := by
  have hh : holders s i = 0 := by
    rw [holders, hheld, List.countP_nil]
  rcases hI.inserted.list.count i with ⟨-, hc, -⟩ | ⟨-, -, hone⟩ | hc
  · exact absurd (hI.inserted.unloaded i hc) hd
  · omega
  · rw [hh] at hc
    exact UInt32.toNat_inj.mp hc

lemma via_visit {k : UInt32} {α β : Type} {f : Payload → Except Fault β} {next : β → Reader α}
    {r : Ending CacheState UInt32 Handle α}
    (hr : (visit k f >>= next).via (cacheStore fs dev) p h s = .ok r) :
    ∃ h₁ s₁ b s₂ q, (cacheStore fs dev).get s k = .ok (h₁, s₁) ∧
      f ((cacheStore fs dev).look s₁ h₁) = .ok b ∧ (cacheStore fs dev).put s₁ h₁ = .ok s₂ ∧
      (next b).via (cacheStore fs dev) p h s₂ = .ok q ∧
      r = ⟨q.value, q.kept, q.gets ++ [(s, k)], q.state⟩ := by
  obtain ⟨h₁, s₁, rb, s₂, q, hget, hbody, hrel, hq, rfl⟩ := via_hold hr
  cases hf : f ((cacheStore fs dev).look s₁ h₁) with
  | error e =>
    rw [hf] at hbody
    cases hbody
  | ok b =>
    rw [hf] at hbody
    obtain rfl := Except.ok.inj hbody
    exact ⟨h₁, s₁, b, s₂, q, hget, hf, hrel, hq, by simp⟩

/-- The first buffer that is got and kept. -/
lemma pin_tracked (hI : CleanCache fs disk s free) (hoff : LabelledOff s free)
    (hrec : ∃ free, RecycleInv s free) (hheld : s.held = []) (hdev : dev ≠ 0)
    (ha : findBdev fs dev = .ok a) (hget : (cacheStore fs dev).get s block = .ok (h, s')) :
    Tracked fs disk dev h [] [] s' := by
  have hfew : s.held.length + 3 < 2 ^ 32 := by
    rw [hheld]
    decide
  have hC : HitOffList s (.get block dev) := hoff.hitOffList hI.inserted.list hdev hfew
  obtain ⟨free, hrec⟩ := hrec
  obtain ⟨hexec, hh, hheld'⟩ := cacheStore_get hget
  rw [hheld] at hheld'
  obtain ⟨free', hI', hstep, hl, -, -, hkeep⟩ := hI.get hdev ha hfew hget
  refine ⟨⟨⟨free', hI', ?_⟩, by rw [hh]; exact hl, by rw [hheld']; rfl⟩,
    recycleInv_step hrec hC hexec, ?_⟩
  · cases hstep with
    | @hit _ _ i hf hfree hh₁ =>
      obtain ⟨⟨-, hd⟩, -⟩ := searchChain_some hf
      rw [hfree, only_holder hheld hheld' hh₁]
      exact hoff i (by rw [hd]; exact hdev)
    | @miss _ _ i hf hfree hh₁ =>
      have hnd := hI.inserted.list.list.nodup
      rw [hfree, List.nodup_cons] at hnd
      rw [only_holder hheld hheld' hh₁]
      exact hnd.1
  · rw [hheld']
    intro q hq
    rw [List.mem_singleton.mp hq, hh]

lemma readSuperblock_two (sectors : Sectors) :
    readSuperblock (fun lba => if lba = 2 then sectors 2 else sectors 3) =
      readSuperblock sectors := by
  funext i
  unfold readSuperblock
  split <;> rfl

/-- What the mount leaves: the superblock comes from the disk, and the one buffer that is kept shows
the group descriptors. -/
lemma mount_tracked (hdev : dev ≠ 0) (ha : findBdev fs dev = .ok a)
    {m : Ending CacheState UInt32 Handle Volume}
    (hm : parseSuperblockVia.via (cacheStore fs dev) p h (freshState disk) = .ok m) :
    ext2ParseSuperblock (readSuperblock (disk a)) = .ok m.value ∧
      ∃ q : Handle, m.kept = [q] ∧ q.block = bgdSector m.value.geometry ∧ q.dev = dev ∧
        Tracked fs disk dev q [] [] m.state := by
  obtain ⟨h₁, s₁, lo, s₂, m₁, hget₁, hlo, hput₁, hm₁, rfl⟩ := via_visit hm
  obtain ⟨h₂, s₃, hi, s₄, m₂, hget₂, hhi, hput₂, hm₂, rfl⟩ := via_visit hm₁
  have hd0 : ∀ i, ((freshState disk).world.cache.pool i).dev = 0 :=
    fun i => congrArg BufferHead.dev (initBuffer_unlinked (fun _ => zeroed) i)
  have hc0 : ((freshState disk).world.cache.pool 0).count = 0 :=
    congrArg BufferHead.count (initBuffer_unlinked (fun _ => zeroed) 0)
  have hfree : List.finRange maxBuffer = 0 :: (List.finRange maxBuffer).tail := by decide
  obtain ⟨hl₁, hheld₁, hrec₁, hone₁, hlab₁, hclean₁, -⟩ := visit_front (i := 0)
    (hfree ▸ fresh_clean fs disk) ⟨_, recycleInv_fresh disk⟩ (fun j _ => hd0 j)
    (fun hl => hdev (hl.2.symm.trans (hd0 0))) rfl hdev ha hget₁ hput₁
  have hclean₁ := hclean₁ hc0
  obtain ⟨hl₂, hheld₂, hrec₂, hone₂, hlab₂, -, hclean₂⟩ := visit_front hclean₁ hrec₁ hone₁
    (fun hl => absurd (hlab₁.1.symm.trans hl.1) (by decide)) hheld₁ hdev ha hget₂ hput₂
  have hclean₂ := hclean₂ (count_after_visit hclean₁ hheld₁ (by rw [hlab₁.2]; exact hdev))
  have hoff : LabelledOff s₄ (List.finRange maxBuffer).tail := by
    intro i hd
    by_cases hi : i = 0
    · rw [hi]
      decide
    · exact absurd (hone₂ i hi) hd
  have hfew : s₄.held.length + 3 < 2 ^ 32 := by
    rw [hheld₂]
    decide
  obtain rfl := Except.ok.inj (hlo.symm.trans (congrArg Except.ok hl₁))
  obtain rfl := Except.ok.inj (hhi.symm.trans (congrArg Except.ok hl₂))
  cases hv : ext2ParseSuperblock
      (readSuperblock fun lba => if lba = 2 then disk a 2 else disk a 3) with
  | error e =>
    rw [hv] at hm₂
    cases hm₂
  | ok v =>
    rw [hv] at hm₂
    obtain ⟨q, s₅, rb, s₆, e, hget, hbody, hrel, he, rfl⟩ := via_hold hm₂
    obtain rfl := Except.ok.inj hbody
    obtain rfl := Except.ok.inj hrel
    obtain rfl := Except.ok.inj he
    rw [readSuperblock_two] at hv
    obtain ⟨-, hq, -⟩ := cacheStore_get hget
    exact ⟨hv, q, rfl, by rw [hq], by rw [hq], pin_tracked hclean₂ hoff hrec₂ hheld₂ hdev ha hget⟩

/-- What a call returns is what it returns over the sectors, if it is no lookup or lookups count. -/
def ReaderOp.Sound (fs : Devfs) (dev : UInt16) (g : Geometry) (p : Handle) (sectors : Sectors)
    (lookups : Prop) (s : CacheState) : ReaderOp → Prop
  | call c => (c.IsLookup → lookups) → ∀ r, (c.via g).via (cacheStore fs dev) p p s = .ok r →
      c.plain g sectors = .ok r.value
  | put _ => True

lemma meets_true {g : Geometry} (s : CacheState) (op : ReaderOp) :
    op.Meets fs dev g p (fun _ _ => True) s := by
  cases op with
  | call c => exact fun _ _ _ _ => trivial
  | put h => trivial

lemma meets_call {g : Geometry} {C : CacheState → UInt32 → Prop} {α : Type} {c : ReaderCall α}
    {r : Ending CacheState UInt32 Handle α}
    (hr : (c.via g).via (cacheStore fs dev) p p s = .ok r) (hC : ∀ q ∈ r.gets, C q.1 q.2) :
    (ReaderOp.call c).Meets fs dev g p C s := by
  intro r' hr'
  obtain rfl : r = r' := Except.ok.inj (hr.symm.trans hr')
  exact hC

lemma run_sound {g : Geometry} {J : List Handle → List Handle → CacheState → Prop}
    {C : CacheState → UInt32 → Prop} {lookups : Prop} (hJ : Handover p J)
    (hs : ∀ others, Serves (cacheStore fs dev) (disk a) Handle.block (2 ^ 32 - 4 - others.length)
      (J others) C)
    (hcall : ∀ {α : Type} {others s} {c : ReaderCall α} {r}, J others [] s →
      (c.IsLookup → lookups) → (c.via g).via (cacheStore fs dev) p p s = .ok r →
      FewHeld r.state → (∀ q ∈ r.gets, C q.1 q.2) → c.plain g (disk a) = .ok r.value)
    {s₀ : CacheState} (h₀ : J [] [] s₀) {tr : List (CacheState × ReaderOp)}
    (hr : Run (ReaderOp.Step fs dev g p) s₀ tr s) (hn : FewHeld s) (hfew : ∀ q ∈ tr, FewHeld q.1)
    (hC : ∀ q ∈ tr, q.2.Meets fs dev g p C q.1) :
    ∀ q ∈ tr, q.2.Sound fs dev g p (disk a) lookups q.1 := by
  induction hr with
  | nil => simp
  | @cons tr s s' op hr hstep ih =>
    rw [List.forall_mem_cons] at hfew hC ⊢
    refine ⟨?_, ih hfew.1 hfew.2 hC.2⟩
    obtain ⟨others, hI⟩ := reader_run_keeps hJ hs h₀ hr hfew.1 hfew.2 hC.2
    cases op with
    | call c =>
      intro hl r hvia
      obtain ⟨r', hvia', rfl⟩ := hstep
      obtain rfl : r' = r := Except.ok.inj (hvia'.symm.trans hvia)
      exact hcall hI hl hvia hn (hC.1 r' hvia)
    | put h => trivial

/-- After the mount of a volume, in every run of readers with room for the counts, the buffer of
the group descriptors stays what it is, and every call that returns and is no `ext2_lookup` returns
what it does over the sectors of the disk. The same holds of `ext2_lookup` if no `get_block` of
the run hits a record on the free list. -/
theorem readers_read_the_disk (fs : Devfs) (disk : UInt32 → UInt32 → Payload) (dev : UInt16)
    (a : UInt32) (h : Handle) (hdev : dev ≠ 0) (ha : findBdev fs dev = .ok a)
    {m : Ending CacheState UInt32 Handle Volume}
    (hm : parseSuperblockVia.via (cacheStore fs dev) h h (freshState disk) = .ok m) :
    ext2ParseSuperblock (readSuperblock (disk a)) = .ok m.value ∧ ∃ p, m.kept = [p] ∧
      ∀ tr s, Run (ReaderOp.Step fs dev m.value.geometry p) m.state tr s →
        (∀ q ∈ tr, FewHeld q.1) → FewHeld s →
        (cacheStore fs dev).look s p = disk a (bgdSector m.value.geometry) ∧
        (∀ q ∈ tr, q.2.Sound fs dev m.value.geometry p (disk a) False q.1) ∧
        ((∀ q ∈ tr, q.2.Meets fs dev m.value.geometry p
            (fun s block => HitOffList s (.get block dev)) q.1) →
          ∀ q ∈ tr, q.2.Sound fs dev m.value.geometry p (disk a) True q.1) := by
  obtain ⟨hv, p, hkept, hb, hp, hT⟩ := mount_tracked hdev ha hm
  refine ⟨hv, p, hkept, fun tr s hr hfew hn => ⟨?_, ?_, fun hC => ?_⟩⟩
  · obtain ⟨others, hI⟩ := reader_run_keeps pinned_handover (fun _ => pinned_serves hdev ha)
      hT.pinned hr hn hfew (fun q _ => meets_true q.1 q.2)
    rw [← hb]
    exact hI.look (hp ▸ hdev) (hp ▸ ha)
  · exact run_sound pinned_handover (fun _ => pinned_serves hdev ha)
      (fun hI hl hr hn _ => reader_reads hp hb hdev ha hI hl hr hn) hT.pinned hr hn hfew
      (fun q _ => meets_true q.1 q.2)
  · exact run_sound tracked_handover (fun _ => tracked_serves hdev ha)
      (fun hI _ hr hn hC => lookup_reads hp hb hdev ha hI hr hn hC) hT hr hn hfew hC

/-- A volume with the directory of `namesDisk` and a superblock before it. -/
def mountDisk : UInt32 → UInt32 → Payload := fun _ lba =>
  if lba = 2 then fun i => match i.val with
    | 33 => 0x20 | 40 => 8 | 56 => 0x53 | 57 => 0xEF | _ => 0
  else namesDisk lba

/-- The inode of the directory is read and kept, three bytes of the superblock are read, and a name
is looked up. -/
theorem readers_read_the_disk_mounted :
    ∃ m p tr s, parseSuperblockVia.via (cacheStore oneDisk 0x300) ⟨0, 0, 0⟩ ⟨0, 0, 0⟩
        (freshState mountDisk) = .ok m ∧ m.kept = [p] ∧
      Run (ReaderOp.Step oneDisk 0x300 m.value.geometry p) m.state tr s ∧ tr.length = 3 ∧
      s.held.length = 2 ∧
      ∀ q ∈ tr, q.2.Sound oneDisk 0x300 m.value.geometry p (mountDisk 0x1000) True q.1 := by
  have hrun : ((do
      let m ← parseSuperblockVia.via (cacheStore oneDisk 0x300) ⟨0, 0, 0⟩ ⟨0, 0, 0⟩
        (freshState mountDisk)
      let p := m.kept.headD ⟨0, 0, 0⟩
      let r ← ((ReaderCall.readInode 1 false).via m.value.geometry).via (cacheStore oneDisk 0x300) p
        p m.state
      let q ← ((ReaderCall.bdevRead 3 1080).via m.value.geometry).via (cacheStore oneDisk 0x300) p
        p r.state
      let l ← ((ReaderCall.ext2Lookup 3 dirInode (fun _ => .ok 0x2E) 1 dirInode).via
        m.value.geometry).via (cacheStore oneDisk 0x300) p p q.state
      pure (decide (l.state.held.length = 2 ∧ (FewHeld m.state ∧ FewHeld r.state ∧ FewHeld q.state ∧
        FewHeld l.state) ∧ (∀ x ∈ r.gets, HitOffList x.1 (.get x.2 0x300)) ∧
        (∀ x ∈ q.gets, HitOffList x.1 (.get x.2 0x300)) ∧
        ∀ x ∈ l.gets, HitOffList x.1 (.get x.2 0x300))) : Except Fault Bool)).toOption =
      some true := by
    decide +kernel
  obtain ⟨m, hm, h⟩ := bind_eq_ok (eq_ok_of_toOption hrun)
  obtain ⟨r, hr, h⟩ := bind_eq_ok h
  obtain ⟨q, hq, h⟩ := bind_eq_ok h
  obtain ⟨l, hl, h⟩ := bind_eq_ok h
  obtain ⟨hheld, ⟨hfm, hfr, hfq, hfl⟩, hCr, hCq, hCl⟩ := of_decide_eq_true (Except.ok.inj h)
  have ha : findBdev oneDisk 0x300 = .ok 0x1000 := by decide +kernel
  obtain ⟨-, p, hkept, hruns⟩ :=
    readers_read_the_disk oneDisk mountDisk 0x300 0x1000 ⟨0, 0, 0⟩ (by decide) ha hm
  rw [hkept] at hr hq hl
  let first : ReaderOp := .call (.readInode 1 false)
  let second : ReaderOp := .call (.bdevRead 3 1080)
  let third : ReaderOp := .call (.ext2Lookup 3 dirInode (fun _ => .ok 0x2E) 1 dirInode)
  have hrun : Run (ReaderOp.Step oneDisk 0x300 m.value.geometry p) m.state
      [(q.state, third), (r.state, second), (m.state, first)] l.state :=
    ((Run.nil.cons ⟨r, hr, rfl⟩).cons ⟨q, hq, rfl⟩).cons ⟨l, hl, rfl⟩
  obtain ⟨-, -, hsound⟩ := hruns _ _ hrun (by simp [hfm, hfr, hfq]) hfl
  refine ⟨m, p, _, l.state, hm, hkept, hrun, rfl, hheld, hsound ?_⟩
  simp only [List.forall_mem_cons]
  exact ⟨meets_call hl hCl, meets_call hq hCq, meets_call hr hCr, by simp⟩

/-- The same volume, where the name `.` leads to inode 5 in the next sector of the table. -/
def farDisk : UInt32 → UInt32 → Payload := fun _ lba =>
  if lba = 100 then fun i => match i.val with
    | 0 => 5 | 4 => 12 | 6 => 1 | 8 => 0x2E | _ => 0
  else mountDisk 0 lba

/-- The record of the directory's sector is hit on the free list and recycled for the inode that
was found, before its number is read. -/
theorem lookup_reads_recycled :
    ∃ m p s r, parseSuperblockVia.via (cacheStore oneDisk 0x300) ⟨0, 0, 0⟩ ⟨0, 0, 0⟩
        (freshState farDisk) = .ok m ∧ m.kept = [p] ∧
      (∃ tr, Run (ReaderOp.Step oneDisk 0x300 m.value.geometry p) m.state tr s) ∧
      (ext2LookupVia m.value.geometry 3 dirInode (fun _ => .ok 0x2E) 1 dirInode).via
        (cacheStore oneDisk 0x300) p p s = .ok r ∧ r.value.2.1.iNo = 0 ∧
      (ext2Lookup m.value.geometry (farDisk 0x1000) 3 dirInode (fun _ => .ok 0x2E) 1
        dirInode).map (fun v => v.2.1.iNo) = .ok 5 := by
  have hrun : ((do
      let m ← parseSuperblockVia.via (cacheStore oneDisk 0x300) ⟨0, 0, 0⟩ ⟨0, 0, 0⟩
        (freshState farDisk)
      let p := m.kept.headD ⟨0, 0, 0⟩
      let r ← ((ReaderCall.readInode 1 false).via m.value.geometry).via (cacheStore oneDisk 0x300) p
        p m.state
      let q ← ((ReaderCall.bdevRead 3 51200).via m.value.geometry).via (cacheStore oneDisk 0x300) p
        p r.state
      let l ← (ext2LookupVia m.value.geometry 3 dirInode (fun _ => .ok 0x2E) 1 dirInode).via
        (cacheStore oneDisk 0x300) p p q.state
      let v ← ext2Lookup m.value.geometry (farDisk 0x1000) 3 dirInode (fun _ => .ok 0x2E) 1 dirInode
      pure (decide (m.kept.length = 1 ∧ l.value.2.1.iNo = 0 ∧ v.2.1.iNo = 5)) :
        Except Fault Bool)).toOption = some true := by
    decide +kernel
  obtain ⟨m, hm, h⟩ := bind_eq_ok (eq_ok_of_toOption hrun)
  obtain ⟨r, hr, h⟩ := bind_eq_ok h
  obtain ⟨q, hq, h⟩ := bind_eq_ok h
  obtain ⟨l, hl, h⟩ := bind_eq_ok h
  obtain ⟨v, hv, h⟩ := bind_eq_ok h
  obtain ⟨hkept, hl0, hv5⟩ := of_decide_eq_true (Except.ok.inj h)
  obtain ⟨p, hp⟩ := List.length_eq_one_iff.mp hkept
  rw [hp] at hr hq hl
  refine ⟨m, p, q.state, l, hm, hp, ⟨[(r.state, .call (.bdevRead 3 51200)),
    (m.state, .call (.readInode 1 false))], (Run.nil.cons ⟨r, hr, rfl⟩).cons ⟨q, hq, rfl⟩⟩, hl, hl0,
    ?_⟩
  rw [hv]
  exact congrArg Except.ok hv5

end SaxonOS.Proofs
