import SaxonOS.Ext2Calls
import SaxonOS.Proofs.Ext2Read
import SaxonOS.Proofs.Ext2Write
import SaxonOS.Proofs.HeapFrame

/-!
# Admission of reads and writes

The checks before the loops of `ext2_read` and `ext2_write`. The first two refuse a request before
anything is taken; the third comes after the temporary inode, and in `ext2_write` the buffer of
the inode, have been taken, and gives neither back.
-/

namespace SaxonOS.Proofs
open Lib

/-- The request is one for bytes of a regular file. -/
structure Admissible (record : Ext2Inode) (inode : Inode) (count off : UInt32) : Prop where
  regular : record.typePermissions &&& 0xF000 = typeRegFile
  within : off.toNat + count.toNat ≤ inode.size.toNat

/-- How often the buffer of a sector was got and not put. -/
def heldCount (calls : List ResourceCall) (s : UInt32) : Int :=
  (calls.count (.getBlock s) : Int) - calls.count (.putBlock s)

structure Unchanged (bs : List Extent) (r r' : Resources) : Prop where
  blocks : TiledHeap r'.heap bs
  held : ∀ s, heldCount r'.calls s = heldCount r.calls s

/-- The checks let through what is admissible, and refuse the rest with nothing changed. The
propositions `transfers` and `failed` say what the call comes to. -/
def Admits {α : Type} (checks : Except Fault (Option α × Resources)) (r : Resources)
    (bs : List Extent) (admissible transfers failed : Prop) : Prop :=
  (admissible → (∃ a r', checks = .ok (some a, r')) ∧ transfers) ∧
  (¬admissible → ∃ r', checks = .ok (none, r') ∧ Unchanged bs r r' ∧ failed)

def ReadAdmits (g : Geometry) (sectors : Sectors) (record : Ext2Inode) (inode : Inode)
    (count off : UInt32) (r : Resources) (bs : List Extent) : Prop :=
  Admits (ext2ReadChecks g sectors inode count off r) r bs (Admissible record inode count off)
    (∀ fuel, ext2Read g sectors fuel inode count off =
      readFinish (readLoop g sectors record fuel (readPath g sectors record count off 0)))
    (∀ fuel, ext2Read g sectors fuel inode count off = .ok ⟨-1, off, [], []⟩)

def WriteAdmits (g : Geometry) (sectors : Sectors) (record : Ext2Inode) (inode : Inode)
    (count off : UInt32) (r : Resources) (bs : List Extent) : Prop :=
  Admits (ext2WriteChecks g sectors inode count off r) r bs (Admissible record inode count off)
    (∀ fuel buff, ext2Write g sectors fuel inode buff count off =
      writeFinish (writeLoop g buff record fuel (writePath g sectors record buff count off 0)))
    (∀ fuel buff, ext2Write g sectors fuel inode buff count off = .ok ⟨-1, off, sectors⟩)

/-- One of the first two checks refuses the request. -/
def Guarded (inode : Inode) (count off : UInt32) : Prop :=
  inode.size ≤ off + count ∨ inode.flags &&& 1 ≠ 0

/-- The checks do what they should: an admissible request stops short of the end of the file, has
the last bit of the flags clear and finds 128 bytes on the heap, and any other is refused by one
of the first two checks. -/
structure AdmitCondition (record : Ext2Inode) (inode : Inode) (count off : UInt32) (r : Resources)
    (bs : List Extent) : Prop where
  admitted : Admissible record inode count off → off.toNat + count.toNat ≠ inode.size.toNat ∧
    inode.flags &&& 1 = 0 ∧ r.heap.heapStart ≠ 0 ∧ ∃ e, FirstFit sizeofExt2Inode bs e
  refused : ¬Admissible record inode count off → Guarded inode count off

section Inodes

lemma ext2InodeAt_storeInode (m : Mem) (p : UInt32) (t : Ext2Inode) :
    ext2InodeAt (storeInode m p t) p = t := by
  funext i
  have hi : (p + UInt32.ofNat i.val - p).toNat = i.val := by
    rw [UInt32.add_comm, UInt32.add_sub_cancel]
    exact toNat_ofNat_small (by omega)
  simp only [ext2InodeAt, storeInode, hi, i.isLt, dif_pos]

/-- The copy of a record stays in the 128 bytes it is for. -/
lemma storeInode_outside {m : Mem} {p x : UInt32} {t : Ext2Inode} (hp : p.toNat + 128 ≤ 2 ^ 32)
    (hx : x.toNat < p.toNat ∨ p.toNat + 128 ≤ x.toNat) : storeInode m p t x = m x := by
  apply dif_neg
  intro hlt
  have hx32 := x.toNat_lt
  rw [UInt32.toNat_sub] at hlt
  omega

end Inodes

section Taken

variable {h h' : Heap} {bs bs' : List Extent} {e : Extent} {n : UInt32}

lemma Layout.tiledHeap (hL : Layout h bs) : TiledHeap h bs :=
  ⟨hL.headAddr_eq.symm, hL.linked, hL.tiles⟩

/-- The record is copied into the block that was taken for it. -/
lemma TakesBlock.storeInode (ht : TakesBlock h bs sizeofExt2Inode e h' bs') (he : e ∈ bs)
    (hL : Layout h bs) (t : Ext2Inode) :
    Layout { h' with mem := SaxonOS.storeInode h'.mem (payload e) t } bs' := by
  obtain ⟨c, hc, -, hca, hcs⟩ := ht.block
  have h128 : sizeofExt2Inode.toNat = 128 := rfl
  have hsz := size_lt_of_tiles ht.layout.tiles h'.heapEnd.toNat_lt hc
  have hp := hL.toNat_payload he
  apply ht.layout.store hc
  intro x hx
  exact storeInode_outside (by omega) (by omega)

/-- A block that was taken is free in the old list and used in the new one. -/
lemma TakesBlock.not_tiled (ht : TakesBlock h bs sizeofExt2Inode e h' bs') (hL : Layout h bs)
    (he : FirstFit sizeofExt2Inode bs e) (t : Ext2Inode) :
    ¬TiledHeap { h' with mem := SaxonOS.storeInode h'.mem (payload e) t } bs := by
  intro hT
  obtain ⟨hem, heu, -⟩ := he.mem
  obtain ⟨c, hc, hcu, hca, -⟩ := ht.block
  have hL' := ht.storeInode hem hL t
  have heq := linked_unique hL'.linked hL'.tiles hT.linked hT.tiles h'.heapEnd.toNat_lt
  rw [heq] at hem
  have hce := hL'.tiles.addr_injOn (by decide) hem hc hca.symm
  rw [hce, hcu] at heu
  cases heu

end Taken

section Checks

variable {g : Geometry} {sectors : Sectors} {record : Ext2Inode} {inode : Inode}
  {count off bh : UInt32} {r : Resources} {bs : List Extent}

/-- What the checks of both functions do. -/
structure ChecksRun {α : Type} (checks : Except Fault (Option α × Resources)) (record : Ext2Inode)
    (inode : Inode) (count off : UInt32) (r : Resources) : Prop where
  refused : Guarded inode count off → checks = .ok (none, r)
  panics : ∀ e, ¬Guarded inode count off → kmalloc r.heap sizeofExt2Inode = .error e →
    checks = .error e
  reads : ∀ p h, ¬Guarded inode count off → kmalloc r.heap sizeofExt2Inode = .ok (p, h) →
    ∃ a calls, checks = .ok (if record.typePermissions &&& typeRegFile = 0 then none else some a,
      ⟨{ h with mem := storeInode h.mem p record }, calls⟩)

/-- The first two checks of both functions. -/
lemma guarded_ite {α : Type} (hg : Guarded inode count off) (a b : α) :
    (if off + count ≥ inode.size then a else if inode.flags &&& flagsMask ≠ 0 then a else b) =
      a := by
  rw [flagsMask_eq]
  rcases hg with hsize | hflags
  · exact if_pos hsize
  · rw [if_pos hflags, ite_self]

lemma not_guarded_ite {α : Type} (hg : ¬Guarded inode count off) (a b : α) :
    (if off + count ≥ inode.size then a else if inode.flags &&& flagsMask ≠ 0 then a else b) =
      b := by
  obtain ⟨hsize, hflags⟩ := not_or.mp hg
  rw [flagsMask_eq, if_neg hsize, if_neg hflags]

lemma readChecks_run (hrec : readInode g sectors inode.iNo = .ok (bh, record)) :
    ChecksRun (ext2ReadChecks g sectors inode count off r) record inode count off r := by
  refine ⟨?_, ?_, ?_⟩
  · intro hg
    simp only [ext2ReadChecks, strcmp_eq, bind, Except.bind, guarded_ite hg, ne_eq, not_true,
      if_false]
  · intro e hg hk
    simp only [ext2ReadChecks, strcmp_eq, bind, Except.bind, not_guarded_ite hg, ne_eq, not_true,
      if_false, Resources.kmalloc, hk]
  · intro p h hg hk
    refine ⟨p, r.calls ++ [.kmalloc sizeofExt2Inode p] ++ [.getBlock bh] ++ [.putBlock bh], ?_⟩
    simp only [ext2ReadChecks, strcmp_eq, bind, Except.bind, not_guarded_ite hg, ne_eq, not_true,
      if_false, Resources.kmalloc, hk, Resources.readInode, hrec, Resources.store,
      Resources.getBlock, Resources.putBlock, ext2InodeAt_storeInode]
    split_ifs <;> rfl

lemma writeChecks_run (hrec : readInode g sectors inode.iNo = .ok (bh, record)) :
    ChecksRun (ext2WriteChecks g sectors inode count off r) record inode count off r := by
  refine ⟨?_, ?_, ?_⟩
  · intro hg
    simp only [ext2WriteChecks, strcmp_eq, bind, Except.bind, guarded_ite hg, ne_eq, not_true,
      if_false]
  · intro e hg hk
    simp only [ext2WriteChecks, strcmp_eq, bind, Except.bind, not_guarded_ite hg, ne_eq, not_true,
      if_false, Resources.kmalloc, hk]
  · intro p h hg hk
    refine ⟨(p, bh), r.calls ++ [.kmalloc sizeofExt2Inode p] ++ [.getBlock bh], ?_⟩
    simp only [ext2WriteChecks, strcmp_eq, bind, Except.bind, not_guarded_ite hg, ne_eq, not_true,
      if_false, Resources.kmalloc, hk, Resources.readInode, hrec, Resources.store,
      Resources.getBlock, ext2InodeAt_storeInode]
    split_ifs <;> rfl

/-- An admissible request that stops short of the end passes the first check. -/
lemma Admissible.not_guarded (ha : Admissible record inode count off)
    (hend : off.toNat + count.toNat ≠ inode.size.toNat) (hflags : inode.flags &&& 1 = 0) :
    ¬Guarded inode count off := by
  have hin := ha.within
  rintro (hsize | hf)
  · exact admitted_size (by omega) hsize
  · exact hf hflags

lemma Admissible.guarded (hend : off.toNat + count.toNat = inode.size.toNat) :
    Guarded inode count off := by
  left
  have h32 := inode.size.toNat_lt
  rw [UInt32.le_iff_toNat_le, toNat_add_small (by omega)]
  omega

lemma ChecksRun.admits_iff {α : Type} {checks : Except Fault (Option α × Resources)}
    {transfers failed : Prop} (hc : ChecksRun checks record inode count off r)
    (hL : Layout r.heap bs)
    (htransfers : off.toNat + count.toNat < inode.size.toNat → inode.flags &&& 1 = 0 →
      record.typePermissions &&& 0xF000 = typeRegFile → transfers)
    (hfailed : Guarded inode count off → failed) :
    Admits checks r bs (Admissible record inode count off) transfers failed ↔
      AdmitCondition record inode count off r bs := by
  constructor
  · intro hadmits
    refine ⟨?_, ?_⟩
    · intro ha
      obtain ⟨⟨a, r', hsome⟩, -⟩ := hadmits.1 ha
      have hng : ¬Guarded inode count off := by
        intro hg
        rw [hc.refused hg] at hsome
        cases hsome
      refine ⟨fun hend => hng (Admissible.guarded hend), not_not.mp (not_or.mp hng).2, ?_⟩
      by_contra hnone
      rw [hc.panics _ hng (kmalloc_refuses hL (by decide) hnone)] at hsome
      cases hsome
    · intro hna
      obtain ⟨r', hnone, hun, -⟩ := hadmits.2 hna
      by_contra hng
      by_cases hserved : r.heap.heapStart ≠ 0 ∧ ∃ e, FirstFit sizeofExt2Inode bs e
      · obtain ⟨h0, e, he⟩ := hserved
        obtain ⟨h', bs', hk, ht⟩ := kmalloc_takes hL h0 (by decide) he
        obtain ⟨a, calls, hreads⟩ := hc.reads _ _ hng hk
        rw [hreads] at hnone
        obtain ⟨-, rfl⟩ := Prod.mk.inj (Except.ok.inj hnone)
        exact ht.not_tiled hL he record hun.blocks
      · rw [hc.panics _ hng (kmalloc_refuses hL (by decide) hserved)] at hnone
        cases hnone
  · intro hcond
    refine ⟨?_, ?_⟩
    · intro ha
      obtain ⟨hend, hflags, h0, e, he⟩ := hcond.admitted ha
      obtain ⟨h', bs', hk, -⟩ := kmalloc_takes hL h0 (by decide) he
      obtain ⟨a, calls, hreads⟩ := hc.reads _ _ (ha.not_guarded hend hflags) hk
      rw [if_neg (regular_type ha.regular)] at hreads
      have hin := ha.within
      exact ⟨⟨a, _, hreads⟩, htransfers (by omega) hflags ha.regular⟩
    · intro hna
      have hg := hcond.refused hna
      exact ⟨r, hc.refused hg, ⟨hL.tiledHeap, fun _ => rfl⟩, hfailed hg⟩

lemma ext2Read_guarded (hg : Guarded inode count off) (fuel : Nat) :
    ext2Read g sectors fuel inode count off = .ok ⟨-1, off, [], []⟩ := by
  simp only [ext2Read, strcmp_eq, bind, Except.bind, guarded_ite hg, ne_eq, not_true, if_false]

lemma ext2Write_guarded (hg : Guarded inode count off) (fuel : Nat) (buff : Nat → UInt8) :
    ext2Write g sectors fuel inode buff count off = .ok ⟨-1, off, sectors⟩ := by
  simp only [ext2Write, strcmp_eq, bind, Except.bind, guarded_ite hg, ne_eq, not_true, if_false]

end Checks

/-- The checks of both functions decide as they should exactly under the condition. -/
theorem ext2_admission_iff (g : Geometry) (sectors : Sectors) (record : Ext2Inode) (inode : Inode)
    (count off bh : UInt32) (r : Resources) (bs : List Extent) (hL : Layout r.heap bs)
    (hrec : readInode g sectors inode.iNo = .ok (bh, record)) :
    (ReadAdmits g sectors record inode count off r bs ↔
      AdmitCondition record inode count off r bs) ∧
    (WriteAdmits g sectors record inode count off r bs ↔
      AdmitCondition record inode count off r bs) :=
  ⟨(readChecks_run hrec).admits_iff hL (fun h hf ht => ext2Read_eq h hf ht hrec) ext2Read_guarded,
    (writeChecks_run hrec).admits_iff hL (fun h hf ht fuel _ => ext2Write_eq h hf ht hrec fuel)
      ext2Write_guarded⟩

/-- A heap of 240 free bytes, with no calls made. -/
def freshResources : Resources := ⟨freshHeap, []⟩

lemma freshResources_layout : Layout freshResources.heap [⟨0x1000, 240, false⟩] :=
  freshHeap_layout

/-- The first 999 bytes can be read. -/
theorem ext2_admission_iff_small :
    ReadAdmits smallGeometry smallDisk smallRecord smallFile 999 0 freshResources
      [⟨0x1000, 240, false⟩] := by
  apply (ext2_admission_iff _ _ _ _ _ _ _ _ _ freshResources_layout smallDisk_holds).1.mpr
  refine ⟨fun _ => ⟨by decide, by decide, by decide, ⟨0x1000, 240, false⟩, rfl⟩, ?_⟩
  intro hna
  exact absurd ⟨by decide, by decide⟩ hna

/-- All 1000 bytes cannot. -/
theorem ext2_read_refuses_whole_file :
    Admissible smallRecord smallFile 1000 0 ∧
    ext2ReadChecks smallGeometry smallDisk smallFile 1000 0 freshResources =
      .ok (none, freshResources) ∧
    ¬ReadAdmits smallGeometry smallDisk smallRecord smallFile 1000 0 freshResources
      [⟨0x1000, 240, false⟩] := by
  have hadm : Admissible smallRecord smallFile 1000 0 := ⟨by decide, by decide⟩
  have hg : Guarded smallFile 1000 0 := Or.inl (by decide)
  have hnone := (readChecks_run (r := freshResources) smallDisk_holds).refused hg
  refine ⟨hadm, hnone, ?_⟩
  intro hreads
  obtain ⟨⟨a, r', hsome⟩, -⟩ := hreads.1 hadm
  rw [hnone] at hsome
  cases hsome

end SaxonOS.Proofs
