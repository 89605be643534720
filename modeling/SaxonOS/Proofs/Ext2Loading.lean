import SaxonOS.Proofs.Ext2Admission
import SaxonOS.Proofs.Ext2Superblock

/-!
# Loading inodes

`ext2_read_super` and `ext2_lookup` load the fields of an inode from its record on the disk.
`ext2_read_inode` takes them from a temporary inode that nothing was read into.
-/

namespace SaxonOS.Proofs
open Lib

/-- The fields of a record, in a `struct inode`. -/
structure LoadedFrom (record : Ext2Inode) (inode : VfsInode) : Prop where
  size : inode.size = record.sizeLow
  gid : inode.gid = record.gid.toUInt32
  uid : inode.uid = record.uid.toUInt32

structure SameFields (a b : VfsInode) : Prop where
  size : a.size = b.size
  gid : a.gid = b.gid
  uid : a.uid = b.uid

/-- `ext2_read_inode` gives the fields of the record, and so what the other two store. -/
def LoadsRecord (v : Volume) (sectors : Sectors) (record : Ext2Inode) (dest : VfsInode)
    (r : Resources) : Prop :=
  ∃ dest' r', ext2ReadInode r dest = .ok (dest', r') ∧ LoadedFrom record dest' ∧
    (dest.iNo = 2 → ∀ {n : Nat} (registry : Registry n) sb dev r₀ bs₀ sb' r₀',
      Layout r₀.heap bs₀ → ext2ReadSuper registry sectors sb dev r₀ = .ok (sb', r₀') →
      SameFields (vfsInodeAt r₀'.heap.mem sb'.root) dest') ∧
    ∀ fuel dir filename len result found held,
      ext2Lookup v.geometry sectors fuel dir filename len result = .ok (0, found, held) →
      found.iNo = dest.iNo → found.size = dest'.size

/-- It gives them whatever the memory behind the same blocks of the heap held before. -/
def LoadsIndependently (v : Volume) (sectors : Sectors) (record : Ext2Inode) (dest : VfsInode)
    (r : Resources) (bs : List Extent) : Prop :=
  ∀ m, Layout { r.heap with mem := m } bs →
    LoadsRecord v sectors record dest { r with heap := { r.heap with mem := m } }

/-- The bytes that `kmalloc` hands out for the temporary inode are those of the record, as far as
they are read. -/
def StaleRecord (record : Ext2Inode) (r : Resources) (bs : List Extent) : Prop :=
  r.heap.heapStart ≠ 0 ∧ ∃ e, FirstFit sizeofExt2Inode bs e ∧
    (ext2InodeAt r.heap.mem (payload e)).sizeLow = record.sizeLow ∧
    (ext2InodeAt r.heap.mem (payload e)).gid = record.gid ∧
    (ext2InodeAt r.heap.mem (payload e)).uid = record.uid

section Memory

variable {m m' : Mem} {p : UInt32}

lemma ext2InodeAt_congr (hp : p.toNat + 128 ≤ 2 ^ 32)
    (h : ∀ x : UInt32, p.toNat ≤ x.toNat → x.toNat < p.toNat + 128 → m' x = m x) :
    ext2InodeAt m' p = ext2InodeAt m p := by
  funext i
  have hi : (p + UInt32.ofNat i.val).toNat = p.toNat + i.val := by
    have hin := toNat_ofNat_small (k := i.val) (by omega)
    rw [toNat_add_small (by omega), hin]
  exact h _ (by omega) (by omega)

lemma vfsInodeAt_congr (hp : p.toNat + 52 ≤ 2 ^ 32)
    (h : ∀ x : UInt32, p.toNat ≤ x.toNat → x.toNat < p.toNat + 52 → m' x = m x) :
    vfsInodeAt m' p = vfsInodeAt m p := by
  have hword : ∀ k : UInt32, k.toNat ≤ 48 → read32 m' (p + k) = read32 m (p + k) :=
    fun k hk => read32_range_congr (by omega) (fun x _ _ => h x (by omega) (by omega))
  simp only [vfsInodeAt, hword 4 (by decide), hword 8 (by decide), hword 20 (by decide),
    hword 24 (by decide)]

/-- A write to a field of `root` stays in its 52 bytes. -/
lemma write32_root_outside {root k x : UInt32} (v : UInt32) (hr : root.toNat + 52 ≤ 2 ^ 32)
    (hk : k.toNat ≤ 48) (hx : x.toNat < root.toNat ∨ root.toNat + 52 ≤ x.toNat) :
    write32 m (root + k) v x = m x := by
  have hrk : (root + k).toNat = root.toNat + k.toNat := toNat_add_small (by omega)
  apply write32_outside _ _ (by omega)
  unfold Outside
  omega

/-- It leaves the other fields of `root`. -/
lemma read32_write32_root {root i j : UInt32} (hr : root.toNat + 52 ≤ 2 ^ 32) (m : Mem)
    (v : UInt32) (hi : i.toNat ≤ 48) (hj : j.toNat ≤ 48)
    (hij : i.toNat + 4 ≤ j.toNat ∨ j.toNat + 4 ≤ i.toNat) :
    read32 (write32 m (root + i) v) (root + j) = read32 m (root + j) := by
  have hri : (root + i).toNat = root.toNat + i.toNat := toNat_add_small (by omega)
  have hrj : (root + j).toNat = root.toNat + j.toNat := toNat_add_small (by omega)
  apply read32_range_congr (by omega)
  intro x hlo hhi
  apply write32_outside _ _ (by omega)
  unfold Outside
  omega

end Memory

section Root

variable {m : Mem} {root tmp : UInt32} (hr : root.toNat + 52 ≤ 2 ^ 32)
  (ht : tmp.toNat + 128 ≤ 2 ^ 32)
  (hap : tmp.toNat + 128 ≤ root.toNat ∨ root.toNat + 52 ≤ tmp.toNat)
include hr ht hap

/-- A write to `root` leaves `tmp`. -/
lemma ext2InodeAt_write_root (m : Mem) {k : UInt32} (v : UInt32) (hk : k.toNat ≤ 48) :
    ext2InodeAt (write32 m (root + k) v) tmp = ext2InodeAt m tmp := by
  apply ext2InodeAt_congr ht
  intro x hlo hhi
  exact write32_root_outside v hr hk (by omega)

omit ht hap in
lemma fillRoot_outside (m : Mem) {x : UInt32}
    (hx : x.toNat < root.toNat ∨ root.toNat + 52 ≤ x.toNat) : fillRoot m root tmp x = m x := by
  simp only [fillRoot]
  rw [write32_root_outside _ hr (by decide) hx, write32_root_outside _ hr (by decide) hx,
    write32_root_outside _ hr (by decide) hx, write32_root_outside _ hr (by decide) hx,
    write32_root_outside _ hr (by decide) hx]

/-- The root gets the fields of the temporary inode. -/
lemma vfsInodeAt_fillRoot (m : Mem) : vfsInodeAt (fillRoot m root tmp) root =
    ⟨2, (ext2InodeAt m tmp).sizeLow, (ext2InodeAt m tmp).gid.toUInt32,
      (ext2InodeAt m tmp).uid.toUInt32⟩ := by
  have h4 := fun m v => ext2InodeAt_write_root hr ht hap m (k := 4) v (by decide)
  have h8 := fun m v => ext2InodeAt_write_root hr ht hap m (k := 8) v (by decide)
  have h20 := fun m v => ext2InodeAt_write_root hr ht hap m (k := 20) v (by decide)
  have h24 := fun m v => ext2InodeAt_write_root hr ht hap m (k := 24) v (by decide)
  simp only [fillRoot, vfsInodeAt, h4, h8, h20, h24]
  simp (disch := decide) only [read32_write32_root hr, read32_write32_same]

end Root

section Mount

variable {h h' : Heap} {bs bs' : List Extent} {e : Extent} {n p : UInt32}

/-- A call of `kmalloc` that returns found a block. -/
lemma kmalloc_ok (hL : Layout h bs) (hn : 4 ∣ n.toNat) (hk : kmalloc h n = .ok (p, h')) :
    h.heapStart ≠ 0 ∧ ∃ e bs', FirstFit n bs e ∧ p = payload e ∧ TakesBlock h bs n e h' bs' := by
  by_cases hserved : h.heapStart ≠ 0 ∧ ∃ e, FirstFit n bs e
  · obtain ⟨h0, e, he⟩ := hserved
    obtain ⟨h'', bs', hk', ht⟩ := kmalloc_takes hL h0 hn he
    rw [hk'] at hk
    obtain ⟨rfl, rfl⟩ := Prod.mk.inj (Except.ok.inj hk)
    exact ⟨h0, e, bs', he, rfl, ht⟩
  · rw [kmalloc_refuses hL (ne_one_of_dvd hn) hserved] at hk
    cases hk

/-- The bytes of a block that `kmalloc` takes are the stale ones. -/
lemma TakesBlock.ext2InodeAt_eq (ht : TakesBlock h bs sizeofExt2Inode e h' bs') (he : e ∈ bs)
    (hL : Layout h bs) : ext2InodeAt h'.mem (payload e) = ext2InodeAt h.mem (payload e) := by
  obtain ⟨c, hc, -, hca, hcs⟩ := ht.block
  have h128 : sizeofExt2Inode.toNat = 128 := rfl
  have hsz := size_lt_of_tiles ht.layout.tiles h'.heapEnd.toNat_lt hc
  have hp := hL.toNat_payload he
  apply ext2InodeAt_congr (by omega)
  intro x hlo hhi
  exact ht.frame x (inNoHeader_payload ht.layout.tiles hc (by omega) (by omega))

/-- What a call of `ext2_read_super` that returns has done. -/
structure Mounted {n : Nat} (sectors : Sectors) (r r' : Resources) (sb : SuperBlock n) (v : Volume)
    (tmp bh : UInt32) (record : Ext2Inode) (h₁ h₂ : Heap) : Prop where
  parsed : ext2ParseSuperblock (readSuperblock sectors) = .ok v
  taken : kmalloc r.heap sizeofExt2Inode = .ok (tmp, h₁)
  read : readInode v.geometry sectors 2 = .ok (bh, record)
  root : kmalloc { h₁ with mem := storeInode h₁.mem tmp record } sizeofInode = .ok (sb.root, h₂)
  heap : r'.heap = kfree { h₂ with mem := fillRoot h₂.mem sb.root tmp } tmp
  calls : r'.calls = r.calls ++ [.getBlock 2, .putBlock 2, .getBlock 3, .putBlock 3,
    .getBlock (bgdSector v.geometry), .kmalloc sizeofExt2Inode tmp, .getBlock bh,
    .kmalloc sizeofInode sb.root, .kfree tmp]

lemma resources_kmalloc_ok {r r' : Resources} (hk : r.kmalloc n = .ok (p, r')) :
    ∃ h', kmalloc r.heap n = .ok (p, h') ∧ r' = ⟨h', r.calls ++ [.kmalloc n p]⟩ := by
  obtain ⟨⟨q, h'⟩, hq, hk⟩ := bind_eq_ok hk
  obtain ⟨rfl, rfl⟩ := Prod.mk.inj (Except.ok.inj hk)
  exact ⟨h', hq, rfl⟩

lemma resources_readInode_ok {g : Geometry} {sectors : Sectors} {r r' : Resources}
    {dest ino bh : UInt32} (hk : r.readInode g sectors dest ino = .ok (bh, r')) :
    ∃ record, readInode g sectors ino = .ok (bh, record) ∧
      r' = (r.getBlock bh).store (storeInode r.heap.mem dest record) := by
  obtain ⟨⟨b, record⟩, hb, hk⟩ := bind_eq_ok hk
  obtain ⟨rfl, rfl⟩ := Prod.mk.inj (Except.ok.inj hk)
  exact ⟨record, hb, rfl⟩

lemma mounted_of_ok {n : Nat} {registry : Registry n} {sectors : Sectors} {sb sb' : SuperBlock n}
    {dev : UInt32} {r r' : Resources}
    (hm : ext2ReadSuper registry sectors sb dev r = .ok (sb', r')) :
    ∃ v tmp bh record h₁ h₂, Mounted sectors r r' sb' v tmp bh record h₁ h₂ := by
  unfold ext2ReadSuper at hm
  obtain ⟨v, hv, hm⟩ := bind_eq_ok hm
  obtain ⟨⟨tmp, r₁⟩, htmp, hm⟩ := bind_eq_ok hm
  obtain ⟨⟨bh, r₂⟩, hread, hm⟩ := bind_eq_ok hm
  obtain ⟨⟨root, r₃⟩, hroot, hm⟩ := bind_eq_ok hm
  obtain ⟨fsType, -, hm⟩ := bind_eq_ok hm
  obtain ⟨h₁, hk₁, rfl⟩ := resources_kmalloc_ok htmp
  obtain ⟨record, hrec, rfl⟩ := resources_readInode_ok hread
  obtain ⟨h₂, hk₂, rfl⟩ := resources_kmalloc_ok hroot
  obtain ⟨rfl, rfl⟩ := Prod.mk.inj (Except.ok.inj hm)
  refine ⟨v, tmp, bh, record, h₁, h₂, hv, hk₁, hrec, hk₂, rfl, ?_⟩
  simp [Resources.getBlock, Resources.putBlock, Resources.kfree, Resources.store]

lemma ext2ReadSuper_returns {n : Nat} {registry : Registry n} {sectors : Sectors}
    {sb : SuperBlock n} {t : Ptr (Fin n)} {r : Resources} {v : Volume} {tmp bh root : UInt32}
    {record : Ext2Inode} {h₁ h₂ : Heap} (dev : UInt32)
    (hparse : ext2ParseSuperblock (readSuperblock sectors) = .ok v)
    (hread : readInode v.geometry sectors 2 = .ok (bh, record))
    (hk₁ : kmalloc r.heap sizeofExt2Inode = .ok (tmp, h₁))
    (hk₂ : kmalloc { h₁ with mem := storeInode h₁.mem tmp record } sizeofInode = .ok (root, h₂))
    (hfs : ext2FsType registry sb.fsType = .ok t) :
    ∃ r', ext2ReadSuper registry sectors sb dev r = .ok (⟨root, t, dev⟩, r') := by
  simp only [ext2ReadSuper, hparse, bind, Except.bind, Resources.kmalloc, Resources.getBlock,
    Resources.putBlock, hk₁, Resources.readInode, hread, Resources.store, hk₂, hfs]
  exact ⟨_, rfl⟩

/-- The root inode is loaded from the record of inode 2. -/
lemma Mounted.loads {n : Nat} {sectors : Sectors} {r r' : Resources} {sb : SuperBlock n}
    {v : Volume} {tmp bh : UInt32} {record : Ext2Inode} {h₁ h₂ : Heap}
    (hm : Mounted sectors r r' sb v tmp bh record h₁ h₂) (hL : Layout r.heap bs) :
    LoadedFrom record (vfsInodeAt r'.heap.mem sb.root) := by
  have h128 : sizeofExt2Inode.toNat = 128 := rfl
  have h52 : sizeofInode.toNat = 52 := rfl
  obtain ⟨h0, e, bs₁, he, rfl, ht₁⟩ := kmalloc_ok hL (by decide) hm.taken
  have hem := he.mem.1
  have hL₁ := ht₁.storeInode hem hL record
  obtain ⟨h0₁, f, bs₂, hf, hroot, ht₂⟩ := kmalloc_ok hL₁ (by decide) hm.root
  obtain ⟨c, hc, hcu, hca, hcs⟩ := ht₁.block
  -- The block of the temporary inode is not the one that is taken for the root.
  obtain ⟨d, hd, hda, hds, hapart⟩ := ht₂.apart hL₁ hf hc hcu
  have hc₂ := ht₂.used c hc hcu
  have hcz := size_lt_of_tiles ht₂.layout.tiles h₂.heapEnd.toNat_lt hc₂
  have hdz := size_lt_of_tiles ht₂.layout.tiles h₂.heapEnd.toNat_lt hd
  have hpe := hL.toNat_payload hem
  have hpf : (payload f).toNat = f.addr + 16 := hL₁.toNat_payload hf.mem.1
  have hkept : ext2InodeAt h₂.mem (payload e) = record := by
    rw [← ext2InodeAt_storeInode h₁.mem (payload e) record]
    apply ext2InodeAt_congr (by omega)
    intro x hlo hhi
    exact ht₂.frame x (inNoHeader_payload ht₂.layout.tiles hc₂ (by omega) (by omega))
  have hfill : vfsInodeAt (fillRoot h₂.mem (payload f) (payload e)) (payload f) = _ :=
    vfsInodeAt_fillRoot (by omega) (by omega) (by omega) h₂.mem
  rw [hkept] at hfill
  have hL₂ : Layout { h₂ with mem := fillRoot h₂.mem (payload f) (payload c) } bs₂ := by
    apply ht₂.layout.store hd
    intro x hx
    exact fillRoot_outside (by omega) h₂.mem (by omega)
  have hfree : vfsInodeAt r'.heap.mem sb.root =
      vfsInodeAt (fillRoot h₂.mem (payload f) (payload e)) (payload f) := by
    rw [hm.heap, hroot]
    apply vfsInodeAt_congr (by omega)
    intro x hlo hhi
    have hpc : payload e = payload c := by rw [payload, payload, hca]
    rw [hpc]
    exact kfree_outside hL₂ (ht₂.start.trans_ne h0₁) hc₂
      (inNoHeader_payload hL₂.tiles hd (by omega) (by omega))
  rw [hfree, hfill]
  exact ⟨rfl, rfl, rfl⟩

end Mount

section Loads

variable {v : Volume} {sectors : Sectors} {record : Ext2Inode} {dest : VfsInode} {r : Resources}
  {bs : List Extent} {bh : UInt32} {e : Extent}

/-- A lookup that succeeds stores the size of the record it resolved to. -/
lemma ext2Lookup_size {g : Geometry} {fuel : Nat} {dir result found : Inode} {filename : Bytes}
    {len : Int32} {held : List UInt32}
    (hl : ext2Lookup g sectors fuel dir filename len result = .ok (0, found, held)) :
    ∃ bh record, readInode g sectors found.iNo = .ok (bh, record) ∧
      found.size = record.sizeLow := by
  obtain ⟨⟨dirBh, dirRecord⟩, -, hl⟩ := bind_eq_ok hl
  have hret : ∀ {x : Inode × List UInt32},
      (.ok ((-1 : Int32), x) : Except Fault (Int32 × Inode × List UInt32)) ≠
        .ok (0, found, held) := by
    intro x hx
    exact absurd (Prod.mk.inj (Except.ok.inj hx)).1 (by decide)
  dsimp only at hl
  split_ifs at hl with hlen htype
  · exact absurd hl hret
  · exact absurd hl hret
  obtain ⟨walk, -, hl⟩ := bind_eq_ok hl
  cases walk with
  | found ino =>
    obtain ⟨⟨bh, record⟩, hrec, hl⟩ := bind_eq_ok hl
    obtain ⟨-, hfound⟩ := Prod.mk.inj (Except.ok.inj hl)
    obtain ⟨rfl, -⟩ := Prod.mk.inj hfound
    exact ⟨bh, record, hrec, rfl⟩
  | stop held => exact absurd hl hret
  | more size => exact absurd hl hret

/-- `ext2_read_inode` stores what the stale bytes say. -/
lemma ext2ReadInode_eq (dest : VfsInode) (hL : Layout r.heap bs) (h0 : r.heap.heapStart ≠ 0)
    (he : FirstFit sizeofExt2Inode bs e) (hi : dest.iNo ≠ 0) :
    ∃ r', ext2ReadInode r dest = .ok ({ dest with
      size := (ext2InodeAt r.heap.mem (payload e)).sizeLow,
      gid := (ext2InodeAt r.heap.mem (payload e)).gid.toUInt32,
      uid := (ext2InodeAt r.heap.mem (payload e)).uid.toUInt32 }, r') := by
  obtain ⟨h', bs', hk, ht⟩ := kmalloc_takes hL h0 (by decide) he
  rw [← ht.ext2InodeAt_eq he.mem.1 hL]
  refine ⟨Resources.kfree ⟨h', r.calls ++ [.kmalloc sizeofExt2Inode (payload e)]⟩ (payload e), ?_⟩
  simp only [ext2ReadInode, if_pos hi, Resources.kmalloc, hk, bind, Except.bind]

lemma ext2ReadInode_panics (hL : Layout r.heap bs) (hi : dest.iNo ≠ 0)
    (hnone : ¬(r.heap.heapStart ≠ 0 ∧ ∃ e, FirstFit sizeofExt2Inode bs e)) :
    ext2ReadInode r dest = .error (.panic [] "can't allocate memory") := by
  have hk := kmalloc_refuses hL (by decide) hnone
  simp only [ext2ReadInode, if_pos hi, Resources.kmalloc, hk, bind, Except.bind]

/-- The other two functions load the record whatever the heap holds. -/
lemma LoadedFrom.others {dest' : VfsInode} (hload : LoadedFrom record dest')
    (hparse : ext2ParseSuperblock (readSuperblock sectors) = .ok v)
    (hrec : readInode v.geometry sectors dest.iNo = .ok (bh, record)) :
    (dest.iNo = 2 → ∀ {n : Nat} (registry : Registry n) sb dev r₀ bs₀ sb' r₀',
      Layout r₀.heap bs₀ → ext2ReadSuper registry sectors sb dev r₀ = .ok (sb', r₀') →
      SameFields (vfsInodeAt r₀'.heap.mem sb'.root) dest') ∧
    ∀ fuel dir filename len result found held,
      ext2Lookup v.geometry sectors fuel dir filename len result = .ok (0, found, held) →
      found.iNo = dest.iNo → found.size = dest'.size := by
  refine ⟨?_, ?_⟩
  · intro h2 n registry sb dev r₀ bs₀ sb' r₀' hL hmount
    obtain ⟨v', tmp, bh', root, h₁, h₂, hm⟩ := mounted_of_ok hmount
    have hv : v' = v := Except.ok.inj (hm.parsed.symm.trans hparse)
    have hread := hm.read
    rw [hv, ← h2, hrec] at hread
    obtain ⟨-, rfl⟩ := Prod.mk.inj (Except.ok.inj hread)
    have hroot := hm.loads hL
    exact ⟨hroot.size.trans hload.size.symm, hroot.gid.trans hload.gid.symm,
      hroot.uid.trans hload.uid.symm⟩
  · intro fuel dir filename len result found held hlookup hino
    obtain ⟨bh', found', hread, hsize⟩ := ext2Lookup_size hlookup
    rw [hino, hrec] at hread
    obtain ⟨-, rfl⟩ := Prod.mk.inj (Except.ok.inj hread)
    exact hsize.trans hload.size.symm

lemma loadsRecord_iff (hL : Layout r.heap bs) (hi : dest.iNo ≠ 0)
    (hparse : ext2ParseSuperblock (readSuperblock sectors) = .ok v)
    (hrec : readInode v.geometry sectors dest.iNo = .ok (bh, record)) :
    LoadsRecord v sectors record dest r ↔ StaleRecord record r bs := by
  constructor
  · rintro ⟨dest', r', hrun, hload, -, -⟩
    by_cases hserved : r.heap.heapStart ≠ 0 ∧ ∃ e, FirstFit sizeofExt2Inode bs e
    · obtain ⟨h0, e, he⟩ := hserved
      obtain ⟨r'', heq⟩ := ext2ReadInode_eq dest hL h0 he hi
      rw [heq] at hrun
      obtain ⟨rfl, -⟩ := Prod.mk.inj (Except.ok.inj hrun)
      exact ⟨h0, e, he, hload.size, UInt16.toUInt32_inj.mp hload.gid,
        UInt16.toUInt32_inj.mp hload.uid⟩
    · rw [ext2ReadInode_panics hL hi hserved] at hrun
      cases hrun
  · rintro ⟨h0, e, he, hsize, hgid, huid⟩
    obtain ⟨r', heq⟩ := ext2ReadInode_eq dest hL h0 he hi
    rw [hsize, hgid, huid] at heq
    have hload : LoadedFrom record { dest with
        size := record.sizeLow, gid := record.gid.toUInt32, uid := record.uid.toUInt32 } :=
      ⟨rfl, rfl, rfl⟩
    exact ⟨_, r', heq, hload, hload.others hparse hrec⟩

/-- Bytes that spell another size. -/
def otherRecord (record : Ext2Inode) : Ext2Inode :=
  if record.sizeLow = 0 then fun _ => 0xFF else fun _ => 0

lemma otherRecord_sizeLow (record : Ext2Inode) : (otherRecord record).sizeLow ≠ record.sizeLow := by
  by_cases h0 : record.sizeLow = 0
  · rw [otherRecord, if_pos h0, h0]
    decide
  · rw [otherRecord, if_neg h0]
    exact fun h => h0 h.symm

/-- A heap with the same blocks on which the temporary inode spells another size. -/
lemma exists_not_loadsRecord (hL : Layout r.heap bs) (hi : dest.iNo ≠ 0)
    (hparse : ext2ParseSuperblock (readSuperblock sectors) = .ok v)
    (hrec : readInode v.geometry sectors dest.iNo = .ok (bh, record))
    (he : FirstFit sizeofExt2Inode bs e) :
    ∃ m, Layout { r.heap with mem := m } bs ∧
      ¬LoadsRecord v sectors record dest { r with heap := { r.heap with mem := m } } := by
  have h128 : sizeofExt2Inode.toNat = 128 := rfl
  obtain ⟨hem, -, hes⟩ := he.mem
  have hp := hL.toNat_payload hem
  have hsz := size_lt_of_tiles hL.tiles r.heap.heapEnd.toNat_lt hem
  have hL' : Layout { r.heap with
      mem := storeInode r.heap.mem (payload e) (otherRecord record) } bs := by
    apply hL.store hem
    intro x hx
    exact storeInode_outside (by omega) (by omega)
  refine ⟨_, hL', ?_⟩
  rw [loadsRecord_iff hL' hi hparse hrec]
  rintro ⟨-, f, hf, hsize, -, -⟩
  have hfe : f = e := Option.some.inj (hf.symm.trans he)
  rw [hfe] at hsize
  dsimp only at hsize
  rw [ext2InodeAt_storeInode] at hsize
  exact otherRecord_sizeLow record hsize

end Loads

/-- For no inode of any volume and on no heap does `ext2_read_inode` load the record of the disk
independently of the bytes that `kmalloc` hands out: where it returns at all, some bytes give
another size. -/
theorem ext2_read_inode_never_loads (v : Volume) (sectors : Sectors) (record : Ext2Inode)
    (dest : VfsInode) (r : Resources) (bs : List Extent) (bh : UInt32) (hL : Layout r.heap bs)
    (hparse : ext2ParseSuperblock (readSuperblock sectors) = .ok v) (hi : dest.iNo ≠ 0)
    (hrec : readInode v.geometry sectors dest.iNo = .ok (bh, record)) :
    ¬LoadsIndependently v sectors record dest r bs := by
  intro hload
  by_cases hserved : ∃ e, FirstFit sizeofExt2Inode bs e
  · obtain ⟨e, he⟩ := hserved
    obtain ⟨m, hLm, hnot⟩ := exists_not_loadsRecord hL hi hparse hrec he
    exact hnot (hload m hLm)
  · -- No block is large enough, so `kmalloc` panics.
    obtain ⟨-, e, he, -⟩ := (loadsRecord_iff hL hi hparse hrec).mp (hload r.heap.mem hL)
    exact hserved ⟨e, he⟩

/-- The disk with a superblock and the file of 1000 bytes. -/
def volumeDisk : Sectors := fun s i =>
  if s = 2 then plainSuperblock 8 8 8 ⟨i.val, Nat.lt_of_lt_of_le i.isLt (by decide)⟩
  else smallDisk s i

def fileVolume : Volume := ⟨smallGeometry, 1024, 8, 8, 8, 1, false⟩

lemma volumeDisk_parsed : ext2ParseSuperblock (readSuperblock volumeDisk) = .ok fileVolume := by
  have hsb : readSuperblock volumeDisk = plainSuperblock 8 8 8 := by
    funext i
    unfold readSuperblock
    split
    · simp [volumeDisk]
    · next hi =>
      have hlarge : 512 ≤ i.val := Nat.le_of_not_lt hi
      have hne : ∀ k < 512, i.val ≠ k := by
        rintro k hk rfl
        omega
      simp [volumeDisk, smallDisk, plainSuperblock, hne]
  rw [hsb]
  rfl

lemma volumeDisk_holds : readInode fileVolume.geometry volumeDisk 1 = .ok (10, smallRecord) := by
  apply readInode_small
  · rfl
  · rw [copyInode, dif_pos (by decide)]
    congr 1
    funext i
    simp [volumeDisk, smallDisk]

/-- The file of 1000 bytes, on a heap with one free block. -/
theorem ext2_read_inode_never_loads_file :
    ¬LoadsIndependently fileVolume volumeDisk smallRecord ⟨1, 0, 0, 0⟩ freshResources
      [⟨0x1000, 240, false⟩] :=
  ext2_read_inode_never_loads fileVolume volumeDisk smallRecord ⟨1, 0, 0, 0⟩ freshResources
    [⟨0x1000, 240, false⟩] 10 freshResources_layout volumeDisk_parsed (by decide)
    volumeDisk_holds

/-- On a heap that was just cleared the file of 1000 bytes gets the size 0. -/
theorem ext2_read_inode_loads_zeros :
    smallRecord.sizeLow = 1000 ∧
    (∃ r', ext2ReadInode freshResources ⟨1, 0, 0, 0⟩ = .ok (⟨1, 0, 0, 0⟩, r')) ∧
    ¬LoadsRecord fileVolume volumeDisk smallRecord ⟨1, 0, 0, 0⟩ freshResources := by
  have hsize : (ext2InodeAt freshResources.heap.mem (payload ⟨0x1000, 240, false⟩)).sizeLow = 0 := by
    decide +kernel
  have hgid : (ext2InodeAt freshResources.heap.mem (payload ⟨0x1000, 240, false⟩)).gid = 0 := by
    decide +kernel
  have huid : (ext2InodeAt freshResources.heap.mem (payload ⟨0x1000, 240, false⟩)).uid = 0 := by
    decide +kernel
  obtain ⟨r', heq⟩ := ext2ReadInode_eq ⟨1, 0, 0, 0⟩ freshResources_layout (by decide)
    (e := ⟨0x1000, 240, false⟩) rfl (by decide)
  rw [hsize, hgid, huid] at heq
  refine ⟨by decide, ⟨r', heq⟩, ?_⟩
  rintro ⟨dest', r'', hrun, hload, -, -⟩
  rw [heq] at hrun
  obtain ⟨rfl, -⟩ := Prod.mk.inj (Except.ok.inj hrun)
  have hzero := hload.size
  revert hzero
  decide

end SaxonOS.Proofs
