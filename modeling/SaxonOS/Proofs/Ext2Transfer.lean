import SaxonOS.Ext2
import SaxonOS.Lib.Run
import SaxonOS.Proofs.FlatDevice
import SaxonOS.Proofs.Strings
import Mathlib.Tactic.Positivity
import Mathlib.Tactic.Linarith

/-!
# The chunks of an ext2 transfer

`ext2_read` and `ext2_write` move `*off .. *off + count - 1` in chunks of up to one sector. The
chunk `j` uses the entry `*off / BLOCK_SIZE + j` of `direct_block` and the sector `j` of a
block, counted anew for every block, where the file has it in sector `*off / BLOCK_SIZE + j`
counted from the start of the file.
-/

namespace SaxonOS.Proofs
open SaxonOS Lib

/-- The entry `i` of `direct_block` and of what follows it. -/
def pointer (tmp : Ext2Inode) (i : Nat) : UInt32 :=
  match tmp.directBlock i with
  | .ok w => w
  | .error _ => 0

lemma directBlock_ok (tmp : Ext2Inode) {i : Nat} (h : i < 22) :
    tmp.directBlock i = .ok (pointer tmp i) := by
  simp [pointer, Ext2Inode.directBlock, h]

lemma directBlock_outside (tmp : Ext2Inode) {i : Nat} (h : 22 ≤ i) :
    tmp.directBlock i = .error .outOfBounds := by
  simp [Ext2Inode.directBlock, h]

/-- The byte `x` of a file-system block. -/
def blockByte (g : Geometry) (sectors : Sectors) (block : UInt32) (x : Nat) : UInt8 :=
  sectors (addrOfBlock g block + UInt32.ofNat (x / blockSize))
    ⟨x % blockSize, Nat.mod_lt x blockSize_pos⟩

/-- The byte `p` of a file: byte `p mod block_size` of `direct_block[p / block_size]`. -/
def fileByte (g : Geometry) (sectors : Sectors) (tmp : Ext2Inode) (p : Nat) : UInt8 :=
  blockByte g sectors (pointer tmp (p / g.blockSize.toNat)) (p % g.blockSize.toNat)

/-- The sector `s` of a file. -/
def fileSector (g : Geometry) (tmp : Ext2Inode) (s : Nat) : UInt32 :=
  addrOfBlock g (pointer tmp (s / (sectorsPerBlock g).toNat)) +
    UInt32.ofNat (s % (sectorsPerBlock g).toNat)

/-- A sector of one of the direct blocks. -/
def OwnSector (g : Geometry) (tmp : Ext2Inode) (s : UInt32) : Prop :=
  ∃ b < 12, pointer tmp b ≠ 0 ∧ ∃ k < (sectorsPerBlock g).toNat,
    s = addrOfBlock g (pointer tmp b) + UInt32.ofNat k

/-- `block_size = 1024 << k`. -/
def BlockSizeShift (g : Geometry) (k : Nat) : Prop := k < 22 ∧ g.blockSize.toNat = 1024 * 2 ^ k

/-- A regular file whose data lies in its direct blocks. -/
structure DirectFile (g : Geometry) (tmp : Ext2Inode) (inode : Inode) : Prop where
  regular : tmp.typePermissions &&& 0xF000 = typeRegFile
  size : inode.size = tmp.sizeLow
  direct : inode.size.toNat ≤ 12 * g.blockSize.toNat
  allocated : ∀ b, b * g.blockSize.toNat < inode.size.toNat → pointer tmp b ≠ 0

/-- A regular file with a block of its own for every part of its size. -/
structure AllocatedFile (g : Geometry) (tmp : Ext2Inode) (inode : Inode) : Prop extends
    DirectFile g tmp inode where
  distinct : ∀ s t, s * blockSize < inode.size.toNat → t * blockSize < inode.size.toNat →
    fileSector g tmp s = fileSector g tmp t → s = t

/-- The disk holds the record `tmp` for the inode, and none of the file's own sectors is the
one of the record or the one of the group descriptors. -/
structure Apart (g : Geometry) (sectors : Sectors) (inode : Inode) (tmp : Ext2Inode) : Prop where
  holds : ∃ bh, readInode g sectors inode.iNo = .ok (bh, tmp) ∧ ∀ s, OwnSector g tmp s → s ≠ bh
  table : ∀ s, OwnSector g tmp s → s ≠ addrOfBlock g g.bgdAddr

section Geometry

variable {g : Geometry} {k : Nat} {tmp : Ext2Inode} {inode : Inode} {sectors : Sectors}

lemma sectorsPerBlock_toNat (g : Geometry) :
    (sectorsPerBlock g).toNat = g.blockSize.toNat / blockSize :=
  UInt32.toNat_div g.blockSize (UInt32.ofNat blockSize)

lemma BlockSizeShift.sectors_eq (hg : BlockSizeShift g k) :
    (sectorsPerBlock g).toNat = 2 * 2 ^ k := by
  rw [sectorsPerBlock_toNat, hg.2]
  simp only [blockSize]
  omega

lemma BlockSizeShift.sectors_pos (hg : BlockSizeShift g k) : 0 < (sectorsPerBlock g).toNat := by
  rw [hg.sectors_eq]
  positivity

lemma BlockSizeShift.blockSize_eq (hg : BlockSizeShift g k) :
    g.blockSize.toNat = blockSize * (sectorsPerBlock g).toNat := by
  rw [hg.sectors_eq, hg.2]
  simp only [blockSize]
  omega

lemma fileByte_eq (hg : BlockSizeShift g k) (p : Nat) : fileByte g sectors tmp p =
    sectors (fileSector g tmp (p / blockSize)) ⟨p % blockSize, Nat.mod_lt p blockSize_pos⟩ := by
  have hb := hg.blockSize_eq
  have hdiv : p / g.blockSize.toNat = p / blockSize / (sectorsPerBlock g).toNat := by
    rw [hb, Nat.div_div_eq_div_mul]
  have hsec : p % g.blockSize.toNat / blockSize = p / blockSize % (sectorsPerBlock g).toNat := by
    rw [hb, Nat.mod_mul_right_div_self]
  have hmod : p % g.blockSize.toNat % blockSize = p % blockSize := by
    rw [hb, Nat.mod_mul_right_mod]
  simp only [fileByte, blockByte, fileSector, hdiv, hsec, hmod]

lemma ownSector_fileSector (hg : BlockSizeShift g k) (hf : DirectFile g tmp inode) {s : Nat}
    (hs : s * blockSize < inode.size.toNat) : OwnSector g tmp (fileSector g tmp s) := by
  have hn := hg.sectors_pos
  have hb := hg.blockSize_eq
  have hlt : s / (sectorsPerBlock g).toNat * g.blockSize.toNat < inode.size.toNat := by
    have hle : s / (sectorsPerBlock g).toNat * (sectorsPerBlock g).toNat ≤ s :=
      Nat.div_mul_le_self s (sectorsPerBlock g).toNat
    have hmul := Nat.mul_le_mul_right blockSize hle
    rw [hb, Nat.mul_comm blockSize, ← Nat.mul_assoc]
    omega
  refine ⟨s / (sectorsPerBlock g).toNat, ?_, hf.allocated _ hlt, s % (sectorsPerBlock g).toNat,
    Nat.mod_lt s hn, rfl⟩
  have hd := hf.direct
  have hpos : 0 < g.blockSize.toNat := by
    rw [hb]
    exact Nat.mul_pos blockSize_pos hn
  exact Nat.lt_of_mul_lt_mul_right (by omega : _ * g.blockSize.toNat < 12 * g.blockSize.toNat)

lemma readInode_update {ino s : UInt32} {bh : UInt32} (payload : Payload)
    (h : readInode g sectors ino = .ok (bh, tmp)) (hbh : s ≠ bh)
    (htab : s ≠ addrOfBlock g g.bgdAddr) :
    readInode g (Function.update sectors s payload) ino = .ok (bh, tmp) := by
  have ht : ∀ group, bgdtInodeTable g (Function.update sectors s payload) group =
      bgdtInodeTable g sectors group := by
    intro group
    rw [bgdtInodeTable, bgdtInodeTable, Function.update_of_ne htab.symm]
  unfold readInode at h ⊢
  split at h
  · cases h
  · next hz =>
    rw [if_neg hz]
    simp only [ht]
    obtain ⟨table, htable, h⟩ := bind_eq_ok h
    obtain ⟨record, hrec, h⟩ := bind_eq_ok h
    cases h
    simp only [htable, bind, Except.bind, Function.update_of_ne hbh.symm, hrec]

end Geometry

lemma flagsMask_eq : flagsMask = 1 := by decide

lemma admitted_size {inode : Inode} {count off : UInt32}
    (h : off.toNat + count.toNat < inode.size.toNat) : ¬ off + count ≥ inode.size := by
  have hs := inode.size.toNat_lt
  rw [ge_iff_le, UInt32.le_iff_toNat_le, UInt32.toNat_add, Nat.mod_eq_of_lt (by omega)]
  omega

/-- The `-1` of a refused call is not a `count` that the file has. -/
lemma minus_one_ne_count {inode : Inode} {count off : UInt32}
    (h : off.toNat + count.toNat < inode.size.toNat) : (-1 : UInt32) ≠ count := by
  intro hret
  have hs := inode.size.toNat_lt
  have hc : count.toNat = 2 ^ 32 - 1 := by
    rw [← hret]
    rfl
  omega

lemma regular_type {tmp : Ext2Inode} (h : tmp.typePermissions &&& 0xF000 = typeRegFile) :
    tmp.typePermissions &&& typeRegFile ≠ 0 := by
  intro hz
  have hm : tmp.typePermissions &&& 0xF000 &&& typeRegFile =
      tmp.typePermissions &&& typeRegFile := by
    rw [UInt16.and_assoc]
    rfl
  rw [h, hz] at hm
  exact absurd hm (by decide)

/-- The number of chunks of a transfer of `c` bytes. -/
def chunks (c : Nat) : Nat := (c + 511) / 512

lemma lt_chunks {c j : Nat} : j < chunks c ↔ blockSize * j < c := by
  simp only [chunks, blockSize]
  omega

/-- After the last chunk nothing is left. -/
lemma chunks_over (c : Nat) : ¬ c - blockSize * chunks c > 0 := by
  have h : ¬ blockSize * chunks c < c := fun h => lt_irrefl _ (lt_chunks.mpr h)
  omega

lemma chunk_eq_min (c : Nat) : chunk c = min c blockSize := by
  unfold chunk
  split <;> omega

/-- The bytes moved by the first `j` chunks. -/
def moved (c j : Nat) : Nat := min c (blockSize * j)

lemma moved_succ {c j : Nat} (h : j < chunks c) :
    moved c (j + 1) = moved c j + chunk (c - blockSize * j) := by
  rw [lt_chunks] at h
  simp only [moved, chunk_eq_min, Nat.mul_succ]
  omega

lemma moved_of_lt {c j : Nat} (h : j < chunks c) : moved c j = blockSize * j := by
  rw [lt_chunks] at h
  simp only [moved]
  omega

lemma moved_chunks (c : Nat) : moved c (chunks c) = c := by
  simp only [moved, chunks, blockSize]
  omega

/-- The place in its sector at which the chunk `j` starts, when the first starts at `o`. -/
def chunkStart (o j : Nat) : Nat := if j = 0 then o else 0

lemma chunkStart_succ (o j : Nat) : chunkStart o (j + 1) = 0 := rfl

/-- The sector that the code takes for the chunk `j` of a transfer from the sector `q` on. -/
def chunkSector (g : Geometry) (tmp : Ext2Inode) (q j : Nat) : UInt32 :=
  addrOfBlock g (pointer tmp (q + j)) + UInt32.ofNat (j % (sectorsPerBlock g).toNat)

/-- Every chunk goes to the sector in which the file has these bytes. -/
def RightSectors (g : Geometry) (tmp : Ext2Inode) (off count : UInt32) : Prop :=
  ∀ j < chunks count.toNat, chunkSector g tmp (off.toNat / blockSize) j =
    fileSector g tmp (off.toNat / blockSize + j)

lemma chunkSector_eq {g : Geometry} {k : Nat} (hg : BlockSizeShift g k) (tmp : Ext2Inode)
    (q j : Nat) : chunkSector g tmp q j = fileSector g tmp
      ((q + j) * (sectorsPerBlock g).toNat + j % (sectorsPerBlock g).toNat) := by
  have hn := hg.sectors_pos
  have hlt := Nat.mod_lt j hn
  rw [chunkSector, fileSector, Nat.mul_comm, Nat.mul_add_div hn, Nat.div_eq_of_lt hlt,
    Nat.mul_add_mod, Nat.mod_mod, Nat.add_zero]

/-- A file whose twelve blocks are distinct has the right sectors only within its first one. -/
theorem rightSectors_iff {g : Geometry} {k : Nat} {tmp : Ext2Inode} {off count : UInt32}
    (hg : BlockSizeShift g k) (hinj : ∀ s < 12 * (sectorsPerBlock g).toNat,
      ∀ t < 12 * (sectorsPerBlock g).toNat, fileSector g tmp s = fileSector g tmp t → s = t)
    (hq : ∀ j < chunks count.toNat, off.toNat / blockSize + j < 12) :
    RightSectors g tmp off count ↔
      count.toNat = 0 ∨ off.toNat < blockSize ∧ count.toNat ≤ blockSize := by
  have htwo : 2 ≤ (sectorsPerBlock g).toNat := by
    have := Nat.one_le_two_pow (n := k)
    rw [hg.sectors_eq]
    omega
  have hplace : ∀ j < chunks count.toNat, RightSectors g tmp off count →
      (off.toNat / blockSize + j) * (sectorsPerBlock g).toNat + j % (sectorsPerBlock g).toNat =
        off.toNat / blockSize + j := by
    intro j hj hright
    have hlt := Nat.mod_lt j hg.sectors_pos
    have hle := Nat.mul_le_mul_right (sectorsPerBlock g).toNat (Nat.succ_le_of_lt (hq j hj))
    have hj' := hq j hj
    rw [Nat.succ_mul] at hle
    apply hinj
    · omega
    · omega
    · rw [← chunkSector_eq hg]
      exact hright j hj
  constructor
  · intro hright
    by_contra hno
    have h0 := hplace 0 (lt_chunks.mpr (by omega)) hright
    have hzero : off.toNat / blockSize = 0 := by
      rw [Nat.zero_mod, Nat.add_zero, Nat.add_zero] at h0
      nlinarith [Nat.mul_le_mul_left (off.toNat / blockSize) htwo]
    have hoff : off.toNat < blockSize := (Nat.div_eq_zero_iff_lt blockSize_pos).mp hzero
    have h1 := hplace 1 (lt_chunks.mpr (by omega)) hright
    rw [hzero, Nat.mod_eq_of_lt (by omega)] at h1
    omega
  · intro h j hj
    have hlt := lt_chunks.mp hj
    obtain rfl : j = 0 := by
      simp only [blockSize] at h hlt
      omega
    have hzero : off.toNat / blockSize = 0 := Nat.div_eq_of_lt (by omega)
    rw [chunkSector_eq hg, hzero]
    simp

/-- The first chunk stays in its sector. -/
def ChunkFits (off count : UInt32) : Prop :=
  off.toNat % blockSize + chunk count.toNat ≤ blockSize

lemma chunkStart_fits {c o j : Nat} (h : o + chunk c ≤ blockSize) :
    chunkStart o j + chunk (c - blockSize * j) ≤ blockSize := by
  rw [chunk_eq_min] at h ⊢
  unfold chunkStart
  split
  · next hj =>
    subst hj
    simpa using h
  · omega

/-- The chunk `j` has an entry of `direct_block` to go by and stays in its sector. -/
structure ChunkRuns (off count : UInt32) (j : Nat) : Prop where
  record : off.toNat / blockSize + j < 22
  fits : chunkStart (off.toNat % blockSize) j + chunk (count.toNat - blockSize * j) ≤ blockSize

lemma chunkFits_iff {off count : UInt32} : ChunkFits off count ↔ ∀ j < chunks count.toNat,
    chunkStart (off.toNat % blockSize) j + chunk (count.toNat - blockSize * j) ≤ blockSize := by
  constructor
  · intro h j _
    exact chunkStart_fits h
  · intro h
    have hlt : off.toNat % blockSize < blockSize := Nat.mod_lt _ blockSize_pos
    unfold ChunkFits
    rcases Nat.eq_zero_or_pos count.toNat with hz | hp
    · rw [hz, chunk_eq_min]
      omega
    · exact h 0 (lt_chunks.mpr hp)

lemma count_next (c j : Nat) :
    c - blockSize * j - chunk (c - blockSize * j) = c - blockSize * (j + 1) := by
  rw [chunk_eq_min, Nat.mul_succ]
  omega

lemma chunk_pos_of_lt {c j : Nat} (hj : j < chunks c) : 0 < chunk (c - blockSize * j) := by
  rw [lt_chunks] at hj
  exact chunk_pos (by omega)

/-- The bytes moved before the last chunk are short of `count`. -/
lemma ofNat_moved_ne {count : UInt32} {j : Nat} (hj : j < chunks count.toNat) :
    UInt32.ofNat (moved count.toNat j) ≠ count := by
  intro h
  have hlt := lt_chunks.mp hj
  have hc := count.toNat_lt
  have heq := congrArg UInt32.toNat h
  rw [moved_of_lt hj, toNat_ofNat_small (by omega)] at heq
  omega

lemma div_lt_chunks {c x : Nat} (hx : x < c) : x / blockSize < chunks c := by
  rw [lt_chunks]
  exact Nat.lt_of_le_of_lt (Nat.mul_div_le x blockSize) hx

lemma sector_lt_size {inode : Inode} {off count : UInt32}
    (hsize : off.toNat + count.toNat < inode.size.toNat) {j : Nat} (hj : j < chunks count.toNat) :
    (off.toNat / blockSize + j) * blockSize < inode.size.toNat := by
  rw [lt_chunks] at hj
  have hle := Nat.div_mul_le_self off.toNat blockSize
  rw [Nat.add_mul, Nat.mul_comm j]
  omega

/-- Byte `x` of the buffer belongs to the chunk `x / BLOCK_SIZE`, and where this starts right
it is the byte `off + x` of the file. -/
lemma file_place {c off x : Nat} (h : off % blockSize + chunk c ≤ blockSize) (hx : x < c) :
    (off + x) / blockSize = off / blockSize + x / blockSize ∧
      (off + x) % blockSize = chunkStart (off % blockSize) (x / blockSize) + x % blockSize := by
  rw [chunk_eq_min] at h
  unfold chunkStart
  by_cases hz : x / blockSize = 0
  · rw [if_pos hz]
    simp only [blockSize] at *
    omega
  · rw [if_neg hz]
    simp only [blockSize] at *
    omega

/-- A position outside the range is outside the chunk that goes to its sector. -/
lemma chunk_misses {c off p : Nat}
    (hle : off / blockSize ≤ p / blockSize) (hj : blockSize * (p / blockSize - off / blockSize) < c)
    (hout : p < off ∨ off + c ≤ p) :
    ¬ (chunkStart (off % blockSize) (p / blockSize - off / blockSize) ≤ p % blockSize ∧
      p % blockSize < chunkStart (off % blockSize) (p / blockSize - off / blockSize) +
        chunk (c - blockSize * (p / blockSize - off / blockSize))) := by
  rw [chunk_eq_min]
  unfold chunkStart
  by_cases hz : p / blockSize - off / blockSize = 0
  · rw [if_pos hz]
    simp only [blockSize] at *
    omega
  · rw [if_neg hz]
    simp only [blockSize] at *
    omega

def smallGeometry : Geometry := ⟨1024, 8, 2, 128, 8⟩

/-- A regular file of 1000 bytes in block 50. -/
def smallRecord : Ext2Inode := fun i =>
  match i.val with
  | 1 => 0x80
  | 4 => 0xE8
  | 5 => 0x03
  | 40 => 50
  | _ => 0

/-- The disk with this file as inode 1 and the inode table from block 5 on. -/
def smallDisk : Sectors := fun s i =>
  if s = 4 ∧ i.val = 8 then 5
  else if h : s = 10 ∧ i.val < 128 then smallRecord ⟨i.val, h.2⟩
  else 0

def smallFile : Inode := ⟨1, 1000, 0, 0, ext2Name⟩

lemma smallGeometry_shift : BlockSizeShift smallGeometry 0 := by
  unfold BlockSizeShift
  decide

lemma smallRecord_pointer : ∀ b < 12, pointer smallRecord b ≠ 0 → b = 0 := by decide

lemma smallFile_direct : DirectFile smallGeometry smallRecord smallFile where
  regular := by decide
  size := by decide
  direct := by decide
  allocated := by
    intro b hb
    have hsize : b * 1024 < 1000 := hb
    obtain rfl : b = 0 := by omega
    decide

/-- Inode 1 is the first record of block 5. -/
lemma readInode_small {sectors : Sectors} {record : Ext2Inode}
    (htable : bgdtInodeTable smallGeometry sectors (((1 : UInt32) - 1) /
      smallGeometry.inodesPerGroup) = .ok 5) (hrec : copyInode (sectors 10) 0 = .ok record) :
    readInode smallGeometry sectors 1 = .ok (10, record) := by
  have hblock : addrOfBlock smallGeometry (5 + ((1 : UInt32) - 1) % smallGeometry.inodesPerGroup *
      smallGeometry.inodeSize / smallGeometry.blockSize) + smallGeometry.inodeSize *
      (((1 : UInt32) - 1) % smallGeometry.inodesPerGroup % smallGeometry.inodesPerBlock) /
      UInt32.ofNat blockSize = 10 := by decide
  have hplace : (smallGeometry.inodeSize * (((1 : UInt32) - 1) % smallGeometry.inodesPerGroup %
      smallGeometry.inodesPerBlock) % UInt32.ofNat blockSize).toNat = 0 := by decide
  rw [readInode, if_neg (by decide)]
  simp only [htable, hblock, hplace, hrec, bind, Except.bind]

lemma smallDisk_holds :
    readInode smallGeometry smallDisk smallFile.iNo = .ok (10, smallRecord) := by
  apply readInode_small
  · rfl
  · rw [copyInode, dif_pos (by decide)]
    congr 1
    funext i
    simp [smallDisk]

lemma smallDisk_apart : Apart smallGeometry smallDisk smallFile smallRecord := by
  have hown : ∀ s, OwnSector smallGeometry smallRecord s → s = 100 ∨ s = 101 := by
    rintro s ⟨b, hb, hp, k, hk, rfl⟩
    obtain rfl := smallRecord_pointer b hb hp
    have hk' : k < 2 := hk
    obtain rfl | rfl : k = 0 ∨ k = 1 := by omega
    · left
      decide
    · right
      decide
  refine ⟨⟨10, smallDisk_holds, ?_⟩, ?_⟩
  · intro s hs
    rcases hown s hs with rfl | rfl <;> decide
  · intro s hs
    rcases hown s hs with rfl | rfl <;> decide

end SaxonOS.Proofs
