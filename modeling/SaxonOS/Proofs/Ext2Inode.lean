import SaxonOS.Proofs.Ext2Transfer
import Mathlib.Algebra.Order.Ring.Nat

/-!
# Where an inode record lies

`read_inode` finds the record of an inode through its group, the block of the table, the
sector of the block and the place in the sector. Over the flat bytes of the device this is one
address, that of entry `(ino - 1) mod inodes_per_group` of the table of the group.
-/

namespace SaxonOS.Proofs
open SaxonOS

/-- The geometries that a superblock describes: blocks of up to 4096 bytes that hold a whole
number of records. -/
structure InodeGeometry (g : Geometry) : Prop where
  blockSize_eq : ∃ k ≤ 2, g.blockSize.toNat = 1024 * 2 ^ k
  inodeSize_eq : ∃ e, g.inodeSize.toNat = 2 ^ e
  le_inodeSize : 128 ≤ g.inodeSize.toNat
  inodeSize_le : g.inodeSize.toNat ≤ g.blockSize.toNat
  inodesPerGroup_pos : 1 ≤ g.inodesPerGroup.toNat
  inodesPerGroup_le : g.inodesPerGroup.toNat ≤ 8 * g.blockSize.toNat
  inodesPerBlock_eq : g.inodesPerBlock.toNat = g.blockSize.toNat / g.inodeSize.toNat

/-- The part of it that the records of one block depend on. -/
structure RecordGeometry (g : Geometry) : Prop where
  blockSize_eq : ∃ k ≤ 2, g.blockSize.toNat = 1024 * 2 ^ k
  inodeSize_eq : ∃ e, g.inodeSize.toNat = 2 ^ e
  le_inodeSize : 128 ≤ g.inodeSize.toNat
  inodeSize_le : g.inodeSize.toNat ≤ g.blockSize.toNat
  inodesPerBlock_eq : g.inodesPerBlock.toNat = g.blockSize.toNat / g.inodeSize.toNat

lemma InodeGeometry.record {g : Geometry} (hg : InodeGeometry g) : RecordGeometry g :=
  ⟨hg.blockSize_eq, hg.inodeSize_eq, hg.le_inodeSize, hg.inodeSize_le, hg.inodesPerBlock_eq⟩

/-- `INODE_INDEX`. -/
def inodeIndex (g : Geometry) (ino : UInt32) : Nat := (ino.toNat - 1) % g.inodesPerGroup.toNat

/-- The first byte of the record of `ino` in a table that starts with block `table`. -/
def inodeAddress (g : Geometry) (table ino : UInt32) : Nat :=
  table.toNat * g.blockSize.toNat + inodeIndex g ino * g.inodeSize.toNat

/-- The table of a group that starts with block `table` ends before sector `2 ^ 32`. -/
def TableInReach (g : Geometry) (table : UInt32) : Prop :=
  table.toNat * g.blockSize.toNat + g.inodesPerGroup.toNat * g.inodeSize.toNat ≤
    2 ^ 32 * blockSize

/-- Every 32-bit sum, difference and product that `read_inode` computes has its value over
the integers. -/
structure InodeExact (g : Geometry) (table ino : UInt32) : Prop where
  pred : (ino - 1).toNat = ino.toNat - 1
  product : ((ino - 1) % g.inodesPerGroup * g.inodeSize).toNat =
    ((ino - 1) % g.inodesPerGroup).toNat * g.inodeSize.toNat
  block : (table + (ino - 1) % g.inodesPerGroup * g.inodeSize / g.blockSize).toNat =
    table.toNat + ((ino - 1) % g.inodesPerGroup * g.inodeSize / g.blockSize).toNat
  place : (g.inodeSize * ((ino - 1) % g.inodesPerGroup % g.inodesPerBlock)).toNat =
    g.inodeSize.toNat * ((ino - 1) % g.inodesPerGroup % g.inodesPerBlock).toNat
  addr : (addrOfBlock g (table + (ino - 1) % g.inodesPerGroup * g.inodeSize /
      g.blockSize)).toNat = (sectorsPerBlock g).toNat *
    (table + (ino - 1) % g.inodesPerGroup * g.inodeSize / g.blockSize).toNat
  sector : (addrOfBlock g (table + (ino - 1) % g.inodesPerGroup * g.inodeSize / g.blockSize) +
      g.inodeSize * ((ino - 1) % g.inodesPerGroup % g.inodesPerBlock) /
        UInt32.ofNat blockSize).toNat =
    (addrOfBlock g (table + (ino - 1) % g.inodesPerGroup * g.inodeSize / g.blockSize)).toNat +
      (g.inodeSize * ((ino - 1) % g.inodesPerGroup % g.inodesPerBlock) /
        UInt32.ofNat blockSize).toNat

section Address

variable {g : Geometry} {table ino : UInt32}

lemma RecordGeometry.shift (hg : RecordGeometry g) : ∃ k ≤ 2, BlockSizeShift g k := by
  obtain ⟨k, hk, hb⟩ := hg.blockSize_eq
  exact ⟨k, hk, by omega, hb⟩

lemma RecordGeometry.blockSize_le (hg : RecordGeometry g) : g.blockSize.toNat ≤ 4096 := by
  obtain ⟨k, hk, hb⟩ := hg.blockSize_eq
  have hpow : 2 ^ k ≤ 2 ^ 2 := Nat.pow_le_pow_right (by decide) hk
  omega

lemma RecordGeometry.sectors_eq (hg : RecordGeometry g) :
    g.blockSize.toNat = blockSize * (sectorsPerBlock g).toNat := by
  obtain ⟨k, -, hk⟩ := hg.shift
  exact hk.blockSize_eq

lemma RecordGeometry.inodeSize_dvd (hg : RecordGeometry g) :
    g.inodeSize.toNat ∣ g.blockSize.toNat := by
  obtain ⟨k, -, hb⟩ := hg.blockSize_eq
  obtain ⟨e, he⟩ := hg.inodeSize_eq
  have hle := hg.inodeSize_le
  have hpow : 1024 * 2 ^ k = 2 ^ (10 + k) := by rw [Nat.pow_add]
  rw [he, hb, hpow] at hle ⊢
  exact Nat.pow_dvd_pow 2 ((Nat.pow_le_pow_iff_right (by decide)).mp hle)

lemma RecordGeometry.dvd_inodeSize (hg : RecordGeometry g) : 128 ∣ g.inodeSize.toNat := by
  obtain ⟨e, he⟩ := hg.inodeSize_eq
  have hle := hg.le_inodeSize
  have hpow : 128 = 2 ^ 7 := by decide
  rw [he, hpow] at hle ⊢
  exact Nat.pow_dvd_pow 2 ((Nat.pow_le_pow_iff_right (by decide)).mp hle)

/-- The bytes before an entry of a table are whole blocks and the entries before it in its
own block. -/
lemma RecordGeometry.index_split (hg : RecordGeometry g) (index : Nat) :
    index * g.inodeSize.toNat = g.blockSize.toNat * (index * g.inodeSize.toNat /
      g.blockSize.toNat) + g.inodeSize.toNat * (index % g.inodesPerBlock.toNat) := by
  have hmod : index * g.inodeSize.toNat % g.blockSize.toNat =
      g.inodeSize.toNat * (index % g.inodesPerBlock.toNat) := by
    rw [hg.inodesPerBlock_eq, ← Nat.mul_mod_mul_left, Nat.mul_div_cancel' hg.inodeSize_dvd,
      Nat.mul_comm]
  rw [← hmod, Nat.div_add_mod]

lemma RecordGeometry.inodesPerBlock_pos (hg : RecordGeometry g) : 0 < g.inodesPerBlock.toNat := by
  have hle := hg.le_inodeSize
  rw [hg.inodesPerBlock_eq]
  exact Nat.div_pos hg.inodeSize_le (by omega)

lemma InodeGeometry.inodeIndex_lt (hg : InodeGeometry g) (ino : UInt32) :
    inodeIndex g ino < g.inodesPerGroup.toNat := Nat.mod_lt _ hg.inodesPerGroup_pos

/-- The end of a record does not pass the end of the table. -/
lemma InodeGeometry.inodeAddress_le (hg : InodeGeometry g) (ht : TableInReach g table)
    (ino : UInt32) :
    inodeAddress g table ino + g.inodeSize.toNat ≤ 2 ^ 32 * blockSize := by
  have hlt := hg.inodeIndex_lt ino
  have hmul := Nat.mul_le_mul_right g.inodeSize.toNat (Nat.succ_le_of_lt hlt)
  rw [Nat.succ_mul] at hmul
  unfold TableInReach at ht
  unfold inodeAddress
  omega

lemma RecordGeometry.place_lt (hg : RecordGeometry g) (index : Nat) :
    g.inodeSize.toNat * (index % g.inodesPerBlock.toNat) < g.blockSize.toNat := by
  have hlt := Nat.mod_lt index hg.inodesPerBlock_pos
  have hsize := hg.le_inodeSize
  have hmul : g.inodeSize.toNat * (index % g.inodesPerBlock.toNat) <
      g.inodeSize.toNat * g.inodesPerBlock.toNat := Nat.mul_lt_mul_of_pos_left hlt (by omega)
  have hwhole : g.inodeSize.toNat * g.inodesPerBlock.toNat = g.blockSize.toNat := by
    rw [hg.inodesPerBlock_eq, Nat.mul_div_cancel' hg.inodeSize_dvd]
  omega

/-- The flat address, taken apart into the sector and the place in it. -/
lemma InodeGeometry.inodeAddress_split (hg : InodeGeometry g) (table ino : UInt32) :
    inodeAddress g table ino = blockSize * ((sectorsPerBlock g).toNat * (table.toNat +
        inodeIndex g ino * g.inodeSize.toNat / g.blockSize.toNat)) +
      g.inodeSize.toNat * (inodeIndex g ino % g.inodesPerBlock.toNat) := by
  have hsplit := hg.record.index_split (inodeIndex g ino)
  have hsec := hg.record.sectors_eq
  rw [← Nat.mul_assoc, ← hsec, Nat.mul_add, Nat.mul_comm g.blockSize.toNat table.toNat,
    Nat.add_assoc, ← hsplit, inodeAddress]

lemma InodeGeometry.sector_eq (hg : InodeGeometry g) (table ino : UInt32) :
    inodeAddress g table ino / blockSize = (sectorsPerBlock g).toNat * (table.toNat +
        inodeIndex g ino * g.inodeSize.toNat / g.blockSize.toNat) +
      g.inodeSize.toNat * (inodeIndex g ino % g.inodesPerBlock.toNat) / blockSize := by
  rw [hg.inodeAddress_split table ino, Nat.mul_add_div blockSize_pos]

lemma InodeGeometry.offset_eq (hg : InodeGeometry g) (table ino : UInt32) :
    inodeAddress g table ino % blockSize =
      g.inodeSize.toNat * (inodeIndex g ino % g.inodesPerBlock.toNat) % blockSize := by
  rw [hg.inodeAddress_split table ino, Nat.mul_add_mod]

/-- A record does not cross a sector boundary. -/
lemma InodeGeometry.offset_le (hg : InodeGeometry g) (table ino : UInt32) :
    inodeAddress g table ino % blockSize + 128 ≤ blockSize := by
  obtain ⟨c, hc⟩ := hg.record.dvd_inodeSize
  rw [hg.offset_eq, hc, Nat.mul_assoc]
  simp only [blockSize]
  omega

lemma InodeGeometry.sector_lt (hg : InodeGeometry g) (ht : TableInReach g table)
    (ino : UInt32) : inodeAddress g table ino / blockSize < 2 ^ 32 := by
  have hle := hg.inodeAddress_le ht ino
  have hsize := hg.le_inodeSize
  apply Nat.div_lt_of_lt_mul
  rw [Nat.mul_comm]
  omega

lemma InodeGeometry.blocks_lt (hg : InodeGeometry g) (ht : TableInReach g table)
    (ino : UInt32) : (sectorsPerBlock g).toNat * (table.toNat +
      inodeIndex g ino * g.inodeSize.toNat / g.blockSize.toNat) < 2 ^ 32 := by
  have hlt := hg.sector_lt ht ino
  rw [hg.sector_eq] at hlt
  exact Nat.lt_of_le_of_lt (Nat.le_add_right _ _) hlt

lemma pred_toNat (hino : 1 ≤ ino.toNat) : (ino - 1).toNat = ino.toNat - 1 :=
  UInt32.toNat_sub_of_le ino 1 (UInt32.le_iff_toNat_le.mpr hino)

lemma index_toNat (hino : 1 ≤ ino.toNat) :
    ((ino - 1) % g.inodesPerGroup).toNat = inodeIndex g ino := by
  rw [UInt32.toNat_mod, pred_toNat hino, inodeIndex]

lemma InodeGeometry.product_toNat (hg : InodeGeometry g) (hino : 1 ≤ ino.toNat) :
    ((ino - 1) % g.inodesPerGroup * g.inodeSize).toNat =
      inodeIndex g ino * g.inodeSize.toNat := by
  have hlt := hg.inodeIndex_lt ino
  have hgroup := hg.inodesPerGroup_le
  have hsize := hg.inodeSize_le
  have hblock := hg.record.blockSize_le
  have hmul : inodeIndex g ino * g.inodeSize.toNat ≤ 32768 * 4096 :=
    Nat.mul_le_mul (by omega) (by omega)
  rw [UInt32.toNat_mul, index_toNat hino, Nat.mod_eq_of_lt (by omega)]

lemma InodeGeometry.place_toNat (hg : InodeGeometry g) (hino : 1 ≤ ino.toNat) :
    (g.inodeSize * ((ino - 1) % g.inodesPerGroup % g.inodesPerBlock)).toNat =
      g.inodeSize.toNat * (inodeIndex g ino % g.inodesPerBlock.toNat) := by
  have hlt := hg.record.place_lt (inodeIndex g ino)
  have hblock := hg.record.blockSize_le
  rw [UInt32.toNat_mul, UInt32.toNat_mod, index_toNat hino, Nat.mod_eq_of_lt (by omega)]

lemma InodeGeometry.block_toNat (hg : InodeGeometry g) (ht : TableInReach g table)
    (hino : 1 ≤ ino.toNat) :
    (table + (ino - 1) % g.inodesPerGroup * g.inodeSize / g.blockSize).toNat =
      table.toNat + inodeIndex g ino * g.inodeSize.toNat / g.blockSize.toNat := by
  obtain ⟨k, -, hk⟩ := hg.record.shift
  have hlt := hg.blocks_lt ht ino
  have hpos := hk.sectors_pos
  have hle := Nat.le_mul_of_pos_left (table.toNat + inodeIndex g ino * g.inodeSize.toNat /
    g.blockSize.toNat) hpos
  rw [UInt32.toNat_add, UInt32.toNat_div, hg.product_toNat hino, Nat.mod_eq_of_lt (by omega)]

lemma InodeGeometry.addr_toNat (hg : InodeGeometry g) (ht : TableInReach g table)
    (hino : 1 ≤ ino.toNat) :
    (addrOfBlock g (table + (ino - 1) % g.inodesPerGroup * g.inodeSize / g.blockSize)).toNat =
      (sectorsPerBlock g).toNat *
        (table.toNat + inodeIndex g ino * g.inodeSize.toNat / g.blockSize.toNat) := by
  rw [addrOfBlock, UInt32.toNat_mul, hg.block_toNat ht hino,
    Nat.mod_eq_of_lt (hg.blocks_lt ht ino)]

lemma InodeGeometry.sector_toNat (hg : InodeGeometry g) (ht : TableInReach g table)
    (hino : 1 ≤ ino.toNat) :
    (addrOfBlock g (table + (ino - 1) % g.inodesPerGroup * g.inodeSize / g.blockSize) +
      g.inodeSize * ((ino - 1) % g.inodesPerGroup % g.inodesPerBlock) /
        UInt32.ofNat blockSize).toNat = inodeAddress g table ino / blockSize := by
  have hlt := hg.sector_lt ht ino
  have hsize : (UInt32.ofNat blockSize).toNat = blockSize := rfl
  rw [hg.sector_eq] at hlt ⊢
  rw [UInt32.toNat_add, UInt32.toNat_div, hg.addr_toNat ht hino, hg.place_toNat hino, hsize,
    Nat.mod_eq_of_lt hlt]

lemma InodeGeometry.exact (hg : InodeGeometry g) (ht : TableInReach g table)
    (hino : 1 ≤ ino.toNat) : InodeExact g table ino where
  pred := pred_toNat hino
  product := by rw [hg.product_toNat hino, index_toNat hino]
  block := by rw [hg.block_toNat ht hino, UInt32.toNat_div, hg.product_toNat hino]
  place := by rw [hg.place_toNat hino, UInt32.toNat_mod, index_toNat hino]
  addr := by rw [hg.addr_toNat ht hino, hg.block_toNat ht hino]
  sector := by
    have hsize : (UInt32.ofNat blockSize).toNat = blockSize := rfl
    rw [hg.sector_toNat ht hino, hg.addr_toNat ht hino, UInt32.toNat_div, hg.place_toNat hino,
      hsize, hg.sector_eq]

/-- All bytes of a record are in the sector of its first byte. -/
lemma InodeGeometry.same_sector (hg : InodeGeometry g) (table ino : UInt32) {i : Nat}
    (hi : i < 128) :
    (inodeAddress g table ino + i) / blockSize = inodeAddress g table ino / blockSize := by
  have hle := hg.offset_le table ino
  simp only [blockSize] at hle ⊢
  omega

lemma InodeGeometry.copyInode_eq (hg : InodeGeometry g) (sectors : Sectors)
    (table ino : UInt32) :
    copyInode (sectors (UInt32.ofNat (inodeAddress g table ino / blockSize)))
        (inodeAddress g table ino % blockSize) =
      .ok fun i => deviceByte sectors (inodeAddress g table ino + i.val) := by
  rw [copyInode, dif_pos (hg.offset_le table ino)]
  congr 1
  funext i
  have hsec := hg.same_sector table ino i.isLt
  have hle := hg.offset_le table ino
  have hmod : (inodeAddress g table ino + i.val) % blockSize =
      i.val + inodeAddress g table ino % blockSize := by
    have hi := i.isLt
    simp only [blockSize] at hle ⊢
    omega
  simp only [deviceByte, hsec, hmod]

lemma InodeGeometry.readInode_eq (hg : InodeGeometry g) (ht : TableInReach g table)
    (hino : 1 ≤ ino.toNat) {sectors : Sectors}
    (htable : bgdtInodeTable g sectors ((ino - 1) / g.inodesPerGroup) = .ok table) :
    readInode g sectors ino = .ok (UInt32.ofNat (inodeAddress g table ino / blockSize),
      fun i => deviceByte sectors (inodeAddress g table ino + i.val)) := by
  have hsector : addrOfBlock g (table + (ino - 1) % g.inodesPerGroup * g.inodeSize /
      g.blockSize) + g.inodeSize * ((ino - 1) % g.inodesPerGroup % g.inodesPerBlock) /
        UInt32.ofNat blockSize = UInt32.ofNat (inodeAddress g table ino / blockSize) := by
    rw [← hg.sector_toNat ht hino, UInt32.ofNat_toNat]
  have hplace : (g.inodeSize * ((ino - 1) % g.inodesPerGroup % g.inodesPerBlock) %
      UInt32.ofNat blockSize).toNat = inodeAddress g table ino % blockSize := by
    have hsize : (UInt32.ofNat blockSize).toNat = blockSize := rfl
    rw [UInt32.toNat_mod, hg.place_toNat hino, hsize, hg.offset_eq]
  have hzero : ¬(g.inodesPerGroup = 0 ∨ g.blockSize = 0 ∨ g.inodesPerBlock = 0) := by
    have hgroup := hg.inodesPerGroup_pos
    have hper := hg.record.inodesPerBlock_pos
    have hsize := hg.le_inodeSize
    have hle := hg.inodeSize_le
    rintro (h | h | h)
    · simp [h] at hgroup
    · simp [h] at hle
      omega
    · simp [h] at hper
  rw [readInode, if_neg hzero]
  simp only [htable, hsector, hplace, hg.copyInode_eq sectors table ino, bind, Except.bind]

/-- The records of two entries of a table have no byte in common. -/
lemma InodeGeometry.records_apart (hg : InodeGeometry g) (table : UInt32) {ino ino' : UInt32}
    (hne : inodeIndex g ino ≠ inodeIndex g ino') {i j : Nat} (hi : i < 128) (hj : j < 128) :
    inodeAddress g table ino + i ≠ inodeAddress g table ino' + j := by
  have hsize := hg.le_inodeSize
  unfold inodeAddress
  rcases Nat.lt_or_gt_of_ne hne with h | h
  · have hmul := Nat.mul_le_mul_right g.inodeSize.toNat (Nat.succ_le_of_lt h)
    rw [Nat.succ_mul] at hmul
    omega
  · have hmul := Nat.mul_le_mul_right g.inodeSize.toNat (Nat.succ_le_of_lt h)
    rw [Nat.succ_mul] at hmul
    omega

/-- Two inodes of one group are two entries of its table. -/
lemma inodeIndex_ne {ino ino' : UInt32} (hino : 1 ≤ ino.toNat) (hino' : 1 ≤ ino'.toNat)
    (hgroup : (ino - 1) / g.inodesPerGroup = (ino' - 1) / g.inodesPerGroup) (hne : ino ≠ ino') :
    inodeIndex g ino ≠ inodeIndex g ino' := by
  intro heq
  have hdiv := congrArg UInt32.toNat hgroup
  rw [UInt32.toNat_div, UInt32.toNat_div, pred_toNat hino, pred_toNat hino'] at hdiv
  have hpred : ino.toNat - 1 = ino'.toNat - 1 := by
    rw [← Nat.div_add_mod (ino.toNat - 1) g.inodesPerGroup.toNat, hdiv, ← inodeIndex, heq,
      inodeIndex, Nat.div_add_mod]
  exact hne (UInt32.toNat_inj.mp (by omega))

end Address

/-- `read_inode` copies the record at the flat address of the inode, out of one sector and
without wrapping, and another inode of the group has another record. -/
theorem read_inode_exact {g : Geometry} {sectors : Sectors} {table ino : UInt32}
    (hg : InodeGeometry g) (hino : 1 ≤ ino.toNat)
    (htable : bgdtInodeTable g sectors ((ino - 1) / g.inodesPerGroup) = .ok table)
    (ht : TableInReach g table) :
    readInode g sectors ino = .ok (UInt32.ofNat (inodeAddress g table ino / blockSize),
      fun i => deviceByte sectors (inodeAddress g table ino + i.val)) ∧
    (∀ i < 128, (inodeAddress g table ino + i) / blockSize =
      inodeAddress g table ino / blockSize) ∧
    inodeAddress g table ino / blockSize < 2 ^ 32 ∧
    InodeExact g table ino ∧
    ∀ ino' : UInt32, 1 ≤ ino'.toNat →
      (ino - 1) / g.inodesPerGroup = (ino' - 1) / g.inodesPerGroup → ino ≠ ino' →
      ∀ i < 128, ∀ j < 128, inodeAddress g table ino + i ≠ inodeAddress g table ino' + j := by
  refine ⟨hg.readInode_eq ht hino htable, ?_, hg.sector_lt ht ino, hg.exact ht hino, ?_⟩
  · intro i hi
    exact hg.same_sector table ino hi
  · intro ino' hino' hgroup hne i hi j hj
    exact hg.records_apart table (inodeIndex_ne hino hino' hgroup hne) hi hj

lemma smallGeometry_inodes : InodeGeometry smallGeometry where
  blockSize_eq := ⟨0, by decide, by decide⟩
  inodeSize_eq := ⟨7, by decide⟩
  le_inodeSize := by decide
  inodeSize_le := by decide
  inodesPerGroup_pos := by decide
  inodesPerGroup_le := by decide
  inodesPerBlock_eq := by decide

/-- Inode 6 is in the second sector of the table of `smallDisk`. -/
theorem read_inode_exact_small :
    readInode smallGeometry smallDisk 6 =
      .ok (11, fun i => deviceByte smallDisk (5760 + i.val)) := by
  have htable : bgdtInodeTable smallGeometry smallDisk (((6 : UInt32) - 1) /
      smallGeometry.inodesPerGroup) = .ok 5 := rfl
  have ht : TableInReach smallGeometry 5 := by
    unfold TableInReach
    decide
  exact (read_inode_exact smallGeometry_inodes (by decide) htable ht).1

end SaxonOS.Proofs
