import SaxonOS.Ext2Volume
import SaxonOS.Lib.Run
import Mathlib.Algebra.Order.Ring.Nat

/-!
# What a superblock makes of the volume

`ext2_parse_superblock` looks at the signature only. Every divisor of the driver comes from the
other fields, and `read_bgd_table` keeps one sector of the group descriptors however many
groups there are.
-/

namespace SaxonOS.Proofs
open SaxonOS Lib

/-- The volume can be worked with: `block_size` is what the superblock says, and no address
of an inode divides by zero. -/
structure UsableVolume (sb : Superblock) (v : Volume) : Prop where
  shift : v.geometry.blockSize.toNat = 0x400 * 2 ^ sb.blockSize.toNat
  blockSize : 1024 ≤ v.geometry.blockSize.toNat
  inodeSize : 128 ≤ v.geometry.inodeSize.toNat
  inodesPerBlock : 1 ≤ v.geometry.inodesPerBlock.toNat
  inodesPerGroup : 1 ≤ v.geometry.inodesPerGroup.toNat
  blocksPerGroup : 1 ≤ v.blocksPerGroup.toNat
  divides : ∀ (sectors : Sectors) (ino size : UInt32),
    readInode v.geometry sectors ino ≠ .error .divByZero ∧
      changeFileSize v.geometry sectors ino size ≠ .error .divByZero

/-- The fields of a superblock that the driver can work with. -/
structure SoundFields (sb : Superblock) : Prop where
  blockSize : sb.blockSize.toNat ≤ 21
  blocksPerGroup : sb.blocksPerGroup ≠ 0
  inodesPerGroup : sb.inodesPerGroup ≠ 0
  inodeSize : 1 ≤ sb.majorVersion.toNat →
    128 ≤ sb.inodeSize.toNat ∧ sb.inodeSize.toNat ≤ 0x400 * 2 ^ sb.blockSize.toNat

section Divisors

variable {sb : Superblock} {v : Volume} {g : Geometry} {sectors : Sectors} {ino size : UInt32}

lemma toNat_blockSize_shift (s : UInt32) :
    ((0x400 : UInt32) <<< s).toNat = 0x400 * 2 ^ (s.toNat % 32) % 2 ^ 32 := by
  rw [UInt32.toNat_shiftLeft, Nat.shiftLeft_eq]
  rfl

/-- The shift keeps the block size up to a count of 21. -/
lemma blockSize_shift_iff (s : UInt32) :
    ((0x400 : UInt32) <<< s).toNat = 0x400 * 2 ^ s.toNat ↔ s.toNat ≤ 21 := by
  constructor
  · intro h
    by_contra hs
    have hlt := ((0x400 : UInt32) <<< s).toNat_lt
    have hpow : 2 ^ 22 ≤ 2 ^ s.toNat := Nat.pow_le_pow_right (by decide) (by omega)
    omega
  · intro hs
    have hpow : 2 ^ s.toNat ≤ 2 ^ 21 := Nat.pow_le_pow_right (by decide) hs
    rw [toNat_blockSize_shift, Nat.mod_eq_of_lt (show s.toNat < 32 by omega),
      Nat.mod_eq_of_lt (by omega)]

lemma one_le_iff_ne_zero (a : UInt32) : 1 ≤ a.toNat ↔ a ≠ 0 := by
  rw [Nat.one_le_iff_ne_zero, ne_eq, ne_eq, ← UInt32.toNat_inj]
  rfl

lemma bgdtInodeTable_ne_divByZero (group : UInt32) :
    bgdtInodeTable g sectors group ≠ .error .divByZero := by
  unfold bgdtInodeTable payload32 payload8
  split_ifs <;> simp [bind, Except.bind]

lemma divisors_ne_zero (hb : 1 ≤ g.blockSize.toNat) (hp : 1 ≤ g.inodesPerBlock.toNat)
    (hi : 1 ≤ g.inodesPerGroup.toNat) :
    ¬(g.inodesPerGroup = 0 ∨ g.blockSize = 0 ∨ g.inodesPerBlock = 0) := by
  rw [one_le_iff_ne_zero] at hb hp hi
  simp [hb, hp, hi]

lemma readInode_ne_divByZero
    (h : ¬(g.inodesPerGroup = 0 ∨ g.blockSize = 0 ∨ g.inodesPerBlock = 0)) :
    readInode g sectors ino ≠ .error .divByZero := by
  rw [readInode, if_neg h]
  refine bind_ne_error (bgdtInodeTable_ne_divByZero _) fun table _ =>
    bind_ne_error ?_ (fun record _ => by simp)
  unfold copyInode
  split_ifs <;> simp

lemma changeFileSize_ne_divByZero
    (h : ¬(g.inodesPerGroup = 0 ∨ g.blockSize = 0 ∨ g.inodesPerBlock = 0)) :
    changeFileSize g sectors ino size ≠ .error .divByZero := by
  rw [changeFileSize, if_neg h]
  refine bind_ne_error (bgdtInodeTable_ne_divByZero _) fun table _ =>
    bind_ne_error ?_ (fun payload _ => by simp)
  unfold storeSizeLow
  split_ifs <;> simp

/-- The `inode_size` of an accepted superblock. -/
def inodeSizeOf (sb : Superblock) : UInt32 :=
  if sb.majorVersion ≥ 1 then sb.inodeSize.toUInt32 else 128

/-- What an accepted superblock is turned into, and when. -/
lemma parse_eq_ok_iff (hsig : sb.ext2Signature = 0xEF53) :
    ext2ParseSuperblock sb = .ok v ↔ sb.blocksPerGroup ≠ 0 ∧ inodeSizeOf sb ≠ 0 ∧
      v = {
        geometry := ⟨0x400 <<< sb.blockSize, sb.inodesPerGroup,
          if (0x400 : UInt32) <<< sb.blockSize = 0x400 then 2 else 1, inodeSizeOf sb,
          0x400 <<< sb.blockSize / inodeSizeOf sb⟩
        fragmentSize := 0x400 <<< sb.fragmentSize
        inodeCount := sb.inodeCount
        blockCount := sb.blockCount
        blocksPerGroup := sb.blocksPerGroup
        blockGroupCount := ceilingDiv sb.blockCount sb.blocksPerGroup
        dirHasTypefield := sb.requiredFeatures &&& 2 ≠ 0 } := by
  rw [ext2ParseSuperblock, if_neg (not_not_intro hsig)]
  simp only [← inodeSizeOf.eq_def]
  by_cases hb : sb.blocksPerGroup = 0
  · simp [hb]
  · by_cases hi : inodeSizeOf sb = 0
    · simp [hb, hi]
    · rw [if_neg hb, if_neg hi]
      simp [hb, hi, eq_comm]

lemma parse_ok_signature (hv : ext2ParseSuperblock sb = .ok v) :
    sb.ext2Signature = 0xEF53 := by
  by_contra h
  rw [ext2ParseSuperblock, if_pos h] at hv
  cases hv

/-- The fields that are taken over as they are. -/
lemma parse_ok_fields (hv : ext2ParseSuperblock sb = .ok v) :
    sb.inodeCount = v.inodeCount ∧ sb.inodesPerGroup = v.geometry.inodesPerGroup := by
  obtain ⟨-, -, rfl⟩ := (parse_eq_ok_iff (parse_ok_signature hv)).mp hv
  exact ⟨rfl, rfl⟩

lemma inodeSizeOf_toNat (sb : Superblock) : (inodeSizeOf sb).toNat =
    if 1 ≤ sb.majorVersion.toNat then sb.inodeSize.toNat else 128 := by
  unfold inodeSizeOf
  have hiff : sb.majorVersion ≥ 1 ↔ 1 ≤ sb.majorVersion.toNat := UInt32.le_iff_toNat_le
  by_cases h : 1 ≤ sb.majorVersion.toNat
  · rw [if_pos h, if_pos (hiff.mpr h), UInt16.toNat_toUInt32]
  · rw [if_neg h, if_neg (hiff.not.mpr h)]
    rfl

/-- The record size is in order exactly when the two tests on the fields hold. -/
lemma inodeSizeOf_good (hs : sb.blockSize.toNat ≤ 21) :
    (128 ≤ (inodeSizeOf sb).toNat ∧ 1 ≤ ((0x400 : UInt32) <<< sb.blockSize /
      inodeSizeOf sb).toNat) ↔ (1 ≤ sb.majorVersion.toNat →
        128 ≤ sb.inodeSize.toNat ∧ sb.inodeSize.toNat ≤ 0x400 * 2 ^ sb.blockSize.toNat) := by
  rw [UInt32.toNat_div, (blockSize_shift_iff _).mpr hs, inodeSizeOf_toNat]
  have hpos : 1 ≤ 2 ^ sb.blockSize.toNat := Nat.one_le_two_pow
  by_cases h : 1 ≤ sb.majorVersion.toNat
  · rw [if_pos h]
    simp only [h, true_imp_iff]
    refine and_congr_right fun h128 => ?_
    rw [Nat.one_le_div_iff (by omega)]
  · rw [if_neg h]
    simp only [h, false_imp_iff, iff_true]
    exact ⟨by omega, Nat.div_pos (by omega) (by decide)⟩

end Divisors

/-- A superblock that is accepted gives a usable volume exactly when its fields are sound. -/
theorem superblock_usable_iff (sb : Superblock) (hsig : sb.ext2Signature = 0xEF53) :
    (∃ v, ext2ParseSuperblock sb = .ok v ∧ UsableVolume sb v) ↔ SoundFields sb := by
  constructor
  · rintro ⟨v, hv, hu⟩
    obtain ⟨hbpg, -, rfl⟩ := (parse_eq_ok_iff hsig).mp hv
    have hs := (blockSize_shift_iff _).mp hu.shift
    exact ⟨hs, hbpg, (one_le_iff_ne_zero _).mp hu.inodesPerGroup,
      (inodeSizeOf_good hs).mp ⟨hu.inodeSize, hu.inodesPerBlock⟩⟩
  · intro hf
    obtain ⟨h128, hper⟩ := (inodeSizeOf_good hf.blockSize).mpr hf.inodeSize
    have hne : inodeSizeOf sb ≠ 0 := (one_le_iff_ne_zero _).mp (by omega)
    have hshift := (blockSize_shift_iff _).mpr hf.blockSize
    have hpos : 1 ≤ 2 ^ sb.blockSize.toNat := Nat.one_le_two_pow
    have hgroup := (one_le_iff_ne_zero _).mpr hf.inodesPerGroup
    have hdiv := divisors_ne_zero (g := ⟨0x400 <<< sb.blockSize, sb.inodesPerGroup,
      if (0x400 : UInt32) <<< sb.blockSize = 0x400 then 2 else 1, inodeSizeOf sb,
      0x400 <<< sb.blockSize / inodeSizeOf sb⟩) (by dsimp only; omega) hper hgroup
    refine ⟨_, (parse_eq_ok_iff hsig).mpr ⟨hf.blocksPerGroup, hne, rfl⟩, hshift, ?_, h128, hper,
      hgroup, (one_le_iff_ne_zero _).mpr hf.blocksPerGroup, fun sectors ino size =>
        ⟨readInode_ne_divByZero hdiv, changeFileSize_ne_divByZero hdiv⟩⟩
    dsimp only
    omega

/-- A superblock with blocks of 1024 bytes and old records of 128 bytes. -/
def plainSuperblock (inodeCount blockCount inodesPerGroup : UInt8) : Superblock := fun i =>
  if i.val = 0 then inodeCount else if i.val = 4 then blockCount else if i.val = 32 then 8
  else if i.val = 40 then inodesPerGroup else if i.val = 56 then 0x53
  else if i.val = 57 then 0xEF else 0

theorem superblock_usable_plain :
    ∃ v, ext2ParseSuperblock (plainSuperblock 8 8 8) = .ok v ∧
      UsableVolume (plainSuperblock 8 8 8) v :=
  (superblock_usable_iff (plainSuperblock 8 8 8) (by decide)).mpr
    ⟨by decide, by decide, by decide, by decide⟩

/-- A superblock with `inodes_per_group = 0` is accepted, and the first address of an inode
divides by zero. -/
theorem superblock_without_inodes :
    (plainSuperblock 8 8 0).ext2Signature = 0xEF53 ∧
      (∃ v, ext2ParseSuperblock (plainSuperblock 8 8 0) = .ok v ∧
        readInode v.geometry (fun _ _ => 0) 2 = .error .divByZero) ∧
      ¬∃ v, ext2ParseSuperblock (plainSuperblock 8 8 0) = .ok v ∧
        UsableVolume (plainSuperblock 8 8 0) v := by
  have hsig : (plainSuperblock 8 8 0).ext2Signature = 0xEF53 := by decide
  have hv := (parse_eq_ok_iff (v := _) hsig).mpr ⟨by decide, by decide, rfl⟩
  refine ⟨hsig, ⟨_, hv, rfl⟩, ?_⟩
  rintro ⟨v, hv', hu⟩
  rw [hv] at hv'
  cases hv'
  have hgroup := hu.inodesPerGroup
  revert hgroup
  decide

/-- The 32 bytes of `bgdt_entries[group]` are in the sector that `read_bgd_table` keeps. -/
def DescriptorLoaded (g : Geometry) (sectors : Sectors) (group : Nat) : Prop :=
  ∀ k < 32, ∃ b, payload8 (sectors (bgdSector g)) (32 * group + k) = .ok b

/-- `BG_OF_INODE`. -/
def bgOfInode (g : Geometry) (ino : UInt32) : UInt32 := (ino - 1) / g.inodesPerGroup

section Descriptors

variable {g : Geometry} {sectors : Sectors} {ino : UInt32}

/-- The sector holds sixteen descriptors. -/
lemma descriptorLoaded_iff (group : Nat) : DescriptorLoaded g sectors group ↔ group < 16 := by
  constructor
  · intro h
    obtain ⟨b, hb⟩ := h 31 (by decide)
    unfold payload8 at hb
    split_ifs at hb with hlt
    simp only [blockSize] at hlt
    omega
  · intro hlt k hk
    have hin : 32 * group + k < blockSize := by
      simp only [blockSize]
      omega
    exact ⟨_, by rw [payload8, dif_pos hin]⟩

lemma toNat_bgOfInode (hino : 1 ≤ ino.toNat) :
    (bgOfInode g ino).toNat = (ino.toNat - 1) / g.inodesPerGroup.toNat := by
  rw [bgOfInode, UInt32.toNat_div,
    UInt32.toNat_sub_of_le ino 1 (UInt32.le_iff_toNat_le.mpr hino)]
  rfl

/-- The first inode of a group. -/
lemma bgOfInode_first {count : Nat} (group : Nat) (hi : g.inodesPerGroup ≠ 0)
    (hlt : g.inodesPerGroup.toNat * group < count) (hcount : count < 2 ^ 32) :
    ∃ ino : UInt32, 1 ≤ ino.toNat ∧ ino.toNat ≤ count ∧ (bgOfInode g ino).toNat = group := by
  have hpos := (one_le_iff_ne_zero _).mpr hi
  have hsmall : (UInt32.ofNat (g.inodesPerGroup.toNat * group + 1)).toNat =
      g.inodesPerGroup.toNat * group + 1 := toNat_ofNat_small (by omega)
  refine ⟨UInt32.ofNat (g.inodesPerGroup.toNat * group + 1), by omega, by omega, ?_⟩
  rw [toNat_bgOfInode (by omega), hsmall, Nat.add_sub_cancel,
    Nat.mul_div_cancel_left _ (by omega)]

end Descriptors

/-- The descriptor of every inode is loaded exactly when there are inodes for sixteen groups at
most; so are those of all the groups that `alloc_inode` goes through, where the groups of blocks
and of inodes are the same. -/
theorem descriptors_loaded_iff (sb : Superblock) (v : Volume) (sectors : Sectors)
    (hv : ext2ParseSuperblock sb = .ok v) (hi : sb.inodesPerGroup ≠ 0) :
    ((∀ ino : UInt32, 1 ≤ ino.toNat → ino.toNat ≤ v.inodeCount.toNat →
        DescriptorLoaded v.geometry sectors (bgOfInode v.geometry ino).toNat) ↔
      sb.inodeCount.toNat ≤ 16 * sb.inodesPerGroup.toNat) ∧
    (v.inodeCount.toNat = v.geometry.inodesPerGroup.toNat * v.blockGroupCount.toNat →
      ((∀ i < v.blockGroupCount.toNat, DescriptorLoaded v.geometry sectors i) ↔
        sb.inodeCount.toNat ≤ 16 * sb.inodesPerGroup.toNat)) := by
  have hcount : sb.inodeCount = v.inodeCount := (parse_ok_fields hv).1
  have hgroup : sb.inodesPerGroup = v.geometry.inodesPerGroup := (parse_ok_fields hv).2
  rw [hgroup] at hi
  have hpos := (one_le_iff_ne_zero _).mpr hi
  simp only [descriptorLoaded_iff, hcount, hgroup]
  refine ⟨⟨fun h => ?_, fun hle ino hino hcount => ?_⟩, fun hsame => ⟨fun h => ?_, fun hle i hlt => ?_⟩⟩
  · by_contra hgt
    obtain ⟨ino, hino, hcount, hgroup⟩ := bgOfInode_first 16 hi (by omega)
      v.inodeCount.toNat_lt
    have := h ino hino hcount
    omega
  · rw [toNat_bgOfInode hino]
    apply Nat.div_lt_of_lt_mul
    omega
  · rw [hsame, Nat.mul_comm]
    refine Nat.mul_le_mul_right _ ?_
    by_contra hgt
    exact absurd (h 16 (by omega)) (by decide)
  · have hgroups : v.blockGroupCount.toNat ≤ 16 := by
      refine Nat.le_of_mul_le_mul_left ?_ hpos
      omega
    omega

theorem descriptors_loaded_plain :
    ∃ v, ext2ParseSuperblock (plainSuperblock 128 128 8) = .ok v ∧
      ∀ ino : UInt32, 1 ≤ ino.toNat → ino.toNat ≤ v.inodeCount.toNat →
        DescriptorLoaded v.geometry (fun _ _ => 0) (bgOfInode v.geometry ino).toNat := by
  have hsig : (plainSuperblock 128 128 8).ext2Signature = 0xEF53 := by decide
  have hv := (parse_eq_ok_iff (v := _) hsig).mpr ⟨by decide, by decide, rfl⟩
  exact ⟨_, hv, (descriptors_loaded_iff _ _ (fun _ _ => 0) hv (by decide)).1.mpr (by decide)⟩

/-- In a volume of seventeen groups of eight inodes the descriptor of inode 129 is behind the
sector, where `read_inode` reads it all the same. -/
theorem descriptor_of_last_group_missing :
    ∃ v, ext2ParseSuperblock (plainSuperblock 136 136 8) = .ok v ∧
      v.inodeCount.toNat = v.geometry.inodesPerGroup.toNat * v.blockGroupCount.toNat ∧
      129 ≤ v.inodeCount.toNat ∧
      ¬DescriptorLoaded v.geometry (fun _ _ => 0) (bgOfInode v.geometry 129).toNat ∧
      readInode v.geometry (fun _ _ => 0) 129 = .error .outOfBounds := by
  have hsig : (plainSuperblock 136 136 8).ext2Signature = 0xEF53 := by decide
  have hv := (parse_eq_ok_iff (v := _) hsig).mpr ⟨by decide, by decide, rfl⟩
  refine ⟨_, hv, by decide, by decide, ?_, rfl⟩
  rw [descriptorLoaded_iff]
  decide

end SaxonOS.Proofs
