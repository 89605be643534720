import SaxonOS.Ext2Volume
import SaxonOS.Proofs.AtaTransfer
import SaxonOS.Proofs.Ext2Transfer
import Mathlib.Data.Nat.Count

/-!
# Writing a file past the buffer cache

`write_file` takes an entry of `direct_block` for every 512 bytes and looks at it only after the
sector is written, and the driver keeps 28 bits of the sector's number. What it does is right for
a first chunk that is also the last one.
-/

namespace SaxonOS.Proofs
open SaxonOS Lib

/-- Byte `j` of `ptr` is in one of the sectors written. -/
def Stored (writes : List SectorWrite) (j : Nat) : Prop :=
  ∃ w ∈ writes, w.i.toNat ≤ j ∧ j < w.i.toNat + blockSize

instance (writes : List SectorWrite) : DecidablePred (Stored writes) := fun j =>
  inferInstanceAs (Decidable (∃ w ∈ writes, w.i.toNat ≤ j ∧ j < w.i.toNat + blockSize))

/-- The number of whole elements that are stored. -/
def storedElements (writes : List SectorWrite) (size nmemb : Nat) : Nat :=
  Nat.count (fun e => ∀ b < size, Stored writes (e * size + b)) nmemb

/-- The sectors with one more of them written. -/
def applyWrite (sectors : Drives) (w : SectorWrite) : Drives :=
  Function.update sectors w.drive (Function.update (sectors w.drive) w.lba w.buff)

/-- The sectors written are of the file's own blocks on the device, the bytes of `ptr` go where
the file has them, nothing else of the disk changes, and the value returned counts the elements
stored. -/
structure WritesOwnBlocks (v : Volume) (file : Ext2Inode) (ptr : Nat → UInt8) (size nmemb : UInt32)
    (dev : AtaDevice) (disk : PioDisk) (ret : UInt32) (writes : List SectorWrite)
    (last : PioDisk) : Prop where
  own : ∀ w ∈ writes, w.drive = driveOf dev ∧
    ∃ d < 12, pointer file d ≠ 0 ∧ pointer file d < v.blockCount ∧
      dev.startLba.toNat + (sectorsPerBlock v.geometry).toNat * (pointer file d).toNat ≤ w.lba ∧
      w.lba <
        dev.startLba.toNat + (sectorsPerBlock v.geometry).toNat * ((pointer file d).toNat + 1)
  reserved : ∀ w ∈ writes, w.lba ≠ 0 ∧ w.lba ≠ dev.startLba.toNat ∧
    w.lba ≠ dev.startLba.toNat + 2 ∧ w.lba ≠ dev.startLba.toNat + 3
  bytes : ∀ w ∈ writes, ∀ t : Fin 512, w.i.toNat + t.val < nmemb.toNat * size.toNat →
    w.buff t = ptr (w.i.toNat + t.val) ∧
    blockSize * w.lba + t.val = blockSize * dev.startLba.toNat +
      v.geometry.blockSize.toNat *
        (pointer file ((w.i.toNat + t.val) / v.geometry.blockSize.toNat)).toNat +
      (w.i.toNat + t.val) % v.geometry.blockSize.toNat
  onDisk : last.sectors = writes.foldl applyWrite disk.sectors
  counted : ret.toNat = storedElements writes size.toNat nmemb.toNat
  complete : ret = nmemb ↔ ∀ j < nmemb.toNat * size.toNat, Stored writes j

/-- The data is one chunk, and the first block of the file is one it may write to and that the
driver reaches. -/
structure OneChunk (v : Volume) (file : Ext2Inode) (size nmemb : UInt32) (dev : AtaDevice) :
    Prop where
  short : nmemb.toNat * size.toNat ≤ blockSize
  allocated : pointer file 0 ≠ 0
  below : pointer file 0 < v.blockCount
  reach : dev.startLba.toNat + (sectorsPerBlock v.geometry).toNat * (pointer file 0).toNat < 2 ^ 28
  superblock : (sectorsPerBlock v.geometry).toNat * (pointer file 0).toNat ≠ 2

section Sector

variable {disk : PioDisk} {dev : AtaDevice}

lemma applyWrite_apply (sectors : Drives) (w : SectorWrite) (drive : Bool) (lba : Nat) :
    applyWrite sectors w drive lba =
      if drive = w.drive ∧ lba = w.lba then w.buff else sectors drive lba := by
  rw [applyWrite, Function.update_apply]
  by_cases hd : drive = w.drive
  · rw [if_pos hd, Function.update_apply, hd]
    simp only [true_and]
  · rw [if_neg hd, if_neg fun h => hd h.1]

lemma writtenSectors_one (drive : Bool) (lba : Nat) (i : UInt32) (buff : Fin 512 → UInt8)
    (sectors : Drives) : writtenSectors drive lba 1 (buffBytes buff) sectors =
      applyWrite sectors ⟨i, drive, lba, buff⟩ := by
  funext d l t
  rw [writtenSectors, applyWrite_apply]
  by_cases h : d = drive ∧ l = lba
  · obtain ⟨rfl, rfl⟩ := h
    have ht : 512 * (l - l) + t.val = t.val := by omega
    rw [if_pos ⟨rfl, Nat.le_refl _, Nat.lt_succ_self _⟩, if_pos ⟨rfl, rfl⟩, ht, buffBytes]
    exact dif_pos t.isLt
  · rw [if_neg (fun h' => h ⟨h'.1, by omega⟩), if_neg h]

/-- One call of the driver stores one sector, at the 28 bits that the registers hold. -/
lemma ataWrite_sector (wait : Nat) (hbase : dev.base = disk.base) (i : UInt32)
    (buff : Fin 512 → UInt8) (lba : UInt32) : ∃ disk',
      ataWriteSects28Pio wait disk (buffBytes buff) 1 dev lba = .ok disk' ∧
      disk'.base = disk.base ∧
      storedSector i disk' = [⟨i, driveOf dev, (lba + dev.startLba).toNat % 2 ^ 28, buff⟩] ∧
      disk'.sectors =
        applyWrite disk.sectors ⟨i, driveOf dev, (lba + dev.startLba).toNat % 2 ^ 28, buff⟩ := by
  have hsectors : (afterWrite disk (buffBytes buff) 1 dev (lba + dev.startLba)).sectors =
      applyWrite disk.sectors ⟨i, driveOf dev, (lba + dev.startLba).toNat % 2 ^ 28, buff⟩ :=
    writtenSectors_one _ _ i buff disk.sectors
  refine ⟨_, ataWriteSects28Pio_ok wait _ 1 lba hbase, rfl, ?_, hsectors⟩
  have hnow : (afterWrite disk (buffBytes buff) 1 dev (lba + dev.startLba)).sectors (driveOf dev)
      ((lba + dev.startLba).toNat % 2 ^ 28) = buff := by
    rw [hsectors, applyWrite_apply, if_pos ⟨rfl, rfl⟩]
  exact congrArg (fun b => [SectorWrite.mk i (driveOf dev) _ b]) hnow

end Sector

section Turns

variable {v : Volume} {k : Nat} {file : Ext2Inode} {ptr : Nat → UInt8} {size nmemb ret : UInt32}
  {wait fuel : Nat} {dev : AtaDevice} {disk last : PioDisk} {writes : List SectorWrite} {i : UInt32}

/-- The sector written at `i`. -/
def writeAt (v : Volume) (file : Ext2Inode) (ptr : Nat → UInt8) (size nmemb : UInt32)
    (dev : AtaDevice) (i : UInt32) : SectorWrite :=
  ⟨i, driveOf dev,
    (addrOfBlock v.geometry (pointer file (i / 512).toNat) + dev.startLba).toNat % 2 ^ 28,
    fillBuff ptr i (nmemb * size - i)⟩

lemma writeFileLoop_end (hi : ¬i < nmemb * size) :
    writeFileLoop v file ptr size nmemb wait dev fuel i disk = .ok (nmemb, [], disk) := by
  cases fuel with
  | zero => rw [writeFileLoop, if_neg hi]
  | succ fuel => rw [writeFileLoop, if_neg hi]

/-- One turn of the loop. -/
lemma writeFileLoop_turn (v : Volume) (file : Ext2Inode) (ptr : Nat → UInt8) (wait fuel : Nat)
    (hbase : dev.base = disk.base) (hsize : size ≠ 0) (hi : i < nmemb * size)
    (hlt : (i / 512).toNat < 22) : ∃ disk', dev.base = disk'.base ∧
      disk'.sectors = applyWrite disk.sectors (writeAt v file ptr size nmemb dev i) ∧
      writeFileLoop v file ptr size nmemb wait dev (fuel + 1) i disk =
        if i + 512 ≥ 0x1800 ∨ pointer file (i / 512).toNat ≥ v.blockCount then
          .ok (i / size, [writeAt v file ptr size nmemb dev i], disk')
        else writeFileLoop v file ptr size nmemb wait dev fuel (i + 512) disk' >>= fun r =>
          .ok (r.1, writeAt v file ptr size nmemb dev i :: r.2.1, r.2.2) := by
  obtain ⟨disk', hok, hsame, hstored, hsectors⟩ := ataWrite_sector wait hbase i
    (fillBuff ptr i (nmemb * size - i)) (addrOfBlock v.geometry (pointer file (i / 512).toNat))
  refine ⟨disk', hbase.trans hsame.symm, hsectors, ?_⟩
  rw [writeFileLoop, if_pos hi]
  simp only [directBlock_ok file hlt, hok, hstored, bind, Except.bind, if_neg hsize]
  rfl

/-- The chunk at `i` is written whatever comes after it. -/
lemma writeAt_mem (hbase : dev.base = disk.base) (hsize : size ≠ 0) (hi : i < nmemb * size)
    (hlt : (i / 512).toNat < 22)
    (h : writeFileLoop v file ptr size nmemb wait dev (fuel + 1) i disk =
      .ok (ret, writes, last)) : writeAt v file ptr size nmemb dev i ∈ writes := by
  obtain ⟨disk', -, -, hturn⟩ := writeFileLoop_turn v file ptr wait fuel hbase hsize hi hlt
  rw [hturn] at h
  split_ifs at h
  · cases h
    exact List.mem_singleton.mpr rfl
  · obtain ⟨r, -, hr⟩ := bind_eq_ok h
    cases hr
    exact List.mem_cons_self

/-- Behind a chunk whose block is in order comes the next one. -/
lemma writeAt_next_mem (hbase : dev.base = disk.base) (hsize : size ≠ 0) (hi : i < nmemb * size)
    (hlt : (i / 512).toNat < 22)
    (hgo : ¬(i + 512 ≥ 0x1800 ∨ pointer file (i / 512).toNat ≥ v.blockCount))
    (hi' : i + 512 < nmemb * size) (hlt' : ((i + 512) / 512).toNat < 22)
    (h : writeFileLoop v file ptr size nmemb wait dev (fuel + 2) i disk =
      .ok (ret, writes, last)) : writeAt v file ptr size nmemb dev (i + 512) ∈ writes := by
  obtain ⟨disk', hbase', -, hturn⟩ := writeFileLoop_turn v file ptr wait (fuel + 1) hbase hsize hi
    hlt
  rw [hturn, if_neg hgo] at h
  obtain ⟨⟨ret', writes', last'⟩, hrest, hr⟩ := bind_eq_ok h
  have hmem := writeAt_mem hbase' hsize hi' hlt' hrest
  cases hr
  exact List.mem_cons_of_mem _ hmem

lemma toNat_total (hn : nmemb.toNat * size.toNat < 2 ^ 32) :
    (nmemb * size).toNat = nmemb.toNat * size.toNat := by
  rw [UInt32.toNat_mul, Nat.mod_eq_of_lt hn]

lemma lt_total_iff (hn : nmemb.toNat * size.toNat < 2 ^ 32) (i : UInt32) :
    i < nmemb * size ↔ i.toNat < nmemb.toNat * size.toNat := by
  rw [UInt32.lt_iff_toNat_lt, toNat_total hn]

/-- The sector of a block, modulo what the driver keeps of it. -/
lemma writeAt_lba (v : Volume) (file : Ext2Inode) (ptr : Nat → UInt8) (size nmemb : UInt32)
    (dev : AtaDevice) (i : UInt32) : (writeAt v file ptr size nmemb dev i).lba =
      (dev.startLba.toNat + (sectorsPerBlock v.geometry).toNat *
        (pointer file (i / 512).toNat).toNat) % 2 ^ 28 := by
  rw [writeAt]
  dsimp only
  rw [addrOfBlock, UInt32.toNat_add, UInt32.toNat_mul]
  omega

end Turns

/-- Nothing to write, nothing written. -/
lemma writesOwnBlocks_nothing (v : Volume) (file : Ext2Inode) (ptr : Nat → UInt8) (size : UInt32)
    (dev : AtaDevice) (disk : PioDisk) :
    WritesOwnBlocks v file ptr size 0 dev disk 0 [] disk where
  own := by simp
  reserved := by simp
  bytes := by simp
  onDisk := rfl
  counted := (Nat.count_zero _).symm
  complete := by simp

section Exact

variable {v : Volume} {k : Nat} {file : Ext2Inode} {ptr : Nat → UInt8} {size nmemb ret : UInt32}
  {dev : AtaDevice} {disk last : PioDisk} {writes : List SectorWrite}
  (hg : BlockSizeShift v.geometry k)
include hg

/-- The first chunk is where the file has it when the first block is in order. -/
lemma oneChunk_of_first (hpos : 0 < nmemb.toNat * size.toNat)
    (hw : WritesOwnBlocks v file ptr size nmemb dev disk ret writes last)
    (hmem : writeAt v file ptr size nmemb dev 0 ∈ writes)
    (hshort : pointer file 0 < v.blockCount → nmemb.toNat * size.toNat ≤ blockSize) :
    OneChunk v file size nmemb dev := by
  have hfirst := (hw.bytes _ hmem ⟨0, by decide⟩ (by simpa [writeAt] using hpos)).2
  have hi : (writeAt v file ptr size nmemb dev 0).i.toNat = 0 := rfl
  simp only [hi, Nat.zero_div, Nat.zero_mod, Nat.add_zero] at hfirst
  have haddr : (writeAt v file ptr size nmemb dev 0).lba = dev.startLba.toNat +
      (sectorsPerBlock v.geometry).toNat * (pointer file 0).toNat := by
    rw [hg.blockSize_eq, Nat.mul_assoc, ← Nat.mul_add] at hfirst
    exact Nat.eq_of_mul_eq_mul_left blockSize_pos hfirst
  have hreach : (writeAt v file ptr size nmemb dev 0).lba < 2 ^ 28 := by
    rw [writeAt_lba]
    exact Nat.mod_lt _ (by decide)
  obtain ⟨-, d, -, hne, hlt, hlo, hhi⟩ := hw.own _ hmem
  obtain ⟨-, -, hsuper, -⟩ := hw.reserved _ hmem
  rw [haddr] at hlo hhi hreach hsuper
  have hle1 := Nat.le_of_mul_le_mul_left (Nat.le_of_add_le_add_left hlo) hg.sectors_pos
  have hlt1 := Nat.lt_of_mul_lt_mul_left (Nat.lt_of_add_lt_add_left hhi)
  have hsame : pointer file d = pointer file 0 := UInt32.toNat_inj.mp (by omega)
  rw [hsame] at hne hlt
  exact ⟨hshort hlt, hne, hlt, hreach, fun h => hsuper (by rw [h])⟩

/-- The second chunk goes to a sector an even number of sectors behind the start of the device,
and the file has it at an odd one. -/
lemma not_writesOwnBlocks_second (hlong : blockSize < nmemb.toNat * size.toNat)
    (hmem : writeAt v file ptr size nmemb dev 512 ∈ writes) :
    ¬WritesOwnBlocks v file ptr size nmemb dev disk ret writes last := by
  intro hw
  have hi : (writeAt v file ptr size nmemb dev 512).i.toNat = 512 := rfl
  have hsecond := (hw.bytes _ hmem ⟨0, by decide⟩ (by simpa [hi, blockSize] using hlong)).2
  have hbig : 512 < v.geometry.blockSize.toNat := by
    have hpow : 1 ≤ 2 ^ k := Nat.one_le_two_pow
    have := hg.2
    omega
  simp only [hi, Nat.add_zero, Nat.div_eq_of_lt hbig, Nat.mod_eq_of_lt hbig, writeAt_lba,
    hg.sectors_eq] at hsecond
  rw [hg.2, blockSize, Nat.mul_assoc, Nat.mul_assoc] at hsecond
  omega

/-- The one write of a single chunk is all that is asked for. -/
lemma writesOwnBlocks_oneChunk (hn : nmemb.toNat * size.toNat < 2 ^ 32)
    (hc : OneChunk v file size nmemb dev)
    (hlast : last.sectors = applyWrite disk.sectors (writeAt v file ptr size nmemb dev 0)) :
    WritesOwnBlocks v file ptr size nmemb dev disk nmemb [writeAt v file ptr size nmemb dev 0]
      last := by
  have hi : (writeAt v file ptr size nmemb dev 0).i.toNat = 0 := rfl
  have haddr : (writeAt v file ptr size nmemb dev 0).lba = dev.startLba.toNat +
      (sectorsPerBlock v.geometry).toNat * (pointer file 0).toNat := by
    rw [writeAt_lba]
    exact Nat.mod_eq_of_lt hc.reach
  have hspos := hg.sectors_pos
  have hp : 0 < (pointer file 0).toNat :=
    Nat.pos_of_ne_zero fun h => hc.allocated (UInt32.toNat_inj.mp h)
  have hstored : ∀ j < nmemb.toNat * size.toNat,
      Stored [writeAt v file ptr size nmemb dev 0] j := by
    intro j hj
    have hshort := hc.short
    exact ⟨_, List.mem_singleton.mpr rfl, by omega, by omega⟩
  refine ⟨?_, ?_, ?_, hlast, ?_, ?_⟩
  · intro w hw
    rw [List.mem_singleton.mp hw, haddr]
    exact ⟨rfl, 0, by decide, hc.allocated, hc.below, Nat.le_refl _,
      Nat.add_lt_add_left (Nat.mul_lt_mul_of_pos_left (Nat.lt_succ_self _) hspos) _⟩
  · intro w hw
    have hmul := Nat.mul_pos hspos hp
    have hsuper := hc.superblock
    have heven : (sectorsPerBlock v.geometry).toNat * (pointer file 0).toNat % 2 = 0 := by
      rw [hg.sectors_eq, Nat.mul_assoc]
      omega
    rw [List.mem_singleton.mp hw, haddr]
    exact ⟨by omega, by omega, by omega, by omega⟩
  · intro w hw t ht
    rw [List.mem_singleton.mp hw] at ht ⊢
    have hbig : t.val < v.geometry.blockSize.toNat := by
      have htl := t.isLt
      have hpow : 1 ≤ 2 ^ k := Nat.one_le_two_pow
      have hsz := hg.2
      omega
    simp only [hi, Nat.zero_add, haddr, Nat.div_eq_of_lt hbig, Nat.mod_eq_of_lt hbig] at ht ⊢
    constructor
    · have hcount : (nmemb * size - 0).toNat = nmemb.toNat * size.toNat := by
        rw [UInt32.sub_zero, toNat_total hn]
      have hchunk : t.val < chunk (nmemb * size - 0).toNat := by
        rw [hcount, chunk]
        split_ifs
        · exact ht
        · exact t.isLt
      show fillBuff ptr 0 (nmemb * size - 0) t = ptr t.val
      rw [fillBuff, if_pos hchunk]
      congr 1
      exact Nat.zero_add _
    · rw [hg.blockSize_eq, Nat.mul_add, Nat.mul_assoc]
  · refine (Nat.count_iff_forall.mpr fun e he b hb => hstored _ ?_).symm
    have hle := Nat.mul_le_mul_right size.toNat (Nat.succ_le_of_lt he)
    rw [Nat.succ_mul] at hle
    omega
  · simp only [true_iff]
    exact hstored

end Exact

/-- `write_file` writes the file and reports it truthfully exactly when there is nothing to
write, or one chunk to a first block in order. -/
theorem write_file_truthful_iff {v : Volume} {k : Nat} (hg : BlockSizeShift v.geometry k)
    (file : Ext2Inode) (ptr : Nat → UInt8) (size nmemb : UInt32) (hsize : 1 ≤ size.toNat)
    (hn : nmemb.toNat * size.toNat < 2 ^ 32) (wait : Nat) (dev : AtaDevice) (disk : PioDisk)
    (hbase : dev.base = disk.base) :
    (∃ ret writes last, writeFile v file ptr size nmemb wait dev disk = .ok (ret, writes, last) ∧
      WritesOwnBlocks v file ptr size nmemb dev disk ret writes last) ↔
    file.typePermissions.toUInt32 &&& 1 = 0 ∧ (nmemb = 0 ∨ OneChunk v file size nmemb dev) := by
  have hmask : flagsMask = 1 := by decide
  have hne : size ≠ 0 := by
    rintro rfl
    exact absurd hsize (by decide)
  have hgo : pointer file 0 < v.blockCount →
      ¬((0 : UInt32) + 512 ≥ 0x1800 ∨ pointer file ((0 : UInt32) / 512).toNat ≥ v.blockCount) := by
    rintro hlt (h | h)
    · exact absurd h (by decide)
    · exact UInt32.not_le.mpr hlt h
  constructor
  · rintro ⟨ret, writes, last, hok, hw⟩
    rw [writeFile, hmask] at hok
    split_ifs at hok with hbit
    refine ⟨not_ne_iff.mp hbit, ?_⟩
    by_cases hz : nmemb = 0
    · exact .inl hz
    · right
      have hpos : 0 < nmemb.toNat * size.toNat :=
        Nat.mul_pos (Nat.pos_of_ne_zero fun h => hz (UInt32.toNat_inj.mp h)) hsize
      have hi : (0 : UInt32) < nmemb * size := (lt_total_iff hn 0).mpr hpos
      have hmem := writeAt_mem hbase hne hi (by decide) hok
      refine oneChunk_of_first hg hpos hw hmem fun hlt => ?_
      by_contra hlong
      have hlong' : blockSize < nmemb.toNat * size.toNat := Nat.not_le.mp hlong
      have hi' : (0 : UInt32) + 512 < nmemb * size := (lt_total_iff hn _).mpr hlong'
      have hnext := writeAt_next_mem hbase hne hi (by decide) (hgo hlt) hi' (by decide) hok
      rw [UInt32.zero_add] at hnext
      exact not_writesOwnBlocks_second hg hlong' hnext hw
  · rintro ⟨hbit, hor⟩
    by_cases hz : nmemb = 0
    · subst hz
      refine ⟨0, [], disk, ?_, ?_⟩
      · rw [writeFile, hmask, if_neg (not_ne_iff.mpr hbit), writeFileLoop_end]
        rw [lt_total_iff hn]
        simp
      · exact writesOwnBlocks_nothing v file ptr size dev disk
    · have hc := hor.resolve_left hz
      have hpos : 0 < nmemb.toNat * size.toNat :=
        Nat.mul_pos (Nat.pos_of_ne_zero fun h => hz (UInt32.toNat_inj.mp h)) hsize
      have hi : (0 : UInt32) < nmemb * size := (lt_total_iff hn 0).mpr hpos
      have hend : ¬(0 : UInt32) + 512 < nmemb * size := by
        rw [lt_total_iff hn]
        exact Nat.not_lt.mpr hc.short
      obtain ⟨last, -, hlast, hturn⟩ := writeFileLoop_turn v file ptr wait 11 hbase hne hi
        (by decide)
      refine ⟨nmemb, _, last, ?_, writesOwnBlocks_oneChunk hg hn hc hlast⟩
      rw [writeFile, hmask, if_neg (not_ne_iff.mpr hbit), hturn, if_neg (hgo hc.below),
        writeFileLoop_end hend]
      rfl

/-- A volume of 64 blocks of 1024 bytes. -/
def smallVolume : Volume := ⟨smallGeometry, 1024, 8, 64, 64, 1, false⟩

/-- 100 bytes to a volume at the start of the master drive. -/
theorem write_file_truthful_small :
    ∃ ret writes last,
      writeFile smallVolume smallRecord (fun _ => 7) 1 100 0 ⟨0, 0, 0x1F0⟩ emptyDisk =
        .ok (ret, writes, last) ∧
      WritesOwnBlocks smallVolume smallRecord (fun _ => 7) 1 100 ⟨0, 0, 0x1F0⟩ emptyDisk ret writes
        last :=
  (write_file_truthful_iff (v := smallVolume) smallGeometry_shift smallRecord (fun _ => 7) 1 100
    (by decide) (by decide) 0 ⟨0, 0, 0x1F0⟩ emptyDisk rfl).mpr ⟨by decide, .inr ⟨by decide,
      by decide, by decide, by decide, by decide⟩⟩

lemma writeFile_twoChunks : ∃ last,
    writeFile smallVolume smallRecord (fun _ => 7) 1 600 0 ⟨0, 0, 0x1F0⟩ emptyDisk =
      .ok (600, [writeAt smallVolume smallRecord (fun _ => 7) 1 600 ⟨0, 0, 0x1F0⟩ 0,
        writeAt smallVolume smallRecord (fun _ => 7) 1 600 ⟨0, 0, 0x1F0⟩ 512], last) := by
  have hbase : (⟨0, 0, 0x1F0⟩ : AtaDevice).base = emptyDisk.base := rfl
  have hone : (1 : UInt32) ≠ 0 := by decide
  obtain ⟨disk, hbase', -, hfirst⟩ := writeFileLoop_turn smallVolume smallRecord (fun _ => 7) 0 11
    hbase hone (by decide : (0 : UInt32) < 600 * 1) (by decide)
  obtain ⟨last, -, -, hsecond⟩ := writeFileLoop_turn smallVolume smallRecord (fun _ => 7) 0 10
    hbase' hone (by decide : (0 : UInt32) + 512 < 600 * 1) (by decide)
  refine ⟨last, ?_⟩
  rw [writeFile, if_neg (by decide), hfirst, if_neg (by decide), hsecond, if_neg (by decide),
    writeFileLoop_end (by decide)]
  rfl

/-- The second 512 bytes of a file of one block go to sector 0. -/
theorem write_file_hits_sector_zero :
    (writeFile smallVolume smallRecord (fun _ => 7) 1 600 0 ⟨0, 0, 0x1F0⟩ emptyDisk).toOption.map
        (fun r => (r.1, r.2.1.map (fun w => (w.i, w.drive, w.lba)))) =
      some (600, [(0, false, 100), (512, false, 0)]) ∧
    ¬∃ ret writes last,
      writeFile smallVolume smallRecord (fun _ => 7) 1 600 0 ⟨0, 0, 0x1F0⟩ emptyDisk =
        .ok (ret, writes, last) ∧
      WritesOwnBlocks smallVolume smallRecord (fun _ => 7) 1 600 ⟨0, 0, 0x1F0⟩ emptyDisk ret writes
        last := by
  obtain ⟨last₀, hok₀⟩ := writeFile_twoChunks
  have hrun : (writeFile smallVolume smallRecord (fun _ => 7) 1 600 0 ⟨0, 0, 0x1F0⟩
      emptyDisk).toOption.map (fun r => (r.1, r.2.1.map (fun w => (w.i, w.drive, w.lba)))) =
        some (600, [(0, false, 100), (512, false, 0)]) := by
    rw [hok₀]
    rfl
  refine ⟨hrun, ?_⟩
  rintro ⟨ret, writes, last, hok, hw⟩
  rw [hok] at hrun
  obtain ⟨-, hwrites⟩ := Prod.mk.inj (Option.some.inj hrun)
  have hmem : ((512, false, 0) : UInt32 × Bool × Nat) ∈
      writes.map (fun w => (w.i, w.drive, w.lba)) := by
    rw [hwrites]
    decide
  obtain ⟨w, hwm, hpair⟩ := List.mem_map.mp hmem
  exact (hw.reserved w hwm).1 (Prod.mk.inj (Prod.mk.inj hpair).2).2

end SaxonOS.Proofs
