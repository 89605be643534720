import SaxonOS.Ata
import SaxonOS.Ext2

/-!
# The ext2 volume

The rest of `fs/ext2/ext2.c` that works on the volume: `ext2_parse_superblock`,
`change_file_size`, `alloc_inode` and `write_file`. The last two go past the buffer cache and
move whole sectors of the disk, `write_file` through the driver of `drivers/ata.c`; `bgdt_entries`
stays the buffer that `read_bgd_table` got.
-/

namespace SaxonOS
open Lib

/-- An `ext2_extended_superblock_t`, byte by byte. -/
abbrev Superblock := Fin 1024 → UInt8

namespace Superblock

variable (sb : Superblock)

def inodeCount : UInt32 := le32 (sb 0) (sb 1) (sb 2) (sb 3)
def blockCount : UInt32 := le32 (sb 4) (sb 5) (sb 6) (sb 7)
def blockSize : UInt32 := le32 (sb 24) (sb 25) (sb 26) (sb 27)
def fragmentSize : UInt32 := le32 (sb 28) (sb 29) (sb 30) (sb 31)
def blocksPerGroup : UInt32 := le32 (sb 32) (sb 33) (sb 34) (sb 35)
def inodesPerGroup : UInt32 := le32 (sb 40) (sb 41) (sb 42) (sb 43)
def ext2Signature : UInt16 := le16 (sb 56) (sb 57)
def majorVersion : UInt32 := le32 (sb 76) (sb 77) (sb 78) (sb 79)
def inodeSize : UInt16 := le16 (sb 88) (sb 89)
def requiredFeatures : UInt32 := le32 (sb 96) (sb 97) (sb 98) (sb 99)

end Superblock

/-- The two sectors from `SUPERBLOCK_ADDR` on. -/
def readSuperblock (sectors : Sectors) : Superblock := fun i =>
  if h : i.val < blockSize then sectors 2 ⟨i.val, h⟩
  else sectors 3 ⟨i.val - blockSize, by have := i.isLt; simp only [blockSize] at h ⊢; omega⟩

/-- The static variables of `ext2.c`. -/
structure Volume where
  geometry : Geometry
  fragmentSize : UInt32
  inodeCount : UInt32
  blockCount : UInt32
  blocksPerGroup : UInt32
  blockGroupCount : UInt32
  dirHasTypefield : Bool
  deriving DecidableEq

/-- `ext2_parse_superblock` from the check of the signature up to `read_bgd_table`. A shift
takes its count modulo 32, as `shl` does. -/
def ext2ParseSuperblock (dest : Superblock) : Except Fault Volume :=
  if dest.ext2Signature ≠ 0xEF53 then .error (.panic [] "not ext2")
  else
    let blockSize : UInt32 := 0x400 <<< dest.blockSize
    let fragmentSize : UInt32 := 0x400 <<< dest.fragmentSize
    if dest.blocksPerGroup = 0 then .error .divByZero
    else
      let blockGroupCount := ceilingDiv dest.blockCount dest.blocksPerGroup
      let bgdAddr : UInt32 := if blockSize = 0x400 then 2 else 1
      let inodeSize : UInt32 := if dest.majorVersion ≥ 1 then dest.inodeSize.toUInt32 else 128
      if inodeSize = 0 then .error .divByZero
      else
        .ok {
          geometry := ⟨blockSize, dest.inodesPerGroup, bgdAddr, inodeSize, blockSize / inodeSize⟩
          fragmentSize := fragmentSize
          inodeCount := dest.inodeCount
          blockCount := dest.blockCount
          blocksPerGroup := dest.blocksPerGroup
          blockGroupCount := blockGroupCount
          dirHasTypefield := dest.requiredFeatures &&& 2 ≠ 0 }

/-- The sector that `read_bgd_table` gets and keeps. -/
def bgdSector (g : Geometry) : UInt32 := addrOfBlock g g.bgdAddr

/-- The macro `REAL_INODE_BLOCK`. `ADDR_OF_BLOCK` does not put its argument in brackets, so only
the first block of the table is multiplied. -/
def realInodeBlock (g : Geometry) (table inode : UInt32) : UInt32 :=
  sectorsPerBlock g * table + (inode - 1) % g.inodesPerGroup * g.inodeSize / g.blockSize +
    g.inodeSize * ((inode - 1) % g.inodesPerGroup % g.inodesPerBlock) / UInt32.ofNat blockSize

/-- The macro `INODE_OFFSET`. -/
def inodeOffset (g : Geometry) (inode : UInt32) : UInt32 :=
  g.inodeSize * ((inode - 1) % g.inodesPerGroup % g.inodesPerBlock) % UInt32.ofNat blockSize

/-- Byte `k` of a word. -/
def byteOf (v : UInt32) (k : Nat) : UInt8 := UInt8.ofNat (v.toNat / 256 ^ k)

/-- `tmp_inode->size_low = size` for a record at the place `offset` of a payload. -/
def storeSizeLow (payload : Payload) (offset : Nat) (size : UInt32) : Except Fault Payload :=
  if offset + 8 ≤ blockSize then
    .ok fun i => if offset + 4 ≤ i.val ∧ i.val < offset + 8 then byteOf size (i.val - (offset + 4))
      else payload i
  else .error .outOfBounds

/-- `change_file_size`. -/
def changeFileSize (g : Geometry) (sectors : Sectors) (inode size : UInt32) :
    Except Fault Sectors :=
  if g.inodesPerGroup = 0 ∨ g.blockSize = 0 ∨ g.inodesPerBlock = 0 then .error .divByZero
  else do
    let table ← bgdtInodeTable g sectors ((inode - 1) / g.inodesPerGroup)
    let block := realInodeBlock g table inode
    let payload ← storeSizeLow (sectors block) (inodeOffset g inode).toNat size
    .ok (Function.update sectors block payload)

/-- `bgdt_entries[group].inode_usage_bitmap`. -/
def bgdtInodeUsageBitmap (bgdt : Payload) (group : Nat) : Except Fault UInt32 :=
  payload32 bgdt (32 * group + 4)

/-- `bgdt_entries[group].free_inode_count`. -/
def bgdtFreeInodeCount (bgdt : Payload) (group : Nat) : Except Fault UInt16 :=
  payload16 bgdt (32 * group + 14)

/-- The loop over the inodes of a group from `freeInode` on, of which `n` are left, with
`tmp_buff`. A `char` is signed, and a shift takes its count modulo 32. -/
def scanInodes (bitmap : UInt32) : Nat → UInt32 → Payload → Sectors →
    Except Fault (UInt32 × Sectors)
  | 0, freeInode, _, disk => .ok (freeInode, disk)
  | n + 1, freeInode, tmp, disk =>
    let lba := bitmap + freeInode * 32 / 512
    let tmp := if freeInode * 32 % 512 = 0 then disk lba else tmp
    let shift := (freeInode % 512 % 32).toNat
    if h : (freeInode / 512).toNat < blockSize then
      if (tmp ⟨_, h⟩).toInt8.toInt >>> shift = 0 then
        let tmp := Function.update tmp ⟨_, h⟩ (tmp ⟨_, h⟩ ||| UInt8.ofNat (2 ^ shift))
        scanInodes bitmap n (freeInode + 1) tmp (Function.update disk lba tmp)
      else scanInodes bitmap n (freeInode + 1) tmp disk
    else .error .outOfBounds

/-- The loop over the groups from `i` on, of which `n` are left. The first turn of the loop over
the inodes fills `tmp_buff`. -/
def allocGroups (inodesPerGroup : UInt32) (bgdt : Payload) : Nat → UInt32 → UInt32 → Sectors →
    Except Fault (UInt32 × UInt32 × Sectors)
  | 0, i, freeInode, disk => .ok (i, freeInode, disk)
  | n + 1, i, freeInode, disk =>
    if freeInode = 0 then do
      let freeInodeCount ← bgdtFreeInodeCount bgdt i.toNat
      if freeInodeCount = 0 then allocGroups inodesPerGroup bgdt n (i + 1) freeInode disk
      else do
        let bitmap ← bgdtInodeUsageBitmap bgdt i.toNat
        let (freeInode, disk) ← scanInodes bitmap inodesPerGroup.toNat 0 (fun _ => 0) disk
        allocGroups inodesPerGroup bgdt n (i + 1) freeInode disk
    else .ok (i, freeInode, disk)

/-- `alloc_inode`, where `freeInode` is what the variable holds before it is set. -/
def allocInode (v : Volume) (bgdt : Payload) (freeInode : UInt32) (disk : Sectors) :
    Except Fault (UInt32 × Sectors) := do
  let (i, freeInode, disk) ← allocGroups v.geometry.inodesPerGroup bgdt v.blockGroupCount.toNat 0
    freeInode disk
  .ok (freeInode + v.geometry.inodesPerGroup * (i + 1), disk)

/-- A sector that a drive has stored, with the place `i` of the first byte of `ptr` in it. -/
structure SectorWrite where
  i : UInt32
  drive : Bool
  lba : Nat
  buff : Fin 512 → UInt8

/-- `tmp_buff`, cleared and then filled with up to 512 of the `count` bytes from `i` on. -/
def fillBuff (ptr : Nat → UInt8) (i count : UInt32) : Fin 512 → UInt8 := fun t =>
  if t.val < chunk count.toNat then ptr (i.toNat + t.val) else 0

/-- `tmp_buff` as the driver reads it. -/
def buffBytes (tmpBuff : Fin 512 → UInt8) : Nat → UInt8 := fun j =>
  if h : j < 512 then tmpBuff ⟨j, h⟩ else 0

/-- The sector that the controller has stored in the transfer of one call, with what it holds
now. -/
def storedSector (i : UInt32) (disk : PioDisk) : List SectorWrite :=
  match disk.transfer with
  | some t => if t.write then [⟨i, t.drive, t.lba, disk.sectors t.drive t.lba⟩] else []
  | none => []

/-- The loop of `write_file`, with the writes made. It ends at `i + 512 >= 0x1800`, after twelve
turns, at the latest. -/
def writeFileLoop (v : Volume) (file : Ext2Inode) (ptr : Nat → UInt8) (size nmemb : UInt32)
    (wait : Nat) (dev : AtaDevice) :
    Nat → UInt32 → PioDisk → Except Fault (UInt32 × List SectorWrite × PioDisk)
  | fuel, i, disk =>
    if i < nmemb * size then
      match fuel with
      | 0 => .error .diverge
      | fuel + 1 => do
        let direct ← file.directBlock (i / 512).toNat
        let disk ← ataWriteSects28Pio wait disk (buffBytes (fillBuff ptr i (nmemb * size - i))) 1
          dev (addrOfBlock v.geometry direct)
        if i + 512 ≥ 0x1800 ∨ direct ≥ v.blockCount then
          if size = 0 then .error .divByZero else .ok (i / size, storedSector i disk, disk)
        else do
          let (ret, writes, last) ← writeFileLoop v file ptr size nmemb wait dev fuel (i + 512) disk
          .ok (ret, storedSector i disk ++ writes, last)
    else .ok (nmemb, [], disk)

/-- `write_file`, with the sectors that are stored and the controller after the call. `dev` is
what is found at the argument of type `device_t *`, which the driver takes for a `bdev_t *`. The
test of the type is one of its last bit. -/
def writeFile (v : Volume) (file : Ext2Inode) (ptr : Nat → UInt8) (size nmemb : UInt32)
    (wait : Nat) (dev : AtaDevice) (disk : PioDisk) :
    Except Fault (UInt32 × List SectorWrite × PioDisk) :=
  if file.typePermissions.toUInt32 &&& flagsMask ≠ 0 then .error (.panic [] "not a file")
  else writeFileLoop v file ptr size nmemb wait dev 12 0 disk

end SaxonOS
