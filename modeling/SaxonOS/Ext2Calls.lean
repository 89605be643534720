import SaxonOS.Ext2Volume
import SaxonOS.Heap
import SaxonOS.Vfs

/-!
# What ext2 takes and gives back

The functions of `fs/ext2/ext2.c` that are called through the VFS, with the kernel heap and the
calls by which they take buffers and memory and give them back, in order. A temporary
`ext2_inode_t` is 128 bytes of the heap, which `kmalloc` does not clear.
-/

namespace SaxonOS
open Lib

inductive ResourceCall
  | getBlock (sector : UInt32)
  | putBlock (sector : UInt32)
  | kmalloc (size ptr : UInt32)
  | kfree (ptr : UInt32)
  deriving DecidableEq

structure Resources where
  heap : Heap
  calls : List ResourceCall

/-- `sizeof(ext2_inode_t)`. -/
def sizeofExt2Inode : UInt32 := 128

/-- `sizeof(struct inode)`. -/
def sizeofInode : UInt32 := 52

/-- `*(ext2_inode_t*)p`. -/
def ext2InodeAt (m : Mem) (p : UInt32) : Ext2Inode := fun i => m (p + UInt32.ofNat i.val)

/-- The loop of `read_inode` that copies the record to `dest`. -/
def storeInode (m : Mem) (dest : UInt32) (record : Ext2Inode) : Mem := fun x =>
  if h : (x - dest).toNat < 128 then record ⟨(x - dest).toNat, h⟩ else m x

namespace Resources

variable (r : Resources)

def getBlock (sector : UInt32) : Resources := { r with calls := r.calls ++ [.getBlock sector] }

def putBlock (sector : UInt32) : Resources := { r with calls := r.calls ++ [.putBlock sector] }

def kmalloc (size : UInt32) : Except Fault (UInt32 × Resources) := do
  let (ptr, heap) ← SaxonOS.kmalloc r.heap size
  .ok (ptr, ⟨heap, r.calls ++ [.kmalloc size ptr]⟩)

def kfree (ptr : UInt32) : Resources := ⟨SaxonOS.kfree r.heap ptr, r.calls ++ [.kfree ptr]⟩

def store (m : Mem) : Resources := { r with heap := { r.heap with mem := m } }

/-- `read_inode` of a record to `dest`, with the sector of the buffer it returns. -/
def readInode (g : Geometry) (sectors : Sectors) (dest inode : UInt32) :
    Except Fault (UInt32 × Resources) := do
  let (bh, record) ← SaxonOS.readInode g sectors inode
  .ok (bh, (r.getBlock bh).store (storeInode r.heap.mem dest record))

end Resources

/-- `ext2_read` up to its loop, with the address of `tmp_inode`, or nothing where it returns
-1. -/
def ext2ReadChecks (g : Geometry) (sectors : Sectors) (inode : Inode) (count off : UInt32)
    (r : Resources) : Except Fault (Option UInt32 × Resources) := do
  let cmp ← strcmp inode.fsName.bytes ext2Name.bytes
  if cmp ≠ 0 then .error (.panic [] "ext2_read. wrong filesystem")
  else if off + count ≥ inode.size then .ok (none, r)
  else if inode.flags &&& flagsMask ≠ 0 then .ok (none, r)
  else do
    let (tmp, r) ← r.kmalloc sizeofExt2Inode
    let (bh, r) ← r.readInode g sectors tmp inode.iNo
    let r := r.putBlock bh
    if (ext2InodeAt r.heap.mem tmp).typePermissions &&& typeRegFile = 0 then .ok (none, r)
    else .ok (some tmp, r)

/-- `ext2_write` up to its loop, with the address of `tmp_inode` and the sector of `inode_bh`,
which it keeps. -/
def ext2WriteChecks (g : Geometry) (sectors : Sectors) (inode : Inode) (count off : UInt32)
    (r : Resources) : Except Fault (Option (UInt32 × UInt32) × Resources) := do
  let cmp ← strcmp inode.fsName.bytes ext2Name.bytes
  if cmp ≠ 0 then .error (.panic [] "ext2_write. wrong filesystem")
  else if off + count ≥ inode.size then .ok (none, r)
  else if inode.flags &&& flagsMask ≠ 0 then .ok (none, r)
  else do
    let (tmp, r) ← r.kmalloc sizeofExt2Inode
    let (bh, r) ← r.readInode g sectors tmp inode.iNo
    if (ext2InodeAt r.heap.mem tmp).typePermissions &&& typeRegFile = 0 then .ok (none, r)
    else .ok (some (tmp, bh), r)

/-- The sectors of one block, with the calls for their buffers. -/
def walkSectorsCalls (g : Geometry) (sectors : Sectors) (filename : Bytes) (len : Int32)
    (sizeLow : UInt32) (direct : UInt32) (budget : Nat) :
    Nat → UInt8 → UInt32 → Except Fault (Walk × List ResourceCall)
  | fuel, k, size =>
    if k.toUInt32 < sectorsPerBlock g then
      match fuel with
      | 0 => .error .diverge
      | fuel + 1 => do
        let block := addrOfBlock g direct + k.toUInt32
        let walk ← walkRecords sectors block filename len sizeLow budget 0 size
        match walk with
        | .more size => do
          let (walk, calls) ← walkSectorsCalls g sectors filename len sizeLow direct budget fuel
            (k + 1) size
          .ok (walk, .getBlock block :: .putBlock block :: calls)
        | .found ino => do
          let (bh, _) ← readInode g sectors ino
          .ok (.found ino, [.getBlock block, .getBlock bh, .putBlock bh, .putBlock block])
        | .stop held => .ok (.stop held, [.getBlock block])
    else .ok (.more size, [])

def walkBlocksCalls (g : Geometry) (sectors : Sectors) (filename : Bytes) (len : Int32)
    (inode : Ext2Inode) (fuel : Nat) :
    Nat → Nat → UInt32 → Except Fault (Walk × List ResourceCall)
  | 0, _, size => .ok (.more size, [])
  | n + 1, i, size => do
    let direct ← inode.directBlock i
    if direct = 0 then .ok (.stop [], [])
    else do
      let (walk, calls) ← walkSectorsCalls g sectors filename len inode.sizeLow direct fuel fuel 0
        size
      match walk with
      | .more size => do
        let (walk, rest) ← walkBlocksCalls g sectors filename len inode fuel n (i + 1) size
        .ok (walk, calls ++ rest)
      | walk => .ok (walk, calls)

/-- The calls of `ext2_lookup`. Its records are on the stack. -/
def ext2LookupCalls (g : Geometry) (sectors : Sectors) (fuel : Nat) (dir : Inode)
    (filename : Bytes) (len : Int32) : Except Fault (List ResourceCall) := do
  let (bh, inode) ← readInode g sectors dir.iNo
  if len = 0 then .ok [.getBlock bh, .putBlock bh]
  else if inode.typePermissions = 0 then .ok [.getBlock bh, .putBlock bh]
  else do
    let (_, calls) ← walkBlocksCalls g sectors filename len inode fuel 12 0 0
    .ok (.getBlock bh :: .putBlock bh :: calls)

/-- The fields of `struct inode` that the functions below fill in. -/
structure VfsInode where
  iNo : UInt32
  size : UInt32
  gid : UInt32
  uid : UInt32
  deriving DecidableEq

/-- `ext2_read_inode`, which reads no record of the disk. -/
def ext2ReadInode (r : Resources) (dest : VfsInode) : Except Fault (VfsInode × Resources) :=
  if dest.iNo ≠ 0 then do
    let (tmp, r) ← r.kmalloc sizeofExt2Inode
    let t := ext2InodeAt r.heap.mem tmp
    .ok ({ dest with size := t.sizeLow, gid := t.gid.toUInt32, uid := t.uid.toUInt32 },
      r.kfree tmp)
  else .ok (dest, r)

/-- `*(struct inode*)p`, for the same fields. -/
def vfsInodeAt (m : Mem) (p : UInt32) : VfsInode :=
  ⟨read32 m (p + 4), read32 m (p + 8), read32 m (p + 20), read32 m (p + 24)⟩

/-- The fields of `struct super_block` that `ext2_read_super` sets. -/
structure SuperBlock (n : Nat) where
  root : UInt32
  fsType : Ptr (Fin n)
  dev : UInt32

/-- The assignments to `root`, with the fields of `tmp` as they are at each of them. -/
def fillRoot (m : Mem) (root tmp : UInt32) : Mem :=
  let m := write32 m (root + 4) 2
  let m := write32 m (root + 8) (ext2InodeAt m tmp).sizeLow
  let m := write32 m (root + 20) (ext2InodeAt m tmp).gid.toUInt32
  let m := write32 m (root + 24) (ext2InodeAt m tmp).uid.toUInt32
  write32 m (root + 28) (ext2InodeAt m tmp).flags

/-- `sb->fs_type`, looked up where it is not set. -/
def ext2FsType {n : Nat} (registry : Registry n) (fsType : Ptr (Fin n)) :
    Except Fault (Ptr (Fin n)) :=
  if fsType = .null then do
    let ptr ← findFileSystem registry ext2Name.bytes 4
    .ok (registry.load ptr)
  else .ok fsType

/-- `ext2_read_super`. The buffer of the group descriptors is kept for `bgdt_entries`. -/
def ext2ReadSuper {n : Nat} (registry : Registry n) (sectors : Sectors) (sb : SuperBlock n)
    (dev : UInt32) (r : Resources) : Except Fault (SuperBlock n × Resources) := do
  let r := (((r.getBlock 2).putBlock 2).getBlock 3).putBlock 3
  let v ← ext2ParseSuperblock (readSuperblock sectors)
  let r := r.getBlock (bgdSector v.geometry)
  let (tmp, r) ← r.kmalloc sizeofExt2Inode
  let (_, r) ← r.readInode v.geometry sectors tmp 2
  let (root, r) ← r.kmalloc sizeofInode
  let r := r.store (fillRoot r.heap.mem root tmp)
  let fsType ← ext2FsType registry sb.fsType
  .ok (⟨root, fsType, dev⟩, r.kfree tmp)

end SaxonOS
