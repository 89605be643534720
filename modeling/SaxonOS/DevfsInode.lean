import SaxonOS.Devfs

/-!
# Inodes of block devices

`devfs_read_inode` of `fs/devfs/devfs.c`. An inode number has the class of a device in its second
byte and the minor in its first.
-/

namespace SaxonOS

/-- The records with their permissions, and the other addresses that go into an inode. -/
structure DevfsState extends Devfs where
  permissions : UInt32 → UInt32
  superBlock : UInt32
  devfsInodeOps : UInt32

/-- The fields of `struct inode` that are read or set. -/
structure DevInode where
  iNo : UInt32
  iOps : UInt32
  iSb : UInt32
  permissions : UInt32
  mountPoint : Bool
  counter : UInt32

/-- The macro `MAJOR_NUMBER` of an inode number. -/
def inodeMajor (flags : UInt32) : UInt8 := (flags >>> 8).toUInt8

/-- The macro `MINOR_NUMBER` of an inode number. -/
def inodeMinor (flags : UInt32) : UInt8 := (flags &&& 0xFF).toUInt8

/-- `MAJOR_NUMBER(dest->i_no == BLOCK_DEV)`: the shift binds before the comparison. -/
def majorOfTest (iNo : UInt32) : UInt8 := if iNo = blockDev.toUInt32 >>> 8 then 1 else 0

/-- The loop of `devfs_read_inode`, which goes on after a match. -/
def readPermissions (fs : DevfsState) (iNo : UInt32) :
    Nat → UInt32 → UInt32 → Except Fault UInt32
  | 0, _, _ => .error .diverge
  | fuel + 1, ptr, permissions =>
    if ptr = 0 then .ok permissions
    else
      readPermissions fs iNo fuel (fs.bdev ptr).next
        (if inodeMinor iNo = (fs.bdev ptr).minor then fs.permissions ptr else permissions)

def devfsReadInode (fs : DevfsState) (dest : DevInode) : Except Fault DevInode := do
  let dest := { dest with iOps := fs.devfsInodeOps, iSb := fs.superBlock }
  let permissions ←
    if dest.iNo > 0 then
      if majorOfTest dest.iNo ≠ 0 then
        readPermissions fs dest.iNo (2 ^ 32) fs.blockHead dest.permissions
      else .ok dest.permissions
    else .ok dest.permissions
  .ok { dest with permissions, mountPoint := false, counter := 0 }

end SaxonOS
