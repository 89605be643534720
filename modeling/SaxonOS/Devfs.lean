import SaxonOS.Common

/-!
# Block device records

The list of `bdev_t` records of `fs/devfs/devfs.c`. Records are addressed by pointers;
the address 0 is `NULL`.
-/

namespace SaxonOS

structure Bdev where
  minor : UInt8
  next : UInt32

structure Devfs where
  blockHead : UInt32
  bdev : UInt32 → Bdev

/-- The macro `MINOR_NUMBER`. -/
def minorNumber (flags : UInt16) : UInt8 := (flags &&& 0xFF).toUInt8

/-- The loop of `find_bdev`. There are fewer than 2^32 records, so a walk that is still going
after as many steps does not end. The function has no `return` after the loop. -/
def findBdevFrom (fs : Devfs) (dev : UInt16) : Nat → UInt32 → Except Fault UInt32
  | 0, _ => .error .diverge
  | fuel + 1, ptr =>
    if ptr = 0 then .error .noReturn
    else if minorNumber dev = (fs.bdev ptr).minor then .ok ptr
    else findBdevFrom fs dev fuel (fs.bdev ptr).next

def findBdev (fs : Devfs) (dev : UInt16) : Except Fault UInt32 :=
  findBdevFrom fs dev (2 ^ 32) fs.blockHead

def blockDev : UInt16 := 3

/-- `add_bdev`. The fields of the record stay as they are. -/
def addBdev (fs : Devfs) (dev : UInt32) : UInt16 × Devfs :=
  ((blockDev <<< 8) ||| 0, { fs with blockHead := dev })

end SaxonOS
