import SaxonOS.Lib.Holding
import SaxonOS.Ext2Volume

/-!
# The readers of the buffer cache

The functions of `ext2.c` and `devfs.c` that only read, with their calls of `get_block` and
`put_block` in the order of the source. `bgdt_entries` points into the buffer that
`read_bgd_table` got and never puts; that buffer is the one a program holds all the time.
-/

namespace SaxonOS
open Lib Lib.Holding

/-- What is done with the buffers of one device. -/
abbrev Reader (α : Type) := Holding UInt32 Payload Fault α

/-- `read_inode`, where the caller puts the buffer at once if `back` is set. -/
def readInodeVia (g : Geometry) (inode : UInt32) (back : Bool) : Reader (UInt32 × Ext2Inode) :=
  if g.inodesPerGroup = 0 ∨ g.blockSize = 0 ∨ g.inodesPerBlock = 0 then .fail .divByZero
  else .look fun bgdt => do
    let group := (inode - 1) / g.inodesPerGroup
    let index := (inode - 1) % g.inodesPerGroup
    let table ← ofExcept (payload32 bgdt (32 * group.toNat + 8))
    let blockOfInode := table + index * g.inodeSize / g.blockSize
    let place := g.inodeSize * (index % g.inodesPerBlock)
    let block := addrOfBlock g blockOfInode + place / UInt32.ofNat blockSize
    .hold block (fun payload => do
      let record ← ofExcept (copyInode payload (place % UInt32.ofNat blockSize).toNat)
      pure (record, back)) fun record => pure (block, record)

/-- The body of the inner loop of `ext2_read`. -/
def readStepVia (g : Geometry) (tmp : Ext2Inode) (k : Nat) (st : ReadState) :
    Reader ReadState := do
  let direct ← ofExcept (tmp.directBlock st.i)
  let block := addrOfBlock g direct + UInt32.ofNat k
  let chars := chunk st.count
  let bytes ← visit block fun payload => readChars payload chars st.offset
  pure { i := st.i + 1, offset := 0, count := st.count - chars, off := st.off + UInt32.ofNat chars,
         read := st.read + UInt32.ofNat chars, buff := st.buff ++ bytes, got := st.got ++ [block] }

/-- The inner loop of `ext2_read`, with `n` turns left. -/
def readSectorsVia (g : Geometry) (tmp : Ext2Inode) : Nat → Nat → ReadState → Reader ReadState
  | 0, _, st => pure st
  | n + 1, k, st =>
    if st.count > 0 then do
      let st ← readStepVia g tmp k st
      readSectorsVia g tmp n (k + 1) st
    else pure st

def readLoopVia (g : Geometry) (tmp : Ext2Inode) : Nat → ReadState → Reader ReadState
  | fuel, st => do
    let more ← ofExcept (readGuard tmp st)
    if more then
      match fuel with
      | 0 => .fail .diverge
      | fuel + 1 => do
        let st ← readSectorsVia g tmp (sectorsPerBlock g).toNat 0 st
        readLoopVia g tmp fuel st
    else pure st

/-- `ext2_read`. -/
def ext2ReadVia (g : Geometry) (fuel : Nat) (inode : Inode) (count off : UInt32) :
    Reader ReadResult := do
  let failed : ReadResult := ⟨-1, off, [], []⟩
  let cmp ← ofExcept (strcmp inode.fsName.bytes ext2Name.bytes)
  if cmp ≠ 0 then .fail (.panic [] "ext2_read. wrong filesystem")
  else if off + count ≥ inode.size then pure failed
  else if inode.flags &&& flagsMask ≠ 0 then pure failed
  else do
    let (_, tmp) ← readInodeVia g inode.iNo true
    if tmp.typePermissions &&& typeRegFile = 0 then pure failed
    else do
      let st ← readLoopVia g tmp fuel
        ⟨(off / UInt32.ofNat blockSize).toNat, (off % UInt32.ofNat blockSize).toNat, count.toNat,
          off, 0, [], []⟩
      pure ⟨st.read, st.off, st.buff, st.got⟩

/-- What the records of a sector come to: a match at the place `de`, a size that is too large, or
the size counted so far. -/
inductive Dirents
  | found (de : Nat) (inode : UInt32)
  | stop
  | more (size : UInt32)

/-- The records of a sector from the place `de` on. -/
def walkDirents (payload : Payload) (filename : Bytes) (len : Int32) (sizeLow : UInt32) :
    Nat → Nat → UInt32 → Except Fault Dirents
  | fuel, de, size => do
    let entrySize ← payload16 payload (de + 4)
    if de + entrySize.toNat < blockSize then
      match fuel with
      | 0 => .error .diverge
      | fuel + 1 => do
        let hit ← direntMatches payload filename len de
        if hit then do
          let inode ← payload32 payload de
          .ok (.found de inode)
        else
          let size := size + entrySize.toUInt32
          if size > sizeLow then .ok .stop
          else walkDirents payload filename len sizeLow fuel (de + entrySize.toNat) size
    else .ok (.more size)

/-- What a part of `ext2_lookup` comes to: the number and the record of the inode, a `return -1`
with the sectors whose buffers are kept, or the size counted so far. -/
inductive LookupWalk
  | found (iNo : UInt32) (inode : Ext2Inode)
  | stop (held : List UInt32)
  | more (size : UInt32)

/-- What is done with the buffer of a sector after its records, and whether the buffer is put. The
number of the inode is read from it after the inode has been read. -/
def direntsVia (g : Geometry) (block : UInt32) : Dirents → Reader (LookupWalk × Bool)
  | .found de ino => do
    let (_, inode) ← readInodeVia g ino true
    .again fun payload => do
      let iNo ← ofExcept (payload32 payload de)
      pure (.found iNo inode, true)
  | .stop => pure (.stop [block], false)
  | .more size => pure (.more size, true)

/-- One sector of a directory. -/
def walkSectorVia (g : Geometry) (filename : Bytes) (len : Int32) (sizeLow : UInt32)
    (budget : Nat) (block size : UInt32) : Reader LookupWalk :=
  .hold block (fun payload => do
    let dirents ← ofExcept (walkDirents payload filename len sizeLow budget 0 size)
    direntsVia g block dirents) pure

def walkSectorsVia (g : Geometry) (filename : Bytes) (len : Int32) (sizeLow : UInt32)
    (direct : UInt32) (budget : Nat) : Nat → UInt8 → UInt32 → Reader LookupWalk
  | fuel, k, size =>
    if k.toUInt32 < sectorsPerBlock g then
      match fuel with
      | 0 => .fail .diverge
      | fuel + 1 => do
        let walk ← walkSectorVia g filename len sizeLow budget (addrOfBlock g direct + k.toUInt32)
          size
        match walk with
        | .more size => walkSectorsVia g filename len sizeLow direct budget fuel (k + 1) size
        | walk => pure walk
    else pure (.more size)

def walkBlocksVia (g : Geometry) (filename : Bytes) (len : Int32) (inode : Ext2Inode)
    (fuel : Nat) : Nat → Nat → UInt32 → Reader LookupWalk
  | 0, _, size => pure (.more size)
  | n + 1, i, size => do
    let direct ← ofExcept (inode.directBlock i)
    if direct = 0 then pure (.stop [])
    else do
      let walk ← walkSectorsVia g filename len inode.sizeLow direct fuel fuel 0 size
      match walk with
      | .more size => walkBlocksVia g filename len inode fuel n (i + 1) size
      | walk => pure walk

/-- `ext2_lookup`. -/
def ext2LookupVia (g : Geometry) (fuel : Nat) (dir : Inode) (filename : Bytes) (len : Int32)
    (result : Inode) : Reader (Int32 × Inode × List UInt32) := do
  let (_, inode) ← readInodeVia g dir.iNo true
  if len = 0 then pure (-1, result, [])
  else if inode.typePermissions = 0 then pure (-1, result, [])
  else do
    let walk ← walkBlocksVia g filename len inode fuel 12 0 0
    match walk with
    | .found iNo inode =>
      pure (0, { result with iNo := iNo, size := inode.sizeLow,
                             permissions := inode.typePermissions.toUInt32 }, [])
    | .stop held => pure (-1, result, held)
    | .more _ => pure (-1, result, [])

/-- `ext2_parse_superblock`. The buffer of the group descriptors stays held. -/
def parseSuperblockVia : Reader Volume := do
  let lo ← visit 2 .ok
  let hi ← visit 3 .ok
  let v ← ofExcept (ext2ParseSuperblock (readSuperblock fun lba => if lba = 2 then lo else hi))
  .hold (bgdSector v.geometry) (fun _ => pure ((), false)) fun _ => pure v

/-- The outer loop of `bdev_read`. -/
def bdevReadLoopVia : Nat → Nat → UInt32 → Nat → UInt32 → UInt32 →
    Reader (List UInt8 × UInt32 × UInt32)
  | fuel, count, block, offset, pos, read =>
    if count > 0 then
      match fuel with
      | 0 => .fail .diverge
      | fuel + 1 => do
        let chars := chunk count
        let bytes ← visit block fun payload => readChars payload chars offset
        let (rest, read, pos) ← bdevReadLoopVia fuel (count - chars) (block + 1) 0
          (pos + UInt32.ofNat chars) (read + UInt32.ofNat chars)
        pure (bytes ++ rest, read, pos)
    else pure ([], read, pos)

/-- `bdev_read`. -/
def bdevReadVia (count : Int32) (pos : UInt32) : Reader (List UInt8 × UInt32 × UInt32) :=
  bdevReadLoopVia count.toInt.toNat count.toInt.toNat (pos / UInt32.ofNat blockSize)
    (pos % UInt32.ofNat blockSize).toNat pos 0

/-- A call of one of them. -/
inductive ReaderCall : Type → Type
  | readInode (inode : UInt32) (back : Bool) : ReaderCall (UInt32 × Ext2Inode)
  | ext2Read (fuel : Nat) (inode : Inode) (count off : UInt32) : ReaderCall ReadResult
  | ext2Lookup (fuel : Nat) (dir : Inode) (filename : Bytes) (len : Int32) (result : Inode) :
      ReaderCall (Int32 × Inode × List UInt32)
  | bdevRead (count : Int32) (pos : UInt32) : ReaderCall (List UInt8 × UInt32 × UInt32)

namespace ReaderCall

variable {α : Type}

def via (g : Geometry) : {α : Type} → ReaderCall α → Reader α
  | _, readInode inode back => readInodeVia g inode back
  | _, ext2Read fuel inode count off => ext2ReadVia g fuel inode count off
  | _, ext2Lookup fuel dir filename len result => ext2LookupVia g fuel dir filename len result
  | _, bdevRead count pos => bdevReadVia count pos

/-- The same call over the sectors of the device. -/
def plain (g : Geometry) (sectors : Sectors) : {α : Type} → ReaderCall α → Except Fault α
  | _, readInode inode _ => SaxonOS.readInode g sectors inode
  | _, ext2Read fuel inode count off => SaxonOS.ext2Read g sectors fuel inode count off
  | _, ext2Lookup fuel dir filename len result =>
    SaxonOS.ext2Lookup g sectors fuel dir filename len result
  | _, bdevRead count pos => SaxonOS.bdevRead sectors count pos

def IsLookup : {α : Type} → ReaderCall α → Prop
  | _, ext2Lookup _ _ _ _ _ => True
  | _, _ => False

end ReaderCall

end SaxonOS
