import SaxonOS.BlockDevice
import SaxonOS.Lib.Loop

/-!
# ext2

`fs/ext2/ext2.c`: `read_inode`, `ext2_read`, `ext2_write` and `ext2_lookup`, over the sectors of
the device the inode is on. A `get_block` returns the addressed sector and a `put_block` only
lets go of it. The superblock has been parsed, and `bgdt_entries` points into the buffer of
the sector that `read_bgd_table` asked for.
-/

namespace SaxonOS
open Lib

def le16 (b0 b1 : UInt8) : UInt16 := UInt16.ofNat (b0.toNat + 256 * b1.toNat)

def le32 (b0 b1 b2 b3 : UInt8) : UInt32 :=
  UInt32.ofNat (b0.toNat + 256 * b1.toNat + 65536 * b2.toNat + 16777216 * b3.toNat)

def payload8 (payload : Payload) (i : Nat) : Except Fault UInt8 :=
  if h : i < blockSize then .ok (payload ⟨i, h⟩) else .error .outOfBounds

def payload16 (payload : Payload) (i : Nat) : Except Fault UInt16 := do
  let b0 ← payload8 payload i
  let b1 ← payload8 payload (i + 1)
  .ok (le16 b0 b1)

def payload32 (payload : Payload) (i : Nat) : Except Fault UInt32 := do
  let b0 ← payload8 payload i
  let b1 ← payload8 payload (i + 1)
  let b2 ← payload8 payload (i + 2)
  let b3 ← payload8 payload (i + 3)
  .ok (le32 b0 b1 b2 b3)

/-- The variables that `ext2_parse_superblock` sets and inode addresses are computed from. The
field `blockSize` is `block_size`, not the macro `BLOCK_SIZE`. -/
structure Geometry where
  blockSize : UInt32
  inodesPerGroup : UInt32
  bgdAddr : UInt32
  inodeSize : UInt32
  inodesPerBlock : UInt32
  deriving DecidableEq

/-- `block_size / BLOCK_SIZE`. -/
def sectorsPerBlock (g : Geometry) : UInt32 := g.blockSize / UInt32.ofNat blockSize

/-- The macro `ADDR_OF_BLOCK`. -/
def addrOfBlock (g : Geometry) (block : UInt32) : UInt32 := sectorsPerBlock g * block

/-- An `ext2_inode_t`, byte by byte. -/
abbrev Ext2Inode := Fin 128 → UInt8

def Ext2Inode.typePermissions (t : Ext2Inode) : UInt16 := le16 (t 0) (t 1)

def Ext2Inode.uid (t : Ext2Inode) : UInt16 := le16 (t 2) (t 3)

def Ext2Inode.sizeLow (t : Ext2Inode) : UInt32 := le32 (t 4) (t 5) (t 6) (t 7)

def Ext2Inode.gid (t : Ext2Inode) : UInt16 := le16 (t 24) (t 25)

def Ext2Inode.flags (t : Ext2Inode) : UInt32 := le32 (t 32) (t 33) (t 34) (t 35)

/-- `direct_block[i]`. From 12 on these are the fields after the array, and from 22 on there is
no record any more. -/
def Ext2Inode.directBlock (t : Ext2Inode) (i : Nat) : Except Fault UInt32 :=
  if h : i < 22 then
    .ok (le32 (t ⟨40 + 4 * i, by omega⟩) (t ⟨41 + 4 * i, by omega⟩) (t ⟨42 + 4 * i, by omega⟩)
      (t ⟨43 + 4 * i, by omega⟩))
  else .error .outOfBounds

/-- `bgdt_entries[group].inode_table`. A descriptor takes 32 bytes. -/
def bgdtInodeTable (g : Geometry) (sectors : Sectors) (group : UInt32) : Except Fault UInt32 :=
  payload32 (sectors (addrOfBlock g g.bgdAddr)) (32 * group.toNat + 8)

/-- The copy of `sizeof(ext2_inode_t)` bytes from the place `offset` of a payload. -/
def copyInode (payload : Payload) (offset : Nat) : Except Fault Ext2Inode :=
  if h : offset + 128 ≤ blockSize then .ok fun i => payload ⟨i + offset, by omega⟩
  else .error .outOfBounds

/-- `read_inode`, with the sector of the buffer it returns and the record it copies. -/
def readInode (g : Geometry) (sectors : Sectors) (inode : UInt32) :
    Except Fault (UInt32 × Ext2Inode) :=
  if g.inodesPerGroup = 0 ∨ g.blockSize = 0 ∨ g.inodesPerBlock = 0 then .error .divByZero
  else do
    let group := (inode - 1) / g.inodesPerGroup
    let index := (inode - 1) % g.inodesPerGroup
    let table ← bgdtInodeTable g sectors group
    let blockOfInode := table + index * g.inodeSize / g.blockSize
    let place := g.inodeSize * (index % g.inodesPerBlock)
    let block := addrOfBlock g blockOfInode + place / UInt32.ofNat blockSize
    let record ← copyInode (sectors block) (place % UInt32.ofNat blockSize).toNat
    .ok (block, record)

/-- The fields of `struct inode` that these functions use, with the name that
`i_sb->fs_type` carries. -/
structure Inode where
  iNo : UInt32
  size : UInt32
  flags : UInt32
  permissions : UInt32
  fsName : CString

def ext2Name : CString := ⟨[0x65, 0x78, 0x74, 0x32], by simp⟩

def typeRegFile : UInt16 := 0x8000

/-- `inode->flags & 0xF000 != TYPE_REG_FILE`, where the comparison binds first. -/
def flagsMask : UInt32 := if (0xF000 : UInt16) ≠ typeRegFile then 1 else 0

/-- The variables of `ext2_read` that change, with the bytes stored through `buff` and the
sectors asked for so far. -/
structure ReadState where
  i : Nat
  offset : Nat
  count : Nat
  off : UInt32
  read : UInt32
  buff : List UInt8
  got : List UInt32

/-- `i < 12 && tmp_inode->direct_block[i] != 0`. -/
def readGuard (tmp : Ext2Inode) (st : ReadState) : Except Fault Bool :=
  if st.i < 12 then do
    let direct ← tmp.directBlock st.i
    .ok (direct ≠ 0)
  else .ok false

/-- The body of the inner loop of `ext2_read`. -/
def readStep (g : Geometry) (sectors : Sectors) (tmp : Ext2Inode) (k : Nat) (st : ReadState) :
    Except Fault ReadState := do
  let direct ← tmp.directBlock st.i
  let block := addrOfBlock g direct + UInt32.ofNat k
  let chars := chunk st.count
  let bytes ← readChars (sectors block) chars st.offset
  .ok { i := st.i + 1, offset := 0, count := st.count - chars, off := st.off + UInt32.ofNat chars,
        read := st.read + UInt32.ofNat chars, buff := st.buff ++ bytes, got := st.got ++ [block] }

def readLoop (g : Geometry) (sectors : Sectors) (tmp : Ext2Inode) : Nat → ReadState →
    Except Fault ReadState :=
  loopNest .diverge (readGuard tmp) (fun st => decide (st.count > 0)) (readStep g sectors tmp)
    (sectorsPerBlock g).toNat

/-- What `ext2_read` returns and leaves in `buff` and `*off`, and the sectors it asked for. -/
structure ReadResult where
  ret : UInt32
  off : UInt32
  buff : List UInt8
  got : List UInt32
  deriving DecidableEq

def ext2Read (g : Geometry) (sectors : Sectors) (fuel : Nat) (inode : Inode) (count off : UInt32) :
    Except Fault ReadResult := do
  let failed : ReadResult := ⟨-1, off, [], []⟩
  let cmp ← strcmp inode.fsName.bytes ext2Name.bytes
  if cmp ≠ 0 then .error (.panic [] "ext2_read. wrong filesystem")
  else if off + count ≥ inode.size then .ok failed
  else if inode.flags &&& flagsMask ≠ 0 then .ok failed
  else do
    let (_, tmp) ← readInode g sectors inode.iNo
    if tmp.typePermissions &&& typeRegFile = 0 then .ok failed
    else do
      let st ← readLoop g sectors tmp fuel
        ⟨(off / UInt32.ofNat blockSize).toNat, (off % UInt32.ofNat blockSize).toNat, count.toNat,
          off, 0, [], []⟩
      .ok ⟨st.read, st.off, st.buff, st.got⟩

/-- The variables of `ext2_write` that change, with the place `next` that `buff` has reached. -/
structure WriteState where
  i : Nat
  offset : Nat
  count : Nat
  off : UInt32
  wrote : UInt32
  next : Nat
  sectors : Sectors

/-- `tmp_inode->direct_block[i] != 0`. -/
def writeGuard (tmp : Ext2Inode) (st : WriteState) : Except Fault Bool := do
  let direct ← tmp.directBlock st.i
  .ok (direct ≠ 0)

/-- The body of the inner loop of `ext2_write`. -/
def writeStep (g : Geometry) (buff : Nat → UInt8) (tmp : Ext2Inode) (k : Nat) (st : WriteState) :
    Except Fault WriteState := do
  let direct ← tmp.directBlock st.i
  let block := addrOfBlock g direct + UInt32.ofNat k
  let chars := chunk st.count
  let payload ← writeChars buff chars st.offset st.next (st.sectors block)
  .ok { i := st.i + 1, offset := 0, count := st.count - chars, off := st.off + UInt32.ofNat chars,
        wrote := st.wrote + UInt32.ofNat chars, next := st.next + chars,
        sectors := Function.update st.sectors block payload }

def writeLoop (g : Geometry) (buff : Nat → UInt8) (tmp : Ext2Inode) : Nat → WriteState →
    Except Fault WriteState :=
  loopNest .diverge (writeGuard tmp) (fun st => decide (st.count > 0)) (writeStep g buff tmp)
    (sectorsPerBlock g).toNat

structure WriteResult where
  ret : UInt32
  off : UInt32
  sectors : Sectors

/-- `ext2_write`. The new `size_low` goes into the copy that `kfree` takes, not into the buffer
of the inode. -/
def ext2Write (g : Geometry) (sectors : Sectors) (fuel : Nat) (inode : Inode) (buff : Nat → UInt8)
    (count off : UInt32) : Except Fault WriteResult := do
  let failed : WriteResult := ⟨-1, off, sectors⟩
  let cmp ← strcmp inode.fsName.bytes ext2Name.bytes
  if cmp ≠ 0 then .error (.panic [] "ext2_write. wrong filesystem")
  else if off + count ≥ inode.size then .ok failed
  else if inode.flags &&& flagsMask ≠ 0 then .ok failed
  else do
    let (_, tmp) ← readInode g sectors inode.iNo
    if tmp.typePermissions &&& typeRegFile = 0 then .ok failed
    else do
      let st ← writeLoop g buff tmp fuel
        ⟨(off / UInt32.ofNat blockSize).toNat, (off % UInt32.ofNat blockSize).toNat, count.toNat,
          off, 0, 0, sectors⟩
      .ok ⟨st.wrote, st.off, st.sectors⟩

/-- What the walk through one or more sectors comes to: a record that matches, a `return -1`
with the sectors whose buffers are kept, or the size counted so far. -/
inductive Walk
  | found (inode : UInt32)
  | stop (held : List UInt32)
  | more (size : UInt32)
  deriving DecidableEq

/-- `de->inode != SKIP_DIR && de->name_length == len`, and then the comparison of the names. -/
def direntMatches (payload : Payload) (filename : Bytes) (len : Int32) (de : Nat) :
    Except Fault Bool := do
  let inode ← payload32 payload de
  if inode ≠ 0 then do
    let nameLength ← payload8 payload (de + 6)
    if (nameLength.toNat : Int) = len.toInt then do
      let cmp ← strncmp filename (fun i => payload8 payload (de + 8 + i)) len.toUInt32
      .ok (decide (cmp = 0))
    else .ok false
  else .ok false

/-- The records of the sector `block` from the place `de` on. -/
def walkRecords (sectors : Sectors) (block : UInt32) (filename : Bytes) (len : Int32)
    (sizeLow : UInt32) : Nat → Nat → UInt32 → Except Fault Walk
  | fuel, de, size => do
    let entrySize ← payload16 (sectors block) (de + 4)
    if de + entrySize.toNat < blockSize then
      match fuel with
      | 0 => .error .diverge
      | fuel + 1 => do
        let hit ← direntMatches (sectors block) filename len de
        if hit then do
          let inode ← payload32 (sectors block) de
          .ok (.found inode)
        else
          let size := size + entrySize.toUInt32
          if size > sizeLow then .ok (.stop [block])
          else walkRecords sectors block filename len sizeLow fuel (de + entrySize.toNat) size
    else .ok (.more size)

/-- The sectors of one block. The counter `k` is a byte. -/
def walkSectors (g : Geometry) (sectors : Sectors) (filename : Bytes) (len : Int32)
    (sizeLow : UInt32) (direct : UInt32) (budget : Nat) : Nat → UInt8 → UInt32 → Except Fault Walk
  | fuel, k, size =>
    if k.toUInt32 < sectorsPerBlock g then
      match fuel with
      | 0 => .error .diverge
      | fuel + 1 => do
        let walk ← walkRecords sectors (addrOfBlock g direct + k.toUInt32) filename len sizeLow
          budget 0 size
        match walk with
        | .more size => walkSectors g sectors filename len sizeLow direct budget fuel (k + 1) size
        | walk => .ok walk
    else .ok (.more size)

/-- The blocks from `i` on, of which `n` are left. -/
def walkBlocks (g : Geometry) (sectors : Sectors) (filename : Bytes) (len : Int32)
    (inode : Ext2Inode) (fuel : Nat) : Nat → Nat → UInt32 → Except Fault Walk
  | 0, _, size => .ok (.more size)
  | n + 1, i, size => do
    let direct ← inode.directBlock i
    if direct = 0 then .ok (.stop [])
    else do
      let walk ← walkSectors g sectors filename len inode.sizeLow direct fuel fuel 0 size
      match walk with
      | .more size => walkBlocks g sectors filename len inode fuel n (i + 1) size
      | walk => .ok walk

/-- `ext2_lookup`, with the return value, `*result_inode` and the sectors whose buffers are
still held. The test `type_permissions && TYPE_DIRECTORY` is one for any type. -/
def ext2Lookup (g : Geometry) (sectors : Sectors) (fuel : Nat) (dir : Inode) (filename : Bytes)
    (len : Int32) (result : Inode) : Except Fault (Int32 × Inode × List UInt32) := do
  let (_, inode) ← readInode g sectors dir.iNo
  if len = 0 then .ok (-1, result, [])
  else if inode.typePermissions = 0 then .ok (-1, result, [])
  else do
    let walk ← walkBlocks g sectors filename len inode fuel 12 0 0
    match walk with
    | .found ino => do
      let (_, inode) ← readInode g sectors ino
      .ok (0, { result with iNo := ino, size := inode.sizeLow,
                            permissions := inode.typePermissions.toUInt32 }, [])
    | .stop held => .ok (-1, result, held)
    | .more _ => .ok (-1, result, [])

end SaxonOS
