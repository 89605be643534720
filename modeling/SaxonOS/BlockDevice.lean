import SaxonOS.Buffer

/-!
# Block devices

`bdev_read` and `bdev_write` of `fs/devfs/devfs.c`, over a `get_block` that returns the
payload of the addressed sector. What a caller leaves in a payload is what the next
`get_block` of the sector finds. A payload has `BLOCK_SIZE` bytes, and a pointer that leaves
it is `outOfBounds`.
-/

namespace SaxonOS

/-- The sectors of one device as `get_block` shows them. -/
abbrev Sectors := UInt32 → Payload

/-- `while (chars-- > 0) *(dest++) = *(ptr++);` from the place `ptr` of a payload. -/
def readChars (payload : Payload) : Nat → Nat → Except Fault (List UInt8)
  | 0, _ => .ok []
  | chars + 1, ptr =>
    if h : ptr < blockSize then do
      let rest ← readChars payload chars (ptr + 1)
      .ok (payload ⟨ptr, h⟩ :: rest)
    else .error .outOfBounds

/-- `while (chars-- > 0) *(ptr++) = *(src++);` to the place `ptr` of a payload. -/
def writeChars (src : Nat → UInt8) : Nat → Nat → Nat → Payload → Except Fault Payload
  | 0, _, _, payload => .ok payload
  | chars + 1, ptr, i, payload =>
    if h : ptr < blockSize then
      writeChars src chars (ptr + 1) (i + 1) (Function.update payload ⟨ptr, h⟩ (src i))
    else .error .outOfBounds

/-- `chars = (count < BLOCK_SIZE) ? count : BLOCK_SIZE`. -/
def chunk (count : Nat) : Nat := if count < blockSize then count else blockSize

/-- The outer loop of `bdev_read`, with the bytes stored through `dest`, `read` and `*pos`. -/
def bdevReadLoop (sectors : Sectors) : Nat → Nat → UInt32 → Nat → UInt32 → UInt32 →
    Except Fault (List UInt8 × UInt32 × UInt32)
  | fuel, count, block, offset, pos, read =>
    if count > 0 then
      match fuel with
      | 0 => .error .diverge
      | fuel + 1 => do
        let chars := chunk count
        let bytes ← readChars (sectors block) chars offset
        let (rest, read, pos) ← bdevReadLoop sectors fuel (count - chars) (block + 1) 0
          (pos + UInt32.ofNat chars) (read + UInt32.ofNat chars)
        .ok (bytes ++ rest, read, pos)
    else .ok ([], read, pos)

/-- `bdev_read`. A `count` that is not positive ends the loop at once. -/
def bdevRead (sectors : Sectors) (count : Int32) (pos : UInt32) :
    Except Fault (List UInt8 × UInt32 × UInt32) :=
  bdevReadLoop sectors count.toInt.toNat count.toInt.toNat (pos / UInt32.ofNat blockSize)
    (pos % UInt32.ofNat blockSize).toNat pos 0

/-- The outer loop of `bdev_write`, where `src` has moved on by `i`. -/
def bdevWriteLoop (src : Nat → UInt8) : Nat → Sectors → Nat → UInt32 → Nat → Nat → UInt32 →
    UInt32 → Except Fault (Sectors × UInt32 × UInt32)
  | fuel, sectors, count, block, offset, i, pos, written =>
    if count > 0 then
      match fuel with
      | 0 => .error .diverge
      | fuel + 1 => do
        let chars := chunk count
        let payload ← writeChars src chars offset i (sectors block)
        bdevWriteLoop src fuel (Function.update sectors block payload) (count - chars) (block + 1) 0
          (i + chars) (pos + UInt32.ofNat chars) (written + UInt32.ofNat chars)
    else .ok (sectors, written, pos)

def bdevWrite (sectors : Sectors) (src : Nat → UInt8) (count : Int32) (pos : UInt32) :
    Except Fault (Sectors × UInt32 × UInt32) :=
  bdevWriteLoop src count.toInt.toNat sectors count.toInt.toNat (pos / UInt32.ofNat blockSize)
    (pos % UInt32.ofNat blockSize).toNat 0 pos 0

end SaxonOS
