import SaxonOS.Common

/-!
# The kernel heap

`mm/heap.c` over byte memory. A block is a 16-byte header followed by its payload; the
field offsets are those of `struct mem_block` on i386. Statements that read a field
after another was written read the updated memory, so overlapping headers behave as in C.
-/

namespace SaxonOS
open Lib

/-- `struct mem_block`, at offsets 0, 4, 8 and 12. -/
structure MemBlock where
  used : UInt8
  prev : UInt32
  next : UInt32
  size : UInt32
  deriving DecidableEq

/-- `sizeof(mem_block_t)`. -/
def sizeofMemBlock : UInt32 := 16

def memBlock (m : Mem) (a : UInt32) : MemBlock :=
  ⟨m a, read32 m (a + 4), read32 m (a + 8), read32 m (a + 12)⟩

def setUsed (m : Mem) (a : UInt32) (v : UInt8) : Mem := write8 m a v
def setPrev (m : Mem) (a v : UInt32) : Mem := write32 m (a + 4) v
def setNext (m : Mem) (a v : UInt32) : Mem := write32 m (a + 8) v
def setSize (m : Mem) (a v : UInt32) : Mem := write32 m (a + 12) v

/-- The heap's globals and the memory they point into. -/
structure Heap where
  mem : Mem
  heapStart : UInt32
  heapEnd : UInt32
  heapSize : UInt32
  first : UInt32

def kheapInit (mem : Mem) (start end_ : UInt32) : Heap :=
  let heapSize := end_ - start
  let m := memset mem start 0 heapSize
  let m := setUsed m start 0
  let m := setPrev m start 0
  let m := setNext m start 0
  let m := setSize m start (heapSize - sizeofMemBlock)
  ⟨m, start, end_, heapSize, start⟩

/-- A walk through the block list that takes more steps than there are addresses has
revisited a block and never ends. -/
def walkFuel : Nat := 2 ^ 32

/-- The search loop of `kmalloc` for a request of one byte. -/
def kmallocSearch (m : Mem) (size : UInt32) : Nat → UInt32 → Except Fault UInt32
  | 0, _ => .error .diverge
  | fuel + 1, block =>
    if block = 0 then .ok 0
    else if (memBlock m block).size > size ∧ (memBlock m block).used = 0 then .ok block
    else kmallocSearch m size fuel (memBlock m block).next

/-- The common end of `kmalloc` and `kmalloc_alligned`: cut the surplus off `result` as a
new free block, then mark `result` used. -/
def splitBlock (m : Mem) (result size : UInt32) : Mem :=
  let m :=
    if (memBlock m result).size ≥ size + sizeofMemBlock + 1 then
      let tmp := result + sizeofMemBlock + size
      let m := setUsed m tmp 0
      let m := setSize m tmp ((memBlock m result).size - size - sizeofMemBlock)
      let m := setPrev m tmp result
      let m := setNext m tmp (memBlock m result).next
      let m := if (memBlock m tmp).next ≠ 0 then setPrev m (memBlock m tmp).next tmp else m
      let m := setSize m result size
      setNext m result tmp
    else m
  setUsed m result 1

/-- The branch of `kmalloc_alligned` that moves the header of `block` up to an aligned
payload address and gives the gap to the previous block. -/
def moveHeader (m : Mem) (block allignedAddr : UInt32) : Mem × UInt32 :=
  let oldNext := (memBlock m block).next
  let m := setNext m block (allignedAddr - sizeofMemBlock)
  let m := setSize m block ((memBlock m block).next - block - sizeofMemBlock)
  let (m, block) :=
    if (memBlock m block).prev ≠ 0 then
      let m := setSize m (memBlock m block).prev
        ((memBlock m (memBlock m block).prev).size + ((memBlock m block).size + sizeofMemBlock))
      let m := setNext m (memBlock m block).prev (memBlock m block).next
      (m, (memBlock m block).prev)
    else (m, block)
  let m := setPrev m (memBlock m block).next block
  let block := (memBlock m block).next
  let m := setNext m block oldNext
  let m := if oldNext ≠ 0 then setPrev m oldNext block else m
  (m, block)

/-- The search loop of `kmalloc_alligned`: the memory it leaves and `result`. -/
def kmallocAllignedSearch (size allignment : UInt32) :
    Nat → Mem → UInt32 → Except Fault (Mem × UInt32)
  | 0, _, _ => .error .diverge
  | fuel + 1, m, block =>
    if block = 0 then .ok (m, 0)
    else if (memBlock m block).used = 0 then
      if (block + sizeofMemBlock) % allignment ≠ 0 then
        let allignedAddr := ceilingDiv (block + sizeofMemBlock) allignment * allignment
        if allignedAddr + size > block + sizeofMemBlock + (memBlock m block).size then
          kmallocAllignedSearch size allignment fuel m (memBlock m block).next
        else if block + sizeofMemBlock + (memBlock m block).size - allignedAddr ≥
            size + sizeofMemBlock then
          let (m, result) := moveHeader m block allignedAddr
          if result ≠ 0 then .ok (m, result)
          else kmallocAllignedSearch size allignment fuel m (memBlock m result).next
        else kmallocAllignedSearch size allignment fuel m (memBlock m block).next
      else if (memBlock m block).size > size then .ok (m, block)
      else kmallocAllignedSearch size allignment fuel m (memBlock m block).next
    else kmallocAllignedSearch size allignment fuel m (memBlock m block).next

def kmallocAlligned (h : Heap) (size allignment : UInt32) : Except Fault (UInt32 × Heap) :=
  if allignment = 0 then .error .divByZero
  else do
    let (m, result) ← kmallocAllignedSearch size allignment walkFuel h.mem h.first
    if result = 0 then .error (.panic [] "can't allocate memory")
    else .ok (result + sizeofMemBlock, { h with mem := splitBlock m result size })

def kmalloc (h : Heap) (size : UInt32) : Except Fault (UInt32 × Heap) :=
  if size ≠ 1 then kmallocAlligned h size 4
  else do
    let result ← kmallocSearch h.mem size walkFuel h.first
    if result = 0 then .ok (0, h)
    else .ok (result + sizeofMemBlock, { h with mem := splitBlock h.mem result size })

/-- The first `if` of `kfree`: join a block to a free predecessor. -/
def mergeWithPrev (m : Mem) (tmp : UInt32) : Mem × UInt32 :=
  if (memBlock m tmp).prev ≠ 0 ∧ (memBlock m (memBlock m tmp).prev).used = 0 then
    let m := setSize m (memBlock m tmp).prev
      ((memBlock m (memBlock m tmp).prev).size + (sizeofMemBlock + (memBlock m tmp).size))
    let m := setNext m (memBlock m tmp).prev (memBlock m tmp).next
    let m := if (memBlock m tmp).next ≠ 0 then
      setPrev m (memBlock m tmp).next (memBlock m tmp).prev else m
    (m, (memBlock m tmp).prev)
  else (m, tmp)

/-- The second `if` of `kfree`: join a free successor to a block. -/
def mergeWithNext (m : Mem) (tmp : UInt32) : Mem :=
  if (memBlock m tmp).next ≠ 0 ∧ (memBlock m (memBlock m tmp).next).used = 0 then
    let m := setSize m tmp
      ((memBlock m tmp).size + (sizeofMemBlock + (memBlock m (memBlock m tmp).next).size))
    let m := setNext m tmp (memBlock m (memBlock m tmp).next).next
    if (memBlock m tmp).next ≠ 0 then setPrev m (memBlock m tmp).next tmp else m
  else m

/-- The body of `kfree` from the block's header on, which is also `kfree_block`. -/
def kfreeBlock (m : Mem) (block : UInt32) : Mem :=
  let m := setUsed m block 0
  let (m, block) := mergeWithPrev m block
  mergeWithNext m block

def kfree (h : Heap) (ptr : UInt32) : Heap :=
  { h with mem := kfreeBlock h.mem (ptr - sizeofMemBlock) }

/-- `krealloc`. The copy it keeps on the stack is never read: after the block is freed and the
new one allocated, the bytes come from the old place. -/
def krealloc (h : Heap) (ptr size : UInt32) : Except Fault (UInt32 × Heap) :=
  if ptr = 0 then kmalloc h size
  else if size = 0 then .ok (0, kfree h ptr)
  else do
    let oldBlock := ptr - sizeofMemBlock
    let oldSize := (memBlock h.mem oldBlock).size
    let (block, h) ← kmalloc { h with mem := kfreeBlock h.mem oldBlock } size
    let newBlock := block + sizeofMemBlock
    .ok (newBlock, { h with mem := memcpy h.mem newBlock ptr oldSize })

def kcalloc (h : Heap) (nmemb size : UInt32) : Except Fault (UInt32 × Heap) :=
  if nmemb = 0 ∨ size = 0 then .ok (0, h)
  else do
    let (block, h) ← kmalloc h (size * nmemb)
    .ok (block + sizeofMemBlock, h)

end SaxonOS
