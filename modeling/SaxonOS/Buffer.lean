import SaxonOS.Lib.Chain
import SaxonOS.Devfs

/-!
# The buffer cache

`fs/devfs/buffer.c`. The 100 records are named by the order in which `init_buffer` gets
them from `kmalloc`; a pointer to anything else is `Ptr.wild`, and the model stops with a fault
where the code would follow one into bytes that are no record. `ata_read_sects_28_pio` and
`ata_write_sects_28_pio` move exactly the addressed sector of the disk behind a `bdev_t`,
and every transfer is logged.
-/

namespace SaxonOS
open Lib

/-- The macro `MAX_BUFFER`. -/
abbrev maxBuffer : Nat := 100

instance : @NeZero Nat Zero.ofOfNat0 maxBuffer := ⟨by decide⟩

def classDir : UInt8 := 1

abbrev Buff := Fin maxBuffer

abbrev Payload := Fin blockSize → UInt8

structure BufferHead where
  flags : UInt8
  blockNum : UInt32
  dirty : UInt8
  dev : UInt16
  count : UInt32
  next : Ptr Buff
  prev : Ptr Buff
  nextFree : Ptr Buff
  prevFree : Ptr Buff
  buff : Payload

structure Cache where
  pool : Buff → BufferHead
  buffHead : UInt8 → Ptr Buff
  mruBuff : Ptr Buff
  lruBuff : Ptr Buff

inductive Event
  | printhex32 (value : UInt32)
  | read (bdev lba : UInt32)
  | write (bdev lba : UInt32)
  deriving DecidableEq

structure World where
  cache : Cache
  disk : UInt32 → UInt32 → Payload
  log : List Event

def Cache.modify (c : Cache) (i : Buff) (f : BufferHead → BufferHead) : Cache :=
  { c with pool := Function.update c.pool i (f (c.pool i)) }

/-- `ptr->field = value`. -/
def Cache.store (c : Cache) (ptr : Ptr Buff) (f : BufferHead → BufferHead) : Except Fault Cache :=
  match ptr with
  | .null => .error .nullDeref
  | .wild => .error .wildDeref
  | .node i => .ok (c.modify i f)

/-- `if (ptr) ptr->field = value`. -/
def Cache.storeIf (c : Cache) (ptr : Ptr Buff) (f : BufferHead → BufferHead) :
    Except Fault Cache :=
  if ptr = .null then .ok c else c.store ptr f

def ataWrite (w : World) (src : Payload) (bdev lba : UInt32) : World :=
  { w with
    disk := Function.update w.disk bdev (Function.update (w.disk bdev) lba src)
    log := .write bdev lba :: w.log }

def ataRead (w : World) (dest : Buff) (bdev lba : UInt32) : World :=
  { w with
    cache := w.cache.modify dest fun b => { b with buff := w.disk bdev lba }
    log := .read bdev lba :: w.log }

/-- `if (ptr->dirty == true) { ata_write_sects_28_pio(...); ptr->dirty = false; }`. -/
def writeBack (fs : Devfs) (w : World) (i : Buff) (dev : UInt16) (block : UInt32) :
    Except Fault World :=
  if (w.cache.pool i).dirty = 1 then do
    let bdev ← findBdev fs dev
    let w := ataWrite w (w.cache.pool i).buff bdev block
    .ok { w with cache := w.cache.modify i fun b => { b with dirty := 0 } }
  else .ok w

/-- One turn of the loop of `init_buffer`, where `kmalloc` returns `new`. -/
def linkBuffer (c : Cache) (current new : Buff) : Cache :=
  let c := c.modify current fun b => { b with next := .node new }
  let c := c.modify current fun b => { b with nextFree := b.next }
  let c := c.modify new fun b => { b with prev := .node current }
  c.modify new fun b => { b with prevFree := .node current }

/-- The first `n` turns of the loop. -/
def initBufferLoop : Nat → Cache → Cache
  | 0, c => c
  | n + 1, c =>
    linkBuffer (initBufferLoop n c) (Fin.ofNat maxBuffer n) (Fin.ofNat maxBuffer (n + 1))

/-- `init_buffer` on records with the contents `prior`, which `kmalloc` does not clear. -/
def initBuffer (prior : Buff → BufferHead) : Cache :=
  let c : Cache := ⟨prior, Function.update (fun _ => .null) 0 (.node 0), .null, .node 0⟩
  let c := c.modify 0 fun b => { b with prev := .null }
  let c := c.modify 0 fun b => { b with prevFree := .null }
  { initBufferLoop (maxBuffer - 1) c with mruBuff := .node (Fin.ofNat maxBuffer (maxBuffer - 1)) }

/-- `block & 0xFF`. -/
def bucket (block : UInt32) : UInt8 := (block &&& 0xFF).toUInt8

/-- The search loop of `get_block`. A walk that is still going after 101 pointers has met a
record twice and does not end. -/
def searchChain (pool : Buff → BufferHead) (block : UInt32) (dev : UInt16) :
    Nat → Ptr Buff → Except Fault (Option Buff)
  | 0, _ => .error .diverge
  | _ + 1, .null => .ok none
  | _ + 1, .wild => .error .wildDeref
  | fuel + 1, .node i =>
    if (pool i).blockNum = block ∧ (pool i).dev = dev then .ok (some i)
    else searchChain pool block dev fuel (pool i).next

def findBlock (c : Cache) (block : UInt32) (dev : UInt16) : Except Fault (Option Buff) :=
  searchChain c.pool block dev (maxBuffer + 1) (c.buffHead (bucket block))

/-- The part of a hit for a record with `count == 0`. -/
def unlinkFree (fs : Devfs) (w : World) (i : Buff) (block : UInt32) (dev : UInt16) :
    Except Fault World := do
  let c := w.cache
  let c ← c.storeIf (c.pool i).prevFree fun b => { b with nextFree := (c.pool i).nextFree }
  let c ← c.storeIf (c.pool i).nextFree fun b => { b with prevFree := (c.pool i).prevFree }
  let c := c.modify i fun b => { b with nextFree := .null }
  let c := c.modify i fun b => { b with prevFree := .null }
  writeBack fs { w with cache := c } i dev block

def getHit (fs : Devfs) (w : World) (i : Buff) (block : UInt32) (dev : UInt16) :
    Except Fault (Buff × World) := do
  let w := { w with log := .printhex32 block :: w.log }
  let w ← (if (w.cache.pool i).count = 0 then unlinkFree fs w i block dev else .ok w)
  .ok (i, { w with cache := w.cache.modify i fun b => { b with count := b.count + 1 } })

/-- What a miss does to the record `newHead` taken from the front of the free list. -/
def loadBlock (fs : Devfs) (w : World) (newHead : Buff) (block : UInt32) (dev : UInt16) :
    Except Fault World := do
  let w ← writeBack fs w newHead (w.cache.pool newHead).dev (w.cache.pool newHead).blockNum
  let c := w.cache.modify newHead fun b => { b with count := b.count + 1 }
  let c := c.modify newHead fun b => { b with blockNum := block }
  let c := c.modify newHead fun b => { b with dev := dev }
  let bdev ← findBdev fs dev
  .ok (ataRead { w with cache := c } newHead bdev block)

/-- Putting `newHead` at the front of the hash chain. -/
def linkFront (c : Cache) (newHead : Buff) (block : UInt32) : Except Fault Cache := do
  let c := c.modify newHead fun b => { b with next := c.buffHead (bucket block) }
  let c ← c.storeIf (c.pool newHead).next fun b => { b with prev := .node newHead }
  let c := { c with buffHead := Function.update c.buffHead (bucket block) (.node newHead) }
  let c := c.modify newHead fun b => { b with nextFree := .null }
  let c := c.modify newHead fun b => { b with prevFree := .null }
  .ok (c.modify newHead fun b => { b with prev := .null })

def getMiss (fs : Devfs) (w : World) (block : UInt32) (dev : UInt16) :
    Except Fault (Buff × World) :=
  match w.cache.lruBuff with
  | .null => .error .nullDeref
  | .wild => .error .wildDeref
  | .node newHead => do
    let c := { w.cache with lruBuff := (w.cache.pool newHead).nextFree }
    let c ← c.storeIf c.lruBuff fun b => { b with prevFree := .null }
    let w ← loadBlock fs { w with cache := c } newHead block dev
    let c ← linkFront w.cache newHead block
    .ok (newHead, { w with cache := c })

def getBlock (fs : Devfs) (w : World) (block : UInt32) (dev : UInt16) :
    Except Fault (Buff × World) := do
  match ← findBlock w.cache block dev with
  | some i => getHit fs w i block dev
  | none => getMiss fs w block dev

def putBlock (c : Cache) (block : Buff) : Except Fault Cache :=
  if (c.pool block).count > 1 then
    .ok (c.modify block fun b => { b with count := b.count - 1 })
  else if (c.pool block).flags = classDir then do
    let c ← c.store c.mruBuff fun b => { b with nextFree := .node block }
    let c := c.modify block fun b => { b with prevFree := c.mruBuff }
    .ok { c with mruBuff := .node block }
  else do
    let c ← c.store c.lruBuff fun b => { b with prevFree := .node block }
    let c := c.modify block fun b => { b with nextFree := c.lruBuff }
    .ok { c with lruBuff := .node block }

end SaxonOS
