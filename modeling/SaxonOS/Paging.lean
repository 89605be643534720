import SaxonOS.Frame

/-!
# Kernel pages

`mm/paging.c` for `kernel_page_dir`, the only page directory the kernel has. The one page
table is `first_page_table`; a directory entry that leads to another address is a
`wildDeref`. `loadPageDir` sets the page directory register and has no effect here.
-/

namespace SaxonOS

def kernelVirtualBase : UInt32 := 0xC0000000

def kernelPageNumber : UInt32 := kernelVirtualBase >>> 22

def pagePresent (page : UInt32) : Bool := page &&& 0x01 != 0

/-- The link address of a page table, `__attribute__((aligned(4096)))`. -/
structure TableAddr where
  addr : UInt32
  aligned : addr &&& 0xFFF = 0

structure Paging where
  frames : Frames
  pdEntry : Nat → UInt32
  ptEntry : Nat → UInt32
  curPageTable : UInt32
  nextFreePage : UInt32

/-- The static data of `paging.c` before `init_paging`. -/
def pagingBss (frames : Frames) : Paging := ⟨frames, fun _ => 0, fun _ => 0, 0, 0⟩

def identityMap : Nat → (Nat → UInt32) → Nat → UInt32
  | 0, table => table
  | i + 1, table => Function.update (identityMap i table) i (UInt32.ofNat i * 0x1000 ||| 3 ||| 4)

def initPaging (firstPageTable : TableAddr) (s : Paging) (endKernel : UInt32) :
    Except Fault Paging :=
  let firstFreePage := (endKernel &&& 0x00FFF000) + 0x1000
  if (firstFreePage / 0x1000).toNat > 1024 then .error .outOfBounds
  else .ok { s with
    pdEntry := Function.update (fun _ => 0x00000002) kernelPageNumber.toNat
      ((firstPageTable.addr - kernelVirtualBase) ||| 3 ||| 4)
    ptEntry := identityMap (firstFreePage / 0x1000).toNat s.ptEntry
    curPageTable := kernelPageNumber
    nextFreePage := firstFreePage + kernelVirtualBase }

/-- The loop of `find_free_page`, with `fuel` entries still to look at. -/
def findFreePageFrom (table : Nat → UInt32) : Nat → Nat → Except Fault UInt32
  | 0, _ => .error (.panic [] "Ran out of free pages")
  | fuel + 1, i =>
    if !pagePresent (table i) then .ok (UInt32.ofNat i * 0x1000 + kernelVirtualBase)
    else findFreePageFrom table fuel (i + 1)

def findFreePage (table : Nat → UInt32) : Except Fault UInt32 := findFreePageFrom table 1024 0

def kallocPage (s : Paging) : Except Fault (UInt32 × Paging) := do
  let (frame, frames) ← kallocFrame s.frames
  let index := ((s.nextFreePage - kernelVirtualBase) / 0x1000).toNat
  if index ≥ 1024 then .error .outOfBounds
  else
    let ptEntry := Function.update s.ptEntry index (frame ||| 3 ||| 4)
    let next ← findFreePage ptEntry
    .ok (s.nextFreePage, { s with frames, ptEntry, nextFreePage := next })

/-- What `kalloc_page` has written when it ends, whether it returns or not. -/
def kallocPageLeaves (s : Paging) : Paging :=
  match kallocFrame s.frames with
  | .error _ => s
  | .ok (frame, frames) =>
    let index := ((s.nextFreePage - kernelVirtualBase) / 0x1000).toNat
    if index ≥ 1024 then { s with frames }
    else
      let ptEntry := Function.update s.ptEntry index (frame ||| 3 ||| 4)
      match findFreePage ptEntry with
      | .error _ => { s with frames, ptEntry }
      | .ok next => { s with frames, ptEntry, nextFreePage := next }

def pdIndex (virtualAddr : UInt32) : Nat := (virtualAddr >>> 22).toNat

def ptIndex (virtualAddr : UInt32) : Nat := ((virtualAddr >>> 12) &&& 0x03FF).toNat

/-- `(dir->pd_entry[pd_index] & 0xFFFFF000) + KERNEL_VIRTUAL_BASE`. -/
def pageTableAddr (s : Paging) (virtualAddr : UInt32) : UInt32 :=
  (s.pdEntry (pdIndex virtualAddr) &&& 0xFFFFF000) + kernelVirtualBase

def getPhysAddr (firstPageTable : TableAddr) (s : Paging) (virtualAddr : UInt32) :
    Except Fault UInt32 :=
  if !pagePresent (s.pdEntry (pdIndex virtualAddr)) then
    .error (.panic [] "Page table not present")
  else if pageTableAddr s virtualAddr ≠ firstPageTable.addr then .error .wildDeref
  else if !pagePresent (s.ptEntry (ptIndex virtualAddr)) then
    .error (.panic [] "Page table entry not present")
  else .ok ((s.ptEntry (ptIndex virtualAddr) &&& ~~~0xFFF) + (virtualAddr &&& 0xFFF))

def kfreePage (firstPageTable : TableAddr) (s : Paging) (virtualAddr : UInt32) :
    Except Fault Paging := do
  let physAddr ← getPhysAddr firstPageTable s virtualAddr
  let frames ← kfreeFrame s.frames physAddr
  if pageTableAddr s virtualAddr ≠ firstPageTable.addr then .error .wildDeref
  else .ok { s with
    frames
    ptEntry := Function.update s.ptEntry (ptIndex virtualAddr) 0
    nextFreePage := virtualAddr }

end SaxonOS
