import SaxonOS.Common

/-!
# The page frame bitmap

`mm/frame.c`. `frame_map` has 0x2000 words; an access past its end is `outOfBounds`.
-/

namespace SaxonOS

/-- The length of `frame_map`. -/
def frameMapWords : Nat := 0x2000

structure Frames where
  frameMap : Nat → UInt32
  nframes : UInt32

/-- `frame_map` and `nframes` before the kernel runs: static storage, all zero. -/
def framesBss : Frames := ⟨fun _ => 0, 0⟩

/-- The search loop of `kalloc_frame`. Its counter leaves `frame_map` before the fuel ends. -/
def kallocFrameSearch (s : Frames) : Nat → UInt32 → Except Fault UInt32
  | 0, _ => .error .diverge
  | fuel + 1, i =>
    if (i / 32).toNat ≥ frameMapWords then .error .outOfBounds
    else if s.frameMap (i / 32).toNat >>> (i % 32) ≠ 0 then
      if i = s.nframes - 1 then .error (.panic [i] "Ran out of page frames")
      else kallocFrameSearch s fuel (i + 1)
    else .ok i

/-- `frame_map[i/32] |= 1 << (i % 32)`. -/
def markFrame (s : Frames) (i : UInt32) : Frames :=
  let word := (i / 32).toNat
  { s with frameMap := Function.update s.frameMap word (s.frameMap word ||| 1 <<< (i % 32)) }

def kallocFrame (s : Frames) : Except Fault (UInt32 × Frames) := do
  let i ← kallocFrameSearch s (32 * frameMapWords + 1) 0
  .ok (i * 0x1000, markFrame s i)

/-- `kfree_frame`. The mask `0 << frame` is zero for every frame. -/
def kfreeFrame (s : Frames) (frame : UInt32) : Except Fault Frames :=
  let frame := frame / 0x1000
  if frame ≥ s.nframes then .error (.panic [s.nframes] "Tried to free a non-existant frame")
  else
    let word := (frame / 32).toNat
    if word ≥ frameMapWords then .error .outOfBounds
    else .ok { s with frameMap := Function.update s.frameMap word (s.frameMap word &&& 0 <<< frame) }

/-- `memset(frame_map, 0, count)`: the first `count` bytes of the little-endian words. -/
def clearFrameMap (frameMap : Nat → UInt32) (count : UInt32) : Nat → UInt32 :=
  fun word =>
    if 4 * word + 4 ≤ count.toNat then 0
    else if 4 * word < count.toNat then
      frameMap word &&& (0xFFFFFFFF <<< UInt32.ofNat (8 * (count.toNat - 4 * word)))
    else frameMap word

/-- The number of frames reserved for the kernel image. -/
def firstFreeFrame (endKernel : UInt32) : UInt32 := ((endKernel &&& 0x00FFF000) + 0x1000) / 0x1000

def reserveFrames : Nat → Frames → Except Fault Frames
  | 0, s => .ok s
  | n + 1, s => do
    let (_, s) ← kallocFrame s
    reserveFrames n s

def initFrames (s : Frames) (endKernel memSize : UInt32) : Except Fault Frames :=
  let nframes := memSize / 4
  if (nframes / 8).toNat > 4 * frameMapWords then .error .outOfBounds
  else
    reserveFrames (firstFreeFrame endKernel).toNat
      ⟨clearFrameMap s.frameMap (nframes / 8), nframes⟩

end SaxonOS
