import SaxonOS.Lib.ByteMemory

/-!
# Shared definitions of the kernel

`Fault` lists the ways a call does not return: `kpanic` (with the numbers printed by
`terminal_printhex32` right before it), an access that C leaves undefined, and a loop
without end.
-/

namespace SaxonOS
open Lib

inductive Fault
  | panic (printed : List UInt32) (msg : String)
  | nullDeref
  | wildDeref
  | outOfBounds
  | divByZero
  | noReturn
  | diverge
  deriving DecidableEq, Repr

/-- The macro `CEILING_DIV(x, y)`. -/
def ceilingDiv (x y : UInt32) : UInt32 := 1 + ((x - 1) / y)

def memsetLoop (value : UInt8) : Nat → Mem → UInt32 → Mem
  | 0, m, _ => m
  | count + 1, m, tmp => memsetLoop value count (write8 m tmp value) (tmp + 1)

def memset (m : Mem) (dest : UInt32) (value : UInt8) (count : UInt32) : Mem :=
  memsetLoop value count.toNat m dest

/-- The loop of `memcpy`, forwards and byte by byte. -/
def memcpyLoop : Nat → Mem → UInt32 → UInt32 → Mem
  | 0, m, _, _ => m
  | count + 1, m, dest, src => memcpyLoop count (write8 m dest (m src)) (dest + 1) (src + 1)

def memcpy (m : Mem) (dest src count : UInt32) : Mem := memcpyLoop count.toNat m dest src

/-- The bytes behind a `const char *`. -/
abbrev Bytes := Nat → Except Fault UInt8

def strlenFrom (str : Bytes) : Nat → Nat → Except Fault UInt32
  | 0, _ => .error .diverge
  | fuel + 1, i => do
    let c ← str i
    if c ≠ 0 then strlenFrom str fuel (i + 1) else .ok (UInt32.ofNat i)

/-- The counter of `strlen` is a `size_t`. -/
def strlen (str : Bytes) : Except Fault UInt32 := strlenFrom str (2 ^ 32) 0

/-- The loop of `strncmp` from `i`, with `n` characters to compare. A `char` is signed. -/
def strncmpFrom (s1 s2 : Bytes) : Nat → Nat → Except Fault Int
  | 0, _ => .ok 0
  | n + 1, i => do
    let a ← s1 i
    let b ← s2 i
    if a ≠ b then .ok (a.toInt8.toInt - b.toInt8.toInt) else strncmpFrom s1 s2 n (i + 1)

def strncmp (s1 s2 : Bytes) (n : UInt32) : Except Fault Int := strncmpFrom s1 s2 n.toNat 0

/-- The loop of `strcmp` from `i`, which runs as long as `i` is not zero. -/
def strcmpFrom (s1 s2 : Bytes) : Nat → UInt32 → Except Fault Int
  | fuel, i =>
    if i ≠ 0 then
      match fuel with
      | 0 => .error .diverge
      | fuel + 1 => do
        let a ← s1 i.toNat
        let b ← s2 i.toNat
        if a ≠ b then .ok (a.toInt8.toInt - b.toInt8.toInt) else strcmpFrom s1 s2 fuel (i + 1)
    else .ok 0

def strcmp (s1 s2 : Bytes) : Except Fault Int := strcmpFrom s1 s2 (2 ^ 32) 0

/-- A NUL-terminated string. -/
structure CString where
  chars : List UInt8
  noNul : ∀ c ∈ chars, c ≠ 0

def CString.bytes (s : CString) : Bytes := fun i =>
  if h : i < s.chars.length then .ok s.chars[i]
  else if i = s.chars.length then .ok 0
  else .error .outOfBounds

/-- The macro `BLOCK_SIZE`. -/
def blockSize : Nat := 512

end SaxonOS
