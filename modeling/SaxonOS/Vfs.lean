import SaxonOS.Lib.Chain
import SaxonOS.Common

/-!
# The file system registry

`fs/vfs/vfs.c`, for the list of `struct file_system_type` records that starts at
`file_systems`. There are `n` records, none of which the code allocates; `read_super` is not
used here. A walk that is still going after `n + 1` pointers has met a record twice and does
not end.
-/

namespace SaxonOS
open Lib

structure Registry (n : Nat) where
  name : Fin n → CString
  next : Fin n → Ptr (Fin n)
  fileSystems : Ptr (Fin n)

/-- A `struct file_system_type **`. -/
inductive Link (n : Nat)
  | fileSystems
  | next (fs : Fin n)
  deriving DecidableEq

variable {n : Nat}

def Registry.load (r : Registry n) : Link n → Ptr (Fin n)
  | .fileSystems => r.fileSystems
  | .next fs => r.next fs

def Registry.store (r : Registry n) (ptr : Link n) (value : Ptr (Fin n)) : Registry n :=
  match ptr with
  | .fileSystems => { r with fileSystems := value }
  | .next fs => { r with next := Function.update r.next fs value }

def findFileSystemFrom (r : Registry n) (name : Bytes) (len : UInt8) :
    Nat → Link n → Except Fault (Link n)
  | 0, _ => .error .diverge
  | fuel + 1, ptr =>
    match r.load ptr with
    | .null => .ok ptr
    | .wild => .error .wildDeref
    | .node fs =>
      if len ≠ 0 then do
        let cmp ← strncmp name (r.name fs).bytes len.toUInt32
        if cmp = 0 then .ok ptr else findFileSystemFrom r name len fuel (.next fs)
      else findFileSystemFrom r name len fuel (.next fs)

def findFileSystem (r : Registry n) (name : Bytes) (len : UInt8) : Except Fault (Link n) :=
  findFileSystemFrom r name len (n + 1) .fileSystems

/-- `find_file_system(fs->name, strlen(fs->name))`. The length is cut to a byte. -/
def findByOwnName (r : Registry n) (fs : Fin n) : Except Fault (Link n) := do
  let len ← strlen (r.name fs).bytes
  findFileSystem r (r.name fs).bytes len.toUInt8

def registerFilesystem (r : Registry n) (fs : Fin n) : Except Fault (Int × Registry n) :=
  if r.next fs ≠ .null then .ok (-1, r)
  else do
    let ptr ← findByOwnName r fs
    if r.load ptr ≠ .null then .ok (-1, r) else .ok (0, r.store ptr (.node fs))

/-- The list of `struct super_block` records that starts at `sb_head`, each with its `fs_type`. -/
structure SuperBlocks (n m : Nat) where
  fsType : Fin m → Ptr (Fin n)
  next : Fin m → Ptr (Fin m)
  sbHead : Ptr (Fin m)

def findSuperBlockFrom {m : Nat} (sbs : SuperBlocks n m) (fsType : Ptr (Fin n)) :
    Nat → Ptr (Fin m) → Except Fault (Ptr (Fin m))
  | 0, _ => .error .diverge
  | _ + 1, .null => .ok .null
  | _ + 1, .wild => .error .wildDeref
  | fuel + 1, .node sb =>
    if sbs.fsType sb = fsType then .ok (.node sb)
    else findSuperBlockFrom sbs fsType fuel (sbs.next sb)

def findSuperBlock {m : Nat} (r : Registry n) (sbs : SuperBlocks n m) (name : Bytes) :
    Except Fault (Ptr (Fin m)) := do
  let len ← strlen name
  let ptr ← findFileSystem r name len.toUInt8
  let fsType := r.load ptr
  if fsType = .null then .ok .null
  else findSuperBlockFrom sbs fsType (m + 1) sbs.sbHead

def unregisterFrom (r : Registry n) (fs : Fin n) : Nat → Link n → Except Fault (Int × Registry n)
  | 0, _ => .error .diverge
  | fuel + 1, ptr =>
    match r.load ptr with
    | .null => .ok (-1, r)
    | .wild => .error .wildDeref
    | .node x =>
      if x = fs then
        let r := r.store ptr (r.next fs)
        .ok (0, { r with next := Function.update r.next fs .null })
      else unregisterFrom r fs fuel (.next x)

def unregisterFilesystem (r : Registry n) (fs : Fin n) : Except Fault (Int × Registry n) :=
  unregisterFrom r fs (n + 1) .fileSystems

end SaxonOS
