import SaxonOS.CacheReaders
import SaxonOS.Proofs.BufferReadOnly
import SaxonOS.Proofs.BufferReuse

/-!
# Reading through the buffer cache

The functions that only read, over the cache instead of the sectors of the device. While nothing
else uses the cache, what they return is what they return over the sectors; only the inode number
that `ext2_lookup` reads last needs more.
-/

namespace SaxonOS.Proofs
open Lib Lib.Holding

variable {α β : Type} {g : Geometry} {sectors : Sectors} {cur : UInt32}

lemma ideal_pure (x : α) : (pure x : Reader α).ideal sectors (bgdSector g) cur = .ok x := rfl

lemma ideal_bind_ofExcept (e : Except Fault α) (f : α → Reader β) :
    (ofExcept e >>= f : Reader β).ideal sectors (bgdSector g) cur =
      e >>= fun x => (f x).ideal sectors (bgdSector g) cur := by
  rw [ideal_bind, ideal_ofExcept]

lemma readInodeVia_ideal (inode : UInt32) (back : Bool) :
    (readInodeVia g inode back).ideal sectors (bgdSector g) cur = readInode g sectors inode := by
  unfold readInodeVia readInode
  split
  · rfl
  · rw [ideal, ideal_bind_ofExcept]
    congr 1
    funext table
    simp only [ideal, ideal_bind_ofExcept, ideal_pure]
    cases copyInode _ _ with
    | error e => rfl
    | ok record => rfl

lemma readStepVia_ideal (tmp : Ext2Inode) (k : Nat) (st : ReadState) :
    (readStepVia g tmp k st).ideal sectors (bgdSector g) cur = readStep g sectors tmp k st := by
  unfold readStepVia readStep
  rw [ideal_bind_ofExcept]
  congr 1
  funext direct
  rw [ideal_bind, ideal_visit]
  rfl

lemma readSectorsVia_ideal (tmp : Ext2Inode) (n k : Nat) (st : ReadState) :
    (readSectorsVia g tmp n k st).ideal sectors (bgdSector g) cur =
      forLoop (fun st => decide (st.count > 0)) (readStep g sectors tmp) n k st := by
  induction n generalizing k st with
  | zero => rfl
  | succ n ih =>
    rw [readSectorsVia, forLoop]
    by_cases hc : st.count > 0
    · rw [if_pos hc, if_pos (decide_eq_true hc), ideal_bind, readStepVia_ideal]
      cases readStep g sectors tmp k st with
      | error e => rfl
      | ok st' => exact ih (k + 1) st'
    · rw [if_neg hc, if_neg (by simpa using hc)]
      rfl

lemma readLoopVia_ideal (tmp : Ext2Inode) (fuel : Nat) (st : ReadState) :
    (readLoopVia g tmp fuel st).ideal sectors (bgdSector g) cur =
      readLoop g sectors tmp fuel st := by
  unfold readLoop loopNest
  induction fuel generalizing st with
  | zero =>
    rw [readLoopVia, whileLoop, ideal_bind_ofExcept]
    cases readGuard tmp st with
    | error e => rfl
    | ok more => cases more <;> rfl
  | succ fuel ih =>
    rw [readLoopVia, whileLoop, ideal_bind_ofExcept]
    cases readGuard tmp st with
    | error e => rfl
    | ok more =>
      cases more with
      | false => rfl
      | true =>
        change ((readSectorsVia g tmp _ 0 st >>= fun st => readLoopVia g tmp fuel st).ideal sectors
          (bgdSector g) cur) = _
        rw [ideal_bind, readSectorsVia_ideal]
        cases forLoop _ (readStep g sectors tmp) (sectorsPerBlock g).toNat 0 st with
        | error e => rfl
        | ok st' => exact ih st'

lemma ext2ReadVia_ideal (fuel : Nat) (inode : Inode) (count off : UInt32) :
    (ext2ReadVia g fuel inode count off).ideal sectors (bgdSector g) cur =
      ext2Read g sectors fuel inode count off := by
  unfold ext2ReadVia ext2Read
  dsimp only
  rw [ideal_bind_ofExcept]
  congr 1
  funext cmp
  split
  · rfl
  · split
    · rfl
    · split
      · rfl
      · rw [ideal_bind, readInodeVia_ideal]
        congr 1
        funext p
        split
        · rfl
        · rw [ideal_bind, readLoopVia_ideal]
          rfl

/-- The walk through a sector, without the place of the record that matches. -/
def direntsWalk (block : UInt32) : Dirents → Walk
  | .found _ inode => .found inode
  | .stop => .stop [block]
  | .more size => .more size

lemma walkDirents_walk (block : UInt32) (filename : Bytes) (len : Int32) (sizeLow : UInt32)
    (fuel de : Nat) (size : UInt32) :
    walkRecords sectors block filename len sizeLow fuel de size =
      (walkDirents (sectors block) filename len sizeLow fuel de size).map (direntsWalk block) := by
  induction fuel generalizing de size with
  | zero =>
    unfold walkRecords walkDirents
    cases payload16 (sectors block) (de + 4) with
    | error e => rfl
    | ok entry =>
      change (if de + entry.toNat < blockSize then _ else _) =
        Except.map _ (if de + entry.toNat < blockSize then _ else _)
      split <;> rfl
  | succ fuel ih =>
    unfold walkRecords walkDirents
    cases payload16 (sectors block) (de + 4) with
    | error e => rfl
    | ok entry =>
      change (if de + entry.toNat < blockSize then _ else _) =
        Except.map _ (if de + entry.toNat < blockSize then _ else _)
      split
      · cases direntMatches (sectors block) filename len de with
        | error e => rfl
        | ok hit =>
          cases hit with
          | true =>
            change (payload32 (sectors block) de >>= _) =
              Except.map _ (payload32 (sectors block) de >>= _)
            cases payload32 (sectors block) de <;> rfl
          | false =>
            change (if size + entry.toUInt32 > sizeLow then _ else _) =
              Except.map _ (if size + entry.toUInt32 > sizeLow then _ else _)
            split
            · rfl
            · exact ih _ _
      · rfl

/-- The number of the record that matches. -/
lemma walkDirents_found {payload : Payload} {filename : Bytes} {len : Int32} {sizeLow : UInt32}
    {fuel de de' : Nat} {size ino : UInt32}
    (h : walkDirents payload filename len sizeLow fuel de size = .ok (.found de' ino)) :
    payload32 payload de' = .ok ino := by
  induction fuel generalizing de size with
  | zero =>
    unfold walkDirents at h
    obtain ⟨entry, -, h⟩ := bind_eq_ok h
    split at h
    · cases h
    · cases h
  | succ fuel ih =>
    unfold walkDirents at h
    obtain ⟨entry, -, h⟩ := bind_eq_ok h
    split at h
    · obtain ⟨hit, -, h⟩ := bind_eq_ok h
      cases hit with
      | true =>
        rw [if_pos rfl] at h
        obtain ⟨ino', hino, h⟩ := bind_eq_ok h
        cases h
        exact hino
      | false =>
        rw [if_neg Bool.false_ne_true] at h
        dsimp only at h
        split at h
        · cases h
        · exact ih h
    · cases h

/-- What the walk over the sectors comes to when the inode that is found is read. -/
def resolve (g : Geometry) (sectors : Sectors) : Walk → Except Fault LookupWalk
  | .found ino => do
    let (_, inode) ← readInode g sectors ino
    .ok (.found ino inode)
  | .stop held => .ok (.stop held)
  | .more size => .ok (.more size)

lemma direntsVia_ideal {block : UInt32} {dirents : Dirents}
    (hfound : ∀ de ino, dirents = .found de ino → payload32 (sectors block) de = .ok ino) :
    (direntsVia g block dirents).ideal sectors (bgdSector g) block >>= (fun r => .ok r.1) =
      resolve g sectors (direntsWalk block dirents) := by
  cases dirents with
  | found de ino =>
    change _ = readInode g sectors ino >>= fun p => .ok (LookupWalk.found ino p.2)
    rw [direntsVia, ideal_bind, readInodeVia_ideal]
    cases readInode g sectors ino with
    | error e => rfl
    | ok p =>
      change (ofExcept (payload32 (sectors block) de) >>= fun iNo =>
        (pure (LookupWalk.found iNo p.2, true) : Reader (LookupWalk × Bool))).ideal sectors
          (bgdSector g) block >>= _ = _
      rw [ideal_bind_ofExcept, hfound de ino rfl]
      rfl
  | stop => rfl
  | more size => rfl

lemma walkSectorVia_ideal (filename : Bytes) (len : Int32) (sizeLow : UInt32) (budget : Nat)
    (block size : UInt32) :
    (walkSectorVia g filename len sizeLow budget block size).ideal sectors (bgdSector g) cur =
      walkRecords sectors block filename len sizeLow budget 0 size >>= resolve g sectors := by
  rw [walkDirents_walk, walkSectorVia, ideal, ideal_bind_ofExcept]
  cases hw : walkDirents (sectors block) filename len sizeLow budget 0 size with
  | error e => rfl
  | ok dirents =>
    refine Eq.trans ?_ (direntsVia_ideal fun de ino hd => walkDirents_found (by rw [hw, hd]))
    rw [show (Except.ok dirents >>= fun x => (direntsVia g block x).ideal sectors (bgdSector g)
      block) = (direntsVia g block dirents).ideal sectors (bgdSector g) block from rfl]
    cases (direntsVia g block dirents).ideal sectors (bgdSector g) block <;> rfl

lemma walkSectorsVia_ideal (filename : Bytes) (len : Int32) (sizeLow direct : UInt32)
    (budget fuel : Nat) (k : UInt8) (size : UInt32) :
    (walkSectorsVia g filename len sizeLow direct budget fuel k size).ideal sectors (bgdSector g)
        cur =
      walkSectors g sectors filename len sizeLow direct budget fuel k size >>=
        resolve g sectors := by
  induction fuel generalizing k size with
  | zero =>
    unfold walkSectorsVia walkSectors
    split <;> rfl
  | succ fuel ih =>
    unfold walkSectorsVia walkSectors
    split
    · rw [ideal_bind, walkSectorVia_ideal]
      dsimp only
      cases walkRecords sectors (addrOfBlock g direct + k.toUInt32) filename len sizeLow budget 0
        size with
      | error e => rfl
      | ok walk =>
        cases walk with
        | found ino =>
          change (readInode g sectors ino >>= fun p => _) >>= _ =
            readInode g sectors ino >>= fun p => _
          cases readInode g sectors ino <;> rfl
        | stop held => rfl
        | more size => exact ih (k + 1) size
    · rfl

lemma walkBlocksVia_ideal (filename : Bytes) (len : Int32) (inode : Ext2Inode) (fuel n i : Nat)
    (size : UInt32) :
    (walkBlocksVia g filename len inode fuel n i size).ideal sectors (bgdSector g) cur =
      walkBlocks g sectors filename len inode fuel n i size >>= resolve g sectors := by
  induction n generalizing i size with
  | zero => rfl
  | succ n ih =>
    unfold walkBlocksVia walkBlocks
    rw [ideal_bind_ofExcept]
    cases inode.directBlock i with
    | error e => rfl
    | ok direct =>
      change (if direct = 0 then _ else _ : Reader LookupWalk).ideal sectors (bgdSector g) cur =
        (if direct = 0 then _ else _) >>= resolve g sectors
      split
      · rfl
      · rw [ideal_bind, walkSectorsVia_ideal]
        cases walkSectors g sectors filename len inode.sizeLow direct fuel fuel 0 size with
        | error e => rfl
        | ok walk =>
          cases walk with
          | found ino =>
            change (readInode g sectors ino >>= fun p => _) >>= _ =
              readInode g sectors ino >>= fun p => _
            cases readInode g sectors ino <;> rfl
          | stop held => rfl
          | more size => exact ih (i + 1) size

lemma ext2LookupVia_ideal (fuel : Nat) (dir : Inode) (filename : Bytes) (len : Int32)
    (result : Inode) :
    (ext2LookupVia g fuel dir filename len result).ideal sectors (bgdSector g) cur =
      ext2Lookup g sectors fuel dir filename len result := by
  unfold ext2LookupVia ext2Lookup
  rw [ideal_bind, readInodeVia_ideal]
  congr 1
  funext p
  dsimp only
  split
  · rfl
  · split
    · rfl
    · rw [ideal_bind, walkBlocksVia_ideal]
      cases walkBlocks g sectors filename len p.2 fuel 12 0 0 with
      | error e => rfl
      | ok walk =>
        cases walk with
        | found ino =>
          change (readInode g sectors ino >>= fun p => _) >>= _ =
            readInode g sectors ino >>= fun p => _
          cases readInode g sectors ino <;> rfl
        | stop held => rfl
        | more size => rfl

lemma bdevReadLoopVia_ideal (fuel count : Nat) (block : UInt32) (offset : Nat)
    (pos read : UInt32) :
    (bdevReadLoopVia fuel count block offset pos read).ideal sectors (bgdSector g) cur =
      bdevReadLoop sectors fuel count block offset pos read := by
  induction fuel generalizing count block offset pos read with
  | zero =>
    unfold bdevReadLoopVia bdevReadLoop
    split <;> rfl
  | succ fuel ih =>
    unfold bdevReadLoopVia bdevReadLoop
    split
    · rw [ideal_bind, ideal_visit]
      congr 1
      funext bytes
      rw [ideal_bind, ih]
      rfl
    · rfl

/-- Over the sectors the programs are the functions. -/
lemma via_ideal (call : ReaderCall α) :
    (call.via g).ideal sectors (bgdSector g) cur = call.plain g sectors := by
  cases call with
  | readInode inode back => exact readInodeVia_ideal inode back
  | ext2Read fuel inode count off => exact ext2ReadVia_ideal fuel inode count off
  | ext2Lookup fuel dir filename len result =>
    exact ext2LookupVia_ideal fuel dir filename len result
  | bdevRead count pos => exact bdevReadLoopVia_ideal ..

section Within

variable {d : Nat} {l a : Prop}

lemma within_pure (x : α) : (pure x : Reader α).Within l a d := trivial

lemma within_ofExcept_bind {e : Except Fault α} {f : α → Reader β}
    (hf : ∀ x, (f x).Within l a d) : (ofExcept e >>= f).Within l a d :=
  within_bind (within_ofExcept e) hf

lemma readInodeVia_within (hd : 0 < d) (inode : UInt32) (back : Bool) :
    (readInodeVia g inode back).Within True a d := by
  unfold readInodeVia
  split
  · trivial
  · refine ⟨trivial, fun bgdt => within_ofExcept_bind fun table => ?_⟩
    exact ⟨hd, fun payload => within_ofExcept_bind fun record => within_pure _,
      fun record => within_pure _⟩

lemma readStepVia_within (hd : 0 < d) (tmp : Ext2Inode) (k : Nat) (st : ReadState) :
    (readStepVia g tmp k st).Within l a d :=
  within_ofExcept_bind fun _ => within_bind (within_visit hd _ _) fun _ => within_pure _

lemma readSectorsVia_within (hd : 0 < d) (tmp : Ext2Inode) (n k : Nat) (st : ReadState) :
    (readSectorsVia g tmp n k st).Within l a d := by
  induction n generalizing k st with
  | zero => trivial
  | succ n ih =>
    rw [readSectorsVia]
    split
    · exact within_bind (readStepVia_within hd tmp k st) fun st => ih (k + 1) st
    · exact within_pure st

lemma readLoopVia_within (hd : 0 < d) (tmp : Ext2Inode) (fuel : Nat) (st : ReadState) :
    (readLoopVia g tmp fuel st).Within l a d := by
  induction fuel generalizing st with
  | zero =>
    rw [readLoopVia]
    refine within_ofExcept_bind fun more => ?_
    split <;> trivial
  | succ fuel ih =>
    rw [readLoopVia]
    refine within_ofExcept_bind fun more => ?_
    split
    · exact within_bind (readSectorsVia_within hd tmp _ 0 st) ih
    · exact within_pure st

lemma ext2ReadVia_within (hd : 0 < d) (fuel : Nat) (inode : Inode) (count off : UInt32) :
    (ext2ReadVia g fuel inode count off).Within True a d := by
  unfold ext2ReadVia
  refine within_ofExcept_bind fun cmp => ?_
  split
  · trivial
  · split
    · exact within_pure _
    · split
      · exact within_pure _
      · refine within_bind (readInodeVia_within hd inode.iNo true) fun p => ?_
        dsimp only
        split
        · exact within_pure _
        · exact within_bind (readLoopVia_within hd p.2 fuel _) fun st => within_pure _

lemma direntsVia_within (hd : 0 < d) (block : UInt32) (dirents : Dirents) :
    (direntsVia g block dirents).Within True True d := by
  cases dirents with
  | found de ino =>
    refine within_bind (readInodeVia_within hd ino true) fun p => ⟨trivial, fun payload => ?_⟩
    exact within_ofExcept_bind fun iNo => within_pure _
  | stop => trivial
  | more size => trivial

lemma walkSectorVia_within (hd : 1 < d) (filename : Bytes) (len : Int32) (sizeLow : UInt32)
    (budget : Nat) (block size : UInt32) :
    (walkSectorVia g filename len sizeLow budget block size).Within True True d := by
  refine ⟨by omega, fun payload => within_ofExcept_bind fun dirents => ?_, fun walk => trivial⟩
  exact direntsVia_within (by omega) block dirents

lemma walkSectorsVia_within (hd : 1 < d) (filename : Bytes) (len : Int32)
    (sizeLow direct : UInt32) (budget fuel : Nat) (k : UInt8) (size : UInt32) :
    (walkSectorsVia g filename len sizeLow direct budget fuel k size).Within True True d := by
  induction fuel generalizing k size with
  | zero =>
    unfold walkSectorsVia
    split <;> trivial
  | succ fuel ih =>
    unfold walkSectorsVia
    split
    · refine within_bind (walkSectorVia_within hd filename len sizeLow budget _ size) fun walk => ?_
      cases walk with
      | found iNo inode => trivial
      | stop held => trivial
      | more size => exact ih (k + 1) size
    · trivial

lemma walkBlocksVia_within (hd : 1 < d) (filename : Bytes) (len : Int32) (inode : Ext2Inode)
    (fuel n i : Nat) (size : UInt32) :
    (walkBlocksVia g filename len inode fuel n i size).Within True True d := by
  induction n generalizing i size with
  | zero => trivial
  | succ n ih =>
    unfold walkBlocksVia
    refine within_ofExcept_bind fun direct => ?_
    split
    · trivial
    · refine within_bind (walkSectorsVia_within hd filename len _ direct fuel fuel 0 size)
        fun walk => ?_
      cases walk with
      | found iNo inode => trivial
      | stop held => trivial
      | more size => exact ih (i + 1) size

lemma ext2LookupVia_within (hd : 1 < d) (fuel : Nat) (dir : Inode) (filename : Bytes)
    (len : Int32) (result : Inode) :
    (ext2LookupVia g fuel dir filename len result).Within True True d := by
  unfold ext2LookupVia
  refine within_bind (readInodeVia_within (by omega) dir.iNo true) fun p => ?_
  dsimp only
  split
  · trivial
  · split
    · trivial
    · refine within_bind (walkBlocksVia_within hd filename len p.2 fuel 12 0 0) fun walk => ?_
      cases walk <;> trivial

lemma bdevReadLoopVia_within (hd : 0 < d) (fuel count : Nat) (block : UInt32) (offset : Nat)
    (pos read : UInt32) : (bdevReadLoopVia fuel count block offset pos read).Within l a d := by
  induction fuel generalizing count block offset pos read with
  | zero =>
    unfold bdevReadLoopVia
    split <;> trivial
  | succ fuel ih =>
    unfold bdevReadLoopVia
    split
    · refine within_bind (within_visit hd _ _) fun bytes => within_bind (ih ..) fun r => trivial
    · trivial

/-- A call takes at most two buffers at a time, and only `ext2_lookup` looks at one again. -/
lemma via_within (call : ReaderCall α) : (call.via g).Within True call.IsLookup 2 := by
  cases call with
  | readInode inode back => exact readInodeVia_within (by decide) inode back
  | ext2Read fuel inode count off => exact ext2ReadVia_within (by decide) fuel inode count off
  | ext2Lookup fuel dir filename len result =>
    exact ext2LookupVia_within (by decide) fuel dir filename len result
  | bdevRead count pos => exact bdevReadLoopVia_within (by decide) ..

end Within

end SaxonOS.Proofs
