import SaxonOS.Proofs.Ext2Read
import SaxonOS.Proofs.Ext2Write

/-!
# Whether a transfer ends

The inner loop of `ext2_read` and `ext2_write` stops when `count` is used up, and the outer one
does not look at `count`. Both are followed here by `i` and `count` alone, over memory that goes
on after the record, so that a chunk that leaves its payload or an entry past the record does
not stop the count of turns.
-/

namespace SaxonOS.Proofs
open SaxonOS Lib

/-- The outer test of `ext2_read`, over `direct_block` and the words after it. -/
def readTest (words : Nat → UInt32) (i : Nat) : Bool := decide (i < 12 ∧ words i ≠ 0)

/-- The outer test of `ext2_write`. -/
def writeTest (words : Nat → UInt32) (i : Nat) : Bool := decide (words i ≠ 0)

def copyGuard (test : Nat → Bool) (s : Nat × Nat) : Except Fault Bool := .ok (test s.1)

def copyLive (s : Nat × Nat) : Bool := decide (s.2 > 0)

def copyStep (_ : Nat) (s : Nat × Nat) : Except Fault (Nat × Nat) :=
  .ok (s.1 + 1, s.2 - chunk s.2)

/-- The copy loops as far as `i` and `count` go. -/
def copyLoop (test : Nat → Bool) (n : Nat) : Nat → Nat × Nat → Except Fault (Nat × Nat) :=
  loopNest .diverge (copyGuard test) copyLive copyStep n

/-- The loops from `*off` on with `count` bytes to copy are left after finitely many turns. -/
def CopyEnds (test : Nat → Bool) (g : Geometry) (off count : UInt32) : Prop :=
  ∃ fuel s, copyLoop test (sectorsPerBlock g).toNat fuel (off.toNat / blockSize, count.toNat) =
    .ok s

/-- Some outer test fails: one before a chunk that starts a block, or the one after the last
chunk. -/
def SomeTestFails (test : Nat → Bool) (g : Geometry) (off count : UInt32) : Prop :=
  ∃ j ≤ chunks count.toNat, (j % (sectorsPerBlock g).toNat = 0 ∨ j = chunks count.toNat) ∧
    test (off.toNat / blockSize + j) = false

variable {g : Geometry} {k : Nat} {tmp : Ext2Inode} {words : Nat → UInt32}

/-- `i` and `count` after `j` chunks. -/
def copyPath (off count : UInt32) (j : Nat) : Nat × Nat :=
  (off.toNat / blockSize + j, count.toNat - blockSize * j)

lemma copyStep_path (off count : UInt32) (k j : Nat) :
    copyStep k (copyPath off count j) = .ok (copyPath off count (j + 1)) := by
  simp only [copyStep, copyPath, count_next, Nat.add_assoc]

lemma copyEnds_iff (hg : BlockSizeShift g k) (test : Nat → Bool) (off count : UInt32) :
    CopyEnds test g off count ↔ SomeTestFails test g off count := by
  have hlive : ∀ j < chunks count.toNat, copyLive (copyPath off count j) = true :=
    fun j hj => decide_eq_true (Nat.sub_pos_of_lt (lt_chunks.mp hj))
  have hdead : copyLive (copyPath off count (chunks count.toNat)) = false :=
    decide_eq_false (chunks_over count.toNat)
  have hbody : ∀ j < chunks count.toNat,
      copyStep (j % (sectorsPerBlock g).toNat) (copyPath off count j) =
        .ok (copyPath off count (j + 1)) := fun j _ => copyStep_path off count _ j
  have hguard : ∀ j ≤ chunks count.toNat, copyGuard test (copyPath off count j) =
      .ok ((fun j => test (off.toNat / blockSize + j)) j) := fun j _ => rfl
  exact loopNest_ends_iff hg.sectors_pos hlive hdead hbody hguard

lemma readChars_outcome (payload : Payload) (chars ptr : Nat) :
    (∃ bytes, readChars payload chars ptr = .ok bytes) ∨
      readChars payload chars ptr = .error .outOfBounds := by
  induction chars generalizing ptr with
  | zero => exact .inl ⟨[], rfl⟩
  | succ chars ih =>
    rw [readChars]
    split
    · rcases ih (ptr + 1) with ⟨bytes, h⟩ | h
      · rw [h]
        exact .inl ⟨_, rfl⟩
      · rw [h]
        exact .inr rfl
    · exact .inr rfl

lemma writeChars_outcome (src : Nat → UInt8) (chars ptr i : Nat) (payload : Payload) :
    (∃ payload', writeChars src chars ptr i payload = .ok payload') ∨
      writeChars src chars ptr i payload = .error .outOfBounds := by
  induction chars generalizing ptr i payload with
  | zero => exact .inl ⟨payload, rfl⟩
  | succ chars ih =>
    rw [writeChars]
    split
    · exact ih (ptr + 1) (i + 1) _
    · exact .inr rfl

/-- `ext2_read` goes through the same turns, as long as it does not leave a payload or the
record. -/
lemma readLoop_view (hwords : ∀ i < 22, words i = pointer tmp i) (sectors : Sectors) (fuel : Nat)
    (st : ReadState) : readLoop g sectors tmp fuel st = .error .outOfBounds ∨
      (readLoop g sectors tmp fuel st).map (fun st => (st.i, st.count)) =
        copyLoop (readTest words) (sectorsPerBlock g).toNat fuel (st.i, st.count) := by
  apply loopNest_view
  · intro st
    right
    change _ = Except.ok (readTest words st.i)
    by_cases h : st.i < 12 ∧ pointer tmp st.i ≠ 0
    · rw [readGuard_true h.1 h.2, readTest, hwords st.i (by omega), decide_eq_true h]
    · rw [readGuard_false h, readTest]
      congr 1
      apply (decide_eq_false _).symm
      rintro ⟨hi, hp⟩
      rw [hwords st.i (by omega)] at hp
      exact h ⟨hi, hp⟩
  · intro st
    rfl
  · intro k st
    rw [readStep]
    rcases Nat.lt_or_ge st.i 22 with hi | hi
    · rw [directBlock_ok tmp hi]
      simp only [bind, Except.bind]
      rcases readChars_outcome (sectors (addrOfBlock g (pointer tmp st.i) + UInt32.ofNat k))
        (chunk st.count) st.offset with ⟨bytes, h⟩ | h
      · rw [h]
        exact .inr rfl
      · rw [h]
        exact .inl rfl
    · rw [directBlock_outside tmp hi]
      exact .inl rfl

lemma writeLoop_view (hwords : ∀ i < 22, words i = pointer tmp i) (buff : Nat → UInt8)
    (fuel : Nat) (st : WriteState) : writeLoop g buff tmp fuel st = .error .outOfBounds ∨
      (writeLoop g buff tmp fuel st).map (fun st => (st.i, st.count)) =
        copyLoop (writeTest words) (sectorsPerBlock g).toNat fuel (st.i, st.count) := by
  apply loopNest_view
  · intro st
    rcases Nat.lt_or_ge st.i 22 with hi | hi
    · right
      change _ = Except.ok (writeTest words st.i)
      rw [writeGuard_eq hi, writeTest, hwords st.i hi]
    · exact .inl (writeGuard_outside hi)
  · intro st
    rfl
  · intro k st
    rw [writeStep]
    rcases Nat.lt_or_ge st.i 22 with hi | hi
    · rw [directBlock_ok tmp hi]
      simp only [bind, Except.bind]
      rcases writeChars_outcome buff (chunk st.count) st.offset st.next
        (st.sectors (addrOfBlock g (pointer tmp st.i) + UInt32.ofNat k)) with ⟨payload, h⟩ | h
      · rw [h]
        exact .inr rfl
      · rw [h]
        exact .inl rfl
    · rw [directBlock_outside tmp hi]
      exact .inl rfl

/-- Both transfers end exactly where one of their outer tests fails, and the loops of
`ext2_read` and `ext2_write` take these turns unless they leave a payload or the record. -/
theorem ext2_copy_loops_end_iff (hg : BlockSizeShift g k)
    (hwords : ∀ i < 22, words i = pointer tmp i) (off count : UInt32) :
    (CopyEnds (readTest words) g off count ↔ SomeTestFails (readTest words) g off count) ∧
    (CopyEnds (writeTest words) g off count ↔ SomeTestFails (writeTest words) g off count) ∧
    (∀ sectors fuel st, readLoop g sectors tmp fuel st = .error .outOfBounds ∨
      (readLoop g sectors tmp fuel st).map (fun st => (st.i, st.count)) =
        copyLoop (readTest words) (sectorsPerBlock g).toNat fuel (st.i, st.count)) ∧
    ∀ buff fuel st, writeLoop g buff tmp fuel st = .error .outOfBounds ∨
      (writeLoop g buff tmp fuel st).map (fun st => (st.i, st.count)) =
        copyLoop (writeTest words) (sectorsPerBlock g).toNat fuel (st.i, st.count) :=
  ⟨copyEnds_iff hg (readTest words) off count, copyEnds_iff hg (writeTest words) off count,
    fun sectors fuel st => readLoop_view hwords sectors fuel st,
    fun buff fuel st => writeLoop_view hwords buff fuel st⟩

/-- One byte from the start of a file of one block. -/
theorem ext2_copy_loops_end_last :
    CopyEnds (readTest (pointer smallRecord)) smallGeometry 0 1 ∧
    CopyEnds (writeTest (pointer smallRecord)) smallGeometry 0 1 := by
  have hwords : ∀ i < 22, pointer smallRecord i = pointer smallRecord i := fun _ _ => rfl
  have h := ext2_copy_loops_end_iff smallGeometry_shift hwords 0 1
  exact ⟨h.1.mpr ⟨1, by decide, .inr rfl, by decide⟩, h.2.1.mpr ⟨1, by decide, .inr rfl, by decide⟩⟩

/-- A regular file of 2000 bytes in the blocks 50 and 51. -/
def pairBytes (i : Nat) : UInt8 :=
  match i with
  | 1 => 0x80
  | 4 => 0xD0
  | 5 => 0x07
  | 40 => 50
  | 44 => 51
  | _ => 0

def pairRecord : Ext2Inode := fun i => pairBytes i.val

/-- The file as inode 1 of the disk of `smallDisk`. -/
def pairDisk : Sectors := Function.update smallDisk 10 fun i => if i.val < 128 then pairBytes i else 0

def pairFile : Inode := ⟨1, 2000, 0, 0, ext2Name⟩

lemma pairDisk_holds : readInode smallGeometry pairDisk pairFile.iNo = .ok (10, pairRecord) := by
  apply readInode_small
  · rfl
  · rw [copyInode, dif_pos (by decide)]
    congr 1
    funext i
    simp [pairDisk, pairRecord]

lemma pairRecord_regular : pairRecord.typePermissions &&& 0xF000 = typeRegFile := by decide

/-- One byte from the start of the file: both calls pass their checks and never return. -/
theorem ext2_copy_loops_spin :
    (∀ fuel, ext2Read smallGeometry pairDisk fuel pairFile 1 0 = .error .diverge) ∧
    ∀ fuel, ext2Write smallGeometry pairDisk fuel pairFile (fun _ => 0) 1 0 = .error .diverge := by
  have hread : ReadRuns smallGeometry pairRecord 0 1 :=
    ⟨by unfold ChunkFits; decide, by decide, by decide⟩
  have hwrite : WriteRuns smallGeometry pairRecord 0 1 :=
    ⟨by unfold ChunkFits; decide, by decide, by decide⟩
  have hr : ReadSettles smallGeometry pairDisk pairRecord 1 0 (.error .diverge) :=
    settles_stuck smallGeometry_shift.sectors_pos (fun j hj => hread.turn hj) readPath_dead
      (readGuard_true (by decide) (by decide))
  have hw : WriteSettles smallGeometry pairDisk pairRecord (fun _ => 0) 1 0 (.error .diverge) :=
    settles_stuck smallGeometry_shift.sectors_pos (fun j hj => hwrite.turn hj) writePath_dead
      (writeGuard_eq (by decide))
  constructor
  · intro fuel
    rw [ext2Read_eq (by decide) (by decide) pairRecord_regular pairDisk_holds]
    exact congrArg readFinish ((hr.all fuel).elim id id)
  · intro fuel
    rw [ext2Write_eq (by decide) (by decide) pairRecord_regular pairDisk_holds]
    exact congrArg writeFinish ((hw.all fuel).elim id id)

end SaxonOS.Proofs
