import SaxonOS.Proofs.Ext2Transfer

/-!
# Writing a file

`ext2_write` takes its chunks as `ext2_read` does, but its outer loop has no bound on the
index into `direct_block`. The sectors after `j` chunks are followed, and the call is right on
exactly those inputs that get through all chunks and put each into the right sector, apart
from those on which it never returns.
-/

namespace SaxonOS.Proofs
open SaxonOS Lib

variable {g : Geometry} {k : Nat} {tmp : Ext2Inode} {inode : Inode} {sectors : Sectors}
  {buff : Nat → UInt8} {count off : UInt32}

/-- A payload after the chunk `j` has been stored into it. -/
def chunkPayload (buff : Nat → UInt8) (count off : UInt32) (j : Nat) (payload : Payload) :
    Payload :=
  fun b =>
    if chunkStart (off.toNat % blockSize) j ≤ b.val ∧
        b.val < chunkStart (off.toNat % blockSize) j + chunk (count.toNat - blockSize * j) then
      buff (moved count.toNat j + (b.val - chunkStart (off.toNat % blockSize) j))
    else payload b

/-- The sectors after `j` chunks. -/
def written (g : Geometry) (sectors : Sectors) (tmp : Ext2Inode) (buff : Nat → UInt8)
    (count off : UInt32) : Nat → Sectors
  | 0 => sectors
  | j + 1 =>
    Function.update (written g sectors tmp buff count off j)
      (chunkSector g tmp (off.toNat / blockSize) j)
      (chunkPayload buff count off j (written g sectors tmp buff count off j
        (chunkSector g tmp (off.toNat / blockSize) j)))

/-- The state of `ext2_write` after `j` chunks. -/
def writePath (g : Geometry) (sectors : Sectors) (tmp : Ext2Inode) (buff : Nat → UInt8)
    (count off : UInt32) (j : Nat) : WriteState where
  i := off.toNat / blockSize + j
  offset := chunkStart (off.toNat % blockSize) j
  count := count.toNat - blockSize * j
  off := off + UInt32.ofNat (moved count.toNat j)
  wrote := UInt32.ofNat (moved count.toNat j)
  next := moved count.toNat j
  sectors := written g sectors tmp buff count off j

/-- Every chunk of a write gets its turn, and there is an entry to look at after the last. -/
structure WriteRuns (g : Geometry) (tmp : Ext2Inode) (off count : UInt32) : Prop where
  fits : ChunkFits off count
  blocks : ∀ j < chunks count.toNat, j % (sectorsPerBlock g).toNat = 0 →
    pointer tmp (off.toNat / blockSize + j) ≠ 0
  record : off.toNat / blockSize + chunks count.toNat < 22

lemma writeGuard_eq {st : WriteState} (hi : st.i < 22) :
    writeGuard tmp st = .ok (decide (pointer tmp st.i ≠ 0)) := by
  simp [writeGuard, directBlock_ok tmp hi, bind, Except.bind]

lemma writeGuard_outside {st : WriteState} (hi : 22 ≤ st.i) :
    writeGuard tmp st = .error .outOfBounds := by
  simp [writeGuard, directBlock_outside tmp hi, bind, Except.bind]

lemma writeGuard_ne_diverge (st : WriteState) : writeGuard tmp st ≠ .error .diverge := by
  rcases Nat.lt_or_ge st.i 22 with hi | hi
  · simp [writeGuard_eq hi]
  · simp [writeGuard_outside hi]

lemma writeStep_ok {j : Nat} (hj : j < chunks count.toNat) (hr : ChunkRuns off count j) :
    writeStep g buff tmp (j % (sectorsPerBlock g).toNat)
        (writePath g sectors tmp buff count off j) =
      .ok (writePath g sectors tmp buff count off (j + 1)) := by
  have hchars := writeChars_ok buff (chunk (count.toNat - blockSize * j))
    (chunkStart (off.toNat % blockSize) j) (moved count.toNat j)
    (written g sectors tmp buff count off j (chunkSector g tmp (off.toNat / blockSize) j)) hr.fits
  simp only [chunkSector] at hchars
  simp only [writeStep, writePath, directBlock_ok tmp hr.record, bind, Except.bind, hchars,
    count_next, moved_succ hj, UInt32.ofNat_add, ← UInt32.add_assoc, Nat.add_assoc,
    chunkStart_succ, written, chunkSector]
  rfl

lemma writeStep_error {j : Nat} (hj : j < chunks count.toNat) (hbad : ¬ ChunkRuns off count j) :
    writeStep g buff tmp (j % (sectorsPerBlock g).toNat)
      (writePath g sectors tmp buff count off j) = .error .outOfBounds := by
  by_cases hrec : off.toNat / blockSize + j < 22
  · have hfit : blockSize < chunkStart (off.toNat % blockSize) j +
        chunk (count.toNat - blockSize * j) := Nat.lt_of_not_le fun hle => hbad ⟨hrec, hle⟩
    have hover := fun payload => writeChars_overrun buff (chunk (count.toNat - blockSize * j))
      (chunkStart (off.toNat % blockSize) j) (moved count.toNat j) payload (chunk_pos_of_lt hj) hfit
    simp only [writeStep, writePath, directBlock_ok tmp hrec, bind, Except.bind, hover]
  · simp only [writeStep, writePath, directBlock_outside tmp (Nat.le_of_not_lt hrec), bind,
      Except.bind]

abbrev WriteTurn (g : Geometry) (sectors : Sectors) (tmp : Ext2Inode) (buff : Nat → UInt8)
    (count off : UInt32) (j : Nat) : Prop :=
  Turn (writeGuard tmp) (fun st => decide (st.count > 0)) (writeStep g buff tmp)
    (sectorsPerBlock g).toNat (writePath g sectors tmp buff count off) j

lemma writePath_live {j : Nat} (hj : j < chunks count.toNat) :
    decide ((writePath g sectors tmp buff count off j).count > 0) = true := by
  apply decide_eq_true
  exact Nat.sub_pos_of_lt (lt_chunks.mp hj)

lemma writePath_dead :
    decide ((writePath g sectors tmp buff count off (chunks count.toNat)).count > 0) = false := by
  apply decide_eq_false
  exact chunks_over count.toNat

lemma WriteRuns.turn (hr : WriteRuns g tmp off count) {j : Nat} (hj : j < chunks count.toNat) :
    WriteTurn g sectors tmp buff count off j := by
  have hrec : off.toNat / blockSize + j < 22 := by
    have := hr.record
    omega
  refine ⟨fun hz => ?_, writePath_live hj, writeStep_ok hj ⟨hrec, chunkStart_fits hr.fits⟩⟩
  rw [writeGuard_eq hrec]
  exact congrArg Except.ok (decide_eq_true (hr.blocks j hj hz))

lemma chunkRuns_of_turn {j : Nat} (hj : j < chunks count.toNat)
    (h : WriteTurn g sectors tmp buff count off j) : ChunkRuns off count j := by
  by_contra hbad
  have hbody := h.body
  rw [writeStep_error hj hbad] at hbody
  cases hbody

/-! ### The sectors a write leaves -/

lemma written_of_ne {s : UInt32} {j : Nat}
    (h : ∀ i < j, chunkSector g tmp (off.toNat / blockSize) i ≠ s) :
    written g sectors tmp buff count off j s = sectors s := by
  induction j with
  | zero => rfl
  | succ j ih =>
    rw [written, Function.update_of_ne (h j (Nat.lt_succ_self j)).symm]
    exact ih fun i hi => h i (Nat.lt_succ_of_lt hi)

/-- A sector that one chunk alone goes to. -/
lemma written_of_eq {s : UInt32} {j m : Nat} (hj : j < m)
    (hs : chunkSector g tmp (off.toNat / blockSize) j = s)
    (h : ∀ i < m, i ≠ j → chunkSector g tmp (off.toNat / blockSize) i ≠ s) :
    written g sectors tmp buff count off m s = chunkPayload buff count off j (sectors s) := by
  induction m with
  | zero => cases hj
  | succ m ih =>
    rcases Nat.lt_succ_iff_lt_or_eq.mp hj with hlt | rfl
    · rw [written, Function.update_of_ne (h m (Nat.lt_succ_self m) (by omega)).symm]
      exact ih hlt fun i hi hne => h i (Nat.lt_succ_of_lt hi) hne
    · rw [written, hs, Function.update_self, written_of_ne]
      intro i hi
      exact h i (Nat.lt_succ_of_lt hi) (by omega)

lemma chunkPayload_in {x : Nat} (hx : x < count.toNat) (payload : Payload) {b : Fin blockSize}
    (hb : b.val = chunkStart (off.toNat % blockSize) (x / blockSize) + x % blockSize) :
    chunkPayload buff count off (x / blockSize) payload b = buff x := by
  have hd := Nat.div_add_mod x blockSize
  have hm := Nat.mod_lt x blockSize_pos
  rw [chunkPayload, if_pos, moved_of_lt (div_lt_chunks hx)]
  · congr 1
    omega
  · rw [chunk_eq_min]
    omega

/-- A file's sector that lies outside the chunks, and one that a chunk goes to. -/
lemma written_fileSector (hf : AllocatedFile g tmp inode)
    (hsize : off.toNat + count.toNat < inode.size.toNat) (hright : RightSectors g tmp off count)
    {t : Nat} (ht : t * blockSize < inode.size.toNat) :
    written g sectors tmp buff count off (chunks count.toNat) (fileSector g tmp t) =
      if off.toNat / blockSize ≤ t ∧ t < off.toNat / blockSize + chunks count.toNat then
        chunkPayload buff count off (t - off.toNat / blockSize) (sectors (fileSector g tmp t))
      else sectors (fileSector g tmp t) := by
  have hne : ∀ i < chunks count.toNat, off.toNat / blockSize + i ≠ t →
      chunkSector g tmp (off.toNat / blockSize) i ≠ fileSector g tmp t := by
    intro i hi hit hs
    rw [hright i hi] at hs
    exact hit (hf.distinct _ _ (sector_lt_size hsize hi) ht hs)
  split
  · next hin =>
    apply written_of_eq
    · omega
    · rw [hright _ (by omega), Nat.add_sub_of_le hin.1]
    · intro i hi hij
      exact hne i hi (by omega)
  · next hout =>
    apply written_of_ne
    intro i hi
    exact hne i hi (by omega)

lemma fileByte_written (hg : BlockSizeShift g k) (hf : AllocatedFile g tmp inode)
    (hsize : off.toNat + count.toNat < inode.size.toNat) (hfit : ChunkFits off count)
    (hright : RightSectors g tmp off count) {x : Nat} (hx : x < count.toNat) :
    fileByte g (written g sectors tmp buff count off (chunks count.toNat)) tmp (off.toNat + x) =
      buff x := by
  obtain ⟨hdiv, hmod⟩ := file_place hfit hx
  have hlt := div_lt_chunks hx
  rw [fileByte_eq hg, hdiv, written_fileSector hf hsize hright (sector_lt_size hsize hlt),
    if_pos ⟨Nat.le_add_right _ _, Nat.add_lt_add_left hlt _⟩, Nat.add_sub_cancel_left]
  exact chunkPayload_in hx _ hmod

lemma fileByte_written_outside (hg : BlockSizeShift g k) (hf : AllocatedFile g tmp inode)
    (hsize : off.toNat + count.toNat < inode.size.toNat)
    (hright : RightSectors g tmp off count) {p : Nat} (hp : p < inode.size.toNat)
    (hout : p < off.toNat ∨ off.toNat + count.toNat ≤ p) :
    fileByte g (written g sectors tmp buff count off (chunks count.toNat)) tmp p =
      fileByte g sectors tmp p := by
  have hle := Nat.div_mul_le_self p blockSize
  rw [fileByte_eq hg, fileByte_eq hg, written_fileSector hf hsize hright (by omega)]
  split
  · next hin =>
    -- a chunk goes to this sector, but not to this byte of it
    have hj := lt_chunks.mp
      (show p / blockSize - off.toNat / blockSize < chunks count.toNat by omega)
    rw [chunkPayload, if_neg (chunk_misses hin.1 hj hout)]
  · rfl

/-- Where the chunk `j` goes astray, the byte it should have set keeps a zero from all the
others, which have zeros to store. -/
lemma written_astray {j m : Nat} (hbuff : ∀ x, buff x ≠ 0 → x = blockSize * j) {s : UInt32}
    (hne : chunkSector g tmp (off.toNat / blockSize) j ≠ s) {b : Fin blockSize}
    (hzero : sectors s b = 0) (hm : m ≤ chunks count.toNat) :
    written g sectors tmp buff count off m s b = 0 := by
  induction m with
  | zero => exact hzero
  | succ m ih =>
    rw [written]
    by_cases hs : s = chunkSector g tmp (off.toNat / blockSize) m
    · subst hs
      rw [Function.update_self, chunkPayload]
      split
      · by_contra hx
        have hidx := hbuff _ hx
        rw [moved_of_lt (by omega)] at hidx
        have hb := b.isLt
        -- two chunks cannot meet at one place of the buffer
        have hjm : j = m := by
          simp only [blockSize] at *
          omega
        exact hne (by rw [hjm])
      · exact ih (by omega)
    · rw [Function.update_of_ne hs]
      exact ih (by omega)

/-! ### The call -/

/-- What a returning call has done: the range of the file holds `buff`, and nothing else has
changed. The sector `bh` is the one of the inode record. -/
structure WriteGood (g : Geometry) (sectors : Sectors) (tmp : Ext2Inode) (inode : Inode)
    (bh : UInt32) (buff : Nat → UInt8) (count off : UInt32) (r : WriteResult) : Prop where
  ret : r.ret = count
  advanced : r.off = off + count
  range : ∀ x < count.toNat, fileByte g r.sectors tmp (off.toNat + x) = buff x
  rest : ∀ p < inode.size.toNat, p < off.toNat ∨ off.toNat + count.toNat ≤ p →
    fileByte g r.sectors tmp p = fileByte g sectors tmp p
  frame : ∀ s, r.sectors s ≠ sectors s → s = bh ∨ ∃ x < count.toNat,
    ∃ k < (sectorsPerBlock g).toNat, s = addrOfBlock g (pointer tmp ((off.toNat + x) /
      g.blockSize.toNat)) + UInt32.ofNat k

def WriteOutcome (g : Geometry) (sectors : Sectors) (tmp : Ext2Inode) (inode : Inode)
    (bh : UInt32) (buff : Nat → UInt8) (count off : UInt32) : Except Fault WriteResult → Prop
  | .ok r => WriteGood g sectors tmp inode bh buff count off r
  | .error e => e = .diverge

/-- Every call of `ext2_write` that returns has written the file, whatever the buffer and on
every disk that holds this inode. -/
def WritesFile (g : Geometry) (tmp : Ext2Inode) (inode : Inode) (count off : UInt32) : Prop :=
  ∀ sectors bh buff fuel, readInode g sectors inode.iNo = .ok (bh, tmp) →
    WriteOutcome g sectors tmp inode bh buff count off
      (ext2Write g sectors fuel inode buff count off)

/-- The condition under which `ext2_write` is right. -/
structure WriteCondition (g : Geometry) (tmp : Ext2Inode) (inode : Inode) (count off : UInt32) :
    Prop where
  flags : inode.flags &&& 1 = 0
  runs : WriteRuns g tmp off count
  ends : pointer tmp (off.toNat / blockSize + chunks count.toNat) ≠ 0 ∨ RightSectors g tmp off count

def writeResult (st : WriteState) : WriteResult := ⟨st.wrote, st.off, st.sectors⟩

def writeFinish (r : Except Fault WriteState) : Except Fault WriteResult := r.map writeResult

lemma writePath_zero : writePath g sectors tmp buff count off 0 =
    ⟨(off / UInt32.ofNat blockSize).toNat, (off % UInt32.ofNat blockSize).toNat, count.toNat,
      off, 0, 0, sectors⟩ := by
  rw [toNat_sectorNumber, toNat_sectorOffset]
  simp [writePath, chunkStart, moved, written]

lemma ext2Write_eq {bh : UInt32} (hsize : off.toNat + count.toNat < inode.size.toNat)
    (hflags : inode.flags &&& 1 = 0) (hreg : tmp.typePermissions &&& 0xF000 = typeRegFile)
    (htmp : readInode g sectors inode.iNo = .ok (bh, tmp)) (fuel : Nat) :
    ext2Write g sectors fuel inode buff count off =
      writeFinish (writeLoop g buff tmp fuel (writePath g sectors tmp buff count off 0)) := by
  have hlt : ¬ off + count ≥ inode.size := admitted_size hsize
  rw [writePath_zero]
  simp only [ext2Write, strcmp_eq, bind, Except.bind, if_neg hlt, flagsMask_eq, hflags, htmp,
    regular_type hreg, ne_eq, not_true_eq_false, if_false]
  cases writeLoop g buff tmp fuel _ <;> rfl

lemma ext2Write_flags (hsize : off.toNat + count.toNat < inode.size.toNat)
    (hflags : inode.flags &&& 1 ≠ 0) (fuel : Nat) :
    ext2Write g sectors fuel inode buff count off = .ok ⟨-1, off, sectors⟩ := by
  have hlt : ¬ off + count ≥ inode.size := admitted_size hsize
  simp only [ext2Write, strcmp_eq, bind, Except.bind, if_neg hlt, flagsMask_eq, if_pos hflags,
    ne_eq, not_true_eq_false, if_false]

abbrev WriteSettles (g : Geometry) (sectors : Sectors) (tmp : Ext2Inode) (buff : Nat → UInt8)
    (count off : UInt32) (r : Except Fault WriteState) : Prop :=
  Settles (fun fuel => writeLoop g buff tmp fuel (writePath g sectors tmp buff count off 0)) r

lemma writeOutcome_of_settles {bh : UInt32} {r : Except Fault WriteState}
    (hsize : off.toNat + count.toNat < inode.size.toNat) (hflags : inode.flags &&& 1 = 0)
    (hreg : tmp.typePermissions &&& 0xF000 = typeRegFile)
    (htmp : readInode g sectors inode.iNo = .ok (bh, tmp))
    (hr : WriteSettles g sectors tmp buff count off r) :
    (∀ fuel, WriteOutcome g sectors tmp inode bh buff count off
        (ext2Write g sectors fuel inode buff count off)) ↔
      WriteOutcome g sectors tmp inode bh buff count off (writeFinish r) := by
  simp only [ext2Write_eq hsize hflags hreg htmp]
  exact hr.forall_iff
    (P := fun r => WriteOutcome g sectors tmp inode bh buff count off (writeFinish r)) rfl

lemma writePath_end : writeResult (writePath g sectors tmp buff count off (chunks count.toNat)) =
    ⟨count, off + count, written g sectors tmp buff count off (chunks count.toNat)⟩ := by
  simp only [writeResult, writePath, moved_chunks, UInt32.ofNat_toNat]

lemma writeGood_end {bh : UInt32} (hg : BlockSizeShift g k) (hf : AllocatedFile g tmp inode)
    (hsize : off.toNat + count.toNat < inode.size.toNat) (hfit : ChunkFits off count)
    (hright : RightSectors g tmp off count) :
    WriteGood g sectors tmp inode bh buff count off
      (writeResult (writePath g sectors tmp buff count off (chunks count.toNat))) := by
  rw [writePath_end]
  refine ⟨rfl, rfl, ?_, ?_, ?_⟩
  · intro x hx
    exact fileByte_written hg hf hsize hfit hright hx
  · intro p hp hout
    exact fileByte_written_outside hg hf hsize hright hp hout
  · intro s hs
    right
    by_contra hno
    apply hs
    apply written_of_ne
    intro i hi he
    -- the chunk `i` starts with the byte `BLOCK_SIZE * i` of the buffer
    have hx := lt_chunks.mp hi
    have hdiv : (off.toNat + blockSize * i) / g.blockSize.toNat =
        (off.toNat / blockSize + i) / (sectorsPerBlock g).toNat := by
      rw [hg.blockSize_eq, ← Nat.div_div_eq_div_mul, Nat.add_mul_div_left _ _ blockSize_pos]
    refine hno ⟨blockSize * i, hx, (off.toNat / blockSize + i) % (sectorsPerBlock g).toNat,
      Nat.mod_lt _ hg.sectors_pos, ?_⟩
    rw [← he, hright i hi, hdiv, fileSector]

lemma WriteCondition.sufficient (hg : BlockSizeShift g k) (hf : AllocatedFile g tmp inode)
    (hsize : off.toNat + count.toNat < inode.size.toNat)
    (hc : WriteCondition g tmp inode count off) : WritesFile g tmp inode count off := by
  intro sectors bh buff fuel htmp
  have hturn : ∀ j < chunks count.toNat, WriteTurn g sectors tmp buff count off j :=
    fun j hj => hc.runs.turn hj
  have hguard : writeGuard tmp (writePath g sectors tmp buff count off (chunks count.toNat)) = _ :=
    writeGuard_eq hc.runs.record
  by_cases hp : pointer tmp (off.toNat / blockSize + chunks count.toNat) ≠ 0
  · have hr : WriteSettles g sectors tmp buff count off (.error .diverge) :=
      settles_stuck hg.sectors_pos hturn writePath_dead
        (hguard.trans (congrArg Except.ok (decide_eq_true hp)))
    exact (writeOutcome_of_settles hsize hc.flags hf.regular htmp hr).mpr rfl fuel
  · have hr : WriteSettles g sectors tmp buff count off (.ok _) :=
      settles_done hg.sectors_pos hturn writePath_dead
        (hguard.trans (congrArg Except.ok (decide_eq_false hp)))
    refine (writeOutcome_of_settles hsize hc.flags hf.regular htmp hr).mpr ?_ fuel
    exact writeGood_end hg hf hsize hc.runs.fits (hc.ends.resolve_left hp)

/-! ### The condition is needed -/

section Necessary

variable {bh : UInt32}

lemma WritesFile.flags (hsize : off.toNat + count.toNat < inode.size.toNat)
    (htmp : readInode g sectors inode.iNo = .ok (bh, tmp))
    (h : WritesFile g tmp inode count off) : inode.flags &&& 1 = 0 := by
  by_contra hflags
  have hgood := h sectors bh (fun _ => 0) 0 htmp
  rw [ext2Write_flags hsize hflags] at hgood
  exact minus_one_ne_count hsize hgood.ret

lemma WritesFile.outcome (hf : DirectFile g tmp inode)
    (hsize : off.toNat + count.toNat < inode.size.toNat)
    (htmp : readInode g sectors inode.iNo = .ok (bh, tmp)) (h : WritesFile g tmp inode count off)
    (r : Except Fault WriteState) (hr : WriteSettles g sectors tmp buff count off r) :
    WriteOutcome g sectors tmp inode bh buff count off (writeFinish r) :=
  (writeOutcome_of_settles hsize (h.flags hsize htmp) hf.regular htmp hr).mp
    fun fuel => h sectors bh buff fuel htmp

lemma WritesFile.runs (hg : BlockSizeShift g k) (hf : DirectFile g tmp inode)
    (hsize : off.toNat + count.toNat < inode.size.toNat)
    (htmp : readInode g sectors inode.iNo = .ok (bh, tmp)) (h : WritesFile g tmp inode count off) :
    WriteRuns g tmp off count := by
  have hP : ∀ r, WriteSettles g sectors tmp (fun _ => 0) count off r →
      WriteOutcome g sectors tmp inode bh (fun _ => 0) count off (writeFinish r) :=
    h.outcome hf hsize htmp
  have hturns : ∀ j < chunks count.toNat, WriteTurn g sectors tmp (fun _ => 0) count off j := by
    apply turns_of_settled hg.sectors_pos hP
    · intro j hj hgood
      exact ofNat_moved_ne hj hgood.ret
    · intro e he hout
      exact he hout
    · exact fun j hj => writePath_live hj
    · exact fun j _ => writeGuard_ne_diverge _
    · intro j hj
      by_cases hr : ChunkRuns off count j
      · exact .inl (writeStep_ok hj hr)
      · exact .inr ⟨.outOfBounds, by simp, writeStep_error hj hr⟩
  have hruns : ∀ j < chunks count.toNat, ChunkRuns off count j :=
    fun j hj => chunkRuns_of_turn hj (hturns j hj)
  refine ⟨chunkFits_iff.mpr fun j hj => (hruns j hj).fits, ?_, ?_⟩
  · intro j hj hz
    have hguard := (hturns j hj).guard hz
    rw [writeGuard_eq (hruns j hj).record] at hguard
    exact of_decide_eq_true (Except.ok.inj hguard)
  · by_contra hout
    have hbad := hP _ (settles_dead_error hg.sectors_pos hturns writePath_dead
      (writeGuard_outside (Nat.le_of_not_lt hout)))
    cases hbad

/-- A buffer with one byte that is not zero shows where a chunk has gone astray. -/
lemma WritesFile.rightSectors (hg : BlockSizeShift g k) (hf : DirectFile g tmp inode)
    (hsize : off.toNat + count.toNat < inode.size.toNat) (hapart : Apart g sectors inode tmp)
    (h : WritesFile g tmp inode count off)
    (hp : ¬ pointer tmp (off.toNat / blockSize + chunks count.toNat) ≠ 0) :
    RightSectors g tmp off count := by
  obtain ⟨bh, htmp, hbh⟩ := hapart.holds
  have hruns := h.runs hg hf hsize htmp
  intro j hj
  by_contra hne
  have hown := ownSector_fileSector hg hf (sector_lt_size hsize hj)
  have hx : blockSize * j < count.toNat := lt_chunks.mp hj
  have hdiv : blockSize * j / blockSize = j := Nat.mul_div_cancel_left j blockSize_pos
  let mark : Nat → UInt8 := fun x => if x = blockSize * j then 1 else 0
  let other := Function.update sectors (fileSector g tmp (off.toNat / blockSize + j)) fun _ => 0
  have htmp' : readInode g other inode.iNo = .ok (bh, tmp) :=
    readInode_update _ htmp (hbh _ hown) (hapart.table _ hown)
  have hguard : writeGuard tmp (writePath g other tmp mark count off (chunks count.toNat)) = _ :=
    writeGuard_eq hruns.record
  have hr : WriteSettles g other tmp mark count off (.ok _) :=
    settles_done hg.sectors_pos (fun i hi => hruns.turn hi) writePath_dead
      (hguard.trans (congrArg Except.ok (decide_eq_false hp)))
  have hgood : WriteGood g other tmp inode bh mark count off (writeResult _) :=
    h.outcome hf hsize htmp' _ hr
  rw [writePath_end] at hgood
  have hbyte := hgood.range (blockSize * j) hx
  have hmark : ∀ x, mark x ≠ 0 → x = blockSize * j := by
    intro x hx
    by_contra hno
    exact hx (if_neg hno)
  have hzero : ∀ b, other (fileSector g tmp (off.toNat / blockSize + j)) b = 0 := by
    intro b
    simp only [other, Function.update_self]
  rw [fileByte_eq hg, (file_place hruns.fits hx).1, hdiv] at hbyte
  dsimp only at hbyte
  rw [written_astray hmark hne (hzero _) (Nat.le_refl _)] at hbyte
  simp [mark] at hbyte

end Necessary

/-- On every disk that holds the inode and for every buffer, a call of `ext2_write` that
returns has written the range and nothing else if the condition holds, and only if it does
where the file's sectors are its own. -/
theorem ext2_write_stores (hg : BlockSizeShift g k) (hf : AllocatedFile g tmp inode)
    (hsize : off.toNat + count.toNat < inode.size.toNat) :
    (WriteCondition g tmp inode count off → WritesFile g tmp inode count off) ∧
      ∀ sectors, Apart g sectors inode tmp →
        (WritesFile g tmp inode count off ↔ WriteCondition g tmp inode count off) := by
  have hsuff : WriteCondition g tmp inode count off → WritesFile g tmp inode count off :=
    WriteCondition.sufficient hg hf hsize
  refine ⟨hsuff, ?_⟩
  intro sectors hapart
  constructor
  · intro h
    obtain ⟨bh, htmp, -⟩ := hapart.holds
    refine ⟨h.flags hsize htmp, h.runs hg hf.toDirectFile hsize htmp, ?_⟩
    by_cases hp : pointer tmp (off.toNat / blockSize + chunks count.toNat) ≠ 0
    · exact .inl hp
    · exact .inr (h.rightSectors hg hf.toDirectFile hsize hapart hp)
  · exact hsuff

lemma smallFile_allocated : AllocatedFile smallGeometry smallRecord smallFile where
  toDirectFile := smallFile_direct
  distinct := by
    intro s t hs ht
    have hs' : s * 512 < 1000 := hs
    have ht' : t * 512 < 1000 := ht
    obtain rfl | rfl : s = 0 ∨ s = 1 := by omega
    all_goals
      obtain rfl | rfl : t = 0 ∨ t = 1 := by omega
      all_goals decide

lemma smallFile_writeCondition : WriteCondition smallGeometry smallRecord smallFile 1 0 where
  flags := by decide
  runs := by
    refine ⟨by unfold ChunkFits; decide, ?_, ?_⟩
    · decide
    · decide
  ends := by
    right
    unfold RightSectors
    decide

/-- The first byte of a small file. -/
theorem ext2_write_first_byte :
    WritesFile smallGeometry smallRecord smallFile 1 0 ∧
      (WritesFile smallGeometry smallRecord smallFile 1 0 ↔
        WriteCondition smallGeometry smallRecord smallFile 1 0) := by
  have h := ext2_write_stores smallGeometry_shift smallFile_allocated
    (by decide : (0 : UInt32).toNat + (1 : UInt32).toNat < smallFile.size.toNat)
  exact ⟨h.1 smallFile_writeCondition, h.2 smallDisk smallDisk_apart⟩

/-- A byte for the second sector of a small file: the entry of `direct_block` after the only
used one is taken, and nothing is written. -/
theorem ext2_write_second_sector_fails :
    ext2Write smallGeometry smallDisk 1 smallFile (fun _ => 7) 1 512 = .ok ⟨0, 512, smallDisk⟩ ∧
      ¬ ∀ g k tmp inode count off, BlockSizeShift g k → AllocatedFile g tmp inode →
        off.toNat + count.toNat < inode.size.toNat → WritesFile g tmp inode count off := by
  have hwrite : ext2Write smallGeometry smallDisk 1 smallFile (fun _ => 7) 1 512 =
      .ok ⟨0, 512, smallDisk⟩ := by
    rw [ext2Write_eq (by decide) (by decide) smallFile_direct.regular smallDisk_holds]
    rfl
  refine ⟨hwrite, ?_⟩
  intro hall
  have hgood := hall smallGeometry 0 smallRecord smallFile 1 512 smallGeometry_shift
    smallFile_allocated (by decide) smallDisk 10 (fun _ => 7) 1 smallDisk_holds
  rw [hwrite] at hgood
  exact absurd hgood.ret (by decide)

end SaxonOS.Proofs
