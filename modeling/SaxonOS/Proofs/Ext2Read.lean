import SaxonOS.Proofs.Ext2Transfer

/-!
# Reading a file

`ext2_read` is followed chunk by chunk. It delivers the file's bytes on exactly those calls
that get through all their chunks and take each from the right sector, apart from the calls
that get through and then never leave the outer loop.
-/

namespace SaxonOS.Proofs
open SaxonOS Lib

variable {g : Geometry} {k : Nat} {tmp : Ext2Inode} {inode : Inode} {sectors : Sectors}
  {count off : UInt32}

/-- The byte that the code stores at the place `x` of the buffer. -/
def readByte (g : Geometry) (sectors : Sectors) (tmp : Ext2Inode) (off : UInt32) (x : Nat) :
    UInt8 :=
  sectors (chunkSector g tmp (off.toNat / blockSize) (x / blockSize))
    ⟨(chunkStart (off.toNat % blockSize) (x / blockSize) + x % blockSize) % blockSize,
      Nat.mod_lt _ blockSize_pos⟩

/-- The state of `ext2_read` after `j` chunks. -/
def readPath (g : Geometry) (sectors : Sectors) (tmp : Ext2Inode) (count off : UInt32) (j : Nat) :
    ReadState where
  i := off.toNat / blockSize + j
  offset := chunkStart (off.toNat % blockSize) j
  count := count.toNat - blockSize * j
  off := off + UInt32.ofNat (moved count.toNat j)
  read := UInt32.ofNat (moved count.toNat j)
  buff := (List.range (moved count.toNat j)).map (readByte g sectors tmp off)
  got := (List.range j).map (chunkSector g tmp (off.toNat / blockSize))

/-- Every chunk of a read gets its turn. -/
structure ReadRuns (g : Geometry) (tmp : Ext2Inode) (off count : UInt32) : Prop where
  fits : ChunkFits off count
  blocks : ∀ j < chunks count.toNat, j % (sectorsPerBlock g).toNat = 0 →
    off.toNat / blockSize + j < 12 ∧ pointer tmp (off.toNat / blockSize + j) ≠ 0
  record : ∀ j < chunks count.toNat, off.toNat / blockSize + j < 22

lemma readGuard_true {st : ReadState} (hi : st.i < 12) (hp : pointer tmp st.i ≠ 0) :
    readGuard tmp st = .ok true := by
  simp [readGuard, hi, directBlock_ok tmp (by omega : st.i < 22), bind, Except.bind, hp]

lemma readGuard_false {st : ReadState} (h : ¬ (st.i < 12 ∧ pointer tmp st.i ≠ 0)) :
    readGuard tmp st = .ok false := by
  by_cases hi : st.i < 12
  · have hp : pointer tmp st.i = 0 := by simpa [hi] using h
    simp [readGuard, hi, directBlock_ok tmp (by omega : st.i < 22), bind, Except.bind, hp]
  · simp [readGuard, hi]

lemma readChars_chunk {j : Nat} (hj : j < chunks count.toNat)
    (hr : ChunkRuns off count j) :
    readChars (sectors (chunkSector g tmp (off.toNat / blockSize) j))
        (chunk (count.toNat - blockSize * j)) (chunkStart (off.toNat % blockSize) j) =
      .ok ((List.range (chunk (count.toNat - blockSize * j))).map fun x =>
        readByte g sectors tmp off (moved count.toNat j + x)) := by
  rw [readChars_ok _ _ _ hr.fits]
  congr 1
  apply List.map_congr_left
  intro x hx
  have hlt : x < blockSize := by
    rw [List.mem_range, chunk_eq_min] at hx
    omega
  have hdiv : (moved count.toNat j + x) / blockSize = j := by
    rw [moved_of_lt hj, Nat.mul_add_div blockSize_pos, Nat.div_eq_of_lt hlt, Nat.add_zero]
  have hmod : (moved count.toNat j + x) % blockSize = x := by
    rw [moved_of_lt hj, Nat.mul_add_mod, Nat.mod_eq_of_lt hlt]
  simp only [readByte, hdiv, hmod]

lemma readStep_ok {j : Nat} (hj : j < chunks count.toNat) (hr : ChunkRuns off count j) :
    readStep g sectors tmp (j % (sectorsPerBlock g).toNat) (readPath g sectors tmp count off j) =
      .ok (readPath g sectors tmp count off (j + 1)) := by
  have hchars : readChars (sectors (addrOfBlock g (pointer tmp (off.toNat / blockSize + j)) +
      UInt32.ofNat (j % (sectorsPerBlock g).toNat))) (chunk (count.toNat - blockSize * j))
      (chunkStart (off.toNat % blockSize) j) = _ := readChars_chunk hj hr
  simp only [readStep, readPath, directBlock_ok tmp hr.record, bind, Except.bind, hchars,
    count_next, moved_succ hj, UInt32.ofNat_add, ← UInt32.add_assoc, List.range_add, List.map_append,
    List.map_map, List.range_succ, List.map_cons, List.map_nil, Nat.add_assoc,
    chunkStart_succ, chunkSector, Function.comp_def]

lemma readStep_error {j : Nat} (hj : j < chunks count.toNat) (hbad : ¬ ChunkRuns off count j) :
    readStep g sectors tmp (j % (sectorsPerBlock g).toNat) (readPath g sectors tmp count off j) =
      .error .outOfBounds := by
  by_cases hrec : off.toNat / blockSize + j < 22
  · have hfit : blockSize < chunkStart (off.toNat % blockSize) j +
        chunk (count.toNat - blockSize * j) := Nat.lt_of_not_le fun hle => hbad ⟨hrec, hle⟩
    have hover := readChars_overrun (sectors (addrOfBlock g (pointer tmp
      (off.toNat / blockSize + j)) + UInt32.ofNat (j % (sectorsPerBlock g).toNat)))
      (chunk (count.toNat - blockSize * j)) (chunkStart (off.toNat % blockSize) j)
      (chunk_pos_of_lt hj) hfit
    simp only [readStep, readPath, directBlock_ok tmp hrec, bind, Except.bind, hover]
  · simp only [readStep, readPath, directBlock_outside tmp (Nat.le_of_not_lt hrec), bind,
      Except.bind]

/-- The `Turn` of one chunk: the guard where a block starts, and the body. -/
abbrev ReadTurn (g : Geometry) (sectors : Sectors) (tmp : Ext2Inode) (count off : UInt32)
    (j : Nat) : Prop :=
  Turn (readGuard tmp) (fun st => decide (st.count > 0)) (readStep g sectors tmp)
    (sectorsPerBlock g).toNat (readPath g sectors tmp count off) j

lemma readPath_live {j : Nat} (hj : j < chunks count.toNat) :
    decide ((readPath g sectors tmp count off j).count > 0) = true := by
  apply decide_eq_true
  exact Nat.sub_pos_of_lt (lt_chunks.mp hj)

lemma readPath_dead :
    decide ((readPath g sectors tmp count off (chunks count.toNat)).count > 0) = false := by
  apply decide_eq_false
  exact chunks_over count.toNat

lemma ReadRuns.turn (hr : ReadRuns g tmp off count) {j : Nat} (hj : j < chunks count.toNat) :
    ReadTurn g sectors tmp count off j where
  guard := fun hz => readGuard_true (hr.blocks j hj hz).1 (hr.blocks j hj hz).2
  live := readPath_live hj
  body := readStep_ok hj ⟨hr.record j hj, chunkStart_fits hr.fits⟩

lemma readRuns_of_turns (h : ∀ j < chunks count.toNat, ReadTurn g sectors tmp count off j) :
    ReadRuns g tmp off count := by
  have hruns : ∀ j < chunks count.toNat, ChunkRuns off count j := by
    intro j hj
    by_contra hbad
    have hbody := (h j hj).body
    rw [readStep_error hj hbad] at hbody
    cases hbody
  refine ⟨chunkFits_iff.mpr fun j hj => (hruns j hj).fits, ?_, fun j hj => (hruns j hj).record⟩
  intro j hj hz
  by_contra hno
  have hguard := (h j hj).guard hz
  rw [readGuard_false hno] at hguard
  cases hguard

/-- What a returning call has done: it delivers the file's bytes. -/
structure ReadGood (g : Geometry) (sectors : Sectors) (tmp : Ext2Inode) (count off : UInt32)
    (r : ReadResult) : Prop where
  ret : r.ret = count
  advanced : r.off = off + count
  buff : r.buff = (List.range count.toNat).map fun x => fileByte g sectors tmp (off.toNat + x)
  own : ∀ s ∈ r.got, OwnSector g tmp s

/-- Good or still running: a call may only fail to return. -/
def ReadOutcome (g : Geometry) (sectors : Sectors) (tmp : Ext2Inode) (count off : UInt32) :
    Except Fault ReadResult → Prop
  | .ok r => ReadGood g sectors tmp count off r
  | .error e => e = .diverge

/-- Every call of `ext2_read` that returns delivers the file's bytes, on every disk that holds
this inode. -/
def ReadsFile (g : Geometry) (tmp : Ext2Inode) (inode : Inode) (count off : UInt32) : Prop :=
  ∀ sectors bh fuel, readInode g sectors inode.iNo = .ok (bh, tmp) →
    ReadOutcome g sectors tmp count off (ext2Read g sectors fuel inode count off)

/-- The condition under which `ext2_read` is right. -/
structure ReadCondition (g : Geometry) (tmp : Ext2Inode) (inode : Inode) (count off : UInt32) :
    Prop where
  flags : inode.flags &&& 1 = 0
  runs : ReadRuns g tmp off count
  ends : (off.toNat / blockSize + chunks count.toNat < 12 ∧
    pointer tmp (off.toNat / blockSize + chunks count.toNat) ≠ 0) ∨ RightSectors g tmp off count

def readResult (st : ReadState) : ReadResult := ⟨st.read, st.off, st.buff, st.got⟩

def readFinish (r : Except Fault ReadState) : Except Fault ReadResult := r.map readResult

lemma readPath_zero : readPath g sectors tmp count off 0 =
    ⟨(off / UInt32.ofNat blockSize).toNat, (off % UInt32.ofNat blockSize).toNat, count.toNat,
      off, 0, [], []⟩ := by
  rw [toNat_sectorNumber, toNat_sectorOffset]
  simp [readPath, chunkStart, moved]

lemma ext2Read_eq {bh : UInt32} (hsize : off.toNat + count.toNat < inode.size.toNat)
    (hflags : inode.flags &&& 1 = 0) (hreg : tmp.typePermissions &&& 0xF000 = typeRegFile)
    (htmp : readInode g sectors inode.iNo = .ok (bh, tmp)) (fuel : Nat) :
    ext2Read g sectors fuel inode count off =
      readFinish (readLoop g sectors tmp fuel (readPath g sectors tmp count off 0)) := by
  have hlt : ¬ off + count ≥ inode.size := admitted_size hsize
  rw [readPath_zero]
  simp only [ext2Read, strcmp_eq, bind, Except.bind, if_neg hlt, flagsMask_eq, hflags, htmp,
    regular_type hreg, ne_eq, not_true_eq_false, if_false]
  cases readLoop g sectors tmp fuel _ <;> rfl

lemma ext2Read_flags (hsize : off.toNat + count.toNat < inode.size.toNat)
    (hflags : inode.flags &&& 1 ≠ 0) (fuel : Nat) :
    ext2Read g sectors fuel inode count off = .ok ⟨-1, off, [], []⟩ := by
  have hlt : ¬ off + count ≥ inode.size := admitted_size hsize
  simp only [ext2Read, strcmp_eq, bind, Except.bind, if_neg hlt, flagsMask_eq, if_pos hflags, ne_eq,
    not_true_eq_false, if_false]

abbrev ReadSettles (g : Geometry) (sectors : Sectors) (tmp : Ext2Inode) (count off : UInt32)
    (r : Except Fault ReadState) : Prop :=
  Settles (fun fuel => readLoop g sectors tmp fuel (readPath g sectors tmp count off 0)) r

/-- What the loop settles to decides the call. -/
lemma readOutcome_of_settles {bh : UInt32} {r : Except Fault ReadState}
    (hsize : off.toNat + count.toNat < inode.size.toNat) (hflags : inode.flags &&& 1 = 0)
    (hreg : tmp.typePermissions &&& 0xF000 = typeRegFile)
    (htmp : readInode g sectors inode.iNo = .ok (bh, tmp))
    (hr : ReadSettles g sectors tmp count off r) :
    (∀ fuel, ReadOutcome g sectors tmp count off (ext2Read g sectors fuel inode count off)) ↔
      ReadOutcome g sectors tmp count off (readFinish r) := by
  simp only [ext2Read_eq hsize hflags hreg htmp]
  exact hr.forall_iff (P := fun r => ReadOutcome g sectors tmp count off (readFinish r)) rfl

lemma readPath_end : readResult (readPath g sectors tmp count off (chunks count.toNat)) =
    ⟨count, off + count, (List.range count.toNat).map (readByte g sectors tmp off),
      (List.range (chunks count.toNat)).map (chunkSector g tmp (off.toNat / blockSize))⟩ := by
  simp only [readResult, readPath, moved_chunks, UInt32.ofNat_toNat]

/-- Byte `x` of the buffer against the byte of the file. -/
lemma readByte_eq (hg : BlockSizeShift g k) (hfit : ChunkFits off count) {x : Nat}
    (hx : x < count.toNat) (hs : chunkSector g tmp (off.toNat / blockSize) (x / blockSize) =
      fileSector g tmp (off.toNat / blockSize + x / blockSize)) :
    readByte g sectors tmp off x = fileByte g sectors tmp (off.toNat + x) := by
  obtain ⟨hdiv, hmod⟩ := file_place hfit hx
  have hlt : (off.toNat + x) % blockSize < blockSize := Nat.mod_lt _ blockSize_pos
  rw [hmod] at hlt
  rw [fileByte_eq hg, readByte, hs]
  simp only [hdiv, hmod, Nat.mod_eq_of_lt hlt]

lemma readGood_end (hg : BlockSizeShift g k) (hf : DirectFile g tmp inode)
    (hsize : off.toNat + count.toNat < inode.size.toNat) (hfit : ChunkFits off count)
    (hright : RightSectors g tmp off count) :
    ReadGood g sectors tmp count off
      (readResult (readPath g sectors tmp count off (chunks count.toNat))) := by
  rw [readPath_end]
  refine ⟨rfl, rfl, ?_, ?_⟩
  · apply List.map_congr_left
    intro x hx
    rw [List.mem_range] at hx
    exact readByte_eq hg hfit hx (hright _ (div_lt_chunks hx))
  · intro s hs
    obtain ⟨j, hj, rfl⟩ := List.mem_map.mp hs
    rw [List.mem_range] at hj
    rw [hright j hj]
    exact ownSector_fileSector hg hf (sector_lt_size hsize hj)

lemma ReadCondition.sufficient (hg : BlockSizeShift g k) (hf : DirectFile g tmp inode)
    (hsize : off.toNat + count.toNat < inode.size.toNat)
    (hc : ReadCondition g tmp inode count off) : ReadsFile g tmp inode count off := by
  intro sectors bh fuel htmp
  have hturn : ∀ j < chunks count.toNat, ReadTurn g sectors tmp count off j :=
    fun j hj => hc.runs.turn hj
  by_cases hguard : off.toNat / blockSize + chunks count.toNat < 12 ∧
      pointer tmp (off.toNat / blockSize + chunks count.toNat) ≠ 0
  · have hr : ReadSettles g sectors tmp count off (.error .diverge) :=
      settles_stuck hg.sectors_pos hturn readPath_dead (readGuard_true hguard.1 hguard.2)
    exact (readOutcome_of_settles hsize hc.flags hf.regular htmp hr).mpr rfl fuel
  · have hr : ReadSettles g sectors tmp count off (.ok _) :=
      settles_done hg.sectors_pos hturn readPath_dead (readGuard_false hguard)
    refine (readOutcome_of_settles hsize hc.flags hf.regular htmp hr).mpr ?_ fuel
    exact readGood_end hg hf hsize hc.runs.fits (hc.ends.resolve_left hguard)

section Necessary

variable {bh : UInt32}

lemma ReadsFile.flags (hsize : off.toNat + count.toNat < inode.size.toNat)
    (htmp : readInode g sectors inode.iNo = .ok (bh, tmp))
    (h : ReadsFile g tmp inode count off) : inode.flags &&& 1 = 0 := by
  by_contra hflags
  have hgood := h sectors bh 0 htmp
  rw [ext2Read_flags hsize hflags] at hgood
  exact minus_one_ne_count hsize hgood.ret

lemma ReadsFile.outcome (hf : DirectFile g tmp inode)
    (hsize : off.toNat + count.toNat < inode.size.toNat)
    (htmp : readInode g sectors inode.iNo = .ok (bh, tmp)) (h : ReadsFile g tmp inode count off)
    (r : Except Fault ReadState) (hr : ReadSettles g sectors tmp count off r) :
    ReadOutcome g sectors tmp count off (readFinish r) :=
  (readOutcome_of_settles hsize (h.flags hsize htmp) hf.regular htmp hr).mp
    fun fuel => h sectors bh fuel htmp

lemma ReadsFile.runs (hg : BlockSizeShift g k) (hf : DirectFile g tmp inode)
    (hsize : off.toNat + count.toNat < inode.size.toNat)
    (htmp : readInode g sectors inode.iNo = .ok (bh, tmp)) (h : ReadsFile g tmp inode count off) :
    ReadRuns g tmp off count := by
  have hturns : ∀ j < chunks count.toNat, ReadTurn g sectors tmp count off j := by
    apply turns_of_settled hg.sectors_pos (h.outcome hf hsize htmp)
    · intro j hj hgood
      exact ofNat_moved_ne hj hgood.ret
    · intro e he hout
      exact he hout
    · exact fun j hj => readPath_live hj
    · intro j _
      by_cases hno : (readPath g sectors tmp count off j).i < 12 ∧
          pointer tmp (readPath g sectors tmp count off j).i ≠ 0
      · simp [readGuard_true hno.1 hno.2]
      · simp [readGuard_false hno]
    · intro j hj
      by_cases hr : ChunkRuns off count j
      · exact .inl (readStep_ok hj hr)
      · exact .inr ⟨.outOfBounds, by simp, readStep_error hj hr⟩
  exact readRuns_of_turns hturns

/-- A call that takes a chunk from a wrong sector does not notice when the right one changes. -/
lemma ReadsFile.rightSectors (hg : BlockSizeShift g k) (hf : DirectFile g tmp inode)
    (hsize : off.toNat + count.toNat < inode.size.toNat) (hapart : Apart g sectors inode tmp)
    (h : ReadsFile g tmp inode count off)
    (hguard : ¬ (off.toNat / blockSize + chunks count.toNat < 12 ∧
      pointer tmp (off.toNat / blockSize + chunks count.toNat) ≠ 0)) :
    RightSectors g tmp off count := by
  obtain ⟨bh, htmp, hbh⟩ := hapart.holds
  have hruns := h.runs hg hf hsize htmp
  intro j hj
  by_contra hne
  have hown := ownSector_fileSector hg hf (sector_lt_size hsize hj)
  have hx : blockSize * j < count.toNat := lt_chunks.mp hj
  have hdiv : blockSize * j / blockSize = j := Nat.mul_div_cancel_left j blockSize_pos
  let value := readByte g sectors tmp off (blockSize * j) + 1
  let other := Function.update sectors (fileSector g tmp (off.toNat / blockSize + j))
    fun _ => value
  have htmp' : readInode g other inode.iNo = .ok (bh, tmp) :=
    readInode_update _ htmp (hbh _ hown) (hapart.table _ hown)
  have hr : ReadSettles g other tmp count off (.ok _) :=
    settles_done hg.sectors_pos (fun i hi => hruns.turn hi) readPath_dead
      (readGuard_false hguard)
  have hgood : ReadGood g other tmp count off (readResult _) := h.outcome hf hsize htmp' _ hr
  rw [readPath_end] at hgood
  have hbyte := List.map_inj_left.mp hgood.buff (blockSize * j) (List.mem_range.mpr hx)
  have hkept : readByte g other tmp off (blockSize * j) =
      readByte g sectors tmp off (blockSize * j) := by
    simp only [readByte, hdiv, other]
    rw [Function.update_of_ne hne]
  have hfile : fileByte g other tmp (off.toNat + blockSize * j) = value := by
    rw [fileByte_eq hg, (file_place hruns.fits hx).1, hdiv]
    simp only [other, Function.update_self]
  rw [hkept, hfile] at hbyte
  simp [value] at hbyte

end Necessary

/-- On every disk that holds the inode, a call of `ext2_read` that returns delivers the file's
bytes if the condition holds, and only if it does where the file's sectors are its own. -/
theorem ext2_read_delivers (hg : BlockSizeShift g k) (hf : DirectFile g tmp inode)
    (hsize : off.toNat + count.toNat < inode.size.toNat) :
    (ReadCondition g tmp inode count off → ReadsFile g tmp inode count off) ∧
      ∀ sectors, Apart g sectors inode tmp →
        (ReadsFile g tmp inode count off ↔ ReadCondition g tmp inode count off) := by
  have hsuff : ReadCondition g tmp inode count off → ReadsFile g tmp inode count off :=
    ReadCondition.sufficient hg hf hsize
  refine ⟨hsuff, ?_⟩
  intro sectors hapart
  constructor
  · intro h
    obtain ⟨bh, htmp, -⟩ := hapart.holds
    refine ⟨h.flags hsize htmp, h.runs hg hf hsize htmp, ?_⟩
    by_cases hguard : off.toNat / blockSize + chunks count.toNat < 12 ∧
        pointer tmp (off.toNat / blockSize + chunks count.toNat) ≠ 0
    · exact .inl hguard
    · exact .inr (h.rightSectors hg hf hsize hapart hguard)
  · exact hsuff

lemma smallFile_readCondition : ReadCondition smallGeometry smallRecord smallFile 1 0 where
  flags := by decide
  runs := by
    refine ⟨by unfold ChunkFits; decide, ?_, ?_⟩
    · decide
    · decide
  ends := by
    right
    unfold RightSectors
    decide

/-- The first byte of a small file. -/
theorem ext2_read_first_byte :
    ReadsFile smallGeometry smallRecord smallFile 1 0 ∧
      (ReadsFile smallGeometry smallRecord smallFile 1 0 ↔
        ReadCondition smallGeometry smallRecord smallFile 1 0) := by
  have h := ext2_read_delivers smallGeometry_shift smallFile_direct
    (by decide : (0 : UInt32).toNat + (1 : UInt32).toNat < smallFile.size.toNat)
  exact ⟨h.1 smallFile_readCondition, h.2 smallDisk smallDisk_apart⟩

/-- A byte of the second sector of a small file: the entry of `direct_block` after the only
used one is taken, and nothing is read. -/
theorem ext2_read_second_sector_fails :
    ext2Read smallGeometry smallDisk 1 smallFile 1 512 = .ok ⟨0, 512, [], []⟩ ∧
      ¬ ∀ g k tmp inode count off, BlockSizeShift g k → DirectFile g tmp inode →
        off.toNat + count.toNat < inode.size.toNat → ReadsFile g tmp inode count off := by
  have hread : ext2Read smallGeometry smallDisk 1 smallFile 1 512 = .ok ⟨0, 512, [], []⟩ := by
    rw [ext2Read_eq (by decide) (by decide) smallFile_direct.regular smallDisk_holds]
    decide +kernel
  refine ⟨hread, ?_⟩
  intro hall
  have hgood := hall smallGeometry 0 smallRecord smallFile 1 512 smallGeometry_shift
    smallFile_direct (by decide) smallDisk 10 1 smallDisk_holds
  rw [hread] at hgood
  exact absurd hgood.ret (by decide)

end SaxonOS.Proofs
