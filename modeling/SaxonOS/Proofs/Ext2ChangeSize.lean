import SaxonOS.Proofs.Ext2Inode
import SaxonOS.Proofs.Ext2Superblock

/-!
# Changing the size of a file

`change_file_size` writes the size into the record that `REAL_INODE_BLOCK` names. That is the
record that `read_inode` reads for the inodes in the first block of a table and for no others.
-/

namespace SaxonOS.Proofs
open SaxonOS Lib

/-- The sector that `read_inode` gets for an inode of a table. -/
def inodeBlock (g : Geometry) (table ino : UInt32) : UInt32 :=
  addrOfBlock g (table + (ino - 1) % g.inodesPerGroup * g.inodeSize / g.blockSize) +
    g.inodeSize * ((ino - 1) % g.inodesPerGroup % g.inodesPerBlock) / UInt32.ofNat blockSize

/-- Where `read_inode` finds a record: the sector and the place in it. -/
def inodeLocation (g : Geometry) (sectors : Sectors) (ino : UInt32) :
    Except Fault (UInt32 × UInt32) := do
  let table ← bgdtInodeTable g sectors (bgOfInode g ino)
  .ok (inodeBlock g table ino, inodeOffset g ino)

/-- The other record has another size and no other byte has changed. -/
structure SizeChanged (size : UInt32) (record record' : Ext2Inode) : Prop where
  sizeLow : record'.sizeLow = size
  others : ∀ i : Fin 128, i.val < 4 ∨ 8 ≤ i.val → record' i = record i

/-- `change_file_size` works on the record that `read_inode` reads: it sets the size of this
inode and leaves the other inodes up to `inodeCount` alone. -/
structure UpdatesInode (g : Geometry) (sectors : Sectors) (inodeCount ino : UInt32) : Prop where
  sector : ∀ table, bgdtInodeTable g sectors (bgOfInode g ino) = .ok table →
    realInodeBlock g table ino = inodeBlock g table ino
  reads : ∀ size, ∃ sectors' block record record',
    changeFileSize g sectors ino size = .ok sectors' ∧
    readInode g sectors ino = .ok (block, record) ∧
    readInode g sectors' ino = .ok (block, record') ∧ SizeChanged size record record' ∧
    ∀ ino' : UInt32, 1 ≤ ino'.toNat → ino' ≤ inodeCount → ino' ≠ ino →
      readInode g sectors' ino' = readInode g sectors ino'

/-- The record is in the first block of its table, and no other inode has the same one. -/
structure FirstBlock (g : Geometry) (sectors : Sectors) (inodeCount ino : UInt32) : Prop where
  first : (ino - 1) % g.inodesPerGroup * g.inodeSize < g.blockSize
  alone : ∀ ino' : UInt32, 1 ≤ ino'.toNat → ino' ≤ inodeCount → ino' ≠ ino →
    inodeLocation g sectors ino' ≠ inodeLocation g sectors ino

section Places

variable {g : Geometry} (hg : RecordGeometry g)
include hg

lemma RecordGeometry.sectors_ge : 2 ≤ (sectorsPerBlock g).toNat := by
  obtain ⟨k, -, hk⟩ := hg.shift
  have hpos : 1 ≤ 2 ^ k := Nat.one_le_two_pow
  rw [hk.sectors_eq]
  omega

lemma RecordGeometry.divisors (hi : g.inodesPerGroup ≠ 0) :
    ¬(g.inodesPerGroup = 0 ∨ g.blockSize = 0 ∨ g.inodesPerBlock = 0) := by
  have hle := hg.inodeSize_le
  have h128 := hg.le_inodeSize
  exact divisors_ne_zero (by omega) hg.inodesPerBlock_pos ((one_le_iff_ne_zero _).mpr hi)

lemma RecordGeometry.place_toNat (x : UInt32) : (g.inodeSize * (x % g.inodesPerBlock)).toNat =
    g.inodeSize.toNat * (x.toNat % g.inodesPerBlock.toNat) := by
  have hlt := hg.place_lt x.toNat
  have hblock := hg.blockSize_le
  rw [UInt32.toNat_mul, UInt32.toNat_mod, Nat.mod_eq_of_lt (by omega)]

/-- Records start at multiples of 128 bytes of a sector. -/
lemma RecordGeometry.offset_dvd (ino : UInt32) : 128 ∣ (inodeOffset g ino).toNat := by
  have hsize : (UInt32.ofNat blockSize).toNat = 128 * 4 := rfl
  obtain ⟨c, hc⟩ := hg.dvd_inodeSize
  rw [inodeOffset, UInt32.toNat_mod, hg.place_toNat, hsize, hc, Nat.mul_assoc,
    Nat.mul_mod_mul_left]
  exact Nat.dvd_mul_right _ _

lemma RecordGeometry.offset_fits (ino : UInt32) : (inodeOffset g ino).toNat + 128 ≤ blockSize := by
  have hdvd := hg.offset_dvd ino
  have hlt : (inodeOffset g ino).toNat < 512 := by
    rw [inodeOffset, UInt32.toNat_mod]
    exact Nat.mod_lt _ (by decide)
  simp only [blockSize]
  omega

/-- The two macros agree exactly in the first block of a table. -/
lemma RecordGeometry.realInodeBlock_iff (table ino : UInt32) :
    realInodeBlock g table ino = inodeBlock g table ino ↔
      (ino - 1) % g.inodesPerGroup * g.inodeSize < g.blockSize := by
  have hle := hg.inodeSize_le
  have h128 := hg.le_inodeSize
  have hge := hg.sectors_ge
  have hsec := hg.sectors_eq
  have hx := ((ino - 1) % g.inodesPerGroup * g.inodeSize).toNat_lt
  rw [realInodeBlock, inodeBlock, addrOfBlock, UInt32.add_left_inj, UInt32.mul_add,
    UInt32.add_right_inj, UInt32.lt_iff_toNat_lt, ← UInt32.toNat_inj, UInt32.toNat_mul,
    UInt32.toNat_div]
  generalize ((ino - 1) % g.inodesPerGroup * g.inodeSize).toNat = x at hx ⊢
  -- The blocks before the record, counted in sectors, do not wrap.
  have hsmall : (sectorsPerBlock g).toNat * (x / g.blockSize.toNat) ≤ x := by
    calc (sectorsPerBlock g).toNat * (x / g.blockSize.toNat)
        ≤ g.blockSize.toNat * (x / g.blockSize.toNat) := by
          refine Nat.mul_le_mul_right _ ?_
          rw [hsec]
          exact Nat.le_mul_of_pos_left _ blockSize_pos
      _ ≤ x := Nat.mul_div_le x _
  rw [Nat.mod_eq_of_lt (by omega), ← Nat.div_eq_zero_iff_lt (by omega)]
  constructor
  · intro heq
    have hmul := Nat.mul_le_mul_right (x / g.blockSize.toNat) hge
    omega
  · intro hz
    rw [hz, Nat.mul_zero]

end Places

section Records

variable {g : Geometry} {sectors sectors' : Sectors} {ino ino' size block offset : UInt32}

/-- The record at the place `offset` of a payload, which it does not leave. -/
def recordAt (payload : Payload) (offset : Nat) : Ext2Inode := fun i =>
  if h : i.val + offset < blockSize then payload ⟨i.val + offset, h⟩ else 0

lemma copyInode_eq_recordAt (payload : Payload) {offset : Nat} (h : offset + 128 ≤ blockSize) :
    copyInode payload offset = .ok (recordAt payload offset) := by
  rw [copyInode, dif_pos h]
  congr 1
  funext i
  have hi := i.isLt
  rw [recordAt, dif_pos (by omega)]

/-- `read_inode` reads the record at its location. -/
lemma readInode_of_location (hg : RecordGeometry g) (hi : g.inodesPerGroup ≠ 0)
    (hloc : inodeLocation g sectors ino = .ok (block, offset)) :
    readInode g sectors ino = .ok (block, recordAt (sectors block) offset.toNat) := by
  rw [inodeLocation] at hloc
  rw [readInode, if_neg (hg.divisors hi)]
  cases htable : bgdtInodeTable g sectors (bgOfInode g ino) with
  | error e =>
    rw [htable] at hloc
    cases hloc
  | ok table =>
    rw [htable] at hloc
    obtain ⟨rfl, rfl⟩ := Prod.mk.inj (Except.ok.inj hloc)
    have hcopy := copyInode_eq_recordAt (sectors (inodeBlock g table ino)) (hg.offset_fits ino)
    rw [bgOfInode] at htable
    simp only [htable, bind, Except.bind]
    rw [inodeOffset, inodeBlock] at hcopy
    rw [hcopy]
    rfl

/-- Without a location there is nothing to read. -/
lemma readInode_of_error (hg : RecordGeometry g) (hi : g.inodesPerGroup ≠ 0) {e : Fault}
    (hloc : inodeLocation g sectors ino = .error e) : readInode g sectors ino = .error e := by
  rw [inodeLocation] at hloc
  rw [readInode, if_neg (hg.divisors hi)]
  cases htable : bgdtInodeTable g sectors (bgOfInode g ino) with
  | error e' =>
    rw [htable] at hloc
    cases hloc
    rw [bgOfInode] at htable
    simp only [htable, bind, Except.bind]
  | ok table =>
    rw [htable] at hloc
    cases hloc

lemma location_of_table {table : UInt32}
    (htable : bgdtInodeTable g sectors (bgOfInode g ino) = .ok table) :
    inodeLocation g sectors ino = .ok (inodeBlock g table ino, inodeOffset g ino) := by
  rw [inodeLocation, htable]
  rfl

/-- The payload with the size of the record at `offset` set. -/
def withSize (payload : Payload) (offset : Nat) (size : UInt32) : Payload := fun i =>
  if offset + 4 ≤ i.val ∧ i.val < offset + 8 then byteOf size (i.val - (offset + 4)) else payload i

lemma changeFileSize_eq (hg : RecordGeometry g) (hi : g.inodesPerGroup ≠ 0) {table : UInt32}
    (htable : bgdtInodeTable g sectors (bgOfInode g ino) = .ok table) (size : UInt32) :
    changeFileSize g sectors ino size = .ok (Function.update sectors (realInodeBlock g table ino)
      (withSize (sectors (realInodeBlock g table ino)) (inodeOffset g ino).toNat size)) := by
  have hfits := hg.offset_fits ino
  rw [bgOfInode] at htable
  rw [changeFileSize, if_neg (hg.divisors hi)]
  simp only [htable, bind, Except.bind]
  rw [storeSizeLow, if_pos (by omega)]
  rfl

lemma RecordGeometry.location_dvd (hg : RecordGeometry g)
    (hloc : inodeLocation g sectors ino = .ok (block, offset)) : 128 ∣ offset.toNat := by
  rw [inodeLocation] at hloc
  cases htable : bgdtInodeTable g sectors (bgOfInode g ino) with
  | error e =>
    rw [htable] at hloc
    cases hloc
  | ok table =>
    rw [htable] at hloc
    obtain ⟨-, rfl⟩ := Prod.mk.inj (Except.ok.inj hloc)
    exact hg.offset_dvd ino

lemma bgdtInodeTable_of_loaded {group : UInt32} (h : DescriptorLoaded g sectors group.toNat) :
    ∃ table, bgdtInodeTable g sectors group = .ok table := by
  obtain ⟨b0, h0⟩ := h 8 (by decide)
  obtain ⟨b1, h1⟩ := h 9 (by decide)
  obtain ⟨b2, h2⟩ := h 10 (by decide)
  obtain ⟨b3, h3⟩ := h 11 (by decide)
  rw [bgdSector] at h0 h1 h2 h3
  refine ⟨le32 b0 b1 b2 b3, ?_⟩
  rw [bgdtInodeTable, payload32]
  simp only [h0, Nat.add_assoc, Nat.reduceAdd, h1, h2, h3, bind, Except.bind]

/-- The first block of a descriptor's inode table is not where a size is. -/
lemma bgdtInodeTable_withSize (hdvd : 128 ∣ offset.toNat) (group : UInt32) :
    bgdtInodeTable g (Function.update sectors block
      (withSize (sectors block) offset.toNat size)) group = bgdtInodeTable g sectors group := by
  unfold bgdtInodeTable
  by_cases hb : addrOfBlock g g.bgdAddr = block
  · subst hb
    have hbyte : ∀ k < 4, payload8 (withSize (sectors (addrOfBlock g g.bgdAddr)) offset.toNat size)
        (32 * group.toNat + 8 + k) =
          payload8 (sectors (addrOfBlock g g.bgdAddr)) (32 * group.toNat + 8 + k) := by
      intro k hk
      unfold payload8 withSize
      have hout : ¬(offset.toNat + 4 ≤ 32 * group.toNat + 8 + k ∧
          32 * group.toNat + 8 + k < offset.toNat + 8) := by omega
      simp only [if_neg hout]
    rw [Function.update_self]
    unfold payload32
    rw [hbyte 1 (by decide), hbyte 2 (by decide), hbyte 3 (by decide)]
    have h0 := hbyte 0 (by decide)
    rw [Nat.add_zero] at h0
    rw [h0]
  · rw [Function.update_of_ne hb]

lemma inodeLocation_withSize (sectors : Sectors) (block size : UInt32)
    (hdvd : 128 ∣ offset.toNat) (ino : UInt32) :
    inodeLocation g (Function.update sectors block
      (withSize (sectors block) offset.toNat size)) ino = inodeLocation g sectors ino := by
  rw [inodeLocation, inodeLocation, bgdtInodeTable_withSize hdvd]

/-- Another record of the sector stays as it is. -/
lemma recordAt_withSize_apart (payload : Payload) {a b : Nat} (ha : 128 ∣ a) (hb : 128 ∣ b)
    (hne : b ≠ a) : recordAt (withSize payload a size) b = recordAt payload b := by
  funext i
  have hi := i.isLt
  have hout : ¬(a + 4 ≤ i.val + b ∧ i.val + b < a + 8) := by omega
  unfold recordAt withSize
  simp only [if_neg hout]

/-- The four bytes of a word make it up again. -/
lemma le32_byteOf (v : UInt32) : le32 (byteOf v 0) (byteOf v 1) (byteOf v 2) (byteOf v 3) = v := by
  have hv := v.toNat_lt
  apply UInt32.toNat_inj.mp
  simp only [le32, byteOf, UInt8.toNat_ofNat']
  rw [toNat_ofNat_small (by omega)]
  omega

lemma sizeChanged_withSize (payload : Payload) {a : Nat} (ha : a + 128 ≤ blockSize) :
    SizeChanged size (recordAt payload a) (recordAt (withSize payload a size) a) where
  sizeLow := by
    have hbyte : ∀ k (hk : 4 + k < 8), recordAt (withSize payload a size) a ⟨4 + k, by omega⟩ =
        byteOf size k := by
      intro k hk
      have hin : 4 + k + a < blockSize := by omega
      have hplace : a + 4 ≤ 4 + k + a ∧ 4 + k + a < a + 8 := by omega
      have hindex : 4 + k + a - (a + 4) = k := by omega
      rw [recordAt, dif_pos hin, withSize, if_pos hplace, hindex]
    have h0 := hbyte 0 (by decide)
    have h1 := hbyte 1 (by decide)
    have h2 := hbyte 2 (by decide)
    have h3 := hbyte 3 (by decide)
    calc (recordAt (withSize payload a size) a).sizeLow
        = le32 (byteOf size 0) (byteOf size 1) (byteOf size 2) (byteOf size 3) := by
          rw [← h0, ← h1, ← h2, ← h3]
          rfl
      _ = size := le32_byteOf size
  others := by
    intro i hi
    have hout : ¬(a + 4 ≤ i.val + a ∧ i.val + a < a + 8) := by omega
    unfold recordAt withSize
    simp only [if_neg hout]

/-- Every inode but the one whose record was changed is read as before. -/
lemma readInode_withSize (hg : RecordGeometry g) (hi : g.inodesPerGroup ≠ 0)
    (hdvd : 128 ∣ offset.toNat) (hne : inodeLocation g sectors ino ≠ .ok (block, offset)) :
    readInode g (Function.update sectors block (withSize (sectors block) offset.toNat size)) ino =
      readInode g sectors ino := by
  have hkeep := inodeLocation_withSize (g := g) sectors block size hdvd ino
  cases hloc : inodeLocation g sectors ino with
  | error e => rw [readInode_of_error hg hi (hkeep.trans hloc), readInode_of_error hg hi hloc]
  | ok p =>
    obtain ⟨b, o⟩ := p
    rw [readInode_of_location hg hi (hkeep.trans hloc), readInode_of_location hg hi hloc]
    by_cases hb : b = block
    · subst hb
      have hoff : o.toNat ≠ offset.toNat := by
        intro heq
        rw [hloc, UInt32.toNat_inj.mp heq] at hne
        exact hne rfl
      rw [Function.update_self, recordAt_withSize_apart _ hdvd (hg.location_dvd hloc) hoff]
    · rw [Function.update_of_ne hb]

end Records

/-- `change_file_size` updates the inode that `read_inode` reads, and no other, exactly in the
first block of a table whose records no other inode shares. -/
theorem change_file_size_iff {g : Geometry} (hg : RecordGeometry g) (hi : g.inodesPerGroup ≠ 0)
    (sectors : Sectors) (inodeCount ino : UInt32)
    (hload : DescriptorLoaded g sectors (bgOfInode g ino).toNat) :
    UpdatesInode g sectors inodeCount ino ↔ FirstBlock g sectors inodeCount ino := by
  obtain ⟨table, htable⟩ := bgdtInodeTable_of_loaded hload
  have hloc := location_of_table htable
  have hread := readInode_of_location hg hi hloc
  have hdvd := hg.offset_dvd ino
  constructor
  · intro hu
    have hreal := hu.sector table htable
    refine ⟨(hg.realInodeBlock_iff table ino).mp hreal, fun ino' h1 hle hne hsame => ?_⟩
    -- A size that is not there yet shows up in the record that the two inodes share.
    obtain ⟨sectors', block, record, record', hch, hr, hr', hsize, hkeep⟩ := hu.reads
      ((recordAt (sectors (inodeBlock g table ino)) (inodeOffset g ino).toNat).sizeLow + 1)
    rw [hread] at hr
    obtain ⟨rfl, rfl⟩ := Prod.mk.inj (Except.ok.inj hr)
    rw [changeFileSize_eq hg hi htable, hreal] at hch
    cases hch
    have hother := hkeep ino' h1 hle hne
    rw [readInode_of_location hg hi ((inodeLocation_withSize _ _ _ hdvd ino').trans
      (hsame.trans hloc)), readInode_of_location hg hi (hsame.trans hloc)] at hother
    rw [readInode_of_location hg hi ((inodeLocation_withSize _ _ _ hdvd ino).trans hloc),
      hother] at hr'
    obtain ⟨-, hsame'⟩ := Prod.mk.inj (Except.ok.inj hr')
    have hbad := hsize.sizeLow
    rw [← hsame'] at hbad
    simp at hbad
  · intro hf
    have hreal := (hg.realInodeBlock_iff table ino).mpr hf.first
    refine ⟨fun t _ => (hg.realInodeBlock_iff t ino).mpr hf.first, fun size => ?_⟩
    have hch := changeFileSize_eq hg hi htable size
    rw [hreal] at hch
    refine ⟨_, _, _, _, hch, hread,
      readInode_of_location hg hi ((inodeLocation_withSize _ _ _ hdvd ino).trans hloc), ?_, ?_⟩
    · rw [Function.update_self]
      exact sizeChanged_withSize _ (hg.offset_fits ino)
    · intro ino' h1 hle hne
      apply readInode_withSize hg hi hdvd
      rw [← hloc]
      exact hf.alone ino' h1 hle hne

/-- The volume of `smallGeometry` with two blocks of inodes in a group. -/
def twoBlockGeometry : Geometry := ⟨1024, 16, 2, 128, 8⟩

lemma twoBlockGeometry_records : RecordGeometry twoBlockGeometry where
  blockSize_eq := ⟨0, by decide, by decide⟩
  inodeSize_eq := ⟨7, by decide⟩
  le_inodeSize := by decide
  inodeSize_le := by decide
  inodesPerBlock_eq := by decide

lemma twoBlockGeometry_loaded {ino : UInt32} (hlt : (bgOfInode twoBlockGeometry ino).toNat < 16) :
    DescriptorLoaded twoBlockGeometry smallDisk (bgOfInode twoBlockGeometry ino).toNat :=
  (descriptorLoaded_iff _).mpr hlt

theorem change_file_size_first : UpdatesInode twoBlockGeometry smallDisk 2 1 := by
  refine (change_file_size_iff twoBlockGeometry_records (by decide) smallDisk 2 1
    (twoBlockGeometry_loaded (by decide))).mpr ⟨by decide, ?_⟩
  intro ino h1 hle hne hsame
  have h2 : ino.toNat ≤ 2 := UInt32.le_iff_toNat_le.mp hle
  have hno : ino.toNat ≠ 1 := fun h => hne (UInt32.toNat_inj.mp h)
  have hino : ino = 2 := UInt32.toNat_inj.mp (show ino.toNat = 2 by omega)
  subst hino
  have hone : inodeLocation twoBlockGeometry smallDisk 1 = .ok (10, 0) := rfl
  have htwo : inodeLocation twoBlockGeometry smallDisk 2 = .ok (10, 128) := rfl
  rw [hone, htwo] at hsame
  cases hsame

/-- The size of inode 9 goes to the record of inode 5. -/
theorem change_file_size_of_fifth :
    RecordGeometry twoBlockGeometry ∧
      DescriptorLoaded twoBlockGeometry smallDisk (bgOfInode twoBlockGeometry 9).toNat ∧
      realInodeBlock twoBlockGeometry 5 9 = 11 ∧ inodeOffset twoBlockGeometry 9 = 0 ∧
      inodeLocation twoBlockGeometry smallDisk 9 = .ok (12, 0) ∧
      inodeLocation twoBlockGeometry smallDisk 5 = .ok (11, 0) ∧
      ¬UpdatesInode twoBlockGeometry smallDisk 16 9 := by
  refine ⟨twoBlockGeometry_records, twoBlockGeometry_loaded (by decide), by decide, by decide, rfl,
    rfl, ?_⟩
  intro hu
  have hsame := hu.sector 5 rfl
  revert hsame
  decide

end SaxonOS.Proofs
