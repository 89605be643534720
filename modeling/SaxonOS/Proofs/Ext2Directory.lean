import SaxonOS.Proofs.Ext2Transfer
import SaxonOS.Proofs.Strings
import Mathlib.Data.List.GetD

/-!
# The layout of an ext2 directory

The records of a directory tile each of its blocks. Where none of them crosses the boundary of
a sector, every sector starts with a record and each record can be read from the payload of
its sector alone.
-/

namespace SaxonOS.Proofs
open SaxonOS Lib

/-- A directory record at the place `pos` of its block. -/
structure Dirent where
  pos : Nat
  inode : UInt32
  entrySize : Nat
  name : List UInt8
  deriving DecidableEq

/-- The block holds the record. What follows the name is left open. -/
structure DirentAt (g : Geometry) (sectors : Sectors) (block : UInt32) (r : Dirent) : Prop where
  inode : le32 (blockByte g sectors block r.pos) (blockByte g sectors block (r.pos + 1))
    (blockByte g sectors block (r.pos + 2)) (blockByte g sectors block (r.pos + 3)) = r.inode
  size : (le16 (blockByte g sectors block (r.pos + 4))
    (blockByte g sectors block (r.pos + 5))).toNat = r.entrySize
  length : (blockByte g sectors block (r.pos + 6)).toNat = r.name.length
  chars : ∀ i (h : i < r.name.length), blockByte g sectors block (r.pos + 8 + i) = r.name[i]
  room : 8 + r.name.length ≤ r.entrySize
  aligned : 4 ∣ r.entrySize

/-- The records lie end to end from `a` to the end of the block. -/
def RecordsTile (g : Geometry) (sectors : Sectors) (block : UInt32) : Nat → List Dirent → Prop
  | a, [] => a = g.blockSize.toNat
  | a, r :: rs => r.pos = a ∧ DirentAt g sectors block r ∧
      RecordsTile g sectors block (a + r.entrySize) rs

/-- A directory of `n` blocks with the given records in each. -/
structure WellFormedDir (g : Geometry) (sectors : Sectors) (tmp : Ext2Inode) (n : Nat)
    (records : Nat → List Dirent) : Prop where
  directory : tmp.typePermissions &&& 0xF000 = 0x4000
  blocks : n ≤ 12
  size : tmp.sizeLow.toNat = n * g.blockSize.toNat
  direct : ∀ i < 12, pointer tmp i ≠ 0 ↔ i < n
  tiles : ∀ i < n, RecordsTile g sectors (pointer tmp i) 0 (records i)

/-- The record lies in one sector. -/
def Dirent.InSector (r : Dirent) : Prop := r.pos % blockSize + r.entrySize ≤ blockSize

/-- The record ends before its sector does. -/
def Dirent.NotLast (r : Dirent) : Prop := r.pos % blockSize + r.entrySize < blockSize

lemma Dirent.NotLast.inSector {r : Dirent} (h : r.NotLast) : r.InSector := Nat.le_of_lt h

section Tile

variable {g : Geometry} {sectors : Sectors} {block : UInt32} {a p : Nat} {rs : List Dirent}
  {r r' : Dirent}

lemma RecordsTile.direntAt (h : RecordsTile g sectors block a rs) (hr : r ∈ rs) :
    DirentAt g sectors block r := by
  induction rs generalizing a with
  | nil => cases hr
  | cons q rs ih =>
    rcases List.mem_cons.mp hr with rfl | hr
    · exact h.2.1
    · exact ih h.2.2 hr

lemma RecordsTile.start_le (h : RecordsTile g sectors block a rs) (hr : r ∈ rs) : a ≤ r.pos := by
  induction rs generalizing a with
  | nil => cases hr
  | cons q rs ih =>
    rcases List.mem_cons.mp hr with rfl | hr
    · exact h.1.ge
    · have := ih h.2.2 hr
      omega

lemma DirentAt.unique (hr : DirentAt g sectors block r) (hr' : DirentAt g sectors block r')
    (hpos : r.pos = r'.pos) : r = r' := by
  have hino := hr.inode
  have hsize := hr.size
  have hlen := hr.length
  have hchars := hr.chars
  rw [hpos] at hino hsize hlen hchars
  have hname : r.name = r'.name := by
    apply List.ext_getElem (hlen.symm.trans hr'.length)
    intro i hi hi'
    exact (hchars i hi).symm.trans (hr'.chars i hi')
  cases r
  cases r'
  congr
  · exact hino.symm.trans hr'.inode
  · exact hsize.symm.trans hr'.size

/-- Every place of the block belongs to a record. -/
lemma RecordsTile.cover (h : RecordsTile g sectors block a rs) (ha : a ≤ p)
    (hp : p < g.blockSize.toNat) : ∃ r ∈ rs, r.pos ≤ p ∧ p < r.pos + r.entrySize := by
  induction rs generalizing a with
  | nil =>
    have : a = g.blockSize.toNat := h
    omega
  | cons q rs ih =>
    have hq := h.1
    by_cases hlt : p < q.pos + q.entrySize
    · exact ⟨q, List.mem_cons_self, by omega, hlt⟩
    · obtain ⟨r, hr, hpr⟩ := ih h.2.2 (by omega)
      exact ⟨r, List.mem_cons_of_mem q hr, hpr⟩

/-- Two records are the same or apart. -/
lemma RecordsTile.apart (h : RecordsTile g sectors block a rs) (hr : r ∈ rs) (hr' : r' ∈ rs) :
    r = r' ∨ r.pos + r.entrySize ≤ r'.pos ∨ r'.pos + r'.entrySize ≤ r.pos := by
  induction rs generalizing a with
  | nil => cases hr
  | cons q rs ih =>
    have hq := h.1
    rcases List.mem_cons.mp hr with he | hm
    · rcases List.mem_cons.mp hr' with he' | hm'
      · exact .inl (he.trans he'.symm)
      · have := h.2.2.start_le hm'
        exact .inr (.inl (by rw [he]; omega))
    · rcases List.mem_cons.mp hr' with he' | hm'
      · have := h.2.2.start_le hm
        exact .inr (.inr (by rw [he']; omega))
      · exact ih h.2.2 hm hm'

lemma RecordsTile.le (h : RecordsTile g sectors block a rs) : a ≤ g.blockSize.toNat := by
  induction rs generalizing a with
  | nil => exact Nat.le_of_eq h
  | cons q rs ih =>
    have := ih h.2.2
    omega

lemma RecordsTile.end_le (h : RecordsTile g sectors block a rs) (hr : r ∈ rs) :
    r.pos + r.entrySize ≤ g.blockSize.toNat := by
  induction rs generalizing a with
  | nil => cases hr
  | cons q rs ih =>
    rcases List.mem_cons.mp hr with rfl | hm
    · rw [h.1]
      exact h.2.2.le
    · exact ih h.2.2 hm

lemma RecordsTile.start_lt (h : RecordsTile g sectors block a (r :: rs)) :
    a < g.blockSize.toNat := by
  have hroom := h.2.1.room
  have hle := h.2.2.le
  omega

/-- The bytes of a block determine its records. -/
lemma RecordsTile.unique {rs' : List Dirent} (h : RecordsTile g sectors block a rs)
    (h' : RecordsTile g sectors block a rs') : rs = rs' := by
  induction rs generalizing a rs' with
  | nil =>
    cases rs' with
    | nil => rfl
    | cons q rs' => exact absurd h h'.start_lt.ne
  | cons r rs ih =>
    cases rs' with
    | nil => exact absurd h' h.start_lt.ne
    | cons q rs' =>
      have he := h.2.1.unique h'.2.1 (h.1.trans h'.1.symm)
      rw [← he] at h' ⊢
      rw [ih h.2.2 h'.2.2]

variable {k : Nat}

/-- A sector starts with a record where none before crosses a boundary. -/
lemma RecordsTile.sector_start (h : RecordsTile g sectors block 0 rs) {s : Nat}
    (hs : s * blockSize < g.blockSize.toNat)
    (hin : ∀ q ∈ rs, q.pos ≤ s * blockSize → q.InSector) : ∃ r ∈ rs, r.pos = s * blockSize := by
  obtain ⟨r, hr, hle, hlt⟩ := h.cover (Nat.zero_le _) hs
  refine ⟨r, hr, ?_⟩
  have hsec := hin r hr hle
  unfold Dirent.InSector at hsec
  simp only [blockSize] at *
  omega

/-- A record that is not the last of its sector is followed by one in the same sector. -/
lemma RecordsTile.next (hg : BlockSizeShift g k) (h : RecordsTile g sectors block 0 rs)
    (hr : r ∈ rs) (hlast : r.NotLast) : ∃ r' ∈ rs, r'.pos = r.pos + r.entrySize := by
  have hend := h.end_le hr
  have hpos : 8 ≤ r.entrySize := by
    have := (h.direntAt hr).room
    omega
  have hlt : r.pos + r.entrySize < g.blockSize.toNat := by
    have hb := hg.blockSize_eq
    unfold Dirent.NotLast at hlast
    simp only [blockSize] at *
    omega
  obtain ⟨r', hr', hle, hlt'⟩ := h.cover (Nat.zero_le _) hlt
  refine ⟨r', hr', ?_⟩
  rcases h.apart hr hr' with rfl | hap | hap
  · omega
  · omega
  · omega

/-- Before a record that is not the last of its sector come only such records. -/
lemma RecordsTile.notLast (h : RecordsTile g sectors block a rs) (hr : r ∈ rs) (hr' : r' ∈ rs)
    (hlast : r'.NotLast) (hle : r.pos ≤ r'.pos)
    (hsec : r.pos / blockSize = r'.pos / blockSize) : r.NotLast := by
  have hroom := (h.direntAt hr').room
  rcases h.apart hr hr' with rfl | hap | hap
  · exact hlast
  · have := Nat.mod_lt r'.pos blockSize_pos
    unfold Dirent.NotLast
    simp only [blockSize] at *
    omega
  · omega

/-- A record does not cross into a sector that starts with a record. -/
lemma RecordsTile.inSector (h : RecordsTile g sectors block a rs) (hr : r ∈ rs)
    (hstart : ∃ q ∈ rs, q.pos = (r.pos / blockSize + 1) * blockSize) : r.InSector := by
  obtain ⟨q, hq, hpos⟩ := hstart
  unfold Dirent.InSector
  rcases h.apart hr hq with rfl | hap | hap
  · simp only [blockSize] at *
    omega
  · simp only [blockSize] at *
    omega
  · simp only [blockSize] at *
    omega

/-- The payload of the sector in which the place `p` of a block lies. -/
def sectorOf (g : Geometry) (block : UInt32) (p : Nat) : UInt32 :=
  addrOfBlock g block + UInt32.ofNat (p / blockSize)

lemma payload8_block {c : Nat} (hc : p % blockSize + c < blockSize) :
    payload8 (sectors (sectorOf g block p)) (p % blockSize + c) =
      .ok (blockByte g sectors block (p + c)) := by
  have hdiv : (p + c) / blockSize = p / blockSize := by
    simp only [blockSize] at *
    omega
  have hmod : (p + c) % blockSize = p % blockSize + c := by
    simp only [blockSize] at *
    omega
  simp only [payload8, dif_pos hc, blockByte, sectorOf, hdiv, hmod]

lemma DirentAt.payload_size (hr : DirentAt g sectors block r) (hin : r.InSector) :
    ∃ v, payload16 (sectors (sectorOf g block r.pos)) (r.pos % blockSize + 4) = .ok v ∧
      v.toNat = r.entrySize := by
  have hroom := hr.room
  unfold Dirent.InSector at hin
  refine ⟨_, ?_, hr.size⟩
  simp only [payload16, Nat.add_assoc, payload8_block (show r.pos % blockSize + 4 < _ by omega),
    payload8_block (show r.pos % blockSize + (4 + 1) < _ by omega), bind, Except.bind]

lemma DirentAt.size_of_payload (hr : DirentAt g sectors block r) {v : UInt16}
    (hv : payload16 (sectors (sectorOf g block r.pos)) (r.pos % blockSize + 4) = .ok v) :
    v.toNat = r.entrySize := by
  by_cases h5 : r.pos % blockSize + (4 + 1) < blockSize
  · simp only [payload16, Nat.add_assoc, payload8_block (show r.pos % blockSize + 4 < _ by omega),
      payload8_block h5, bind, Except.bind] at hv
    cases hv
    exact hr.size
  · obtain ⟨low, -, hv⟩ := bind_eq_ok hv
    obtain ⟨high, hhigh, -⟩ := bind_eq_ok hv
    rw [Nat.add_assoc, payload8, dif_neg h5] at hhigh
    cases hhigh

lemma DirentAt.payload_inode (hr : DirentAt g sectors block r) (hin : r.InSector) :
    payload32 (sectors (sectorOf g block r.pos)) (r.pos % blockSize) = .ok r.inode := by
  have hroom := hr.room
  unfold Dirent.InSector at hin
  have h0 : payload8 (sectors (sectorOf g block r.pos)) (r.pos % blockSize) =
      .ok (blockByte g sectors block r.pos) :=
    payload8_block (show r.pos % blockSize + 0 < _ by omega)
  simp only [payload32, h0, payload8_block (show r.pos % blockSize + 1 < _ by omega),
    payload8_block (show r.pos % blockSize + 2 < _ by omega),
    payload8_block (show r.pos % blockSize + 3 < _ by omega), bind, Except.bind, hr.inode]

/-- The name that a caller passes with its length. -/
structure PassedName (filename : Bytes) (len : Int32) (name : List UInt8) : Prop where
  length : len.toInt = name.length
  chars : ∀ i (h : i < name.length), filename i = .ok name[i]

/-- A length that is not negative is itself as a `size_t`. -/
lemma toNat_len {len : Int32} {n : Nat} (h : len.toInt = n) : len.toUInt32.toNat = n := by
  have hpos : 0 ≤ len := by
    rw [Int32.le_iff_toInt_le, h]
    simp
  rw [Int32.toNat_toUInt32_of_le hpos, ← Int32.toNat_toInt, h, Int.toNat_natCast]

lemma PassedName.toNat_len {filename : Bytes} {len : Int32} {name : List UInt8}
    (h : PassedName filename len name) : len.toUInt32.toNat = name.length :=
  Proofs.toNat_len h.length

lemma strncmp_name {filename : Bytes} {len : Int32} {name : List UInt8}
    (hr : DirentAt g sectors block r) (hin : r.InSector) (hname : PassedName filename len name)
    (hl : r.name.length = name.length) :
    ∃ v, strncmp filename (fun i => payload8 (sectors (sectorOf g block r.pos))
      (r.pos % blockSize + 8 + i)) len.toUInt32 = .ok v ∧ (v = 0 ↔ r.name = name) := by
  have hroom := hr.room
  unfold Dirent.InSector at hin
  have h1 : ∀ j < 0 + name.length, filename j = .ok (name.getD j 0) := by
    intro j hj
    have hj' : j < name.length := by omega
    rw [hname.chars j hj', List.getD_eq_getElem _ _ hj']
  have h2 : ∀ j < 0 + name.length, payload8 (sectors (sectorOf g block r.pos))
      (r.pos % blockSize + 8 + j) = .ok (r.name.getD j 0) := by
    intro j hj
    have hj' : j < r.name.length := by omega
    rw [Nat.add_assoc, payload8_block (by omega), ← Nat.add_assoc, hr.chars j hj',
      List.getD_eq_getElem _ _ hj']
  obtain ⟨v, hv, hiff⟩ := strncmpFrom_chars h1 h2
  refine ⟨v, ?_, hiff.trans ?_⟩
  · rw [strncmp, hname.toNat_len]
    exact hv
  · constructor
    · intro hall
      apply List.ext_getElem hl
      intro j hj hj'
      have := hall j (by omega) (Nat.zero_le j)
      rw [List.getD_eq_getElem _ _ hj', List.getD_eq_getElem _ _ hj] at this
      exact this.symm
    · intro he j _ _
      rw [he]

/-- The test of the walk, on a record of one sector. -/
lemma direntMatches_eq {filename : Bytes} {len : Int32} {name : List UInt8}
    (hr : DirentAt g sectors block r) (hin : r.InSector) (hname : PassedName filename len name) :
    direntMatches (sectors (sectorOf g block r.pos)) filename len (r.pos % blockSize) =
      .ok (decide (r.inode ≠ 0 ∧ r.name = name)) := by
  have hroom := hr.room
  have hin' := hin
  unfold Dirent.InSector at hin'
  simp only [direntMatches, hr.payload_inode hin, bind, Except.bind,
    payload8_block (show r.pos % blockSize + 6 < _ by omega), hr.length, hname.length]
  by_cases hz : r.inode = 0
  · simp [hz]
  by_cases hl : r.name.length = name.length
  · obtain ⟨v, hv, hiff⟩ := strncmp_name hr hin hname hl
    simp [hz, hl, hv, hiff]
  · have hl' : r.name ≠ name := fun he => hl (by rw [he])
    simp [hz, hl, hl']

/-- The bytes of a directory determine its blocks and records. -/
lemma WellFormedDir.unique {tmp : Ext2Inode} {n n' : Nat} {records records' : Nat → List Dirent}
    (h : WellFormedDir g sectors tmp n records) (h' : WellFormedDir g sectors tmp n' records') :
    n = n' ∧ ∀ i < n, records i = records' i := by
  have hlt : ∀ i < 12, i < n ↔ i < n' := by
    intro i hi
    rw [← h.direct i hi, ← h'.direct i hi]
  have hn : n = n' := by
    have hblocks := h.blocks
    have hblocks' := h'.blocks
    rcases Nat.lt_trichotomy n n' with hl | he | hl
    · have := (hlt n (by omega)).mpr hl
      omega
    · exact he
    · have := (hlt n' (by omega)).mp hl
      omega
  refine ⟨hn, fun i hi => ?_⟩
  exact (h.tiles i hi).unique (h'.tiles i (by omega))

end Tile

/-- A directory of 1024 bytes in block 50. -/
def dirRecord : Ext2Inode := fun i =>
  match i.val with
  | 1 => 0x40
  | 5 => 0x04
  | 40 => 50
  | _ => 0

/-- The disk with this directory as inode 1 and the given bytes in its two sectors. -/
def dirDisk (first second : Nat → UInt8) : Sectors := fun s i =>
  if s = 4 ∧ i.val = 8 then 5
  else if h : i.val < 128 ∧ s = 10 then dirRecord ⟨i.val, h.1⟩
  else if s = 100 then first i.val
  else if s = 101 then second i.val
  else 0

def dirInode : Inode := ⟨1, 1024, 0, 0, ext2Name⟩

lemma dirDisk_holds (first second : Nat → UInt8) :
    readInode smallGeometry (dirDisk first second) dirInode.iNo = .ok (10, dirRecord) := by
  apply readInode_small
  · rfl
  · rw [copyInode, dif_pos (by decide)]
    congr 1
    funext i
    simp [dirDisk]

lemma dirDisk_wellFormed {first second : Nat → UInt8} {rs : List Dirent}
    (h : RecordsTile smallGeometry (dirDisk first second) (pointer dirRecord 0) 0 rs) :
    WellFormedDir smallGeometry (dirDisk first second) dirRecord 1 fun _ => rs where
  directory := by decide
  blocks := by decide
  size := by decide
  direct := by decide
  tiles := by
    intro i hi
    obtain rfl : i = 0 := by omega
    exact h

end SaxonOS.Proofs
