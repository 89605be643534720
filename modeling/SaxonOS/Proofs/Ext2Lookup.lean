import SaxonOS.Proofs.Ext2Directory

/-!
# Looking up a name

`ext2_lookup` in a well-formed directory. Each sector is walked from its first byte to the record
that reaches its end, which is not looked at. Where every sector starts with a record, what is
found is the first record with the name that the walk looks at.
-/

namespace SaxonOS.Proofs
open SaxonOS Lib

/-- The record is in use and has the name. -/
def Dirent.Named (r : Dirent) (name : List UInt8) : Prop := r.inode ≠ 0 ∧ r.name = name

instance (r : Dirent) (name : List UInt8) : Decidable (r.Named name) :=
  inferInstanceAs (Decidable (_ ∧ _))

section Block

variable {g : Geometry} {k : Nat} {sectors : Sectors} {block : UInt32} {rs : List Dirent}
  {filename : Bytes} {len : Int32} {name : List UInt8} {sizeLow size : UInt32} {r R : Dirent}
  {fuel budget : Nat}

/-! ### The records of one sector -/

lemma walkRecords_last (hr : DirentAt g sectors block r) (hin : r.InSector) (hlast : ¬ r.NotLast) :
    walkRecords sectors (sectorOf g block r.pos) filename len sizeLow fuel (r.pos % blockSize)
      size = .ok (.more size) := by
  obtain ⟨v, hv, hsize⟩ := hr.payload_size hin
  rw [walkRecords.eq_def]
  simp only [hv, bind, Except.bind, hsize]
  exact if_neg hlast

lemma walkRecords_out_of_fuel (hr : DirentAt g sectors block r) (hin : r.InSector)
    (hlast : r.NotLast) :
    walkRecords sectors (sectorOf g block r.pos) filename len sizeLow 0 (r.pos % blockSize) size =
      .error .diverge := by
  obtain ⟨v, hv, hsize⟩ := hr.payload_size hin
  rw [walkRecords.eq_def]
  simp only [hv, bind, Except.bind, hsize]
  exact if_pos hlast

lemma walkRecords_step (hr : DirentAt g sectors block r) (hin : r.InSector)
    (hname : PassedName filename len name) (hlast : r.NotLast) :
    walkRecords sectors (sectorOf g block r.pos) filename len sizeLow (fuel + 1)
        (r.pos % blockSize) size =
      if r.Named name then .ok (.found r.inode)
      else if size + UInt32.ofNat r.entrySize > sizeLow then .ok (.stop [sectorOf g block r.pos])
      else walkRecords sectors (sectorOf g block r.pos) filename len sizeLow fuel
        (r.pos % blockSize + r.entrySize) (size + UInt32.ofNat r.entrySize) := by
  obtain ⟨v, hv, hsize⟩ := hr.payload_size hin
  have hv32 : v.toUInt32 = UInt32.ofNat r.entrySize := by
    rw [← hsize]
    apply UInt32.toNat_inj.mp
    have := v.toNat_lt
    rw [toNat_ofNat_small (by omega), UInt16.toNat_toUInt32]
  have hlast' : r.pos % blockSize + r.entrySize < blockSize := hlast
  rw [walkRecords]
  simp only [hv, bind, Except.bind, hsize, hv32, direntMatches_eq hr hin hname,
    hr.payload_inode hin, if_pos hlast', decide_eq_true_eq]
  rfl

variable (g block) in
/-- The record after one that is not the last of its sector. -/
lemma next_place (hlast : r.NotLast) :
    sectorOf g block (r.pos + r.entrySize) = sectorOf g block r.pos ∧
      (r.pos + r.entrySize) % blockSize = r.pos % blockSize + r.entrySize ∧
      (r.pos + r.entrySize) / blockSize = r.pos / blockSize := by
  have hdiv : (r.pos + r.entrySize) / blockSize = r.pos / blockSize := by
    unfold Dirent.NotLast at hlast
    simp only [blockSize] at *
    omega
  refine ⟨by rw [sectorOf, sectorOf, hdiv], ?_, hdiv⟩
  unfold Dirent.NotLast at hlast
  simp only [blockSize] at *
  omega

lemma walkRecords_last_ne_found (hr : DirentAt g sectors block r) (hlast : ¬ r.NotLast)
    {ino : UInt32} :
    walkRecords sectors (sectorOf g block r.pos) filename len sizeLow fuel (r.pos % blockSize)
      size ≠ .ok (.found ino) := by
  intro h
  rw [walkRecords.eq_def] at h
  obtain ⟨v, hv, h⟩ := bind_eq_ok h
  have hend : ¬ r.pos % blockSize + v.toNat < blockSize := by
    rw [hr.size_of_payload hv]
    exact hlast
  rw [if_neg hend] at h
  cases h

/-- What a walk finds is the first record with the name that it looks at. -/
lemma walkRecords_sound (hg : BlockSizeShift g k) (ht : RecordsTile g sectors block 0 rs)
    (hname : PassedName filename len name) (hr : r ∈ rs) {ino : UInt32}
    (h : walkRecords sectors (sectorOf g block r.pos) filename len sizeLow fuel (r.pos % blockSize)
      size = .ok (.found ino)) : ∃ q ∈ rs, q.pos / blockSize = r.pos / blockSize ∧ q.NotLast ∧
      q.Named name ∧ q.inode = ino ∧ ∀ p ∈ rs, r.pos ≤ p.pos → p.pos < q.pos → ¬ p.Named name := by
  have hlast : r.NotLast := by
    by_contra hlast
    exact walkRecords_last_ne_found (ht.direntAt hr) hlast h
  induction fuel generalizing r size with
  | zero =>
    rw [walkRecords_out_of_fuel (ht.direntAt hr) hlast.inSector hlast] at h
    cases h
  | succ fuel ih =>
    rw [walkRecords_step (ht.direntAt hr) hlast.inSector hname hlast] at h
    split at h
    · next hnamed =>
      cases h
      exact ⟨r, hr, rfl, hlast, hnamed, rfl, fun p _ hle hlt => by omega⟩
    · next hnot =>
      split at h
      · cases h
      · obtain ⟨r', hr', hpos⟩ := ht.next hg hr hlast
        obtain ⟨hsec, hmod, hdiv⟩ := next_place g block hlast
        rw [← hmod, ← hsec, ← hpos] at h
        have hlast' : r'.NotLast := by
          by_contra hlast'
          exact walkRecords_last_ne_found (ht.direntAt hr') hlast' h
        obtain ⟨q, hq, hqsec, hqlast, hnamed, hino, hfirst⟩ := ih hr' h hlast'
        refine ⟨q, hq, by rw [hqsec, hpos, hdiv], hqlast, hnamed, hino, ?_⟩
        intro p hp hle hlt
        have hroom := (ht.direntAt hp).room
        rcases ht.apart hr hp with rfl | hap | hap
        · exact hnot
        · exact hfirst p hp (by omega) hlt
        · omega

/-- A walk that gets past its sector saw no record with the name. -/
lemma walkRecords_more (hg : BlockSizeShift g k) (ht : RecordsTile g sectors block 0 rs)
    (hname : PassedName filename len name) {p : Dirent} (hp : p ∈ rs) (hplast : p.NotLast)
    (hr : r ∈ rs) (hle : r.pos ≤ p.pos) (hsec : r.pos / blockSize = p.pos / blockSize)
    {size' : UInt32}
    (h : walkRecords sectors (sectorOf g block r.pos) filename len sizeLow fuel (r.pos % blockSize)
      size = .ok (.more size')) : ¬ p.Named name := by
  induction fuel generalizing r size with
  | zero =>
    have hlast := ht.notLast hr hp hplast hle hsec
    rw [walkRecords_out_of_fuel (ht.direntAt hr) hlast.inSector hlast] at h
    cases h
  | succ fuel ih =>
    have hlast := ht.notLast hr hp hplast hle hsec
    rw [walkRecords_step (ht.direntAt hr) hlast.inSector hname hlast] at h
    split at h
    · cases h
    · next hnot =>
      split at h
      · cases h
      · obtain ⟨r', hr', hpos⟩ := ht.next hg hr hlast
        obtain ⟨hsame, hmod, hdiv⟩ := next_place g block hlast
        rw [← hmod, ← hsame, ← hpos] at h
        have hroom := (ht.direntAt hp).room
        rcases ht.apart hr hp with rfl | hap | hap
        · exact hnot
        · exact ih hr' (by omega) (by rw [hpos, hdiv, hsec]) h
        · omega

lemma size_next {sizeLow size : UInt32} (hlast : r.NotLast)
    (hsize : size.toNat + blockSize ≤ sizeLow.toNat + r.pos % blockSize) :
    (size + UInt32.ofNat r.entrySize).toNat = size.toNat + r.entrySize ∧
      ¬ size + UInt32.ofNat r.entrySize > sizeLow := by
  have hlast' : r.pos % blockSize + r.entrySize < blockSize := hlast
  have hlow := sizeLow.toNat_lt
  have hb : blockSize = 512 := rfl
  have hent : (UInt32.ofNat r.entrySize).toNat = r.entrySize := toNat_ofNat_small (by omega)
  have hadd : (size + UInt32.ofNat r.entrySize).toNat = size.toNat + r.entrySize := by
    rw [toNat_add_small (by omega), hent]
  refine ⟨hadd, ?_⟩
  rw [gt_iff_lt, UInt32.lt_iff_toNat_lt, hadd]
  omega

/-- The walk gets to a record of the sector when none before it has the name. -/
lemma walkRecords_reach (sizeLow size : UInt32) (fuel : Nat) (hg : BlockSizeShift g k)
    (ht : RecordsTile g sectors block 0 rs) (hname : PassedName filename len name) (hR : R ∈ rs)
    (hlast : R.NotLast) (hnamed : R.Named name)
    (hbefore : ∀ q ∈ rs, q.pos < R.pos → q.NotLast → ¬ q.Named name)
    (hr : r ∈ rs) (hsec : r.pos / blockSize = R.pos / blockSize) (hle : r.pos ≤ R.pos)
    (hfuel : blockSize ≤ r.pos % blockSize + fuel)
    (hsize : size.toNat + blockSize ≤ sizeLow.toNat + r.pos % blockSize) :
    walkRecords sectors (sectorOf g block r.pos) filename len sizeLow fuel (r.pos % blockSize)
      size = .ok (.found R.inode) := by
  induction fuel generalizing r size with
  | zero =>
    have := Nat.mod_lt r.pos blockSize_pos
    omega
  | succ fuel ih =>
    have hat := ht.direntAt hr
    have hroom := hat.room
    have hroomR := (ht.direntAt hR).room
    have hrlast := ht.notLast hr hR hlast hle hsec
    rcases ht.apart hr hR with rfl | hap | hap
    · rw [walkRecords_step hat hlast.inSector hname hlast, if_pos hnamed]
    · obtain ⟨hadd, hcut⟩ := size_next hrlast hsize
      obtain ⟨r', hr', hpos⟩ := ht.next hg hr hrlast
      obtain ⟨hsame, hmod, hdiv⟩ := next_place g block hrlast
      rw [walkRecords_step hat hrlast.inSector hname hrlast,
        if_neg (hbefore r hr (by omega) hrlast), if_neg hcut, ← hmod, ← hsame, ← hpos]
      apply ih _ hr'
      · rw [hpos, hdiv, hsec]
      · omega
      · rw [hpos, hmod]
        omega
      · rw [hpos, hmod, hadd]
        omega
    · omega

/-- The walk gets past a sector in which no record that is looked at has the name. -/
lemma walkRecords_past (sizeLow size : UInt32) (fuel : Nat) (hg : BlockSizeShift g k)
    (ht : RecordsTile g sectors block 0 rs) (hname : PassedName filename len name) (hr : r ∈ rs)
    (hnone : ∀ q ∈ rs, q.pos / blockSize = r.pos / blockSize →
      q.InSector ∧ (q.NotLast → ¬ q.Named name))
    (hfuel : blockSize ≤ r.pos % blockSize + fuel)
    (hsize : size.toNat + blockSize ≤ sizeLow.toNat + r.pos % blockSize) :
    ∃ size' : UInt32, walkRecords sectors (sectorOf g block r.pos) filename len sizeLow fuel
        (r.pos % blockSize) size = .ok (.more size') ∧
      size'.toNat + r.pos % blockSize ≤ size.toNat + blockSize := by
  have hlt := Nat.mod_lt r.pos blockSize_pos
  induction fuel generalizing r size with
  | zero => omega
  | succ fuel ih =>
    have hat := ht.direntAt hr
    have hroom := hat.room
    obtain ⟨hin, hnot⟩ := hnone r hr rfl
    by_cases hlast : r.NotLast
    · obtain ⟨hadd, hcut⟩ := size_next hlast hsize
      obtain ⟨r', hr', hpos⟩ := ht.next hg hr hlast
      obtain ⟨hsame, hmod, hdiv⟩ := next_place g block hlast
      obtain ⟨size', hw, hle⟩ := ih (size + UInt32.ofNat r.entrySize) hr'
        (by rwa [hpos, hdiv]) (by rw [hpos, hmod]; omega) (by rw [hpos, hmod, hadd]; omega)
        (by rw [hpos, hmod]; exact hlast)
      rw [hpos, hmod, hsame] at hw
      rw [hpos, hmod] at hle
      refine ⟨size', ?_, by omega⟩
      rw [walkRecords_step hat hin hname hlast, if_neg (hnot hlast), if_neg hcut]
      exact hw
    · exact ⟨size, walkRecords_last hat hin hlast, by omega⟩

/-! ### The sectors of one block -/

/-- A record at the first byte of the sector `c`. -/
lemma sector_place {c : UInt8} (hpos : r.pos = c.toNat * blockSize) :
    r.pos % blockSize = 0 ∧ r.pos / blockSize = c.toNat ∧
      sectorOf g block r.pos = addrOfBlock g block + c.toUInt32 := by
  have hdiv : r.pos / blockSize = c.toNat := by
    rw [hpos, Nat.mul_div_cancel _ blockSize_pos]
  refine ⟨by rw [hpos, Nat.mul_mod_left], hdiv, ?_⟩
  have h32 : UInt32.ofNat c.toNat = c.toUInt32 := by
    apply UInt32.toNat_inj.mp
    have := c.toNat_lt
    rw [toNat_ofNat_small (by omega), UInt8.toNat_toUInt32]
  rw [sectorOf, hdiv, h32]

lemma sector_in_block {c : UInt8} : c.toUInt32 < sectorsPerBlock g ↔
    c.toNat < (sectorsPerBlock g).toNat := by
  rw [UInt32.lt_iff_toNat_lt, UInt8.toNat_toUInt32]

/-- The walk through the sector `c` starts at the record at its first byte. -/
lemma sector_first (hg : BlockSizeShift g k) (ht : RecordsTile g sectors block 0 rs) {c : UInt8}
    (hc : c.toUInt32 < sectorsPerBlock g)
    (hin : ∀ q ∈ rs, q.pos ≤ c.toNat * blockSize → q.InSector) :
    ∃ r ∈ rs, r.pos = c.toNat * blockSize ∧ r.pos % blockSize = 0 ∧ r.pos / blockSize = c.toNat ∧
      sectorOf g block r.pos = addrOfBlock g block + c.toUInt32 := by
  have hs : c.toNat * blockSize < g.blockSize.toNat := by
    rw [hg.blockSize_eq, Nat.mul_comm]
    exact Nat.mul_lt_mul_of_pos_left (sector_in_block.mp hc) blockSize_pos
  obtain ⟨r, hr, hpos⟩ := ht.sector_start hs hin
  exact ⟨r, hr, hpos, sector_place hpos⟩

lemma walkSectors_end {c : UInt8} (hc : ¬ c.toUInt32 < sectorsPerBlock g) :
    walkSectors g sectors filename len sizeLow block budget fuel c size = .ok (.more size) := by
  unfold walkSectors
  exact if_neg hc

lemma walkSectors_out_of_fuel {c : UInt8} (hc : c.toUInt32 < sectorsPerBlock g) :
    walkSectors g sectors filename len sizeLow block budget 0 c size = .error .diverge := by
  unfold walkSectors
  exact if_pos hc

/-- Every sector of the block that the walk can enter starts with a record. -/
def SectorsStart (g : Geometry) (rs : List Dirent) : Prop :=
  ∀ s < 256, s < (sectorsPerBlock g).toNat → ∃ r ∈ rs, r.pos = s * blockSize

lemma SectorsStart.first (hstart : SectorsStart g rs) {c : UInt8}
    (hc : c.toUInt32 < sectorsPerBlock g) :
    ∃ r ∈ rs, r.pos = c.toNat * blockSize ∧ r.pos % blockSize = 0 ∧ r.pos / blockSize = c.toNat ∧
      sectorOf g block r.pos = addrOfBlock g block + c.toUInt32 := by
  obtain ⟨r, hr, hpos⟩ := hstart c.toNat c.toNat_lt (sector_in_block.mp hc)
  exact ⟨r, hr, hpos, sector_place hpos⟩

/-- No record before the sector `c` that is looked at has the name. -/
def NoneBefore (rs : List Dirent) (name : List UInt8) (c : Nat) : Prop :=
  ∀ p ∈ rs, p.pos / blockSize < c → p.NotLast → ¬ p.Named name

lemma NoneBefore.mono {c c' : Nat} (hnone : NoneBefore rs name c) (hle : c' ≤ c) :
    NoneBefore rs name c' := by
  intro p hp hlt
  exact hnone p hp (Nat.lt_of_lt_of_le hlt hle)

/-- The counter wraps around to the first sector or goes on to the next. -/
lemma NoneBefore.next {c : UInt8} (hnone : NoneBefore rs name c.toNat)
    (hsec : ∀ p ∈ rs, p.pos / blockSize = c.toNat → p.NotLast → ¬ p.Named name) :
    NoneBefore rs name (c + 1).toNat := by
  intro p hp hlt hlast
  have hc := c.toNat_lt
  rw [UInt8.toNat_add, UInt8.toNat_one] at hlt
  rcases Nat.lt_or_ge (p.pos / blockSize) c.toNat with hpc | hpc
  · exact hnone p hp hpc hlast
  · exact hsec p hp (by omega) hlast

/-- What the walk through a block tells of its records. -/
def BlockTells (g : Geometry) (rs : List Dirent) (name : List UInt8) : Walk → Prop
  | .found ino => ∃ q ∈ rs, q.NotLast ∧ q.Named name ∧ q.pos / blockSize < 256 ∧ q.inode = ino ∧
      ∀ p ∈ rs, p.pos < q.pos → p.NotLast → ¬ p.Named name
  | .stop _ => True
  | .more _ => NoneBefore rs name (sectorsPerBlock g).toNat

lemma walkSectors_sound (hg : BlockSizeShift g k) (ht : RecordsTile g sectors block 0 rs)
    (hstart : SectorsStart g rs) (hname : PassedName filename len name) {c : UInt8} {w : Walk}
    (hnone : NoneBefore rs name c.toNat)
    (h : walkSectors g sectors filename len sizeLow block budget fuel c size = .ok w) :
    BlockTells g rs name w := by
  induction fuel generalizing c size with
  | zero =>
    by_cases hc : c.toUInt32 < sectorsPerBlock g
    · rw [walkSectors_out_of_fuel hc] at h
      cases h
    · rw [walkSectors_end hc] at h
      cases h
      rw [sector_in_block] at hc
      exact hnone.mono (Nat.le_of_not_lt hc)
  | succ fuel ih =>
    by_cases hc : c.toUInt32 < sectorsPerBlock g
    · rw [walkSectors, if_pos hc] at h
      obtain ⟨r, hr, hpos, hmod, hdiv, hsec⟩ := hstart.first hc
      rw [← hsec, ← hmod] at h
      obtain ⟨v, hv, h⟩ := bind_eq_ok h
      cases v with
      | found ino =>
        cases h
        obtain ⟨q, hq, hqsec, hlast, hnamed, hino, hfirst⟩ := walkRecords_sound hg ht hname hr hv
        have hbyte : q.pos / blockSize < 256 := by
          rw [hqsec, hdiv]
          exact c.toNat_lt
        refine ⟨q, hq, hlast, hnamed, hbyte, hino, ?_⟩
        intro p hp hlt hplast
        rcases Nat.lt_or_ge p.pos r.pos with hpr | hpr
        · apply hnone p hp _ hplast
          rw [Nat.div_lt_iff_lt_mul blockSize_pos, ← hpos]
          exact hpr
        · exact hfirst p hp hpr hlt
      | stop held =>
        cases h
        trivial
      | more size' =>
        apply ih _ h
        apply hnone.next
        intro p hp hpc hplast
        have hle : r.pos ≤ p.pos := by
          rw [hpos, ← hpc]
          exact Nat.div_mul_le_self p.pos blockSize
        exact walkRecords_more hg ht hname hp hplast hr hle (by rw [hdiv, hpc]) hv
    · rw [walkSectors_end hc] at h
      cases h
      rw [sector_in_block] at hc
      exact hnone.mono (Nat.le_of_not_lt hc)

/-- With 256 sectors or more the counter never gets to the end of the block. -/
lemma walkSectors_ne_more (hlarge : 256 ≤ (sectorsPerBlock g).toNat) {c : UInt8} {size' : UInt32} :
    walkSectors g sectors filename len sizeLow block budget fuel c size ≠ .ok (.more size') := by
  intro h
  have hc : ∀ c : UInt8, c.toUInt32 < sectorsPerBlock g := by
    intro c
    have := c.toNat_lt
    rw [UInt32.lt_iff_toNat_lt, UInt8.toNat_toUInt32]
    omega
  induction fuel generalizing c size with
  | zero =>
    rw [walkSectors_out_of_fuel (hc c)] at h
    cases h
  | succ fuel ih =>
    rw [walkSectors, if_pos (hc c)] at h
    obtain ⟨w, hw, h⟩ := bind_eq_ok h
    cases w with
    | found ino => cases h
    | stop held => cases h
    | more size'' => exact ih h

lemma toNat_next_sector {c : UInt8} (h : c.toNat + 1 < 256) : (c + 1).toNat = c.toNat + 1 := by
  rw [UInt8.toNat_add, UInt8.toNat_one, Nat.mod_eq_of_lt h]

lemma RecordsTile.sector_lt (hg : BlockSizeShift g k) (ht : RecordsTile g sectors block 0 rs)
    (hR : R ∈ rs) : R.pos / blockSize < (sectorsPerBlock g).toNat := by
  have hend := ht.end_le hR
  have hroom := (ht.direntAt hR).room
  rw [Nat.div_lt_iff_lt_mul blockSize_pos, Nat.mul_comm, ← hg.blockSize_eq]
  omega

/-- The walk gets to a record of the block when none before it crosses a boundary or has the
name. -/
lemma walkSectors_reach (hg : BlockSizeShift g k) (ht : RecordsTile g sectors block 0 rs)
    (hname : PassedName filename len name) (hR : R ∈ rs) (hlast : R.NotLast)
    (hnamed : R.Named name)
    (hbefore : ∀ q ∈ rs, q.pos < R.pos → q.InSector ∧ (q.NotLast → ¬ q.Named name))
    {c : UInt8} (hc : c.toNat ≤ R.pos / blockSize) (hbyte : R.pos / blockSize < 256)
    (hbudget : blockSize ≤ budget) (hfuel : R.pos / blockSize < c.toNat + fuel)
    (hsize : size.toNat + blockSize * (R.pos / blockSize + 1) ≤
      sizeLow.toNat + blockSize * c.toNat) :
    walkSectors g sectors filename len sizeLow block budget fuel c size = .ok (.found R.inode) := by
  have hin : ∀ q ∈ rs, q.pos ≤ R.pos → q.InSector := by
    intro q hq hle
    rcases Nat.lt_or_eq_of_le hle with hlt | he
    · exact (hbefore q hq hlt).1
    · have hroom := (ht.direntAt hq).room
      have hroomR := (ht.direntAt hR).room
      rcases ht.apart hq hR with rfl | hap | hap
      · exact hlast.inSector
      · omega
      · omega
  have hRlt := ht.sector_lt hg hR
  have hRle := Nat.div_mul_le_self R.pos blockSize
  induction fuel generalizing c size with
  | zero => omega
  | succ fuel ih =>
    have hmul := Nat.mul_le_mul_right blockSize hc
    obtain ⟨r, hr, hpos, hmod, hdiv, hsec⟩ :=
      sector_first hg ht (sector_in_block.mpr (Nat.lt_of_le_of_lt hc hRlt))
        fun q hq hle => hin q hq (by omega)
    rw [Nat.mul_succ, Nat.mul_comm blockSize, Nat.mul_comm blockSize] at hsize
    have hroom : size.toNat + blockSize ≤ sizeLow.toNat + r.pos % blockSize := by omega
    rw [walkSectors, if_pos (sector_in_block.mpr (Nat.lt_of_le_of_lt hc hRlt)), ← hsec, ← hmod]
    rcases Nat.eq_or_lt_of_le hc with he | hlt
    · rw [walkRecords_reach sizeLow size budget hg ht hname hR hlast hnamed
        (fun q hq hlt => (hbefore q hq hlt).2) hr (by omega) (by omega) (by omega) hroom]
      rfl
    · have hnone : ∀ q ∈ rs, q.pos / blockSize = r.pos / blockSize →
          q.InSector ∧ (q.NotLast → ¬ q.Named name) := by
        intro q hq hqs
        apply hbefore q hq
        simp only [blockSize] at *
        omega
      obtain ⟨size', hw, hle⟩ :=
        walkRecords_past sizeLow size budget hg ht hname hr hnone (by omega) hroom
      have hc' := toNat_next_sector (c := c) (by omega)
      rw [hw]
      apply ih
      · omega
      · omega
      · rw [hc', Nat.mul_succ, Nat.mul_succ, Nat.mul_comm blockSize, Nat.mul_comm blockSize]
        omega

/-- The walk gets past a block in which no record that is looked at has the name. -/
lemma walkSectors_past (hg : BlockSizeShift g k) (ht : RecordsTile g sectors block 0 rs)
    (hname : PassedName filename len name)
    (hnone : ∀ q ∈ rs, q.InSector ∧ (q.NotLast → ¬ q.Named name))
    (hsmall : (sectorsPerBlock g).toNat < 256) {c : UInt8}
    (hc : c.toNat ≤ (sectorsPerBlock g).toNat) (hbudget : blockSize ≤ budget)
    (hfuel : (sectorsPerBlock g).toNat ≤ c.toNat + fuel)
    (hsize : size.toNat + g.blockSize.toNat ≤ sizeLow.toNat + blockSize * c.toNat) :
    ∃ size' : UInt32, walkSectors g sectors filename len sizeLow block budget fuel c size =
        .ok (.more size') ∧
      size'.toNat + blockSize * c.toNat ≤ size.toNat + g.blockSize.toNat := by
  have hb := hg.blockSize_eq
  have hmul := Nat.mul_le_mul_left blockSize hc
  induction fuel generalizing c size with
  | zero =>
    have hend : ¬ c.toUInt32 < sectorsPerBlock g := by
      rw [sector_in_block]
      omega
    exact ⟨size, walkSectors_end hend, by omega⟩
  | succ fuel ih =>
    by_cases hin : c.toUInt32 < sectorsPerBlock g
    · have hlt := sector_in_block.mp hin
      obtain ⟨r, hr, hpos, hmod, hdiv, hsec⟩ :=
        sector_first hg ht hin fun q hq _ => (hnone q hq).1
      have hnext := Nat.mul_le_mul_left blockSize (Nat.succ_le_of_lt hlt)
      rw [Nat.mul_succ] at hnext
      have hroom : size.toNat + blockSize ≤ sizeLow.toNat + r.pos % blockSize := by omega
      obtain ⟨size', hw, hle⟩ := walkRecords_past sizeLow size budget hg ht hname hr
        (fun q hq _ => hnone q hq) (by omega) hroom
      have hc' := toNat_next_sector (c := c) (by omega)
      obtain ⟨size'', hw', hle'⟩ := @ih size' (c + 1) (by omega) (by omega)
        (by rw [hc', Nat.mul_succ]; omega) (by rw [hc']; exact Nat.mul_le_mul_left _ hlt)
      rw [walkSectors, if_pos hin, ← hsec, ← hmod, hw]
      refine ⟨size'', hw', ?_⟩
      rw [hc', Nat.mul_succ] at hle'
      omega
    · exact ⟨size, walkSectors_end hin, by omega⟩

end Block

/-! ### The blocks of a directory -/

section Directory

variable {g : Geometry} {k : Nat} {sectors : Sectors} {tmp : Ext2Inode} {n : Nat}
  {records : Nat → List Dirent} {filename : Bytes} {len : Int32} {name : List UInt8}
  {size : UInt32} {fuel b : Nat} {R : Dirent}

/-- Every sector of the directory that the walk can enter starts with a record. With 256 sectors
or more in a block it stays in the first. -/
def EntersAtRecords (g : Geometry) (n : Nat) (records : Nat → List Dirent) : Prop :=
  ∀ i < n, (sectorsPerBlock g).toNat < 256 ∨ i = 0 → SectorsStart g (records i)

/-- The record is found unless an earlier one stands in the way. -/
structure Findable (g : Geometry) (records : Nat → List Dirent) (b : Nat) (r : Dirent) : Prop where
  notLast : r.NotLast
  counted : (sectorsPerBlock g).toNat < 256 ∨ b = 0 ∧ r.pos / blockSize < 256
  before : ∀ i ≤ b, ∀ q ∈ records i, i < b ∨ q.pos < r.pos →
    q.InSector ∧ (q.NotLast → ¬ q.Named r.name)

/-- The first record with the name that is looked at has the inode number `ino`. -/
def FoundFirst (g : Geometry) (n : Nat) (records : Nat → List Dirent) (name : List UInt8)
    (ino : UInt32) : Prop :=
  ∃ b < n, ∃ r ∈ records b, r.Named name ∧ r.inode = ino ∧ Findable g records b r

/-- A record does not cross into a sector that the walk enters at a record. -/
lemma SectorsStart.inSector (hg : BlockSizeShift g k) {block : UInt32} {rs : List Dirent}
    (ht : RecordsTile g sectors block 0 rs) (hstart : SectorsStart g rs) (hR : R ∈ rs)
    (hcount : (sectorsPerBlock g).toNat < 256 ∨ R.pos / blockSize + 1 < 256) : R.InSector := by
  by_cases hlt : R.pos / blockSize + 1 < (sectorsPerBlock g).toNat
  · apply ht.inSector hR
    exact hstart (R.pos / blockSize + 1) (by omega) hlt
  · have hend := ht.end_le hR
    have hsec := ht.sector_lt hg hR
    have hb := hg.blockSize_eq
    unfold Dirent.InSector
    simp only [blockSize] at *
    omega

/-- The first record with the name that is looked at can be found. -/
lemma findable_of_first (hg : BlockSizeShift g k) (hdir : WellFormedDir g sectors tmp n records)
    (hstart : EntersAtRecords g n records) {i : Nat} (hi : i < n)
    (hcount : (sectorsPerBlock g).toNat < 256 ∨ i = 0) (hR : R ∈ records i) (hlast : R.NotLast)
    (hbyte : R.pos / blockSize < 256)
    (hnone : ∀ j < i, ∀ p ∈ records j, p.NotLast → ¬ p.Named R.name)
    (hbefore : ∀ p ∈ records i, p.pos < R.pos → p.NotLast → ¬ p.Named R.name) :
    Findable g records i R := by
  refine ⟨hlast, hcount.imp_right fun h => ⟨h, hbyte⟩, ?_⟩
  intro j hj p hp hlt
  rcases Nat.lt_or_eq_of_le hj with hji | rfl
  · have hsmall : (sectorsPerBlock g).toNat < 256 := by omega
    have hjn := Nat.lt_trans hji hi
    have hin := (hstart j hjn (.inl hsmall)).inSector hg (hdir.tiles j hjn) hp (.inl hsmall)
    exact ⟨hin, hnone j hji p hp⟩
  · have hlt' : p.pos < R.pos := by omega
    refine ⟨?_, hbefore p hp hlt'⟩
    have ht := hdir.tiles j hi
    have hle := Nat.div_le_div_right (c := blockSize) hlt'.le
    rcases Nat.lt_or_eq_of_le hle with hsec | hsec
    · exact (hstart j hi hcount).inSector hg ht hp (.inr (by omega))
    · exact (ht.notLast hp hR hlast hlt'.le hsec).inSector

lemma walkBlocks_sound (hg : BlockSizeShift g k) (hdir : WellFormedDir g sectors tmp n records)
    (hstart : EntersAtRecords g n records) (hname : PassedName filename len name) {m i : Nat}
    (hm : m + i = 12) (hcount : (sectorsPerBlock g).toNat < 256 ∨ i = 0)
    (hnone : ∀ j < i, ∀ p ∈ records j, p.NotLast → ¬ p.Named name) {ino : UInt32}
    (h : walkBlocks g sectors filename len tmp fuel m i size = .ok (.found ino)) :
    FoundFirst g n records name ino := by
  induction m generalizing i size with
  | zero => cases h
  | succ m ih =>
    rw [walkBlocks] at h
    simp only [directBlock_ok tmp (by omega : i < 22), bind, Except.bind] at h
    split at h
    · cases h
    · next hp =>
      have hi := (hdir.direct i (by omega)).mp hp
      have ht := hdir.tiles i hi
      split at h
      · cases h
      · next w hw =>
        have hfirst : NoneBefore (records i) name (0 : UInt8).toNat :=
          fun p _ hlt => absurd hlt (Nat.not_lt_zero _)
        have htells := walkSectors_sound hg ht (hstart i hi hcount) hname hfirst hw
        split at h
        · -- the counter gets to the end of the block only with fewer sectors
          have hsmall : (sectorsPerBlock g).toNat < 256 := by
            by_contra hl
            exact walkSectors_ne_more (by omega) hw
          apply ih (by omega) (.inl hsmall) _ h
          intro j hj q hq
          rcases Nat.lt_succ_iff_lt_or_eq.mp hj with hlt | rfl
          · exact hnone j hlt q hq
          · exact htells q hq (ht.sector_lt hg hq)
        · cases h
          obtain ⟨q, hq, hlast, hnamed, hbyte, hino, hbefore⟩ := htells
          have hfind := findable_of_first hg hdir hstart hi hcount hq hlast hbyte
            (by rwa [hnamed.2]) (by rwa [hnamed.2])
          exact ⟨i, hi, q, hq, hnamed, hino, hfind⟩

lemma walkBlocks_reach (hg : BlockSizeShift g k) (hdir : WellFormedDir g sectors tmp n records)
    (hb : b < n) (hR : R ∈ records b) (hlive : R.inode ≠ 0)
    (hname : PassedName filename len R.name) (hfind : Findable g records b R) {m i : Nat}
    (hm : m + i = 12) (hi : i ≤ b) (hfuel : blockSize ≤ fuel)
    (hsize : size.toNat ≤ i * g.blockSize.toNat) :
    walkBlocks g sectors filename len tmp fuel m i size = .ok (.found R.inode) := by
  have hblocks := hdir.blocks
  have hlow := hdir.size
  have h512 : blockSize = 512 := rfl
  have hzero : blockSize * (0 : UInt8).toNat = 0 := rfl
  induction m generalizing i size with
  | zero => omega
  | succ m ih =>
    have hp : pointer tmp i ≠ 0 := (hdir.direct i (by omega)).mpr (by omega)
    have ht := hdir.tiles i (by omega)
    have hmul := Nat.mul_le_mul_right g.blockSize.toNat (show i + 1 ≤ n by omega)
    rw [Nat.succ_mul] at hmul
    rw [walkBlocks]
    simp only [directBlock_ok tmp (by omega : i < 22), bind, Except.bind, if_neg hp]
    rcases Nat.eq_or_lt_of_le hi with rfl | hlt
    · have hRlt := ht.sector_lt hg hR
      have hbyte : R.pos / blockSize < 256 := by
        rcases hfind.counted with hs | hs
        · omega
        · exact hs.2
      have hle : blockSize * (R.pos / blockSize + 1) ≤ g.blockSize.toNat := by
        rw [hg.blockSize_eq]
        exact Nat.mul_le_mul_left blockSize hRlt
      have hleft : size.toNat + blockSize * (R.pos / blockSize + 1) ≤
          tmp.sizeLow.toNat + blockSize * (0 : UInt8).toNat := by omega
      rw [walkSectors_reach hg ht hname hR hfind.notLast ⟨hlive, rfl⟩
        (fun q hq hlt => hfind.before i (Nat.le_refl i) q hq (.inr hlt)) (Nat.zero_le _) hbyte hfuel
        (show R.pos / blockSize < 0 + fuel by omega) hleft]
    · have hsmall : (sectorsPerBlock g).toNat < 256 := by
        rcases hfind.counted with hs | hs
        · exact hs
        · omega
      have hleft : size.toNat + g.blockSize.toNat ≤
          tmp.sizeLow.toNat + blockSize * (0 : UInt8).toNat := by omega
      obtain ⟨size', hw, hle⟩ := walkSectors_past hg ht hname
        (fun q hq => hfind.before i hi q hq (.inl hlt)) hsmall (Nat.zero_le _) hfuel
        (show _ ≤ 0 + fuel by omega) hleft
      simp only [hw]
      apply ih
      · omega
      · omega
      · rw [Nat.succ_mul]
        omega

lemma FoundFirst.walkBlocks (hg : BlockSizeShift g k) (hdir : WellFormedDir g sectors tmp n records)
    (hname : PassedName filename len name) (hfuel : blockSize ≤ fuel) {ino : UInt32}
    (hfirst : FoundFirst g n records name ino) :
    SaxonOS.walkBlocks g sectors filename len tmp fuel 12 0 0 = .ok (.found ino) := by
  obtain ⟨b, hb, r, hr, ⟨hlive, rfl⟩, rfl, hfind⟩ := hfirst
  exact walkBlocks_reach hg hdir hb hr hlive hname hfind rfl (Nat.zero_le b) hfuel (Nat.zero_le _)

variable {dir result : Inode} {bh : UInt32}

/-- `*result_inode` after the record with the inode number `ino` was found. -/
def foundInode (result : Inode) (ino : UInt32) (record : Ext2Inode) : Inode :=
  { result with iNo := ino, size := record.sizeLow,
                permissions := record.typePermissions.toUInt32 }

lemma ext2Lookup_found {ino bh' : UInt32} {record : Ext2Inode}
    (hholds : readInode g sectors dir.iNo = .ok (bh, tmp)) (hlen : len ≠ 0)
    (htype : tmp.typePermissions ≠ 0)
    (hw : walkBlocks g sectors filename len tmp fuel 12 0 0 = .ok (.found ino))
    (hino : readInode g sectors ino = .ok (bh', record)) :
    ext2Lookup g sectors fuel dir filename len result =
      .ok (0, foundInode result ino record, []) := by
  simp only [ext2Lookup, hholds, bind, Except.bind, if_neg hlen, if_neg htype, hw, hino]
  rfl

lemma ext2Lookup_inv {result' : Inode} {held : List UInt32}
    (hholds : readInode g sectors dir.iNo = .ok (bh, tmp))
    (h : ext2Lookup g sectors fuel dir filename len result = .ok (0, result', held)) :
    ∃ ino bh' record, walkBlocks g sectors filename len tmp fuel 12 0 0 = .ok (.found ino) ∧
      readInode g sectors ino = .ok (bh', record) ∧ result' = foundInode result ino record := by
  simp only [ext2Lookup, hholds, bind, Except.bind] at h
  split at h
  · simp at h
  · split at h
    · simp at h
    · split at h
      · cases h
      · next w hw =>
        split at h
        · next ino =>
          split at h
          · cases h
          · next x hx =>
            obtain ⟨bh', record⟩ := x
            cases h
            exact ⟨ino, bh', record, hw, hx, rfl⟩
        · simp at h
        · simp at h

lemma WellFormedDir.type_ne_zero (hdir : WellFormedDir g sectors tmp n records) :
    tmp.typePermissions ≠ 0 := by
  intro hz
  have := hdir.directory
  rw [hz] at this
  exact absurd this (by decide)

lemma PassedName.len_ne_zero (hname : PassedName filename len name) (hne : name ≠ []) :
    len ≠ 0 := by
  rintro rfl
  have hlen : (0 : Int) = name.length := hname.length
  have : name.length = 0 := by omega
  exact hne (List.length_eq_zero_iff.mp this)

/-- The call returns 0 with the inode number `ino`. -/
def Finds (g : Geometry) (sectors : Sectors) (dir : Inode) (filename : Bytes) (len : Int32)
    (ino : UInt32) : Prop :=
  ∀ result, ∃ fuel result' held,
    ext2Lookup g sectors fuel dir filename len result = .ok (0, result', held) ∧ result'.iNo = ino

lemma FoundFirst.finds (hg : BlockSizeShift g k) (hdir : WellFormedDir g sectors tmp n records)
    (hholds : readInode g sectors dir.iNo = .ok (bh, tmp)) (hne : name ≠ []) {ino : UInt32}
    (hino : ∃ x, readInode g sectors ino = .ok x) (hname : PassedName filename len name)
    (hfirst : FoundFirst g n records name ino) : Finds g sectors dir filename len ino := by
  obtain ⟨⟨bh', record⟩, hrec⟩ := hino
  intro result
  exact ⟨blockSize, foundInode result ino record, [],
    ext2Lookup_found hholds (hname.len_ne_zero hne) hdir.type_ne_zero
      (hfirst.walkBlocks hg hdir hname (Nat.le_refl blockSize)) hrec, rfl⟩

lemma Finds.foundFirst (hg : BlockSizeShift g k) (hdir : WellFormedDir g sectors tmp n records)
    (hholds : readInode g sectors dir.iNo = .ok (bh, tmp)) (hstart : EntersAtRecords g n records)
    (hname : PassedName filename len name) {ino : UInt32}
    (h : Finds g sectors dir filename len ino) : FoundFirst g n records name ino := by
  obtain ⟨fuel, result', held, hcall, hino⟩ := h dir
  obtain ⟨ino', bh', record, hw, -, rfl⟩ := ext2Lookup_inv hholds hcall
  cases hino
  exact walkBlocks_sound hg hdir hstart hname rfl (.inr rfl)
    (fun j hj => absurd hj (Nat.not_lt_zero j)) hw

/-- A live record is found where the first one with its name that is looked at has its inode
number and nothing before that stands in the way, and where the sectors start with records it is
found only then. -/
theorem ext2_lookup_finds (hg : BlockSizeShift g k) (hdir : WellFormedDir g sectors tmp n records)
    (hholds : readInode g sectors dir.iNo = .ok (bh, tmp)) :
    ∀ b < n, ∀ R ∈ records b, R.inode ≠ 0 → R.name ≠ [] →
      (∃ x, readInode g sectors R.inode = .ok x) → ∀ filename len,
      PassedName filename len R.name →
      (FoundFirst g n records R.name R.inode → Finds g sectors dir filename len R.inode) ∧
      (EntersAtRecords g n records →
        (Finds g sectors dir filename len R.inode ↔ FoundFirst g n records R.name R.inode)) := by
  intro b _ R _ _ hne hino filename len hname
  have hsuff : FoundFirst g n records R.name R.inode → Finds g sectors dir filename len R.inode :=
    FoundFirst.finds hg hdir hholds hne hino hname
  refine ⟨hsuff, fun hstart => ⟨?_, hsuff⟩⟩
  exact Finds.foundFirst hg hdir hholds hstart hname

end Directory

def dotEntry : Dirent := ⟨0, 1, 12, [0x2E]⟩

/-- A file `a`, whose record reaches the end of the first sector. -/
def lastEntry : Dirent := ⟨12, 3, 500, [0x61]⟩

def freeEntry : Dirent := ⟨512, 0, 512, []⟩

def namesDisk : Sectors :=
  dirDisk
    (fun i =>
      match i with
      | 0 => 1 | 4 => 12 | 6 => 1 | 8 => 0x2E
      | 12 => 3 | 16 => 0xF4 | 17 => 1 | 18 => 1 | 20 => 0x61
      | _ => 0)
    (fun i => if i = 5 then 2 else 0)

lemma namesDisk_wellFormed :
    WellFormedDir smallGeometry namesDisk dirRecord 1
      fun _ => [dotEntry, lastEntry, freeEntry] := by
  apply dirDisk_wellFormed
  have hdot : DirentAt smallGeometry namesDisk (pointer dirRecord 0) dotEntry := by
    constructor <;> decide +kernel
  have hlast : DirentAt smallGeometry namesDisk (pointer dirRecord 0) lastEntry := by
    constructor <;> decide +kernel
  have hfree : DirentAt smallGeometry namesDisk (pointer dirRecord 0) freeEntry := by
    constructor <;> decide +kernel
  exact ⟨rfl, hdot, rfl, hlast, rfl, hfree, rfl⟩

lemma namesDisk_enters :
    EntersAtRecords smallGeometry 1 fun _ => [dotEntry, lastEntry, freeEntry] := by
  intro i _ _ s _ hs
  have hs' : s < 2 := hs
  rcases Nat.lt_succ_iff_lt_or_eq.mp hs' with hlt | rfl
  · obtain rfl : s = 0 := by omega
    exact ⟨dotEntry, by simp, rfl⟩
  · exact ⟨freeEntry, by simp, rfl⟩

lemma namesDisk_dot_first :
    FoundFirst smallGeometry 1 (fun _ => [dotEntry, lastEntry, freeEntry]) [0x2E] 1 := by
  refine ⟨0, Nat.one_pos, dotEntry, by simp, by decide, rfl, ?_, .inl (by decide), ?_⟩
  · unfold Dirent.NotLast
    decide
  · intro i hi q _ hbefore
    rcases hbefore with hlt | hlt
    · omega
    · exact absurd hlt (Nat.not_lt_zero _)

/-- The name `.` comes first and is found. -/
theorem ext2_lookup_finds_dot :
    Finds smallGeometry namesDisk dirInode (fun _ => .ok 0x2E) 1 1 ∧
      (Finds smallGeometry namesDisk dirInode (fun _ => .ok 0x2E) 1 1 ↔
        FoundFirst smallGeometry 1 (fun _ => [dotEntry, lastEntry, freeEntry]) [0x2E] 1) := by
  have h := ext2_lookup_finds smallGeometry_shift namesDisk_wellFormed (dirDisk_holds _ _) 0
    Nat.one_pos dotEntry List.mem_cons_self (by decide) (by decide) ⟨_, dirDisk_holds _ _⟩
    (fun _ => .ok 0x2E) 1 ⟨by decide, by decide⟩
  exact ⟨h.1 namesDisk_dot_first, h.2 namesDisk_enters⟩

/-- The name `a` is in the directory and is not found. -/
theorem ext2_lookup_misses_last :
    ¬ Finds smallGeometry namesDisk dirInode (fun _ => .ok 0x61) 1 3 ∧
      ¬ ∀ g k sectors dir tmp bh n records b R filename len, BlockSizeShift g k →
        WellFormedDir g sectors tmp n records → readInode g sectors dir.iNo = .ok (bh, tmp) →
        b < n → R ∈ records b → R.inode ≠ 0 → R.name ≠ [] →
        (∃ x, readInode g sectors R.inode = .ok x) → PassedName filename len R.name →
        Finds g sectors dir filename len R.inode := by
  have hname : PassedName (fun _ => .ok 0x61) 1 lastEntry.name := ⟨by decide, by decide⟩
  have hmiss : ¬ Finds smallGeometry namesDisk dirInode (fun _ => .ok 0x61) 1 lastEntry.inode := by
    intro h
    obtain ⟨b, -, r, hr, hnamed, -, hfind⟩ := h.foundFirst smallGeometry_shift namesDisk_wellFormed
      (dirDisk_holds _ _) namesDisk_enters hname
    have honly : ∀ r ∈ [dotEntry, lastEntry, freeEntry], r.Named lastEntry.name →
        r = lastEntry := by
      decide
    rw [honly r hr hnamed] at hfind
    exact absurd hfind.notLast (by unfold Dirent.NotLast; decide)
  refine ⟨hmiss, fun hall => hmiss ?_⟩
  apply hall smallGeometry 0 namesDisk dirInode dirRecord 10 1 _ 0 lastEntry _ _
    smallGeometry_shift namesDisk_wellFormed (dirDisk_holds _ _) Nat.one_pos (by simp) (by decide)
    (by decide) _ hname
  exact ⟨_, rfl⟩

end SaxonOS.Proofs
