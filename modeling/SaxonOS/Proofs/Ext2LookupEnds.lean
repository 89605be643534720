import SaxonOS.Proofs.Ext2Records
import SaxonOS.Proofs.Ext2Truthful

/-!
# Whether a lookup ends

The three loops of `ext2_lookup` as one machine. Every step goes on to a later place of the
directory, except over a record of size 0, which it comes back to. `memory s` is what is at and
after the payload of sector `s`.
-/

namespace SaxonOS.Proofs
open SaxonOS Lib

/-- Where `ext2_lookup` is: before the test of block `i`, before the test of its sector `c`, or at
the record `de` of this sector. -/
inductive LookupPos
  | block (i : Nat) (size : UInt32)
  | sector (i : Nat) (c : UInt8) (size : UInt32)
  | record (i : Nat) (c : UInt8) (s : Nat × UInt32)

def sectorAt (g : Geometry) (tmp : Ext2Inode) (i : Nat) (c : UInt8) : UInt32 :=
  addrOfBlock g (pointer tmp i) + c.toUInt32

def lookupStep (g : Geometry) (tmp : Ext2Inode) (memory : UInt32 → Nat → UInt8)
    (name : Nat → UInt8) (len : Int32) : LookupPos → Walk ⊕ LookupPos
  | .block i size =>
    if i < 12 then if pointer tmp i = 0 then .inl (.stop []) else .inr (.sector i 0 size)
    else .inl (.more size)
  | .sector i c size =>
    if c.toUInt32 < sectorsPerBlock g then .inr (.record i c (0, size))
    else .inr (.block (i + 1) size)
  | .record i c s =>
    match recordStep (memory (sectorAt g tmp i c)) name len tmp.sizeLow (sectorAt g tmp i c) s with
    | .inl (.more size) => .inr (.sector i (c + 1) size)
    | .inl w => .inl w
    | .inr s => .inr (.record i c s)

/-- The walk of `ext2_lookup` ends after finitely many steps. -/
def LookupEnds (g : Geometry) (tmp : Ext2Inode) (memory : UInt32 → Nat → UInt8)
    (name : Nat → UInt8) (len : Int32) : Prop :=
  Halts (lookupStep g tmp memory name len) (.block 0 0)

/-- The walk comes to a record of size 0 that is not the one it looks for. -/
def MeetsZeroRecord (g : Geometry) (tmp : Ext2Inode) (memory : UInt32 → Nat → UInt8)
    (name : Nat → UInt8) (len : Int32) : Prop :=
  ∃ i c s, Passes (lookupStep g tmp memory name len) (.block 0 0) (.record i c s) ∧
    entrySizeAt (memory (sectorAt g tmp i c)) s.1 = 0 ∧
    ¬NameMatches (memory (sectorAt g tmp i c)) name len s.1

section Machine

variable {g : Geometry} {k : Nat} {tmp : Ext2Inode} {memory : UInt32 → Nat → UInt8}
  {name : Nat → UInt8} {len : Int32}

/-- The steps of a record. -/
lemma recordStep_inr {b : Nat → UInt8} {sizeLow block : UInt32} {s s' : Nat × UInt32}
    (h : recordStep b name len sizeLow block s = .inr s') :
    s.1 + (entrySizeAt b s.1).toNat < blockSize ∧ ¬NameMatches b name len s.1 ∧
      ¬s.2 + (entrySizeAt b s.1).toUInt32 > sizeLow ∧
      s' = (s.1 + (entrySizeAt b s.1).toNat, s.2 + (entrySizeAt b s.1).toUInt32) := by
  rw [recordStep] at h
  split_ifs at h with hlt hm hover
  cases h
  exact ⟨hlt, hm, hover, rfl⟩

lemma recordStep_more {b : Nat → UInt8} {sizeLow block size : UInt32} {s : Nat × UInt32}
    (h : recordStep b name len sizeLow block s = .inl (.more size)) : size = s.2 := by
  rw [recordStep] at h
  split_ifs at h <;> cases h
  rfl

/-- How much of the directory is still ahead. -/
def ahead (g : Geometry) : LookupPos → Nat
  | .block i _ => (12 - i) * ((sectorsPerBlock g).toNat * 514 + 2)
  | .sector i c _ => (11 - i) * ((sectorsPerBlock g).toNat * 514 + 2) +
      ((sectorsPerBlock g).toNat - c.toNat) * 514 + 1
  | .record i c s => (11 - i) * ((sectorsPerBlock g).toNat * 514 + 2) +
      ((sectorsPerBlock g).toNat - c.toNat - 1) * 514 + (512 - s.1) + 2

lemma BlockSizeShift.sectors_lt (hg : BlockSizeShift g k) (hk : k ≤ 6) :
    (sectorsPerBlock g).toNat < 256 := by
  have hpow : 2 ^ k ≤ 2 ^ 6 := Nat.pow_le_pow_right (by decide) hk
  rw [hg.sectors_eq]
  omega

/-- The sizes counted so far have not passed `size_low`, and the record is inside its sector. -/
def LookupInv (g : Geometry) (sizeLow : UInt32) : LookupPos → Prop
  | .block _ size => size ≤ sizeLow
  | .sector _ _ size => size ≤ sizeLow
  | .record _ c s => c.toNat < (sectorsPerBlock g).toNat ∧ s.1 < blockSize ∧ s.2 ≤ sizeLow

/-- What a step at a record can do. -/
lemma lookupStep_record {i : Nat} {c : UInt8} {s : Nat × UInt32} {p : LookupPos}
    (h : lookupStep g tmp memory name len (.record i c s) = .inr p) :
    (p = .sector i (c + 1) s.2) ∨
      ∃ s', recordStep (memory (sectorAt g tmp i c)) name len tmp.sizeLow (sectorAt g tmp i c) s =
        .inr s' ∧ p = .record i c s' := by
  rw [lookupStep] at h
  split at h
  · next size hstep =>
    cases h
    rw [recordStep_more hstep]
    exact .inl rfl
  · cases h
  · next s' hstep =>
    cases h
    exact .inr ⟨s', hstep, rfl⟩

lemma lookupStep_keeps {p p' : LookupPos} (hp : LookupInv g tmp.sizeLow p)
    (h : lookupStep g tmp memory name len p = .inr p') : LookupInv g tmp.sizeLow p' := by
  cases p with
  | block i size =>
    rw [lookupStep] at h
    split_ifs at h
    cases h
    exact hp
  | sector i c size =>
    rw [lookupStep] at h
    split_ifs at h with hc
    · cases h
      exact ⟨sector_in_block.mp hc, blockSize_pos, hp⟩
    · cases h
      exact hp
  | record i c s =>
    rcases lookupStep_record h with rfl | ⟨s', hstep, rfl⟩
    · exact hp.2.2
    · obtain ⟨hlt, -, hover, rfl⟩ := recordStep_inr hstep
      exact ⟨hp.1, hlt, UInt32.not_lt.mp hover⟩

/-- Every step goes on, or comes back to the same record. -/
lemma lookupStep_less (hsmall : (sectorsPerBlock g).toNat < 256) {p p' : LookupPos}
    (hp : LookupInv g tmp.sizeLow p) (h : lookupStep g tmp memory name len p = .inr p') :
    p' = p ∨ ahead g p' < ahead g p := by
  cases p with
  | block i size =>
    rw [lookupStep] at h
    split_ifs at h with hi hz
    cases h
    right
    have hsucc : 12 - i = (11 - i) + 1 := by omega
    simp only [ahead, hsucc, Nat.succ_mul]
    have hzero : (0 : UInt8).toNat = 0 := rfl
    rw [hzero]
    omega
  | sector i c size =>
    rw [lookupStep] at h
    right
    split_ifs at h with hc
    · cases h
      have hlt := sector_in_block.mp hc
      simp only [ahead]
      omega
    · cases h
      have hsucc : 12 - (i + 1) = 11 - i := by omega
      simp only [ahead, hsucc]
      omega
  | record i c s =>
    rcases lookupStep_record h with rfl | ⟨s', hstep, rfl⟩
    · right
      have hnext : (c + 1).toNat = c.toNat + 1 := toNat_next_sector (by have := hp.1; omega)
      simp only [ahead, hnext]
      omega
    · obtain ⟨hlt, -, -, rfl⟩ := recordStep_inr hstep
      rcases Nat.eq_zero_or_pos (entrySizeAt (memory (sectorAt g tmp i c)) s.1).toNat with hz | hpos
      · left
        have hzero : entrySizeAt (memory (sectorAt g tmp i c)) s.1 = 0 := UInt16.toNat_inj.mp hz
        rw [hzero]
        simp
      · right
        have hs : s.1 + (entrySizeAt (memory (sectorAt g tmp i c)) s.1).toNat < 512 := hlt
        simp only [ahead]
        omega

/-- A record of size 0 is followed by itself. -/
lemma recordStep_still {i : Nat} {c : UInt8} {s : Nat × UInt32}
    (hp : LookupInv g tmp.sizeLow (.record i c s))
    (hz : entrySizeAt (memory (sectorAt g tmp i c)) s.1 = 0)
    (hm : ¬NameMatches (memory (sectorAt g tmp i c)) name len s.1) :
    recordStep (memory (sectorAt g tmp i c)) name len tmp.sizeLow (sectorAt g tmp i c) s =
      .inr s := by
  have hlt : s.1 + (0 : UInt16).toNat < blockSize := hp.2.1
  have hsame : s.2 + (0 : UInt16).toUInt32 = s.2 := UInt32.add_zero s.2
  have hover : ¬s.2 > tmp.sizeLow := UInt32.not_lt.mpr hp.2.2
  rw [recordStep, hz, if_pos hlt, if_neg hm, hsame, if_neg hover]
  rfl

/-- The states that a step does not leave. -/
lemma lookupStep_still_iff {p : LookupPos} (hp : LookupInv g tmp.sizeLow p) :
    lookupStep g tmp memory name len p = .inr p ↔
      ∃ i c s, p = .record i c s ∧ entrySizeAt (memory (sectorAt g tmp i c)) s.1 = 0 ∧
        ¬NameMatches (memory (sectorAt g tmp i c)) name len s.1 := by
  constructor
  · intro h
    cases p with
    | block i size =>
      rw [lookupStep] at h
      split_ifs at h
      cases h
    | sector i c size =>
      rw [lookupStep] at h
      split_ifs at h <;> cases h
    | record i c s =>
      rcases lookupStep_record h with hsec | ⟨s', hstep, hs'⟩
      · cases hsec
      · cases hs'
        obtain ⟨-, hm, -, heq⟩ := recordStep_inr hstep
        have hfirst := congrArg Prod.fst heq
        have hz : (entrySizeAt (memory (sectorAt g tmp i c)) s.1).toNat = 0 := by
          dsimp only at hfirst
          omega
        exact ⟨i, c, s, rfl, UInt16.toNat_inj.mp hz, hm⟩
  · rintro ⟨i, c, s, rfl, hz, hm⟩
    rw [lookupStep, recordStep_still hp hz hm]

/-- The invariant at every position that the walk comes to. -/
lemma lookupInv_of_passes {p : LookupPos}
    (hpass : Passes (lookupStep g tmp memory name len) (.block 0 0) p) :
    LookupInv g tmp.sizeLow p :=
  hpass.keeps (P := LookupInv g tmp.sizeLow) (fun _ _ => lookupStep_keeps) UInt32.zero_le

lemma lookupEnds_iff (hsmall : (sectorsPerBlock g).toNat < 256) :
    LookupEnds g tmp memory name len ↔ ¬MeetsZeroRecord g tmp memory name len := by
  have hstart : LookupInv g tmp.sizeLow (.block 0 0) := UInt32.zero_le
  have hkeeps : ∀ p p', LookupInv g tmp.sizeLow p →
      lookupStep g tmp memory name len p = .inr p' → LookupInv g tmp.sizeLow p' :=
    fun _ _ => lookupStep_keeps
  rw [LookupEnds, halts_iff_never_still hkeeps (fun p p' => lookupStep_less hsmall) hstart]
  constructor
  · rintro h ⟨i, c, s, hpass, hz, hm⟩
    exact h _ hpass ((lookupStep_still_iff (lookupInv_of_passes hpass)).mpr ⟨i, c, s, rfl, hz, hm⟩)
  · intro h p hpass hstill
    obtain ⟨i, c, s, rfl, hz, hm⟩ :=
      (lookupStep_still_iff (lookupInv_of_passes hpass)).mp hstill
    exact h ⟨i, c, s, hpass, hz, hm⟩

end Machine

/-! ### The loops of the model -/

section Loops

variable (g : Geometry) (sectors : Sectors) (filename : Bytes) (len : Int32) (tmp : Ext2Inode)

/-- What is left of the walk before the test of block `i`. -/
def restBlock (F i : Nat) (size : UInt32) : Except Fault Walk :=
  walkBlocks g sectors filename len tmp F (12 - i) i size

def restSector (f F i : Nat) (c : UInt8) (size : UInt32) : Except Fault Walk := do
  let walk ← walkSectors g sectors filename len tmp.sizeLow (pointer tmp i) F f c size
  match walk with
  | .more size => restBlock g sectors filename len tmp F (i + 1) size
  | walk => .ok walk

def restRecord (r f F i : Nat) (c : UInt8) (s : Nat × UInt32) : Except Fault Walk := do
  let walk ← walkRecords sectors (sectorAt g tmp i c) filename len tmp.sizeLow r s.1 s.2
  match walk with
  | .more size => restSector g sectors filename len tmp f F i (c + 1) size
  | walk => .ok walk

/-- What is left of the walk, with `r` turns for the records of the sector, `f` for the sectors
of the block, and `F` for each loop entered later. -/
def lookupRest (r f F : Nat) : LookupPos → Except Fault Walk
  | .block i size => restBlock g sectors filename len tmp F i size
  | .sector i c size => restSector g sectors filename len tmp f F i c size
  | .record i c s => restRecord g sectors filename len tmp r f F i c s

variable {g sectors filename len tmp} {k : Nat} {memory : UInt32 → Nat → UInt8}
  {name : Nat → UInt8}

lemma restBlock_step {F i : Nat} {size : UInt32} (hi : i < 12) :
    restBlock g sectors filename len tmp F i size =
      if pointer tmp i = 0 then .ok (.stop [])
      else restSector g sectors filename len tmp F F i 0 size := by
  have hsucc : 12 - i = (12 - (i + 1)) + 1 := by omega
  rw [restBlock, hsucc, walkBlocks]
  simp only [directBlock_ok tmp (show i < 22 by omega), bind, Except.bind]
  rfl

lemma restSector_step {f F i : Nat} {c : UInt8} {size : UInt32}
    (hc : c.toUInt32 < sectorsPerBlock g) :
    restSector g sectors filename len tmp (f + 1) F i c size =
      restRecord g sectors filename len tmp F f F i c (0, size) := by
  rw [restSector, walkSectors, if_pos hc, restRecord]
  simp only [bind, Except.bind, sectorAt]
  cases walkRecords sectors (addrOfBlock g (pointer tmp i) + c.toUInt32) filename len tmp.sizeLow F
    0 size with
  | error e => rfl
  | ok w => cases w <;> rfl

lemma restSector_end {f F i : Nat} {c : UInt8} {size : UInt32}
    (hc : ¬c.toUInt32 < sectorsPerBlock g) :
    restSector g sectors filename len tmp f F i c size =
      restBlock g sectors filename len tmp F (i + 1) size := by
  rw [restSector, walkSectors_end hc]
  rfl

/-- What the walk of the records gives next, where it stays inside the payload. -/
lemma restRecord_of_more {r f F i : Nat} {c : UInt8} {s : Nat × UInt32}
    (h : walkRecords sectors (sectorAt g tmp i c) filename len tmp.sizeLow r s.1 s.2 =
      .ok (.more s.2)) :
    restRecord g sectors filename len tmp r f F i c s =
      restSector g sectors filename len tmp f F i (c + 1) s.2 := by
  rw [restRecord, h]
  rfl

/-- The loops and the machine do the same at every position, unless the loops leave a payload or
have no turn left. -/
lemma lookupRest_step (hb : ∀ s i (h : i < blockSize), sectors s ⟨i, h⟩ = memory s i)
    (hname : ∀ i : Nat, (i : Int) < len.toInt → filename i = .ok (name i)) (r f F : Nat)
    (p : LookupPos) :
    lookupRest g sectors filename len tmp r f F p = .error .outOfBounds ∨
    (lookupRest g sectors filename len tmp r f F p = .error .diverge ∧ (r = 0 ∨ f = 0)) ∨
    (∃ w, lookupStep g tmp memory name len p = .inl w ∧
      lookupRest g sectors filename len tmp r f F p = .ok w) ∨
    ∃ p' r' f', lookupStep g tmp memory name len p = .inr p' ∧ min r F ≤ r' + 1 ∧
      min f F ≤ f' + 1 ∧ lookupRest g sectors filename len tmp r f F p =
        lookupRest g sectors filename len tmp r' f' F p' := by
  cases p with
  | block i size =>
    right
    right
    by_cases hi : i < 12
    · by_cases hz : pointer tmp i = 0
      · refine .inl ⟨.stop [], by rw [lookupStep, if_pos hi, if_pos hz], ?_⟩
        rw [lookupRest, restBlock_step hi, if_pos hz]
      · refine .inr ⟨.sector i 0 size, r, F, by rw [lookupStep, if_pos hi, if_neg hz], by omega,
          by omega, ?_⟩
        rw [lookupRest, restBlock_step hi, if_neg hz, lookupRest]
    · refine .inl ⟨.more size, by rw [lookupStep, if_neg hi], ?_⟩
      have hnone : 12 - i = 0 := by omega
      rw [lookupRest, restBlock, hnone, walkBlocks]
  | sector i c size =>
    by_cases hc : c.toUInt32 < sectorsPerBlock g
    · cases f with
      | zero =>
        refine .inr (.inl ⟨?_, .inr rfl⟩)
        rw [lookupRest, restSector, walkSectors_out_of_fuel hc]
        rfl
      | succ f =>
        refine .inr (.inr (.inr ⟨.record i c (0, size), F, f, by rw [lookupStep, if_pos hc],
          by omega, by omega, ?_⟩))
        rw [lookupRest, restSector_step hc, lookupRest]
    · refine .inr (.inr (.inr ⟨.block (i + 1) size, r, f, by rw [lookupStep, if_neg hc], by omega,
        by omega, ?_⟩))
      exact restSector_end hc
  | record i c s =>
    cases r with
    | zero =>
      have hlast : walkRecords sectors (sectorAt g tmp i c) filename len tmp.sizeLow 0 s.1 s.2 =
          _ := walkRecords_last_test (hb (sectorAt g tmp i c))
      by_cases hsize : s.1 + 6 ≤ blockSize
      · rw [if_pos hsize] at hlast
        by_cases hlt : s.1 + (entrySizeAt (memory (sectorAt g tmp i c)) s.1).toNat < blockSize
        · rw [if_pos hlt] at hlast
          refine .inr (.inl ⟨?_, .inl rfl⟩)
          rw [lookupRest, restRecord, hlast]
          rfl
        · rw [if_neg hlt] at hlast
          refine .inr (.inr (.inr ⟨.sector i (c + 1) s.2, 0, f, ?_, by omega, by omega, ?_⟩))
          · rw [lookupStep, recordStep, if_neg hlt]
          · exact restRecord_of_more hlast
      · rw [if_neg hsize] at hlast
        left
        rw [lookupRest, restRecord, hlast]
        rfl
    | succ r =>
      by_cases hin : RecordInside (memory (sectorAt g tmp i c)) name len s.1
      · have hwalk : walkRecords sectors (sectorAt g tmp i c) filename len tmp.sizeLow (r + 1) s.1
            s.2 = _ := walkRecords_inside (hb (sectorAt g tmp i c)) hname hin
        right
        right
        rw [lookupStep]
        cases hstep : recordStep (memory (sectorAt g tmp i c)) name len tmp.sizeLow
            (sectorAt g tmp i c) s with
        | inr s' =>
          rw [hstep] at hwalk
          refine .inr ⟨.record i c s', r, f, rfl, by omega, by omega, ?_⟩
          rw [lookupRest, restRecord, hwalk, lookupRest, restRecord]
        | inl w =>
          rw [hstep] at hwalk
          cases w with
          | more size =>
            rw [recordStep_more hstep] at hwalk ⊢
            refine .inr ⟨.sector i (c + 1) s.2, r, f, rfl, by omega, by omega, ?_⟩
            exact restRecord_of_more hwalk
          | found ino =>
            refine .inl ⟨.found ino, rfl, ?_⟩
            rw [lookupRest, restRecord, hwalk]
            rfl
          | stop held =>
            refine .inl ⟨.stop held, rfl, ?_⟩
            rw [lookupRest, restRecord, hwalk]
            rfl
      · left
        rw [lookupRest, restRecord, walkRecords_outside (hb (sectorAt g tmp i c)) hname hin]
        rfl

/-- A machine that halts is followed to its end. -/
lemma lookupRest_halts (hb : ∀ s i (h : i < blockSize), sectors s ⟨i, h⟩ = memory s i)
    (hname : ∀ i : Nat, (i : Int) < len.toInt → filename i = .ok (name i)) {n : Nat}
    {p : LookupPos} {w : Walk} (h : runSteps (lookupStep g tmp memory name len) n p = some w)
    {r f F : Nat} (hr : n ≤ r) (hf : n ≤ f) (hF : n ≤ F) :
    lookupRest g sectors filename len tmp r f F p = .error .outOfBounds ∨
      lookupRest g sectors filename len tmp r f F p = .ok w := by
  induction n generalizing p r f with
  | zero => cases h
  | succ n ih =>
    rcases lookupRest_step hb hname r f F p with
      hout | ⟨-, hzero⟩ | ⟨w', hstep, hw⟩ | ⟨p', r', f', hstep, hr', hf', hp⟩
    · exact .inl hout
    · omega
    · rw [runSteps, hstep] at h
      cases h
      exact .inr hw
    · rw [runSteps, hstep] at h
      rw [hp]
      exact ih h (by omega) (by omega) (by omega)

/-- A machine that stands still at a record holds the loops there. -/
lemma lookupRest_still (hb : ∀ s i (h : i < blockSize), sectors s ⟨i, h⟩ = memory s i)
    (hname : ∀ i : Nat, (i : Int) < len.toInt → filename i = .ok (name i)) {i : Nat} {c : UInt8}
    {s : Nat × UInt32}
    (hstep : recordStep (memory (sectorAt g tmp i c)) name len tmp.sizeLow (sectorAt g tmp i c) s =
      .inr s) (r f F : Nat) :
    lookupRest g sectors filename len tmp r f F (.record i c s) = .error .outOfBounds ∨
      lookupRest g sectors filename len tmp r f F (.record i c s) = .error .diverge := by
  have hwalk : walkRecords sectors (sectorAt g tmp i c) filename len tmp.sizeLow r s.1 s.2 =
      .error .outOfBounds ∨ walkRecords sectors (sectorAt g tmp i c) filename len tmp.sizeLow r
        s.1 s.2 = .error .diverge := by
    induction r with
    | zero =>
      obtain ⟨hlt, -⟩ := recordStep_inr hstep
      rw [walkRecords_last_test (hb (sectorAt g tmp i c)), if_pos hlt]
      split
      · exact .inr rfl
      · exact .inl rfl
    | succ r ih =>
      by_cases hin : RecordInside (memory (sectorAt g tmp i c)) name len s.1
      · rw [walkRecords_inside (hb (sectorAt g tmp i c)) hname hin, hstep]
        exact ih
      · exact .inl (walkRecords_outside (hb (sectorAt g tmp i c)) hname hin)
  rw [lookupRest, restRecord]
  rcases hwalk with h | h
  · rw [h]
    exact .inl rfl
  · rw [h]
    exact .inr rfl

lemma lookupRest_spins (hb : ∀ s i (h : i < blockSize), sectors s ⟨i, h⟩ = memory s i)
    (hname : ∀ i : Nat, (i : Int) < len.toInt → filename i = .ok (name i)) {p q : LookupPos}
    (hpass : Passes (lookupStep g tmp memory name len) p q)
    (hq : ∀ r f F, lookupRest g sectors filename len tmp r f F q = .error .outOfBounds ∨
      lookupRest g sectors filename len tmp r f F q = .error .diverge) (r f F : Nat) :
    lookupRest g sectors filename len tmp r f F p = .error .outOfBounds ∨
      lookupRest g sectors filename len tmp r f F p = .error .diverge := by
  induction hpass using Relation.ReflTransGen.head_induction_on generalizing r f with
  | refl => exact hq r f F
  | @head p p' hp _ ih =>
    rcases lookupRest_step hb hname r f F p with
      hout | ⟨hstuck, -⟩ | ⟨w, hstep, -⟩ | ⟨p'', r', f', hstep, -, -, heq⟩
    · exact .inl hout
    · exact .inr hstuck
    · rw [hp] at hstep
      cases hstep
    · rw [hp] at hstep
      cases hstep
      rw [heq]
      exact ih r' f'

/-! ### The call -/

lemma payload8_outcome (payload : Payload) (i : Nat) :
    (∃ v, payload8 payload i = .ok v) ∨ payload8 payload i = .error .outOfBounds := by
  rw [payload8]
  split
  · exact .inl ⟨_, rfl⟩
  · exact .inr rfl

lemma payload32_ne_diverge (payload : Payload) (i : Nat) :
    payload32 payload i ≠ .error .diverge := by
  rw [payload32]
  rcases payload8_outcome payload i with ⟨v, h⟩ | h
  · rcases payload8_outcome payload (i + 1) with ⟨v₁, h₁⟩ | h₁
    · rcases payload8_outcome payload (i + 2) with ⟨v₂, h₂⟩ | h₂
      · rcases payload8_outcome payload (i + 3) with ⟨v₃, h₃⟩ | h₃
        · simp [h, h₁, h₂, h₃, bind, Except.bind]
        · simp [h, h₁, h₂, h₃, bind, Except.bind]
      · simp [h, h₁, h₂, bind, Except.bind]
    · simp [h, h₁, bind, Except.bind]
  · simp [h, bind, Except.bind]

lemma readInode_ne_diverge (ino : UInt32) : readInode g sectors ino ≠ .error .diverge := by
  intro h
  rw [readInode] at h
  split at h
  · cases h
  · simp only [bind, Except.bind, bgdtInodeTable] at h
    split at h
    · next e he =>
      cases h
      exact payload32_ne_diverge _ _ he
    · simp only [copyInode] at h
      split_ifs at h
      cases h

/-- The call goes the way of the walk. -/
lemma ext2Lookup_walk (filename : Bytes) {bh : UInt32} {dir : Inode}
    (hholds : readInode g sectors dir.iNo = .ok (bh, tmp)) (hlen : len ≠ 0)
    (htype : tmp.typePermissions ≠ 0) (fuel : Nat) (result : Inode) :
    (∀ e, lookupRest g sectors filename len tmp fuel fuel fuel (.block 0 0) = .error e →
      ext2Lookup g sectors fuel dir filename len result = .error e) ∧
    ∀ w, lookupRest g sectors filename len tmp fuel fuel fuel (.block 0 0) = .ok w →
      ext2Lookup g sectors fuel dir filename len result ≠ .error .diverge := by
  have hrest : lookupRest g sectors filename len tmp fuel fuel fuel (.block 0 0) =
      walkBlocks g sectors filename len tmp fuel 12 0 0 := rfl
  rw [hrest]
  constructor
  · intro e he
    simp only [ext2Lookup, hholds, bind, Except.bind, if_neg hlen, if_neg htype, he]
  · intro w hw
    simp only [ext2Lookup, hholds, bind, Except.bind, if_neg hlen, if_neg htype, hw]
    cases w with
    | found ino =>
      dsimp only
      cases hino : readInode g sectors ino with
      | error e =>
        intro h
        cases h
        exact readInode_ne_diverge ino hino
      | ok record => simp
    | stop held => simp
    | more size => simp

end Loops

/-- The walk ends exactly if it never comes to a record of size 0 that is not the one it looks
for, and `ext2_lookup` then does not run on; otherwise it does, unless it leaves a payload. -/
theorem ext2_lookup_ends_iff {g : Geometry} {k : Nat} {sectors : Sectors} {tmp : Ext2Inode}
    {memory : UInt32 → Nat → UInt8} {name : Nat → UInt8} {filename : Bytes} {len : Int32}
    {bh : UInt32} {dir : Inode} (hg : BlockSizeShift g k) (hk : k ≤ 6)
    (hholds : readInode g sectors dir.iNo = .ok (bh, tmp))
    (hb : ∀ s i (h : i < blockSize), sectors s ⟨i, h⟩ = memory s i)
    (hname : ∀ i : Nat, (i : Int) < len.toInt → filename i = .ok (name i)) :
    (LookupEnds g tmp memory name len ↔ ¬MeetsZeroRecord g tmp memory name len) ∧
    (len = 0 ∨ tmp.typePermissions = 0 ∨ ¬MeetsZeroRecord g tmp memory name len →
      ∀ result, ∃ n, ∀ fuel, n ≤ fuel →
        ext2Lookup g sectors fuel dir filename len result ≠ .error .diverge) ∧
    (¬(len = 0 ∨ tmp.typePermissions = 0 ∨ ¬MeetsZeroRecord g tmp memory name len) →
      ∀ result fuel, ext2Lookup g sectors fuel dir filename len result = .error .outOfBounds ∨
        ext2Lookup g sectors fuel dir filename len result = .error .diverge) := by
  have hiff : LookupEnds g tmp memory name len ↔ ¬MeetsZeroRecord g tmp memory name len :=
    lookupEnds_iff (hg.sectors_lt hk)
  refine ⟨hiff, ?_, ?_⟩
  · intro h result
    by_cases hrefused : len = 0 ∨ tmp.typePermissions = 0
    · refine ⟨0, fun fuel _ => ?_⟩
      rcases hrefused with hlen | htype
      · simp [ext2Lookup, hholds, bind, Except.bind, hlen]
      · simp only [ext2Lookup, hholds, bind, Except.bind, if_pos htype]
        split <;> simp
    · rw [not_or] at hrefused
      have hno := (h.resolve_left hrefused.1).resolve_left hrefused.2
      obtain ⟨n, w, hw⟩ := hiff.mpr hno
      refine ⟨n, fun fuel hfuel => ?_⟩
      have hcall := ext2Lookup_walk filename hholds hrefused.1 hrefused.2 fuel result
      rcases lookupRest_halts hb hname hw hfuel hfuel hfuel with hout | hok
      · rw [hcall.1 _ hout]
        simp
      · exact hcall.2 w hok
  · intro h result fuel
    simp only [not_or, not_not] at h
    obtain ⟨hlen, htype, i, c, s, hpass, hz, hm⟩ := h
    have hcall := ext2Lookup_walk filename hholds hlen htype fuel result
    have hstep := recordStep_still (lookupInv_of_passes hpass) hz hm
    have hspin := lookupRest_spins hb hname hpass (lookupRest_still hb hname hstep) fuel fuel fuel
    rcases hspin with hout | hstuck
    · exact .inl (hcall.1 _ hout)
    · exact .inr (hcall.1 _ hstuck)

/-- The memory behind the sectors of a disk, with zeros after each payload. -/
def diskMemory (sectors : Sectors) (s : UInt32) (i : Nat) : UInt8 :=
  if h : i < blockSize then sectors s ⟨i, h⟩ else 0

/-- A sector that one record takes up as a whole. -/
def wholeSector (i : Nat) : UInt8 :=
  match i with
  | 5 => 2
  | _ => 0

/-- A directory with one unused record in each of its sectors. -/
theorem ext2_lookup_ends_unused :
    ¬MeetsZeroRecord smallGeometry dirRecord (diskMemory (dirDisk wholeSector wholeSector))
      (fun _ => 0x61) 1 := by
  have hb : ∀ s i (h : i < blockSize), dirDisk wholeSector wholeSector s ⟨i, h⟩ =
      diskMemory (dirDisk wholeSector wholeSector) s i := by
    intro s i h
    rw [diskMemory, dif_pos h]
  have hname : ∀ i : Nat, (i : Int) < (1 : Int32).toInt →
      (fun _ => .ok 0x61 : Bytes) i = .ok ((fun _ => 0x61 : Nat → UInt8) i) := fun _ _ => rfl
  apply (ext2_lookup_ends_iff smallGeometry_shift (by decide) (dirDisk_holds _ _) hb hname).1.mp
  exact ⟨8, .stop [], by decide +kernel⟩

/-- A lookup in a directory whose block is all zeros. -/
theorem ext2_lookup_spins_on_zeros :
    ¬∃ fuel result, ext2Lookup smallGeometry (dirDisk (fun _ => 0) fun _ => 0) fuel dirInode
      (fun _ => .ok 0x61) 1 result ≠ .error .diverge := by
  rintro ⟨fuel, result, hends⟩
  apply hends
  have hlen : ¬(1 : Int32) = 0 := by decide
  have htype : ¬dirRecord.typePermissions = 0 := by decide
  have hzeros : ∀ i, dirDisk (fun _ => 0) (fun _ => 0)
      (addrOfBlock smallGeometry (pointer dirRecord 0) + (0 : UInt8).toUInt32) i = 0 := by
    intro i
    have hsector : addrOfBlock smallGeometry (pointer dirRecord 0) + (0 : UInt8).toUInt32 = 100 := by
      decide
    rw [hsector]
    simp [dirDisk]
  simp only [ext2Lookup, dirDisk_holds, bind, Except.bind, if_neg hlen, if_neg htype,
    walkBlocks_zeros smallGeometry_shift (by decide) hzeros]

end SaxonOS.Proofs
