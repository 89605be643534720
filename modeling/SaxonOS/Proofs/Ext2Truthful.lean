import SaxonOS.Proofs.Ext2Lookup

/-!
# A lookup invents nothing

What `ext2_lookup` may say, and where it keeps to that. Its type test lets any type but zero
pass, so an inode that is no directory is walked like one.
-/

namespace SaxonOS.Proofs
open SaxonOS Lib

variable {g : Geometry} {k : Nat} {sectors : Sectors} {tmp : Ext2Inode} {filename : Bytes}
  {len : Int32} {name : List UInt8} {fuel : Nat} {dir result : Inode} {bh : UInt32}

/-- What a call may say: a record that it reports is one of the directory and comes with the
size and permissions of its inode, and an inode that is no directory is refused. -/
structure Truthful (g : Geometry) (sectors : Sectors) (dir : Inode) (tmp : Ext2Inode)
    (filename : Bytes) (len : Int32) (name : List UInt8) : Prop where
  found : ∀ n records, WellFormedDir g sectors tmp n records → ∀ fuel result result' held,
    ext2Lookup g sectors fuel dir filename len result = .ok (0, result', held) →
    ∃ i < n, ∃ q ∈ records i, q.Named name ∧ result'.iNo = q.inode ∧
      ∃ bh record, readInode g sectors q.inode = .ok (bh, record) ∧
        result'.size = record.sizeLow ∧ result'.permissions = record.typePermissions.toUInt32
  refused : tmp.typePermissions &&& 0xF000 ≠ 0x4000 → ∀ result, ∃ fuel held,
    ext2Lookup g sectors fuel dir filename len result = .ok (-1, result, held)

/-- The inode is a directory, or the call ends before it looks at a sector. -/
def TypeSeen (tmp : Ext2Inode) (len : Int32) : Prop :=
  tmp.typePermissions &&& 0xF000 = 0x4000 ∨ tmp.typePermissions = 0 ∨ len = 0 ∨ pointer tmp 0 = 0

lemma ext2Lookup_refused (hholds : readInode g sectors dir.iNo = .ok (bh, tmp))
    (h : tmp.typePermissions = 0 ∨ len = 0 ∨ pointer tmp 0 = 0) :
    ext2Lookup g sectors fuel dir filename len result = .ok (-1, result, []) := by
  simp only [ext2Lookup, hholds, bind, Except.bind]
  by_cases hlen : len = 0
  · rw [if_pos hlen]
  by_cases htype : tmp.typePermissions = 0
  · rw [if_neg hlen, if_pos htype]
  have hp : pointer tmp 0 = 0 := by tauto
  have hw : walkBlocks g sectors filename len tmp fuel 12 0 0 = .ok (.stop []) := by
    rw [walkBlocks]
    simp only [directBlock_ok tmp (by omega : 0 < 22), bind, Except.bind, if_pos hp]
  rw [if_neg hlen, if_neg htype, hw]

lemma walkRecords_succ {s sizeLow size : UInt32} {de : Nat} {w : Walk}
    (h : walkRecords sectors s filename len sizeLow fuel de size = .ok w) :
    walkRecords sectors s filename len sizeLow (fuel + 1) de size = .ok w := by
  induction fuel generalizing de size with
  | zero =>
    rw [walkRecords.eq_def] at h ⊢
    obtain ⟨v, hv, h⟩ := bind_eq_ok h
    simp only [hv, bind, Except.bind]
    split at h
    · cases h
    · next hend => rw [if_neg hend, h]
  | succ fuel ih =>
    rw [walkRecords] at h ⊢
    obtain ⟨v, hv, h⟩ := bind_eq_ok h
    simp only [hv, bind, Except.bind]
    split at h
    · next hin =>
      rw [if_pos hin]
      obtain ⟨hit, hhit, h⟩ := bind_eq_ok h
      simp only [hhit]
      split at h
      · next hyes =>
        rw [if_pos hyes]
        exact h
      · next hno =>
        rw [if_neg hno]
        dsimp only at h
        split at h
        · next hcut =>
          rw [if_pos hcut]
          exact h
        · next hcut =>
          rw [if_neg hcut]
          exact ih h
    · next hend => rw [if_neg hend, h]

lemma walkSectors_succ {direct sizeLow size : UInt32} {budget : Nat} {c : UInt8} {w : Walk}
    (h : walkSectors g sectors filename len sizeLow direct budget fuel c size = .ok w) :
    walkSectors g sectors filename len sizeLow direct (budget + 1) (fuel + 1) c size = .ok w := by
  induction fuel generalizing c size with
  | zero =>
    by_cases hc : c.toUInt32 < sectorsPerBlock g
    · rw [walkSectors_out_of_fuel hc] at h
      cases h
    · rw [walkSectors_end hc] at h ⊢
      exact h
  | succ fuel ih =>
    by_cases hc : c.toUInt32 < sectorsPerBlock g
    · rw [walkSectors, if_pos hc] at h ⊢
      obtain ⟨v, hv, h⟩ := bind_eq_ok h
      simp only [walkRecords_succ hv, bind, Except.bind]
      cases v with
      | found ino => exact h
      | stop held => exact h
      | more size' => exact ih h
    · rw [walkSectors_end hc] at h ⊢
      exact h

lemma walkBlocks_succ {m i : Nat} {size : UInt32} {w : Walk}
    (h : walkBlocks g sectors filename len tmp fuel m i size = .ok w) :
    walkBlocks g sectors filename len tmp (fuel + 1) m i size = .ok w := by
  induction m generalizing i size with
  | zero => exact h
  | succ m ih =>
    rw [walkBlocks] at h ⊢
    obtain ⟨direct, hdirect, h⟩ := bind_eq_ok h
    simp only [hdirect, bind, Except.bind]
    split at h
    · next hz =>
      rw [if_pos hz]
      exact h
    · next hnz =>
      rw [if_neg hnz]
      obtain ⟨v, hv, h⟩ := bind_eq_ok h
      simp only [walkSectors_succ hv]
      cases v with
      | found ino => exact h
      | stop held => exact h
      | more size' => exact ih h

lemma walkBlocks_mono {m i fuel' : Nat} {size : UInt32} {w : Walk} (hle : fuel ≤ fuel')
    (h : walkBlocks g sectors filename len tmp fuel m i size = .ok w) :
    walkBlocks g sectors filename len tmp fuel' m i size = .ok w := by
  induction fuel', hle using Nat.le_induction with
  | base => exact h
  | succ fuel' _ ih => exact walkBlocks_succ ih

/-- The walk enters each sector at a record, or the name is found before one where it does not. -/
def Sheltered (g : Geometry) (n : Nat) (records : Nat → List Dirent) (name : List UInt8) : Prop :=
  EntersAtRecords g n records ∨ ∃ ino, FoundFirst g n records name ino

lemma Sheltered.foundFirst {n : Nat} {records : Nat → List Dirent} (hg : BlockSizeShift g k)
    (hdir : WellFormedDir g sectors tmp n records) (hname : PassedName filename len name)
    (hsh : Sheltered g n records name) {ino : UInt32}
    (hw : walkBlocks g sectors filename len tmp fuel 12 0 0 = .ok (.found ino)) :
    FoundFirst g n records name ino := by
  rcases hsh with hstart | ⟨ino', hfirst⟩
  · exact walkBlocks_sound hg hdir hstart hname rfl (.inr rfl)
      (fun j hj => absurd hj (Nat.not_lt_zero j)) hw
  · have hw' := hfirst.walkBlocks hg hdir hname (Nat.le_max_right fuel blockSize)
    rw [walkBlocks_mono (Nat.le_max_left fuel blockSize) hw] at hw'
    cases hw'
    exact hfirst

lemma truthful_of_sheltered (hg : BlockSizeShift g k)
    (hholds : readInode g sectors dir.iNo = .ok (bh, tmp)) (hname : PassedName filename len name)
    (hsh : ∀ n records, WellFormedDir g sectors tmp n records → Sheltered g n records name)
    (htype : TypeSeen tmp len) : Truthful g sectors dir tmp filename len name where
  found := by
    intro n records hdir fuel result result' held hcall
    obtain ⟨ino, bh', record, hw, hrec, rfl⟩ := ext2Lookup_inv hholds hcall
    obtain ⟨i, hi, q, hq, hnamed, rfl, -⟩ := (hsh n records hdir).foundFirst hg hdir hname hw
    exact ⟨i, hi, q, hq, hnamed, rfl, bh', record, hrec, rfl, rfl⟩
  refused := by
    intro hno result
    exact ⟨0, [], ext2Lookup_refused hholds (htype.resolve_left hno)⟩

/-- A sector of zeros holds the walk at its first byte. -/
lemma walkRecords_zeros {s sizeLow : UInt32} (h : ∀ i, sectors s i = 0) :
    walkRecords sectors s filename len sizeLow fuel 0 0 = .error .diverge := by
  have h8 : ∀ i < blockSize, payload8 (sectors s) i = .ok 0 := by
    intro i hi
    rw [payload8, dif_pos hi, h]
  have h16 : payload16 (sectors s) (0 + 4) = .ok 0 := by
    simp only [payload16, h8 (0 + 4) (by decide), h8 (0 + 4 + 1) (by decide), bind, Except.bind]
    rfl
  have h32 : payload32 (sectors s) 0 = .ok 0 := by
    simp only [payload32, h8 0 (by decide), h8 (0 + 1) (by decide), h8 (0 + 2) (by decide),
      h8 (0 + 3) (by decide), bind, Except.bind]
    rfl
  have hlt : 0 + (0 : UInt16).toNat < blockSize := by decide
  have hno : direntMatches (sectors s) filename len 0 = .ok false := by
    simp [direntMatches, h32, bind, Except.bind]
  induction fuel with
  | zero =>
    rw [walkRecords.eq_def]
    simp only [h16, bind, Except.bind, if_pos hlt]
  | succ fuel ih =>
    have hsize : ¬ (0 : UInt32) + (0 : UInt16).toUInt32 > sizeLow := by
      rw [gt_iff_lt, UInt32.lt_iff_toNat_lt]
      exact Nat.not_lt_zero _
    rw [walkRecords]
    simp only [h16, bind, Except.bind, if_pos hlt, hno, if_neg hsize, Bool.false_eq_true, if_false]
    exact ih

/-- So does a directory whose first sector is one. -/
lemma walkBlocks_zeros (hg : BlockSizeShift g k) (hp : pointer tmp 0 ≠ 0)
    (h : ∀ i, sectors (addrOfBlock g (pointer tmp 0) + (0 : UInt8).toUInt32) i = 0) (fuel : Nat) :
    walkBlocks g sectors filename len tmp fuel 12 0 0 = .error .diverge := by
  have hfirst : (0 : UInt8).toUInt32 < sectorsPerBlock g := sector_in_block.mpr hg.sectors_pos
  rw [walkBlocks]
  simp only [directBlock_ok tmp (by omega : 0 < 22), bind, Except.bind, if_neg hp]
  cases fuel with
  | zero => rw [walkSectors_out_of_fuel hfirst]
  | succ fuel =>
    rw [walkSectors, if_pos hfirst]
    simp only [walkRecords_zeros h, bind, Except.bind]

lemma Truthful.typeSeen (hg : BlockSizeShift g k) (hapart : Apart g sectors dir tmp)
    (h : ∀ sectors bh, readInode g sectors dir.iNo = .ok (bh, tmp) →
      Truthful g sectors dir tmp filename len name) : TypeSeen tmp len := by
  by_contra hno
  simp only [TypeSeen, not_or] at hno
  obtain ⟨hdir, htype, hlen, hp⟩ := hno
  obtain ⟨bh, hholds, hbh⟩ := hapart.holds
  have hown : OwnSector g tmp (addrOfBlock g (pointer tmp 0) + (0 : UInt8).toUInt32) :=
    ⟨0, by omega, hp, 0, hg.sectors_pos, rfl⟩
  let other := Function.update sectors (addrOfBlock g (pointer tmp 0) + (0 : UInt8).toUInt32)
    fun _ => 0
  have hholds' : readInode g other dir.iNo = .ok (bh, tmp) :=
    readInode_update _ hholds (hbh _ hown) (hapart.table _ hown)
  have hzeros : ∀ i, other (addrOfBlock g (pointer tmp 0) + (0 : UInt8).toUInt32) i = 0 := by
    intro i
    simp only [other, Function.update_self]
  have hw : ∀ fuel, walkBlocks g other filename len tmp fuel 12 0 0 = .error .diverge :=
    walkBlocks_zeros hg hp hzeros
  obtain ⟨fuel, held, hcall⟩ := (h other bh hholds').refused hdir dir
  simp only [ext2Lookup, hholds', bind, Except.bind, if_neg hlen, if_neg htype, hw] at hcall
  cases hcall

/-- Where the walk keeps to records and the type test sees what it should, the call invents
nothing. The second is needed on some content of the first sector. -/
theorem ext2_lookup_truthful (hg : BlockSizeShift g k) (hname : PassedName filename len name) :
    (∀ sectors bh, readInode g sectors dir.iNo = .ok (bh, tmp) →
      (∀ n records, WellFormedDir g sectors tmp n records → Sheltered g n records name) →
      TypeSeen tmp len → Truthful g sectors dir tmp filename len name) ∧
    ∀ sectors, Apart g sectors dir tmp →
      (∀ sectors bh, readInode g sectors dir.iNo = .ok (bh, tmp) →
        Truthful g sectors dir tmp filename len name) → TypeSeen tmp len := by
  constructor
  · intro sectors bh hholds hsh htype
    exact truthful_of_sheltered hg hholds hname hsh htype
  · intro sectors hapart h
    exact Truthful.typeSeen hg hapart h

lemma namesDisk_sheltered {n : Nat} {records : Nat → List Dirent}
    (h : WellFormedDir smallGeometry namesDisk dirRecord n records) :
    Sheltered smallGeometry n records name := by
  obtain ⟨rfl, hrecords⟩ := namesDisk_wellFormed.unique h
  refine .inl fun i hi hcount => ?_
  rw [← hrecords i hi]
  exact namesDisk_enters i hi hcount

/-- In the directory with the names `.` and `a` a lookup of `.` invents nothing. -/
theorem ext2_lookup_truthful_dot :
    Truthful smallGeometry namesDisk dirInode dirRecord (fun _ => .ok 0x2E) 1 [0x2E] := by
  have hname : PassedName (fun _ => .ok 0x2E) 1 [0x2E] := ⟨by decide, by decide⟩
  apply (ext2_lookup_truthful smallGeometry_shift hname).1 namesDisk 10 (dirDisk_holds _ _)
  · intro n records hdir
    exact namesDisk_sheltered hdir
  · exact .inl (by decide)

/-- The only record of the block; its second half is slack. -/
def wholeEntry : Dirent := ⟨0, 1, 1024, [0x2E]⟩

/-- In the slack, at the start of the second sector, the bytes of a record for `x`. -/
def slackDisk : Sectors :=
  dirDisk
    (fun i =>
      match i with
      | 0 => 1 | 5 => 4 | 6 => 1 | 8 => 0x2E
      | _ => 0)
    (fun i =>
      match i with
      | 0 => 7 | 4 => 12 | 6 => 1 | 8 => 0x78
      | _ => 0)

lemma slackDisk_wellFormed :
    WellFormedDir smallGeometry slackDisk dirRecord 1 fun _ => [wholeEntry] := by
  apply dirDisk_wellFormed
  have hwhole : DirentAt smallGeometry slackDisk (pointer dirRecord 0) wholeEntry := by
    constructor <;> decide +kernel
  exact ⟨rfl, hwhole, rfl⟩

/-- The name `x` is found, although no record of the directory has it. -/
theorem ext2_lookup_invents_slack :
    (∃ result' held, ext2Lookup smallGeometry slackDisk 20 dirInode (fun _ => .ok 0x78) 1 dirInode =
        .ok (0, result', held) ∧ result'.iNo = 7) ∧
      ¬ ∀ g k sectors dir tmp bh filename len name, BlockSizeShift g k →
        PassedName filename len name → readInode g sectors dir.iNo = .ok (bh, tmp) →
        Truthful g sectors dir tmp filename len name := by
  have hcall : ∃ result' held, ext2Lookup smallGeometry slackDisk 20 dirInode (fun _ => .ok 0x78) 1
      dirInode = .ok (0, result', held) ∧ result'.iNo = 7 := by
    have hw : walkBlocks smallGeometry slackDisk (fun _ => .ok 0x78) 1 dirRecord 20 12 0 0 =
        .ok (.found 7) := by decide +kernel
    exact ⟨_, _, ext2Lookup_found (dirDisk_holds _ _) (by decide) (by decide) hw rfl, rfl⟩
  refine ⟨hcall, fun hall => ?_⟩
  have hname : PassedName (fun _ => .ok 0x78) 1 [0x78] := ⟨by decide, by decide⟩
  have h := hall smallGeometry 0 slackDisk dirInode dirRecord 10 _ 1 _ smallGeometry_shift hname
    (dirDisk_holds _ _)
  obtain ⟨result', held, hcall, -⟩ := hcall
  obtain ⟨i, -, q, hq, hnamed, -⟩ := h.found 1 _ slackDisk_wellFormed 20 _ _ _ hcall
  rw [List.mem_singleton] at hq
  rw [hq] at hnamed
  exact absurd hnamed.2 (by decide)

end SaxonOS.Proofs
