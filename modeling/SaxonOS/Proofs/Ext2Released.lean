import SaxonOS.Proofs.Ext2Loading
import SaxonOS.Proofs.Ext2LookupEnds

/-!
# What lookups and mounts keep

`ext2_lookup` gives every buffer back, except where the sizes of the records it has passed exceed
the size of the directory: there it returns with the buffer of the sector. `ext2_read_super` never
gives the buffer of inode 2 back.
-/

namespace SaxonOS.Proofs
open Lib

/-- Every buffer was put as often as it was got, but for those in `kept`, and every temporary
inode was freed. -/
structure Released (calls : List ResourceCall) (kept : List UInt32) : Prop where
  buffers : ∀ s, calls.count (.getBlock s) = calls.count (.putBlock s) + kept.count s
  inodes : ∀ p, calls.count (.kmalloc sizeofExt2Inode p) = calls.count (.kfree p)

/-- The walk comes to a record that is not the one it looks for and takes the sizes it has passed
beyond the size of the directory. -/
def MeetsCutoff (g : Geometry) (tmp : Ext2Inode) (memory : UInt32 → Nat → UInt8)
    (name : Nat → UInt8) (len : Int32) : Prop :=
  ∃ i c s, Passes (lookupStep g tmp memory name len) (.block 0 0) (.record i c s) ∧
    s.1 + (entrySizeAt (memory (sectorAt g tmp i c)) s.1).toNat < blockSize ∧
    ¬NameMatches (memory (sectorAt g tmp i c)) name len s.1 ∧
    s.2 + (entrySizeAt (memory (sectorAt g tmp i c)) s.1).toUInt32 > tmp.sizeLow

section Logs

variable {a b : List ResourceCall} {xs ys : List UInt32}

lemma released_nil : Released [] [] := ⟨fun _ => rfl, fun _ => rfl⟩

lemma Released.append (ha : Released a xs) (hb : Released b ys) :
    Released (a ++ b) (xs ++ ys) := by
  refine ⟨fun s => ?_, fun p => ?_⟩
  · have h1 := ha.buffers s
    have h2 := hb.buffers s
    simp only [List.count_append]
    omega
  · have h1 := ha.inodes p
    have h2 := hb.inodes p
    simp only [List.count_append]
    omega

/-- A buffer that is put right away. -/
lemma released_pair (s : UInt32) : Released [.getBlock s, .putBlock s] [] := by
  refine ⟨fun t => ?_, fun p => ?_⟩
  · by_cases hst : s = t
    · simp [hst]
    · simp [hst]
  · simp

/-- A buffer that is put after another one has come and gone. -/
lemma released_nested (s t : UInt32) :
    Released [.getBlock s, .getBlock t, .putBlock t, .putBlock s] [] := by
  refine ⟨fun u => ?_, fun p => ?_⟩
  · by_cases hs : s = u
    · by_cases ht : t = u
      · simp [hs, ht]
      · simp [hs, ht]
    · by_cases ht : t = u
      · simp [hs, ht]
      · simp [hs, ht]
  · simp

lemma released_kept (s : UInt32) : Released [.getBlock s] [s] := by
  refine ⟨fun t => ?_, fun p => ?_⟩
  · by_cases hst : s = t
    · simp [hst]
    · simp [hst]
  · simp

/-- The log says what is kept. -/
lemma Released.nil_iff (ha : Released a xs) : Released a [] ↔ xs = [] := by
  constructor
  · intro hnil
    apply List.eq_nil_iff_forall_not_mem.mpr
    intro s hs
    have h1 := ha.buffers s
    have h2 := hnil.buffers s
    have hpos := List.count_pos_iff.mpr hs
    simp only [List.count_nil] at h2
    omega
  · rintro rfl
    exact ha

end Logs

/-! ### The calls of a walk -/

/-- The buffers that a walk keeps. -/
def walkHeld : Walk → List UInt32
  | .stop held => held
  | _ => []

section Calls

variable {g : Geometry} {sectors : Sectors} {filename : Bytes} {len : Int32}
  {sizeLow direct block size : UInt32} {budget fuel de : Nat} {k : UInt8} {w : Walk}

/-- The only buffer that a walk through the records of a sector keeps is its own. -/
lemma walkRecords_stop {held : List UInt32}
    (h : walkRecords sectors block filename len sizeLow fuel de size = .ok (.stop held)) :
    held = [block] := by
  induction fuel generalizing de size with
  | zero =>
    rw [walkRecords.eq_def] at h
    obtain ⟨entrySize, -, h⟩ := bind_eq_ok h
    split at h <;> cases h
  | succ fuel ih =>
    rw [walkRecords] at h
    obtain ⟨entrySize, -, h⟩ := bind_eq_ok h
    split at h
    · obtain ⟨hit, -, h⟩ := bind_eq_ok h
      split at h
      · obtain ⟨inode, -, h⟩ := bind_eq_ok h
        cases h
      · dsimp only at h
        split at h
        · cases h
          rfl
        · exact ih h
    · cases h

/-- The inode that a walk found can be read. -/
def FoundReadable (g : Geometry) (sectors : Sectors) (w : Walk) : Prop :=
  ∀ ino, w = .found ino → ∃ bh record, readInode g sectors ino = .ok (bh, record)

lemma walkSectorsCalls_eq
    (h : walkSectors g sectors filename len sizeLow direct budget fuel k size = .ok w)
    (hw : FoundReadable g sectors w) :
    ∃ calls, walkSectorsCalls g sectors filename len sizeLow direct budget fuel k size =
      .ok (w, calls) ∧ Released calls (walkHeld w) := by
  induction fuel generalizing k size with
  | zero =>
    by_cases hk : k.toUInt32 < sectorsPerBlock g
    · rw [walkSectors_out_of_fuel hk] at h
      cases h
    · rw [walkSectors_end hk] at h
      cases h
      exact ⟨[], by rw [walkSectorsCalls.eq_def]; exact if_neg hk, released_nil⟩
  | succ fuel ih =>
    by_cases hk : k.toUInt32 < sectorsPerBlock g
    · rw [walkSectors, if_pos hk] at h
      rw [walkSectorsCalls, if_pos hk]
      obtain ⟨walk, hwalk, h⟩ := bind_eq_ok h
      simp only [hwalk, bind, Except.bind]
      cases walk with
      | more size' =>
        obtain ⟨calls, hcalls, hrel⟩ := ih h
        refine ⟨.getBlock (addrOfBlock g direct + k.toUInt32) ::
          .putBlock (addrOfBlock g direct + k.toUInt32) :: calls, ?_, ?_⟩
        · simp only [hcalls]
        · exact (released_pair _).append hrel
      | found ino =>
        cases h
        obtain ⟨bh, record, hrec⟩ := hw ino rfl
        refine ⟨_, ?_, released_nested (addrOfBlock g direct + k.toUInt32) bh⟩
        simp only [hrec]
      | stop held =>
        cases h
        obtain rfl := walkRecords_stop hwalk
        exact ⟨_, rfl, released_kept _⟩
    · rw [walkSectors_end hk] at h
      cases h
      exact ⟨[], by rw [walkSectorsCalls.eq_def]; exact if_neg hk, released_nil⟩

lemma walkBlocksCalls_eq {inode : Ext2Inode} {n i : Nat}
    (h : walkBlocks g sectors filename len inode fuel n i size = .ok w)
    (hw : FoundReadable g sectors w) :
    ∃ calls, walkBlocksCalls g sectors filename len inode fuel n i size = .ok (w, calls) ∧
      Released calls (walkHeld w) := by
  induction n generalizing i size with
  | zero =>
    cases h
    exact ⟨[], rfl, released_nil⟩
  | succ n ih =>
    rw [walkBlocks] at h
    rw [walkBlocksCalls]
    obtain ⟨direct, hdirect, h⟩ := bind_eq_ok h
    simp only [hdirect, bind, Except.bind]
    by_cases hz : direct = 0
    · rw [if_pos hz] at h ⊢
      cases h
      exact ⟨[], rfl, released_nil⟩
    · rw [if_neg hz] at h ⊢
      obtain ⟨walk, hwalk, h⟩ := bind_eq_ok h
      cases walk with
      | more size' =>
        obtain ⟨first, hfirst, hrel₁⟩ := walkSectorsCalls_eq hwalk (by rintro ino ⟨⟩)
        obtain ⟨rest, hrest, hrel₂⟩ := ih h
        refine ⟨first ++ rest, ?_, hrel₁.append hrel₂⟩
        simp only [hfirst, hrest]
      | found ino =>
        cases h
        obtain ⟨calls, hcalls, hrel⟩ := walkSectorsCalls_eq hwalk hw
        exact ⟨calls, by simp only [hcalls], hrel⟩
      | stop held =>
        cases h
        obtain ⟨calls, hcalls, hrel⟩ := walkSectorsCalls_eq hwalk hw
        exact ⟨calls, by simp only [hcalls], hrel⟩

end Calls

/-! ### The end of a walk -/

section Ends

variable {g : Geometry} {sectors : Sectors} {tmp : Ext2Inode} {name : Nat → UInt8} {len : Int32}
  {w : Walk} {size : UInt32} {p q : LookupPos}

/-- The part of a walk from `p` on that comes to `w`, where `next` is what follows it. -/
def Leads (g : Geometry) (tmp : Ext2Inode) (memory : UInt32 → Nat → UInt8) (name : Nat → UInt8)
    (len : Int32) (next : UInt32 → LookupPos) (p : LookupPos) : Walk → Prop
  | .more size => Passes (lookupStep g tmp memory name len) p (next size)
  | w => ∃ q, Passes (lookupStep g tmp memory name len) p q ∧
      lookupStep g tmp memory name len q = .inl w

lemma Leads.head {memory : UInt32 → Nat → UInt8} {next : UInt32 → LookupPos}
    (h : Leads g tmp memory name len next q w)
    (hp : Passes (lookupStep g tmp memory name len) p q) :
    Leads g tmp memory name len next p w := by
  cases w with
  | more size => exact hp.trans h
  | found ino =>
    obtain ⟨t, ht, hstep⟩ := h
    exact ⟨t, hp.trans ht, hstep⟩
  | stop held =>
    obtain ⟨t, ht, hstep⟩ := h
    exact ⟨t, hp.trans ht, hstep⟩

lemma diskMemory_eq (sectors : Sectors) (s : UInt32) (i : Nat) (h : i < blockSize) :
    sectors s ⟨i, h⟩ = diskMemory sectors s i := by
  rw [diskMemory, dif_pos h]

/-- A step at a record. -/
lemma leads_record {i : Nat} {c : UInt8} {s : Nat × UInt32}
    (h : recordStep (diskMemory sectors (sectorAt g tmp i c)) name len tmp.sizeLow
      (sectorAt g tmp i c) s = .inl w) :
    Leads g tmp (diskMemory sectors) name len (.sector i (c + 1)) (.record i c s) w := by
  cases w with
  | more size =>
    apply Relation.ReflTransGen.single
    rw [lookupStep, h]
  | found ino => exact ⟨_, .refl, by rw [lookupStep, h]⟩
  | stop held => exact ⟨_, .refl, by rw [lookupStep, h]⟩

lemma leads_records {i : Nat} {c : UInt8} {r de : Nat}
    (h : walkRecords sectors (sectorAt g tmp i c) (fun i => .ok (name i)) len tmp.sizeLow r de size =
      .ok w) :
    Leads g tmp (diskMemory sectors) name len (.sector i (c + 1)) (.record i c (de, size)) w := by
  have hb := diskMemory_eq sectors (sectorAt g tmp i c)
  induction r generalizing de size with
  | zero =>
    rw [walkRecords_last_test hb] at h
    split_ifs at h with hin hlt
    cases h
    apply leads_record
    rw [recordStep, if_neg hlt]
  | succ r ih =>
    by_cases hin : RecordInside (diskMemory sectors (sectorAt g tmp i c)) name len de
    · rw [walkRecords_inside hb (fun _ _ => rfl) hin] at h
      cases hstep : recordStep (diskMemory sectors (sectorAt g tmp i c)) name len tmp.sizeLow
          (sectorAt g tmp i c) (de, size) with
      | inl w' =>
        rw [hstep] at h
        cases h
        exact leads_record hstep
      | inr s' =>
        rw [hstep] at h
        apply (ih h).head
        apply Relation.ReflTransGen.single
        rw [lookupStep, hstep]
    · rw [walkRecords_outside hb (fun _ _ => rfl) hin] at h
      cases h

lemma leads_sectors {i f budget : Nat} {c : UInt8}
    (h : walkSectors g sectors (fun i => .ok (name i)) len tmp.sizeLow (pointer tmp i) budget f c
      size = .ok w) :
    Leads g tmp (diskMemory sectors) name len (.block (i + 1)) (.sector i c size) w := by
  have hlast : ∀ {c : UInt8} {size : UInt32}, ¬c.toUInt32 < sectorsPerBlock g →
      Leads g tmp (diskMemory sectors) name len (.block (i + 1)) (.sector i c size)
        (.more size) := by
    intro c size hc
    apply Relation.ReflTransGen.single
    rw [lookupStep, if_neg hc]
  induction f generalizing c size with
  | zero =>
    by_cases hc : c.toUInt32 < sectorsPerBlock g
    · rw [walkSectors_out_of_fuel hc] at h
      cases h
    · rw [walkSectors_end hc] at h
      cases h
      exact hlast hc
  | succ f ih =>
    by_cases hc : c.toUInt32 < sectorsPerBlock g
    · rw [walkSectors, if_pos hc] at h
      obtain ⟨walk, hwalk, h⟩ := bind_eq_ok h
      have hrecords := leads_records hwalk
      have henter : Passes (lookupStep g tmp (diskMemory sectors) name len) (.sector i c size)
          (.record i c (0, size)) := by
        apply Relation.ReflTransGen.single
        rw [lookupStep, if_pos hc]
      cases walk with
      | more size' => exact (ih h).head (henter.trans hrecords)
      | found ino =>
        cases h
        exact hrecords.head henter
      | stop held =>
        cases h
        exact hrecords.head henter
    · rw [walkSectors_end hc] at h
      cases h
      exact hlast hc

/-- The loops return what the machine comes to. -/
lemma walkBlocks_ends {n i fuel : Nat} (hi : n = 12 - i)
    (h : walkBlocks g sectors (fun i => .ok (name i)) len tmp fuel n i size = .ok w) :
    ∃ q, Passes (lookupStep g tmp (diskMemory sectors) name len) (.block i size) q ∧
      lookupStep g tmp (diskMemory sectors) name len q = .inl w := by
  induction n generalizing i size with
  | zero =>
    cases h
    refine ⟨_, .refl, ?_⟩
    rw [lookupStep, if_neg (by omega)]
  | succ n ih =>
    have hlt : i < 12 := by omega
    rw [walkBlocks, directBlock_ok tmp (show i < 22 by omega)] at h
    simp only [bind, Except.bind] at h
    by_cases hz : pointer tmp i = 0
    · rw [if_pos hz] at h
      cases h
      refine ⟨_, .refl, ?_⟩
      rw [lookupStep, if_pos hlt, if_pos hz]
    · rw [if_neg hz] at h
      obtain ⟨walk, hwalk, h⟩ := bind_eq_ok h
      have hsectors := leads_sectors hwalk
      have henter : Passes (lookupStep g tmp (diskMemory sectors) name len) (.block i size)
          (.sector i 0 size) := by
        apply Relation.ReflTransGen.single
        rw [lookupStep, if_pos hlt, if_neg hz]
      cases walk with
      | more size' =>
        obtain ⟨q, hq, hstep⟩ := ih (by omega) h
        exact ⟨q, (henter.trans hsectors).trans hq, hstep⟩
      | found ino =>
        cases h
        exact hsectors.head henter
      | stop held =>
        cases h
        exact hsectors.head henter

end Ends

/-! ### Lookups and mounts -/

section Lookup

variable {g : Geometry} {sectors : Sectors} {tmp : Ext2Inode} {name : Nat → UInt8} {len : Int32}

lemma meetsCutoff_iff {w : Walk} {fuel : Nat}
    (h : walkBlocks g sectors (fun i => .ok (name i)) len tmp fuel 12 0 0 = .ok w) :
    MeetsCutoff g tmp (diskMemory sectors) name len ↔ walkHeld w ≠ [] := by
  obtain ⟨q, hq, hstep⟩ := walkBlocks_ends (n := 12) (i := 0) rfl h
  constructor
  · rintro ⟨i, c, s, hpass, hlt, hm, hover⟩
    have hstop : lookupStep g tmp (diskMemory sectors) name len (.record i c s) =
        .inl (.stop [sectorAt g tmp i c]) := by
      rw [lookupStep, recordStep, if_pos hlt, if_neg hm, if_pos hover]
    obtain rfl := hq.result_unique hstep hpass hstop
    exact List.cons_ne_nil _ _
  · intro hheld
    cases q with
    | block i size =>
      rw [lookupStep] at hstep
      split_ifs at hstep
      · cases hstep
        exact absurd rfl hheld
      · cases hstep
        exact absurd rfl hheld
    | sector i c size =>
      rw [lookupStep] at hstep
      split_ifs at hstep
    | record i c s =>
      refine ⟨i, c, s, hq, ?_⟩
      rw [lookupStep, recordStep] at hstep
      split_ifs at hstep with hlt hm hover
      · cases hstep
        exact absurd rfl hheld
      · exact ⟨hlt, hm, hover⟩

/-- What a lookup that returns holds is what its calls have not given back. -/
lemma ext2Lookup_calls {fuel : Nat} {dir result found : Inode} {filename : Bytes} {ret : Int32}
    {held : List UInt32}
    (h : ext2Lookup g sectors fuel dir filename len result = .ok (ret, found, held)) :
    ∃ calls, ext2LookupCalls g sectors fuel dir filename len = .ok calls ∧ Released calls held := by
  obtain ⟨⟨bh, inode⟩, hread, h⟩ := bind_eq_ok h
  simp only [ext2LookupCalls, hread, bind, Except.bind]
  by_cases hlen : len = 0
  · simp only [if_pos hlen] at h ⊢
    cases h
    exact ⟨_, rfl, released_pair bh⟩
  · by_cases htype : inode.typePermissions = 0
    · simp only [if_neg hlen, if_pos htype] at h ⊢
      cases h
      exact ⟨_, rfl, released_pair bh⟩
    · simp only [if_neg hlen, if_neg htype] at h ⊢
      obtain ⟨walk, hwalk, h⟩ := bind_eq_ok h
      have hcalls : FoundReadable g sectors walk → ∃ calls,
          walkBlocksCalls g sectors filename len inode fuel 12 0 0 = .ok (walk, calls) ∧
          Released (.getBlock bh :: .putBlock bh :: calls) (walkHeld walk) := by
        intro hw
        obtain ⟨calls, hc, hrel⟩ := walkBlocksCalls_eq hwalk hw
        exact ⟨calls, hc, (released_pair bh).append hrel⟩
      cases walk with
      | found ino =>
        obtain ⟨⟨bh', record⟩, hrec, h⟩ := bind_eq_ok h
        cases h
        obtain ⟨calls, hc, hrel⟩ := hcalls (by rintro _ ⟨⟩; exact ⟨bh', record, hrec⟩)
        exact ⟨_, by simp only [hc], hrel⟩
      | stop held =>
        cases h
        obtain ⟨calls, hc, hrel⟩ := hcalls (by rintro _ ⟨⟩)
        exact ⟨_, by simp only [hc], hrel⟩
      | more size =>
        cases h
        obtain ⟨calls, hc, hrel⟩ := hcalls (by rintro _ ⟨⟩)
        exact ⟨_, by simp only [hc], hrel⟩

/-- The buffers a lookup holds when it returns. -/
lemma ext2Lookup_held_iff {fuel : Nat} {dir result found : Inode} {ret : Int32} {bh : UInt32}
    {held : List UInt32} (hread : readInode g sectors dir.iNo = .ok (bh, tmp))
    (h : ext2Lookup g sectors fuel dir (fun i => .ok (name i)) len result =
      .ok (ret, found, held)) :
    held = [] ↔ len = 0 ∨ tmp.typePermissions = 0 ∨
      ¬MeetsCutoff g tmp (diskMemory sectors) name len := by
  simp only [ext2Lookup, hread, bind, Except.bind] at h
  by_cases hlen : len = 0
  · simp only [if_pos hlen] at h
    cases h
    simp [hlen]
  · by_cases htype : tmp.typePermissions = 0
    · simp only [if_neg hlen, if_pos htype] at h
      cases h
      simp [htype]
    · simp only [if_neg hlen, if_neg htype] at h
      obtain ⟨walk, hwalk, h⟩ := bind_eq_ok h
      rw [meetsCutoff_iff hwalk, not_not]
      simp only [hlen, htype, false_or]
      cases walk with
      | found ino =>
        obtain ⟨⟨bh', record⟩, -, h⟩ := bind_eq_ok h
        cases h
        rfl
      | stop held =>
        cases h
        rfl
      | more size =>
        cases h
        rfl

end Lookup

/-- A mount that returns has got the buffer of inode 2 once more than it has put it. -/
lemma Mounted.buffer_kept {n : Nat} {sectors : Sectors} {r r' : Resources} {sb : SuperBlock n}
    {v : Volume} {tmp bh : UInt32} {record : Ext2Inode} {h₁ h₂ : Heap}
    (hm : Mounted sectors r r' sb v tmp bh record h₁ h₂) (hr : r.calls = []) :
    r'.calls.count (.getBlock bh) =
      r'.calls.count (.putBlock bh) + [bgdSector v.geometry].count bh + 1 := by
  rw [hm.calls, hr]
  simp only [List.nil_append, List.count_cons, List.count_nil]
  simp
  omega

lemma Mounted.inode_freed {n : Nat} {sectors : Sectors} {r r' : Resources} {sb : SuperBlock n}
    {v : Volume} {tmp bh : UInt32} {record : Ext2Inode} {h₁ h₂ : Heap}
    (hm : Mounted sectors r r' sb v tmp bh record h₁ h₂) (hr : r.calls = []) (p : UInt32) :
    r'.calls.count (.kmalloc sizeofExt2Inode p) = r'.calls.count (.kfree p) := by
  rw [hm.calls, hr]
  have hsize : sizeofInode ≠ sizeofExt2Inode := by decide
  by_cases hp : tmp = p
  · simp [hp, hsize]
  · simp [hp, hsize]

/-- A lookup that returns has released what it took exactly if it did not stop at the size of the
directory; a mount that returns never has, though it has freed its temporary inode. -/
theorem ext2_releases_iff (g : Geometry) (sectors : Sectors) (fuel : Nat) (dir : Inode)
    (name : Nat → UInt8) (len : Int32) (bh : UInt32) (tmp : Ext2Inode)
    (hread : readInode g sectors dir.iNo = .ok (bh, tmp)) :
    (∀ result found ret held,
      ext2Lookup g sectors fuel dir (fun i => .ok (name i)) len result = .ok (ret, found, held) →
      ∃ calls, ext2LookupCalls g sectors fuel dir (fun i => .ok (name i)) len = .ok calls ∧
        (Released calls [] ↔ len = 0 ∨ tmp.typePermissions = 0 ∨
          ¬MeetsCutoff g tmp (diskMemory sectors) name len)) ∧
    ∀ {n : Nat} (registry : Registry n) (sb sb' : SuperBlock n) (dev : UInt32) (h : Heap)
      (r' : Resources) (v : Volume),
      ext2ParseSuperblock (readSuperblock sectors) = .ok v →
      ext2ReadSuper registry sectors sb dev ⟨h, []⟩ = .ok (sb', r') →
      (∀ p, r'.calls.count (.kmalloc sizeofExt2Inode p) = r'.calls.count (.kfree p)) ∧
      ¬Released r'.calls [bgdSector v.geometry] := by
  refine ⟨?_, ?_⟩
  · intro result found ret held h
    obtain ⟨calls, hcalls, hrel⟩ := ext2Lookup_calls h
    refine ⟨calls, hcalls, ?_⟩
    rw [hrel.nil_iff, ext2Lookup_held_iff hread h]
  · intro n registry sb sb' dev h r' v hparse hmount
    obtain ⟨v', tmp, bh, record, h₁, h₂, hm⟩ := mounted_of_ok hmount
    have hv : v' = v := Except.ok.inj (hm.parsed.symm.trans hparse)
    refine ⟨hm.inode_freed rfl, ?_⟩
    intro hrel
    have hcount := hm.buffer_kept rfl
    rw [hv, hrel.buffers bh] at hcount
    omega

/-- A directory of 8 bytes in block 50. -/
def cutoffRecord : Ext2Inode := fun i =>
  match i.val with
  | 1 => 0x40
  | 4 => 8
  | 40 => 50
  | _ => 0

/-- The disk with this directory as inode 1, whose first record takes 12 bytes. -/
def cutoffDisk : Sectors :=
  Function.update
    (Function.update smallDisk 10 fun i =>
      if h : i.val < 128 then cutoffRecord ⟨i.val, h⟩ else 0)
    100 fun i => if i.val = 4 then 12 else 0

lemma cutoffDisk_holds :
    readInode smallGeometry cutoffDisk dirInode.iNo = .ok (10, cutoffRecord) := by
  apply readInode_small
  · rfl
  · rw [copyInode, dif_pos (by decide)]
    congr 1
    funext i
    simp [cutoffDisk]

lemma cutoffDisk_lookup : ext2Lookup smallGeometry cutoffDisk 1 dirInode (fun _ => .ok 0x61) 1
    dirInode = .ok (-1, dirInode, [100]) := by
  have hlen : ¬(1 : Int32) = 0 := by decide
  have htype : ¬cutoffRecord.typePermissions = 0 := by decide
  have hwalk : walkBlocks smallGeometry cutoffDisk (fun _ => .ok 0x61) 1 cutoffRecord 1 12 0 0 =
      .ok (.stop [100]) := by rfl
  simp only [ext2Lookup, cutoffDisk_holds, bind, Except.bind, if_neg hlen, if_neg htype, hwalk]

/-- The mount of a volume on a heap of 240 free bytes returns. -/
lemma volumeDisk_mounted : ∃ sb' r', ext2ReadSuper (⟨Fin.elim0, Fin.elim0, .null⟩ : Registry 0)
    volumeDisk ⟨0, .null, 0⟩ 0x300 freshResources = .ok (sb', r') := by
  have hread : ∃ record, readInode fileVolume.geometry volumeDisk 2 = .ok (10, record) := ⟨_, rfl⟩
  obtain ⟨record, hread⟩ := hread
  have h0 : freshResources.heap.heapStart ≠ 0 := by decide
  have ha₁ : allocate 16 sizeofExt2Inode.toNat [⟨0x1000, 240, false⟩] =
      some (0x1010, [⟨0x1000, 128, true⟩, ⟨0x1090, 96, false⟩]) := by decide
  obtain ⟨m₁, hk₁, hL₁⟩ := kmalloc_eq_allocate freshResources_layout h0 (by decide) ha₁
  have hL₂ : Layout { freshResources.heap with
      mem := storeInode m₁ (UInt32.ofNat 0x1010) record }
      [⟨0x1000, 128, true⟩, ⟨0x1090, 96, false⟩] :=
    hL₁.store List.mem_cons_self (fun x hx => storeInode_outside (by decide) hx)
  have ha₂ : allocate 16 sizeofInode.toNat [⟨0x1000, 128, true⟩, ⟨0x1090, 96, false⟩] =
      some (0x10A0, [⟨0x1000, 128, true⟩, ⟨0x1090, 52, true⟩, ⟨0x10D4, 28, false⟩]) := by decide
  obtain ⟨m₂, hk₂, -⟩ := kmalloc_eq_allocate hL₂ h0 (by decide) ha₂
  have hmount : ∃ r', ext2ReadSuper (⟨Fin.elim0, Fin.elim0, .null⟩ : Registry 0) volumeDisk
      ⟨0, .null, 0⟩ 0x300 freshResources = .ok (⟨UInt32.ofNat 0x10A0, .null, 0x300⟩, r') :=
    ext2ReadSuper_returns 0x300 volumeDisk_parsed hread hk₁ hk₂ rfl
  exact ⟨_, hmount⟩

theorem ext2_releases_iff_cutoff :
    (∃ calls, ext2LookupCalls smallGeometry cutoffDisk 1 dirInode (fun _ => .ok 0x61) 1 =
        .ok calls ∧ (Released calls [] ↔ (1 : Int32) = 0 ∨ cutoffRecord.typePermissions = 0 ∨
          ¬MeetsCutoff smallGeometry cutoffRecord (diskMemory cutoffDisk) (fun _ => 0x61) 1)) ∧
    ∃ sb' r', ext2ReadSuper (⟨Fin.elim0, Fin.elim0, .null⟩ : Registry 0) volumeDisk ⟨0, .null, 0⟩
      0x300 freshResources = .ok (sb', r') ∧
      ¬Released r'.calls [bgdSector fileVolume.geometry] := by
  refine ⟨(ext2_releases_iff _ _ _ _ (fun _ => 0x61) _ _ _ cutoffDisk_holds).1 _ _ _ _
    cutoffDisk_lookup, ?_⟩
  obtain ⟨sb', r', hmount⟩ := volumeDisk_mounted
  have hfile : readInode smallGeometry volumeDisk dirInode.iNo = .ok (10, smallRecord) :=
    volumeDisk_holds
  exact ⟨sb', r', hmount, ((ext2_releases_iff _ _ 1 _ (fun _ => 0x61) 1 _ _ hfile).2 _ _ _ _ _ _ _
    volumeDisk_parsed hmount).2⟩

/-- The lookup in this directory does not give the buffer of sector 100 back. -/
theorem ext2_lookup_keeps_buffer :
    ext2Lookup smallGeometry cutoffDisk 1 dirInode (fun _ => .ok 0x61) 1 dirInode =
      .ok (-1, dirInode, [100]) ∧
    ext2LookupCalls smallGeometry cutoffDisk 1 dirInode (fun _ => .ok 0x61) 1 =
      .ok [.getBlock 10, .putBlock 10, .getBlock 100] ∧
    ¬Released [.getBlock 10, .putBlock 10, .getBlock 100] [] := by
  have hlen : ¬(1 : Int32) = 0 := by decide
  have htype : ¬cutoffRecord.typePermissions = 0 := by decide
  have hwalk : walkBlocksCalls smallGeometry cutoffDisk (fun _ => .ok 0x61) 1 cutoffRecord 1 12 0 0 =
      .ok (.stop [100], [.getBlock 100]) := by rfl
  refine ⟨cutoffDisk_lookup, ?_, ?_⟩
  · simp only [ext2LookupCalls, cutoffDisk_holds, bind, Except.bind, if_neg hlen, if_neg htype,
      hwalk]
  · intro hrel
    have hcount := hrel.buffers 100
    revert hcount
    decide

end SaxonOS.Proofs
