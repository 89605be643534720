import SaxonOS.Ext2Volume
import SaxonOS.Proofs.FlatDevice

/-!
# Allocating an inode

What `alloc_inode` returns is made of the value its uninitialised variable starts with and of
the counts in the group descriptors, which it does not change. The bitmaps have no part in it.
-/

namespace SaxonOS.Proofs
open SaxonOS Lib

/-- The byte of the device that holds bit `index` of the inode bitmap of a group. -/
def bitmapAddress (v : Volume) (bitmap : UInt32) (index : Nat) : Nat :=
  bitmap.toNat * v.geometry.blockSize.toNat + index / 8

/-- Bit `k` of a byte of the device. -/
def deviceBit (disk : Sectors) (a k : Nat) : Bool := (deviceByte disk a).toNat.testBit k

/-- Inode `index` of `group` is there and its bit is clear. -/
def InodeFree (v : Volume) (bgdt : Payload) (disk : Sectors) (group index : Nat) : Prop :=
  group < v.blockGroupCount.toNat ∧ index < v.geometry.inodesPerGroup.toNat ∧
    ∃ bitmap, bgdtInodeUsageBitmap bgdt group = .ok bitmap ∧
      deviceBit disk (bitmapAddress v bitmap index) (index % 8) = false

/-- A call that returns `ino` takes a free inode: its bit is set and no other bit changes. -/
def TakesInode (v : Volume) (bgdt : Payload) (disk : Sectors) (ino : UInt32) (disk' : Sectors) :
    Prop :=
  ∃ group index bitmap, InodeFree v bgdt disk group index ∧
    bgdtInodeUsageBitmap bgdt group = .ok bitmap ∧
    ino.toNat = group * v.geometry.inodesPerGroup.toNat + index + 1 ∧
    ∀ a < 2 ^ 32 * blockSize, ∀ k < 8, (deviceBit disk' a k = true ↔
      deviceBit disk a k = true ∨ (a = bitmapAddress v bitmap index ∧ k = index % 8))

/-- Where there is a free inode every call takes one, whatever the variable starts with, and two
calls one after the other do not return the same. -/
structure AllocExclusive (v : Volume) (bgdt : Payload) (disk : Sectors) : Prop where
  takes : (∃ group index, InodeFree v bgdt disk group index) → ∀ freeInode,
    ∃ ino disk', allocInode v bgdt freeInode disk = .ok (ino, disk') ∧
      TakesInode v bgdt disk ino disk'
  differs : ∀ freeInode freeInode' ino disk' ino' disk'',
    allocInode v bgdt freeInode disk = .ok (ino, disk') →
    allocInode v bgdt freeInode' disk' = .ok (ino', disk'') → ino ≠ ino'

section Returned

variable {v : Volume} {bgdt : Payload} {bitmap ipg freeInode i f j : UInt32} {n : Nat}
  {tmp tmp' : Payload} {disk disk' disk₁ : Sectors}

/-- The scan of a bitmap comes to its end on every disk or on none. -/
lemma scanInodes_other (h : scanInodes bitmap n freeInode tmp disk = .ok (f, disk'))
    (tmp' : Payload) (disk₁ : Sectors) :
    ∃ disk₂, scanInodes bitmap n freeInode tmp' disk₁ = .ok (f, disk₂) := by
  induction n generalizing freeInode tmp tmp' disk disk₁ with
  | zero =>
    cases h
    exact ⟨disk₁, rfl⟩
  | succ n ih =>
    rw [scanInodes] at h ⊢
    by_cases hlt : (freeInode / 512).toNat < blockSize
    · simp only [dif_pos hlt] at h ⊢
      split_ifs at h <;> split_ifs <;> exact ih h _ _
    · simp only [dif_neg hlt] at h
      cases h

/-- So the search through the groups ends at the same group and value on every disk. -/
lemma allocGroups_other (h : allocGroups ipg bgdt n i freeInode disk = .ok (j, f, disk'))
    (disk₁ : Sectors) :
    ∃ disk₂, allocGroups ipg bgdt n i freeInode disk₁ = .ok (j, f, disk₂) := by
  induction n generalizing i freeInode disk disk₁ with
  | zero =>
    cases h
    exact ⟨disk₁, rfl⟩
  | succ n ih =>
    rw [allocGroups] at h ⊢
    by_cases h0 : freeInode = 0
    · rw [if_pos h0] at h ⊢
      cases hcount : bgdtFreeInodeCount bgdt i.toNat with
      | error e =>
        rw [hcount] at h
        cases h
      | ok count =>
        rw [hcount] at h
        simp only [bind, Except.bind] at h ⊢
        by_cases hz : count = 0
        · rw [if_pos hz] at h ⊢
          exact ih h disk₁
        · rw [if_neg hz] at h ⊢
          cases hbitmap : bgdtInodeUsageBitmap bgdt i.toNat with
          | error e =>
            rw [hbitmap] at h
            cases h
          | ok bitmap =>
            rw [hbitmap] at h
            dsimp only at h ⊢
            cases hscan : scanInodes bitmap ipg.toNat 0 (fun _ => 0) disk with
            | error e =>
              rw [hscan] at h
              cases h
            | ok p =>
              rw [hscan] at h
              obtain ⟨disk₂, hscan'⟩ := scanInodes_other hscan (fun _ => 0) disk₁
              rw [hscan']
              exact ih h disk₂
    · rw [if_neg h0] at h ⊢
      cases h
      exact ⟨disk₁, rfl⟩

/-- What is returned does not depend on the disk. -/
lemma allocInode_other (h : allocInode v bgdt freeInode disk = .ok (f, disk'))
    (disk₁ : Sectors) : ∃ disk₂, allocInode v bgdt freeInode disk₁ = .ok (f, disk₂) := by
  rw [allocInode] at h ⊢
  cases hgroups : allocGroups v.geometry.inodesPerGroup bgdt v.blockGroupCount.toNat 0 freeInode
      disk with
  | error e =>
    rw [hgroups] at h
    cases h
  | ok p =>
    obtain ⟨j, g, d⟩ := p
    rw [hgroups] at h
    obtain ⟨disk₂, hgroups'⟩ := allocGroups_other hgroups disk₁
    rw [hgroups']
    cases h
    exact ⟨disk₂, rfl⟩

/-- A variable that does not start at zero ends the search before it begins. -/
lemma allocInode_of_ne_zero (h : freeInode ≠ 0) :
    allocInode v bgdt freeInode disk = .ok (freeInode + v.geometry.inodesPerGroup, disk) := by
  have hgroups : allocGroups v.geometry.inodesPerGroup bgdt v.blockGroupCount.toNat 0 freeInode
      disk = .ok (0, freeInode, disk) := by
    cases v.blockGroupCount.toNat with
    | zero => rfl
    | succ n => rw [allocGroups, if_neg h]
  rw [allocInode, hgroups]
  simp [bind, Except.bind]

end Returned

/-- Whatever the descriptors and bitmaps are, `alloc_inode` does not allocate: a second call
returns the same number as the first one when its variable starts with the same value, and a
variable that starts with another value than zero leaves the disk as it is. -/
theorem alloc_inode_never_exclusive (v : Volume) (bgdt : Payload) (disk : Sectors) :
    ¬AllocExclusive v bgdt disk ∧
    (∀ freeInode ino disk', allocInode v bgdt freeInode disk = .ok (ino, disk') →
      ∃ disk'', allocInode v bgdt freeInode disk' = .ok (ino, disk'')) ∧
    ∀ freeInode, freeInode ≠ 0 →
      allocInode v bgdt freeInode disk = .ok (freeInode + v.geometry.inodesPerGroup, disk) := by
  refine ⟨fun he => ?_, fun freeInode ino disk' h => allocInode_other h disk',
    fun freeInode => allocInode_of_ne_zero⟩
  have hfirst : allocInode v bgdt 1 disk = .ok (1 + v.geometry.inodesPerGroup, disk) :=
    allocInode_of_ne_zero (by decide)
  exact he.differs 1 1 _ _ _ _ hfirst hfirst rfl

/-- One group of eight inodes, with its bitmap in block 3 and all of them free. -/
def freeGroup : Payload := fun i => if i.val = 4 then 3 else if i.val = 14 then 8 else 0

def eightInodes : Volume := ⟨⟨1024, 8, 2, 128, 8⟩, 1024, 8, 64, 64, 1, false⟩

/-- On an empty bitmap both of two calls return 24, and the first one sets eight bits of sector 3,
which is not where block 3 is. -/
theorem alloc_inode_returns_twice :
    (∃ group index, InodeFree eightInodes freeGroup (fun _ _ => 0) group index) ∧
    (∃ disk', allocInode eightInodes freeGroup 0 (fun _ _ => 0) = .ok (24, disk') ∧
      deviceByte disk' (3 * 512) = 0xFF ∧ deviceByte disk' (3 * 1024) = 0 ∧
      ∃ disk'', allocInode eightInodes freeGroup 0 disk' = .ok (24, disk'')) ∧
    ¬AllocExclusive eightInodes freeGroup (fun _ _ => 0) := by
  have hrun : ∃ disk', allocInode eightInodes freeGroup 0 (fun _ _ => 0) = .ok (24, disk') ∧
      deviceByte disk' (3 * 512) = 0xFF ∧ deviceByte disk' (3 * 1024) = 0 :=
    ⟨_, rfl, by decide, by decide⟩
  obtain ⟨disk', hfirst, hset, hkept⟩ := hrun
  obtain ⟨disk'', hsecond⟩ := allocInode_other hfirst disk'
  refine ⟨⟨0, 0, by decide, by decide, 3, rfl, by decide⟩,
    ⟨disk', hfirst, hset, hkept, disk'', hsecond⟩, fun he => ?_⟩
  exact he.differs 0 0 _ _ _ _ hfirst hsecond rfl

end SaxonOS.Proofs
