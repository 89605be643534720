import SaxonOS.DevfsInode
import SaxonOS.Lib.Chain

/-!
# The permissions of a device

The loop over the records would give an inode the permissions of its device. It never runs: what
guards it is true of the inode number 0 only, and the number 0 has been excluded before.
-/

namespace SaxonOS.Proofs
open SaxonOS Lib

variable {fs : DevfsState} {dest : DevInode} {devs : List UInt32} {ptr iNo permissions : UInt32}

/-- The node that an address stands for. -/
def bdevAt (a : UInt32) : Ptr UInt32 := if a = 0 then .null else .node a

lemma bdevAt_eq_null_iff : bdevAt ptr = .null ↔ ptr = 0 := by
  rw [bdevAt]
  split <;> simp [*]

lemma bdevAt_eq_node_iff {a : UInt32} : bdevAt ptr = .node a ↔ ptr = a ∧ ptr ≠ 0 := by
  rw [bdevAt]
  split <;> simp [*]

def nextBdev (fs : Devfs) (a : UInt32) : Ptr UInt32 := bdevAt (fs.bdev a).next

/-- The record is met on the way from `block_head`. -/
def Registered (fs : Devfs) (a : UInt32) : Prop :=
  ∃ before, Seg (nextBdev fs) (bdevAt fs.blockHead) before (.node a)

/-- The list from `block_head` on has these records and ends, and no two have one minor. -/
structure BdevList (fs : Devfs) (devs : List UInt32) : Prop where
  seg : Seg (nextBdev fs) (bdevAt fs.blockHead) devs .null
  minors : (devs.map fun a => (fs.bdev a).minor).Nodup

lemma BdevList.registered_iff {fs : Devfs} (h : BdevList fs devs) {a : UInt32} :
    Registered fs a ↔ a ∈ devs := by
  constructor
  · rintro ⟨before, hbefore⟩
    obtain ⟨rest, rfl, hrest⟩ := hbefore.null_split h.seg
    cases rest with
    | nil => cases hrest
    | cons b rest =>
      obtain rfl := Ptr.node.inj hrest.1
      exact List.mem_append_right _ List.mem_cons_self
  · intro ha
    obtain ⟨before, -, hbefore⟩ := h.seg.until ha
    exact ⟨before, hbefore⟩

/-- A minor has one byte. -/
lemma BdevList.length_le {fs : Devfs} (h : BdevList fs devs) : devs.length ≤ 256 := by
  have hnat : ((devs.map fun a => (fs.bdev a).minor).map UInt8.toNat).Nodup :=
    h.minors.map fun _ _ => UInt8.toNat_inj.mp
  have hsub : (devs.map fun a => (fs.bdev a).minor).map UInt8.toNat ⊆ List.range 256 := by
    intro n hn
    obtain ⟨v, -, rfl⟩ := List.mem_map.mp hn
    exact List.mem_range.mpr v.toNat_lt
  have hle := (List.subperm_of_subset hnat hsub).length_le
  rwa [List.length_map, List.length_map, List.length_range] at hle

/-- The permissions are those of the device with the minor, where there is one. -/
structure Carries (fs : DevfsState) (iNo permissions permissions' : UInt32) : Prop where
  found : ∀ a, Registered fs.toDevfs a → (fs.bdev a).minor = inodeMinor iNo →
    permissions' = fs.permissions a
  unchanged : (∀ a, Registered fs.toDevfs a → (fs.bdev a).minor ≠ inodeMinor iNo) →
    permissions' = permissions

lemma readPermissions_unmatched {fuel : Nat}
    (hseg : Seg (nextBdev fs.toDevfs) (bdevAt ptr) devs .null) (hfuel : devs.length < fuel)
    (hno : ∀ a ∈ devs, (fs.bdev a).minor ≠ inodeMinor iNo) :
    readPermissions fs iNo fuel ptr permissions = .ok permissions := by
  induction devs generalizing ptr fuel with
  | nil =>
    obtain ⟨n, rfl⟩ : ∃ n, fuel = n + 1 := ⟨fuel - 1, by omega⟩
    rw [readPermissions, if_pos (bdevAt_eq_null_iff.mp hseg)]
  | cons a devs ih =>
    obtain ⟨n, rfl⟩ : ∃ n, fuel = n + 1 := ⟨fuel - 1, by omega⟩
    obtain ⟨hnode, hrest⟩ := hseg
    obtain ⟨rfl, hne⟩ := bdevAt_eq_node_iff.mp hnode
    have hmiss : inodeMinor iNo ≠ (fs.bdev ptr).minor := fun h => hno ptr List.mem_cons_self h.symm
    rw [readPermissions, if_neg hne, if_neg hmiss]
    exact ih hrest (Nat.lt_of_succ_lt_succ hfuel) fun b hb => hno b (List.mem_cons_of_mem _ hb)

lemma readPermissions_matched {fuel : Nat} {a : UInt32}
    (hseg : Seg (nextBdev fs.toDevfs) (bdevAt ptr) devs .null) (hfuel : devs.length < fuel)
    (hminors : (devs.map fun a => (fs.bdev a).minor).Nodup) (ha : a ∈ devs)
    (hminor : (fs.bdev a).minor = inodeMinor iNo) :
    readPermissions fs iNo fuel ptr permissions = .ok (fs.permissions a) := by
  induction devs generalizing ptr fuel permissions with
  | nil => cases ha
  | cons b devs ih =>
    obtain ⟨n, rfl⟩ : ∃ n, fuel = n + 1 := ⟨fuel - 1, by omega⟩
    obtain ⟨hnode, hrest⟩ := hseg
    obtain ⟨rfl, hne⟩ := bdevAt_eq_node_iff.mp hnode
    obtain ⟨hfirst, hminors⟩ := List.nodup_cons.mp hminors
    rw [readPermissions, if_neg hne]
    by_cases hhere : inodeMinor iNo = (fs.bdev ptr).minor
    · -- no later record has this minor, so that the first match stays
      have hno : ∀ c ∈ devs, (fs.bdev c).minor ≠ inodeMinor iNo := by
        intro c hc h
        exact hfirst (List.mem_map.mpr ⟨c, hc, h.trans hhere⟩)
      have hat : a = ptr := by
        rcases List.mem_cons.mp ha with h | h
        · exact h
        · exact absurd hminor (hno a h)
      rw [if_pos hhere, hat]
      exact readPermissions_unmatched hrest (Nat.lt_of_succ_lt_succ hfuel) hno
    · have hlater : a ∈ devs := by
        rcases List.mem_cons.mp ha with rfl | h
        · exact absurd hminor.symm hhere
        · exact h
      rw [if_neg hhere]
      exact ih hrest (Nat.lt_of_succ_lt_succ hfuel) hminors hlater

/-- The loop alone does what it is for. -/
theorem readPermissions_carries (h : BdevList fs.toDevfs devs) (iNo permissions : UInt32) :
    ∃ permissions', readPermissions fs iNo (2 ^ 32) fs.blockHead permissions = .ok permissions' ∧
      Carries fs iNo permissions permissions' := by
  have hfuel : devs.length < 2 ^ 32 := by
    have hlen := h.length_le
    omega
  by_cases hex : ∃ a ∈ devs, (fs.bdev a).minor = inodeMinor iNo
  · obtain ⟨a, ha, hminor⟩ := hex
    refine ⟨fs.permissions a, readPermissions_matched h.seg hfuel h.minors ha hminor, ?_, ?_⟩
    · intro b hb hminor'
      rw [List.inj_on_of_nodup_map h.minors ha (h.registered_iff.mp hb)
        (hminor.trans hminor'.symm)]
    · intro hno
      exact absurd hminor (hno a (h.registered_iff.mpr ha))
  · push Not at hex
    refine ⟨permissions, readPermissions_unmatched h.seg hfuel hex, ?_, fun _ => rfl⟩
    intro a ha hminor
    exact absurd hminor (hex a (h.registered_iff.mp ha))

/-- The first guard excludes the number that the second one is true of. -/
lemma majorOfTest_eq_zero (h : iNo > 0) : majorOfTest iNo = 0 := by
  have hne : iNo ≠ blockDev.toUInt32 >>> 8 := by
    rintro rfl
    exact absurd h (by decide)
  exact if_neg hne

/-- The permissions stay as they are. -/
theorem devfsReadInode_eq (fs : DevfsState) (dest : DevInode) :
    devfsReadInode fs dest =
      .ok { dest with
        iOps := fs.devfsInodeOps, iSb := fs.superBlock, mountPoint := false, counter := 0 } := by
  rw [devfsReadInode]
  dsimp only
  by_cases hpos : dest.iNo > 0
  · rw [if_pos hpos, majorOfTest_eq_zero hpos, if_neg (not_not_intro rfl)]
    rfl
  · rw [if_neg hpos]
    rfl

/-- A block device's inode has the permissions of the device, and another inode keeps its own. -/
structure RightPermissions (fs : DevfsState) (iNo permissions permissions' : UInt32) : Prop where
  block : inodeMajor iNo = blockDev.toUInt8 → Carries fs iNo permissions permissions'
  other : inodeMajor iNo ≠ blockDev.toUInt8 → permissions' = permissions

/-- An inode has the right permissions only if it had them before. -/
theorem devfsReadInode_right_iff (fs : DevfsState) (dest : DevInode) :
    (∃ dest', devfsReadInode fs dest = .ok dest' ∧
      RightPermissions fs dest.iNo dest.permissions dest'.permissions) ↔
    (inodeMajor dest.iNo = blockDev.toUInt8 → ∀ a, Registered fs.toDevfs a →
      (fs.bdev a).minor = inodeMinor dest.iNo → fs.permissions a = dest.permissions) := by
  rw [devfsReadInode_eq]
  constructor
  · rintro ⟨dest', hdest, hright⟩ hmajor a ha hminor
    cases hdest
    exact ((hright.block hmajor).found a ha hminor).symm
  · intro h
    refine ⟨_, rfl, fun hmajor => ⟨fun a ha hminor => ?_, fun _ => rfl⟩, fun _ => rfl⟩
    exact (h hmajor a ha hminor).symm

/-- One device, whose permissions are 0666. -/
def oneDevice : DevfsState where
  blockHead := 0x1000
  bdev _ := ⟨0, 0⟩
  permissions _ := 0o666
  superBlock := 0x2000
  devfsInodeOps := 0x3000

def firstDeviceInode : DevInode where
  iNo := 0x300
  iOps := 0
  iSb := 0
  permissions := 0
  mountPoint := false
  counter := 0

theorem devfsReadInode_wrong :
    BdevList oneDevice.toDevfs [0x1000] ∧ inodeMajor firstDeviceInode.iNo = blockDev.toUInt8 ∧
    (oneDevice.bdev 0x1000).minor = inodeMinor firstDeviceInode.iNo ∧
    ¬∃ dest', devfsReadInode oneDevice firstDeviceInode = .ok dest' ∧
      dest'.permissions = oneDevice.permissions 0x1000 := by
  refine ⟨⟨⟨rfl, rfl⟩, List.nodup_singleton _⟩, by decide, by decide, ?_⟩
  rintro ⟨dest', hdest, hperm⟩
  rw [devfsReadInode_eq] at hdest
  cases hdest
  exact absurd hperm (by decide)

end SaxonOS.Proofs
