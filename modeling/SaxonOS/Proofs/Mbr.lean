import SaxonOS.Mbr
import SaxonOS.Proofs.AtaTransfer

/-!
# Half of the partition start

The start of the first partition is a field of four bytes. `parse_mbr` keeps the one word that
has its lower two.
-/

namespace SaxonOS.Proofs
open SaxonOS Lib

/-- The first sector of the first partition, at bytes 454 to 457 of a boot sector. -/
def partitionStart (sector : Fin 512 → UInt8) : Nat :=
  (sector 454).toNat + 256 * (sector 455).toNat + 65536 * (sector 456).toNat +
    16777216 * (sector 457).toNat

/-- The sector that `parse_mbr` asks for. -/
def bootSector (disk : PioDisk) (dev : AtaDevice) : Fin 512 → UInt8 :=
  disk.sectors (driveOf dev) (dev.startLba.toNat % 2 ^ 28)

/-- The word that `parse_mbr` keeps. -/
def keptWord (sector : Fin 512 → UInt8) : UInt16 := word (sector 454) (sector 455)

variable {disk : PioDisk} {dev : AtaDevice}

/-- The transfer of the boot sector. -/
def bootTransfer (dev : AtaDevice) : Transfer :=
  ⟨false, driveOf dev, dev.startLba.toNat % 2 ^ 28, 256, 0⟩

lemma bootTransfer_byte (disk : PioDisk) (dev : AtaDevice) {j : Nat} (hj : j < 512) :
    (bootTransfer dev).byteAt disk.sectors j = bootSector disk dev ⟨j, hj⟩ := by
  simp only [Transfer.byteAt, bootTransfer, bootSector, Nat.div_eq_of_lt hj, Nat.mod_eq_of_lt hj,
    Nat.add_zero]

/-- The device after `k` words of the boot sector. -/
def devAfter (disk : PioDisk) (dev : AtaDevice) (k : Nat) : AtaDevice :=
  if 227 < k then { dev with startLba := (keptWord (bootSector disk dev)).toUInt32 } else dev

lemma devAfter_base (disk : PioDisk) (dev : AtaDevice) (k : Nat) :
    (devAfter disk dev k).base = dev.base := by
  unfold devAfter
  split <;> rfl

lemma parseMbrWord_atWord {d : PioDisk} {k : Nat} (hbase : dev.base = d.base) (hk : k < 256) :
    parseMbrWord (d.atWord (bootTransfer dev) k disk.sectors, devAfter disk dev k) k =
      (d.atWord (bootTransfer dev) (k + 1) disk.sectors, devAfter disk dev (k + 1)) := by
  have hinw := PioDisk.inw_atWord d disk.sectors (t := bootTransfer dev) (k := k) rfl hk
  rw [← hbase] at hinw
  simp only [parseMbrWord, devAfter_base, hinw, Prod.mk.injEq, true_and]
  by_cases hkept : k = 227
  · subst hkept
    rw [if_pos rfl, bootTransfer_byte disk dev (by decide), bootTransfer_byte disk dev (by decide)]
    rfl
  · rw [if_neg hkept, devAfter, devAfter]
    have hiff : 227 < k ↔ 227 < k + 1 := by omega
    simp only [hiff]

lemma parseMbrWords_eq {d : PioDisk} {k : Nat} (hbase : dev.base = d.base) (hk : k ≤ 256) :
    (List.range k).foldl parseMbrWord (d.atWord (bootTransfer dev) 0 disk.sectors, dev) =
      (d.atWord (bootTransfer dev) k disk.sectors, devAfter disk dev k) := by
  induction k with
  | zero => rfl
  | succ k ih =>
    rw [List.range_succ, List.foldl_append, List.foldl_cons, List.foldl_nil, ih (by omega),
      parseMbrWord_atWord hbase (by omega)]

lemma parseMbr_eq (fuel : Nat) (hbase : dev.base = disk.base) :
    parseMbr fuel disk dev =
      .ok ((latched disk 1 dev dev.startLba).atWord (bootTransfer dev) 256 disk.sectors,
        { dev with startLba := (keptWord (bootSector disk dev)).toUInt32 }) := by
  have hcmd : issueCommand disk 1 dev dev.startLba readSectsCmd =
      (latched disk 1 dev dev.startLba).atWord (bootTransfer dev) 0 disk.sectors := by
    rw [issueCommand_eq hbase, hbase]
    exact (PioDisk.outb_read _).trans (start_latched disk 1 dev dev.startLba false)
  have hwait := awaitStatus_ok ((latched disk 1 dev dev.startLba).atWord (bootTransfer dev) 0
    disk.sectors) fuel hbase
  rw [parseMbr, hcmd]
  simp only [hwait, bind, Except.bind]
  exact congrArg Except.ok (parseMbrWords_eq hbase (Nat.le_refl 256))

lemma keptWord_toNat (sector : Fin 512 → UInt8) : (keptWord sector).toUInt32.toNat =
    (sector 454).toNat + 256 * (sector 455).toNat := by
  rw [UInt16.toNat_toUInt32, keptWord, word_toNat]

lemma keptWord_eq_iff (sector : Fin 512 → UInt8) :
    (keptWord sector).toUInt32.toNat = partitionStart sector ↔
      sector 456 = 0 ∧ sector 457 = 0 := by
  rw [keptWord_toNat, partitionStart, ← UInt8.toNat_inj, ← UInt8.toNat_inj, UInt8.toNat_zero]
  omega

/-- What is read from the device afterwards is the partition, if it starts low enough. -/
theorem read_after_parseMbr (fuel : Nat) (dest : Nat → UInt8) (sectCount : UInt8)
    (relLba : UInt32) (hbase : dev.base = disk.base) (h456 : bootSector disk dev 456 = 0)
    (h457 : bootSector disk dev 457 = 0)
    (hreach : partitionStart (bootSector disk dev) + relLba.toNat < 2 ^ 28) :
    ∃ disk₁ dev₁ disk₂ dest', parseMbr fuel disk dev = .ok (disk₁, dev₁) ∧
      ataReadSects28Pio fuel disk₁ dest sectCount dev₁ relLba = .ok (disk₂, dest') ∧
      ∀ j < sectors28 sectCount * 512, dest' j = disk.sectors (driveOf dev)
        (partitionStart (bootSector disk dev) + relLba.toNat + j / 512)
        ⟨j % 512, Nat.mod_lt j (by decide)⟩ := by
  have hstart := (keptWord_eq_iff (bootSector disk dev)).mpr ⟨h456, h457⟩
  rw [← hstart] at hreach ⊢
  refine ⟨_, _, _, _, parseMbr_eq fuel hbase, ataReadSects28Pio_eq fuel dest hbase hreach, ?_⟩
  intro j hj
  rw [fetched, if_pos (by omega)]
  rfl

/-- A boot sector whose first partition starts at sector 2048 + 65536 * `high`. -/
def bootDisk (high : UInt8) : PioDisk :=
  { emptyDisk with
    sectors := fun _ lba i =>
      if lba = 0 ∧ i = 455 then 8 else if lba = 0 ∧ i = 456 then high else 0 }

/-- The start of the partition is read in full if and only if its upper two bytes are zero. -/
theorem parseMbr_startLba_iff (fuel : Nat) (disk : PioDisk) (dev : AtaDevice)
    (hbase : dev.base = disk.base) :
    (∃ disk' dev', parseMbr fuel disk dev = .ok (disk', dev') ∧
      dev'.startLba.toNat = partitionStart (bootSector disk dev)) ↔
      bootSector disk dev 456 = 0 ∧ bootSector disk dev 457 = 0 := by
  rw [← keptWord_eq_iff, parseMbr_eq fuel hbase]
  constructor
  · rintro ⟨disk', dev', h, hstart⟩
    obtain ⟨-, rfl⟩ := Prod.mk.inj (Except.ok.inj h)
    exact hstart
  · exact fun hstart => ⟨_, _, rfl, hstart⟩

/-- A partition at sector 2048. -/
theorem parseMbr_startLba_iff_low : ∃ disk' dev',
    parseMbr 0 (bootDisk 0) ⟨0, 0, 0x1F0⟩ = .ok (disk', dev') ∧ dev'.startLba.toNat = 2048 :=
  (parseMbr_startLba_iff 0 (bootDisk 0) ⟨0, 0, 0x1F0⟩ rfl).mpr (by decide)

/-- A partition at sector 67584, which is taken to start at sector 2048. -/
theorem parseMbr_loses_high : ∃ disk' dev',
    parseMbr 0 (bootDisk 1) ⟨0, 0, 0x1F0⟩ = .ok (disk', dev') ∧
      partitionStart (bootSector (bootDisk 1) ⟨0, 0, 0x1F0⟩) = 67584 ∧
      dev'.startLba.toNat = 2048 :=
  ⟨_, _, parseMbr_eq 0 rfl, by decide, by decide⟩

end SaxonOS.Proofs
