import SaxonOS.Ata

/-!
# What an ATA transfer moves

The address goes out over four registers and the drive with it. The stored words are those of
the source buffer in order, and the words that come back are taken apart again.
-/

namespace SaxonOS.Proofs
open SaxonOS Lib

/-- The first sector of a transfer. -/
def firstSector (dev : AtaDevice) (relLba : UInt32) : Nat :=
  dev.startLba.toNat + relLba.toNat

/-- The drive that `slave_bit` selects. -/
def driveOf (dev : AtaDevice) : Bool := dev.slaveBit ≠ 0

/-- The transfer that a command starts. -/
def transferOf (dev : AtaDevice) (relLba : UInt32) (sectCount : UInt8) (write : Bool) :
    Transfer :=
  ⟨write, driveOf dev, firstSector dev relLba, 256 * sectors28 sectCount, 0⟩

/-- The transfer that a command for the sector `lba` starts, of which the registers keep 28 bits. -/
def latchedTransfer (dev : AtaDevice) (lba : UInt32) (sectCount : UInt8) (write : Bool) :
    Transfer :=
  ⟨write, driveOf dev, lba.toNat % 2 ^ 28, 256 * sectors28 sectCount, 0⟩

variable {disk : PioDisk} {dev : AtaDevice} {relLba : UInt32} {sectCount : UInt8}

lemma nibble_toNat (lba : UInt32) : ((lba >>> 24) &&& 0x0F).toNat = lba.toNat / 16777216 % 16 := by
  rw [UInt32.toNat_and, UInt32.toNat_shiftRight]
  change lba.toNat >>> 24 &&& 15 = _
  rw [Nat.shiftRight_eq_div_pow]
  exact Nat.and_two_pow_sub_one_eq_mod _ 4

lemma or_nibble : ∀ x < 16, (0xF0 ||| x) = 0xF0 + x ∧ (0xE0 ||| x) = 0xE0 + x := by decide

lemma devSel_toNat (dev : AtaDevice) (lba : UInt32) : (devSel dev lba).toNat =
    (if dev.slaveBit ≠ 0 then 0xF0 else 0xE0) + lba.toNat / 16777216 % 16 := by
  have hlt : lba.toNat / 16777216 % 16 < 16 := Nat.mod_lt _ (by decide)
  have hor := or_nibble _ hlt
  rw [devSel, UInt32.toNat_toUInt8, UInt32.toNat_or, nibble_toNat]
  by_cases hslave : dev.slaveBit ≠ 0
  · rw [if_pos hslave, if_pos hslave]
    change (0xF0 ||| _) % 256 = _
    rw [hor.1]
    omega
  · rw [if_neg hslave, if_neg hslave]
    change (0xE0 ||| _) % 256 = _
    rw [hor.2]
    omega

/-- The registers as they are when the command goes out. -/
def latched (disk : PioDisk) (sectCount : UInt8) (dev : AtaDevice) (lba : UInt32) : PioDisk :=
  { disk with
    sel := devSel dev lba
    count := sectCount
    low := lba.toUInt8
    mid := (lba >>> 8).toUInt8
    high := (lba >>> 16).toUInt8 }

lemma issueCommand_eq (hbase : dev.base = disk.base) (lba : UInt32) (cmd : UInt8) :
    issueCommand disk sectCount dev lba cmd =
      (latched disk sectCount dev lba).outb (dev.base + regCmdPort) cmd := by
  simp only [issueCommand, hbase, regDevSelPort, regInfoPort, regSectCntPort, regLbaLowPort,
    regLbaMidPort, regLbaHighPort, PioDisk.outb_sel, PioDisk.outb_info, PioDisk.outb_count,
    PioDisk.outb_low, PioDisk.outb_mid, PioDisk.outb_high, latched]

/-- The address registers hold 28 bits of the sector number. -/
lemma latched_address (lba : UInt32) :
    (latched disk sectCount dev lba).address = lba.toNat % 2 ^ 28 := by
  have hlow : lba.toUInt8.toNat = lba.toNat % 256 := UInt32.toNat_toUInt8 lba
  have hmid : (lba >>> 8).toUInt8.toNat = lba.toNat / 256 % 256 := by
    rw [UInt32.toNat_toUInt8, UInt32.toNat_shiftRight]
    exact congrArg (· % 256) (Nat.shiftRight_eq_div_pow lba.toNat 8)
  have hhigh : (lba >>> 16).toUInt8.toNat = lba.toNat / 65536 % 256 := by
    rw [UInt32.toNat_toUInt8, UInt32.toNat_shiftRight]
    exact congrArg (· % 256) (Nat.shiftRight_eq_div_pow lba.toNat 16)
  have hsel : (devSel dev lba).toNat % 16 = lba.toNat / 16777216 % 16 := by
    rw [devSel_toNat]
    split <;> omega
  simp only [PioDisk.address, latched, hlow, hmid, hhigh, hsel]
  omega

/-- The command starts a transfer on the selected drive. -/
lemma start_latched (disk : PioDisk) (sectCount : UInt8) (dev : AtaDevice) (lba : UInt32)
    (write : Bool) :
    (latched disk sectCount dev lba).start write =
      (latched disk sectCount dev lba).atWord (latchedTransfer dev lba sectCount write) 0
        disk.sectors := by
  have hsel : (latched disk sectCount dev lba).sel.toNat =
      (if dev.slaveBit ≠ 0 then 0xF0 else 0xE0) + lba.toNat / 16777216 % 16 := devSel_toNat dev _
  have hmode : (latched disk sectCount dev lba).sel.toNat / 64 % 2 = 1 := by
    rw [hsel]
    split <;> omega
  have hdrive : decide ((latched disk sectCount dev lba).sel.toNat / 16 % 2 = 1) =
      driveOf dev := by
    rw [hsel, driveOf]
    congr 1
    apply propext
    split <;> simp [*] <;> omega
  rw [PioDisk.start, if_pos hmode, hdrive, latched_address]
  rfl

lemma realLba_toNat (hreach : firstSector dev relLba < 2 ^ 28) :
    (relLba + dev.startLba).toNat = firstSector dev relLba := by
  rw [firstSector] at hreach ⊢
  rw [UInt32.toNat_add]
  omega

/-- Below `2 ^ 28` nothing of the address is lost. -/
lemma latchedTransfer_eq (hreach : firstSector dev relLba < 2 ^ 28) (write : Bool) :
    latchedTransfer dev (relLba + dev.startLba) sectCount write =
      transferOf dev relLba sectCount write := by
  rw [latchedTransfer, transferOf, realLba_toNat hreach, Nat.mod_eq_of_lt hreach]

/-- The command starts the transfer of the addressed sectors of the selected drive. -/
lemma command_start (hreach : firstSector dev relLba < 2 ^ 28) (write : Bool) :
    (latched disk sectCount dev (relLba + dev.startLba)).start write =
      (latched disk sectCount dev (relLba + dev.startLba)).atWord
        (transferOf dev relLba sectCount write) 0 disk.sectors := by
  rw [start_latched, latchedTransfer_eq hreach]

/-- The controller is never busy. -/
lemma awaitStatus_ok (disk : PioDisk) (fuel : Nat) (hbase : dev.base = disk.base) :
    awaitStatus disk dev fuel (disk.inb (dev.base + regCmdPort)) = .ok disk.status := by
  have hstatus : disk.inb (dev.base + regCmdPort) = disk.status := by
    rw [hbase]
    exact disk.inb_status
  have hbusy : ¬(disk.status &&& 0x80 = 0x80 ∧ disk.status &&& 0x01 ≠ 0x01) := by
    rintro ⟨h, -⟩
    rw [disk.notBusy] at h
    exact absurd h (by decide)
  rw [hstatus]
  unfold awaitStatus
  rw [if_neg hbusy]

lemma awaitReady_ok (fuel : Nat) (hbase : dev.base = disk.base) :
    awaitReady fuel disk dev = .ok () := by
  rw [awaitReady, awaitStatus_ok disk fuel hbase]
  exact if_neg (not_not_intro disk.noError)

/-- The words of the source buffer. -/
def sourceWord (src : Nat → UInt8) (i : Nat) : UInt16 := word (src (2 * i)) (src (2 * i + 1))

lemma streamByte_sourceWord (src : Nat → UInt8) (j : Nat) :
    PioDisk.streamByte (sourceWord src) j = src j := by
  rw [PioDisk.streamByte, sourceWord, lowByte_word, highByte_word]
  split
  · congr 1
    omega
  · congr 1
    omega

/-- The sectors of both drives after `src` went to `n` sectors from `first` on. -/
def writtenSectors (drive : Bool) (first n : Nat) (src : Nat → UInt8) (sectors : Drives) : Drives :=
  fun d lba i =>
    if d = drive ∧ first ≤ lba ∧ lba < first + n then src (512 * (lba - first) + i.val)
    else sectors d lba i

lemma stored_eq (t : Transfer) (n : Nat) (src : Nat → UInt8) (sectors : Drives) :
    PioDisk.stored t (sourceWord src) (n * 256) sectors =
      writtenSectors t.drive t.lba n src sectors := by
  funext drive lba i
  have hi := i.isLt
  simp only [PioDisk.stored, writtenSectors, streamByte_sourceWord, Nat.mul_comm _ 512]
  congr 1
  apply propext
  apply and_congr_right
  intro _
  omega

/-- The controller after a write, wherever the 28 bits of the address lead. -/
def afterWrite (disk : PioDisk) (src : Nat → UInt8) (sectCount : UInt8) (dev : AtaDevice)
    (lba : UInt32) : PioDisk :=
  (latched disk sectCount dev lba).atWord (latchedTransfer dev lba sectCount true)
    (sectors28 sectCount * 256)
    (writtenSectors (driveOf dev) (lba.toNat % 2 ^ 28) (sectors28 sectCount) src disk.sectors)

lemma ataWriteSects28Pio_ok (fuel : Nat) (src : Nat → UInt8) (sectCount : UInt8) (relLba : UInt32)
    (hbase : dev.base = disk.base) :
    ataWriteSects28Pio fuel disk src sectCount dev relLba =
      .ok (afterWrite disk src sectCount dev (relLba + dev.startLba)) := by
  have hcmd : issueCommand disk sectCount dev (relLba + dev.startLba) writeSectsCmd =
      (latched disk sectCount dev (relLba + dev.startLba)).atWord
        (latchedTransfer dev (relLba + dev.startLba) sectCount true) 0 disk.sectors := by
    rw [issueCommand_eq hbase, hbase, ← start_latched]
    exact PioDisk.outb_write _
  have hwords : sectors28 sectCount * 256 ≤
      (latchedTransfer dev (relLba + dev.startLba) sectCount true).words := by
    rw [Nat.mul_comm]
    exact Nat.le_refl _
  have hready : awaitReady fuel ((latched disk sectCount dev (relLba + dev.startLba)).atWord
      (latchedTransfer dev (relLba + dev.startLba) sectCount true) 0 disk.sectors) dev = .ok () :=
    awaitReady_ok fuel hbase
  have hstream := PioDisk.outw_stream (latched disk sectCount dev (relLba + dev.startLba)) rfl
    (sourceWord src) disk.sectors hwords
  rw [stored_eq] at hstream
  rw [ataWriteSects28Pio, hcmd]
  simp only [hready, bind, Except.bind, hbase]
  exact congrArg Except.ok hstream

lemma ataWriteSects28Pio_eq (fuel : Nat) (src : Nat → UInt8) (sectCount : UInt8)
    (hbase : dev.base = disk.base) (hreach : firstSector dev relLba < 2 ^ 28) :
    ataWriteSects28Pio fuel disk src sectCount dev relLba =
      .ok ((latched disk sectCount dev (relLba + dev.startLba)).atWord
        (transferOf dev relLba sectCount true) (sectors28 sectCount * 256)
        (writtenSectors (driveOf dev) (firstSector dev relLba) (sectors28 sectCount) src
          disk.sectors)) := by
  rw [ataWriteSects28Pio_ok fuel src sectCount relLba hbase, afterWrite, latchedTransfer_eq hreach,
    realLba_toNat hreach, Nat.mod_eq_of_lt hreach]

/-- What the read loop has stored after `k` words. -/
def fetched (t : Transfer) (sectors : Drives) (k : Nat) (dest : Nat → UInt8) : Nat → UInt8 :=
  fun j => if j < 2 * k then t.byteAt sectors j else dest j

lemma readWord_atWord {d : PioDisk} {t : Transfer} {k : Nat} (hbase : dev.base = d.base)
    (hw : t.write = false) (hk : k < t.words) (sectors : Drives) (dest : Nat → UInt8) :
    readWord dev (d.atWord t k sectors, fetched t sectors k dest) k =
      (d.atWord t (k + 1) sectors, fetched t sectors (k + 1) dest) := by
  simp only [readWord, hbase, PioDisk.inw_atWord d sectors hw hk, Prod.mk.injEq, true_and]
  funext j
  rw [Function.update_apply, Function.update_apply, fetched, fetched]
  by_cases hodd : j = k * 2 + 1
  · have hj : j = 2 * k + 1 := by omega
    rw [if_pos hodd, if_pos (by omega), hj]
    exact highByte_word _ _
  · rw [if_neg hodd]
    by_cases heven : j = k * 2
    · have hj : j = 2 * k := by omega
      rw [if_pos heven, if_pos (by omega), hj]
      exact lowByte_word _ _
    · rw [if_neg heven]
      congr 1
      apply propext
      omega

lemma readWords_eq {d : PioDisk} {t : Transfer} {k : Nat} (hbase : dev.base = d.base)
    (hw : t.write = false) (hk : k ≤ t.words) (sectors : Drives) (dest : Nat → UInt8) :
    (List.range k).foldl (readWord dev) (d.atWord t 0 sectors, dest) =
      (d.atWord t k sectors, fetched t sectors k dest) := by
  induction k with
  | zero => rfl
  | succ k ih =>
    rw [List.range_succ, List.foldl_append, List.foldl_cons, List.foldl_nil, ih (by omega),
      readWord_atWord hbase hw (by omega)]

lemma ataReadSects28Pio_eq (fuel : Nat) (dest : Nat → UInt8) (hbase : dev.base = disk.base)
    (hreach : firstSector dev relLba < 2 ^ 28) :
    ataReadSects28Pio fuel disk dest sectCount dev relLba =
      .ok ((latched disk sectCount dev (relLba + dev.startLba)).atWord
        (transferOf dev relLba sectCount false) (sectors28 sectCount * 256) disk.sectors,
        fetched (transferOf dev relLba sectCount false) disk.sectors (sectors28 sectCount * 256)
          dest) := by
  have hcmd : issueCommand disk sectCount dev (relLba + dev.startLba) readSectsCmd =
      (latched disk sectCount dev (relLba + dev.startLba)).atWord
        (transferOf dev relLba sectCount false) 0 disk.sectors := by
    rw [issueCommand_eq hbase, hbase, ← command_start hreach]
    exact PioDisk.outb_read _
  have hwords : sectors28 sectCount * 256 ≤ (transferOf dev relLba sectCount false).words := by
    rw [Nat.mul_comm]
    exact Nat.le_refl _
  have hready : awaitReady fuel ((latched disk sectCount dev (relLba + dev.startLba)).atWord
      (transferOf dev relLba sectCount false) 0 disk.sectors) dev = .ok () :=
    awaitReady_ok fuel hbase
  have hloop := readWords_eq (d := latched disk sectCount dev (relLba + dev.startLba)) hbase rfl
    hwords disk.sectors dest
  rw [ataReadSects28Pio, hcmd]
  simp only [hready, bind, Except.bind]
  exact congrArg Except.ok hloop

/-- A byte of the sectors that have just been written. -/
lemma byteAt_written {j : Nat} (hj : j < sectors28 sectCount * 512) (src : Nat → UInt8)
    (sectors : Drives) : (transferOf dev relLba sectCount false).byteAt
      (writtenSectors (driveOf dev) (firstSector dev relLba) (sectors28 sectCount) src sectors) j =
      src j := by
  rw [Transfer.byteAt, writtenSectors]
  change (if driveOf dev = driveOf dev ∧ firstSector dev relLba ≤ firstSector dev relLba + j / 512 ∧
    firstSector dev relLba + j / 512 < firstSector dev relLba + sectors28 sectCount then
    src (512 * (firstSector dev relLba + j / 512 - firstSector dev relLba) + j % 512) else _) = src j
  rw [if_pos ⟨rfl, by omega, by omega⟩]
  congr 1
  omega

/-- A write puts the source bytes into exactly the addressed sectors of the selected drive, and
the read after it returns them. -/
theorem ata_round_trip (fuel : Nat) (disk : PioDisk) (dev : AtaDevice) (src dest : Nat → UInt8)
    (sectCount : UInt8) (relLba : UInt32) (hbase : dev.base = disk.base)
    (hreach : dev.startLba.toNat + relLba.toNat + sectors28 sectCount ≤ 2 ^ 28) :
    ∃ disk₁ disk₂ dest',
      ataWriteSects28Pio fuel disk src sectCount dev relLba = .ok disk₁ ∧
      ataReadSects28Pio fuel disk₁ dest sectCount dev relLba = .ok (disk₂, dest') ∧
      (∀ j < sectors28 sectCount * 512, dest' j = src j) ∧
      (∀ j, sectors28 sectCount * 512 ≤ j → dest' j = dest j) ∧
      (∀ drive lba i, disk₁.sectors drive lba i =
        if drive = driveOf dev ∧ dev.startLba.toNat + relLba.toNat ≤ lba ∧
            lba < dev.startLba.toNat + relLba.toNat + sectors28 sectCount then
          src (512 * (lba - (dev.startLba.toNat + relLba.toNat)) + i.val)
        else disk.sectors drive lba i) ∧
      disk₂.sectors = disk₁.sectors := by
  have hpos : 0 < sectors28 sectCount := by
    rw [sectors28]
    split
    · decide
    · next hne =>
      have hnz : sectCount.toNat ≠ 0 := fun h => hne (UInt8.toNat_inj.mp h)
      omega
  have hlt : firstSector dev relLba < 2 ^ 28 := by
    rw [firstSector]
    omega
  have hwrite := ataWriteSects28Pio_eq fuel src sectCount hbase hlt
  refine ⟨_, _, _, hwrite, ataReadSects28Pio_eq fuel dest hbase hlt, ?_, ?_, fun _ _ _ => rfl,
    rfl⟩
  · intro j hj
    rw [fetched, if_pos (by omega)]
    exact byteAt_written hj src disk.sectors
  · intro j hj
    rw [fetched, if_neg (by omega)]

/-- A controller on the primary bus whose drives are empty. -/
def emptyDisk : PioDisk where
  base := 0x1F0
  status := 0x50
  notBusy := by decide
  noError := by decide
  sel := 0
  count := 0
  low := 0
  mid := 0
  high := 0
  transfer := none
  sectors := fun _ _ _ => 0

/-- 256 sectors at the very end of the slave drive. -/
theorem ata_round_trip_last :
    ∃ disk₁ disk₂ dest',
      ataWriteSects28Pio 0 emptyDisk (fun j => UInt8.ofNat j) 0 ⟨2048, 1, 0x1F0⟩ 0xFFFF700 =
        .ok disk₁ ∧
      ataReadSects28Pio 0 disk₁ (fun _ => 0) 0 ⟨2048, 1, 0x1F0⟩ 0xFFFF700 = .ok (disk₂, dest') ∧
      dest' 1000 = 0xE8 := by
  obtain ⟨disk₁, disk₂, dest', hwrite, hread, hsame, -⟩ := ata_round_trip 0 emptyDisk
    ⟨2048, 1, 0x1F0⟩ (fun j => UInt8.ofNat j) (fun _ => 0) 0 0xFFFF700 rfl (by decide)
  exact ⟨disk₁, disk₂, dest', hwrite, hread, hsame 1000 (by decide)⟩

end SaxonOS.Proofs
