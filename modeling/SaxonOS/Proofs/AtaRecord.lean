import SaxonOS.AtaRecord
import SaxonOS.Proofs.AtaTransfer

/-!
# The two ATA writes

For 1 to 255 sectors `ata_write_28_pio` stores what `ata_write_sects_28_pio` stores, in the same
order, and then flushes the cache, which panics on a drive that is ready. For 256 sectors its
counter wraps at the bound, so that it never comes to the flush.
-/

namespace SaxonOS.Proofs
open SaxonOS Lib

variable {r : RecordedDisk} {dev : AtaDevice} {sectCount : UInt8} {relLba : UInt32}
  {src : Nat → UInt8}

lemma disk_recordedIssueCommand (r : RecordedDisk) (sectCount : UInt8) (dev : AtaDevice)
    (lba : UInt32) (cmd : UInt8) : (recordedIssueCommand r sectCount dev lba cmd).disk =
      issueCommand r.disk sectCount dev lba cmd := by
  simp only [recordedIssueCommand, issueCommand, RecordedDisk.disk_outb]

/-- The write that is watched is the write of the model. -/
theorem disk_recordedWriteSects28Pio (fuel : Nat) (r : RecordedDisk) (src : Nat → UInt8)
    (sectCount : UInt8) (dev : AtaDevice) (relLba : UInt32) :
    (recordedWriteSects28Pio fuel r src sectCount dev relLba).map RecordedDisk.disk =
      ataWriteSects28Pio fuel r.disk src sectCount dev relLba := by
  rw [recordedWriteSects28Pio, ataWriteSects28Pio, disk_recordedIssueCommand]
  cases awaitReady fuel (issueCommand r.disk sectCount dev (relLba + dev.startLba) writeSectsCmd)
    dev with
  | error e => rfl
  | ok _ => exact congrArg Except.ok (RecordedDisk.disk_foldl_outw _ _ _ _)

lemma base_issueCommand (disk : PioDisk) (lba : UInt32) (cmd : UInt8) :
    (issueCommand disk sectCount dev lba cmd).base = disk.base := by
  simp only [issueCommand, PioDisk.base_outb]

/-- The controller after `k` words. -/
def withWords (src : Nat → UInt8) (dev : AtaDevice) (r : RecordedDisk) (k : Nat) : RecordedDisk :=
  (List.range k).foldl (fun r i => r.outw dev.base (sourceWord src i)) r

lemma withWords_succ (k : Nat) : withWords src dev r (k + 1) =
    (withWords src dev r k).outw dev.base (sourceWord src k) := by
  rw [withWords, List.range_succ, List.foldl_append, List.foldl_cons, List.foldl_nil, withWords]

/-- The controller when the words of the write are stored. -/
def afterWords (r : RecordedDisk) (src : Nat → UInt8) (sectCount : UInt8) (dev : AtaDevice)
    (relLba : UInt32) : RecordedDisk :=
  withWords src dev (recordedIssueCommand r sectCount dev (relLba + dev.startLba) writeSectsCmd)
    (sectors28 sectCount * 256)

lemma recordedWriteSects28Pio_eq (fuel : Nat) (hbase : dev.base = r.disk.base) :
    recordedWriteSects28Pio fuel r src sectCount dev relLba =
      .ok (afterWords r src sectCount dev relLba) := by
  have hbase' : dev.base = (recordedIssueCommand r sectCount dev (relLba + dev.startLba)
      writeSectsCmd).disk.base := by
    rw [disk_recordedIssueCommand, base_issueCommand, hbase]
  rw [recordedWriteSects28Pio, awaitReady_ok fuel hbase']
  rfl

lemma sectors28_lt (h : sectCount ≠ 0) : sectors28 sectCount < 256 := by
  rw [sectors28, if_neg h]
  exact sectCount.toNat_lt

/-- The counter and the controller after `i` words. -/
def sendPath (src : Nat → UInt8) (dev : AtaDevice) (r : RecordedDisk) (i : Nat) :
    UInt16 × RecordedDisk :=
  (UInt16.ofNat i, withWords src dev r i)

lemma sendWord_sendPath {i : Nat} (hi : i < 65536) :
    sendWord src dev (sendPath src dev r i) = sendPath src dev r (i + 1) := by
  have hcount : (UInt16.ofNat i).toNat = i := UInt16.toNat_ofNat_of_lt' hi
  have hnext : UInt16.ofNat i + 1 = UInt16.ofNat (i + 1) := by
    rw [UInt16.ofNat_add]
    rfl
  simp only [sendWord, sendPath, hcount, hnext, withWords_succ, sourceWord]

/-- Below 256 sectors the counter reaches the bound. -/
lemma sendLoop_settles (h : sectCount ≠ 0) (src : Nat → UInt8) (dev : AtaDevice)
    (r : RecordedDisk) : Settles (fun fuel => sendLoop src sectCount dev fuel (0, r))
      (.ok (sendPath src dev r (sectors28 sectCount * 256))) := by
  have hlt := sectors28_lt h
  have hcount : ∀ i ≤ sectors28 sectCount * 256, (sendPath src dev r i).1.toNat = i :=
    fun i hi => UInt16.toNat_ofNat_of_lt' (by change _ < 65536; omega)
  have hpath : Settles (fun fuel => sendLoop src sectCount dev fuel (sendPath src dev r 0))
      (.ok (sendPath src dev r (sectors28 sectCount * 256))) := by
    refine settles_of_path (fun i hi => ?_) (fun i hi => ?_) ?_
    · rw [hcount i (by omega), decide_eq_true hi]
    · rw [sendWord_sendPath (by omega)]
    · rw [hcount _ (Nat.le_refl _), decide_eq_false (Nat.lt_irrefl _)]
  exact hpath

/-- With 256 sectors every value of the counter is below the bound. -/
lemma sendLoop_diverges (src : Nat → UInt8) (dev : AtaDevice) (fuel : Nat)
    (st : UInt16 × RecordedDisk) : sendLoop src 0 dev fuel st = .error .diverge :=
  whileLoop_forever (fun st => congrArg Except.ok (decide_eq_true st.1.toNat_lt)) (fun _ => rfl)
    fuel st

lemma ataWrite28PioWords_settles (h : sectCount ≠ 0) (src : Nat → UInt8) (dev : AtaDevice)
    (relLba : UInt32) (r : RecordedDisk) :
    Settles (fun fuel => ataWrite28PioWords fuel r src sectCount dev relLba)
      (.ok (afterWords r src sectCount dev relLba)) := by
  obtain ⟨n, hn⟩ := sendLoop_settles h src dev
    (recordedIssueCommand r sectCount dev (relLba + dev.startLba) writeSectsCmd)
  exact ⟨n, fun fuel hf => congrArg (Except.map Prod.snd) (hn fuel hf)⟩

lemma ataWrite28PioWords_diverges (fuel : Nat) (r : RecordedDisk) (src : Nat → UInt8)
    (dev : AtaDevice) (relLba : UInt32) :
    ataWrite28PioWords fuel r src 0 dev relLba = .error .diverge := by
  rw [ataWrite28PioWords]
  exact congrArg (Except.map Prod.snd) (sendLoop_diverges src dev fuel _)

/-- Seven registers and then the words of the sectors. -/
theorem writes_recordedWriteSects28Pio (fuel : Nat) (hbase : dev.base = r.disk.base) :
    (recordedWriteSects28Pio fuel r src sectCount dev relLba).map RecordedDisk.writes =
      .ok (r.writes ++
        [.byte (dev.base + 6) (devSel dev (relLba + dev.startLba)), .byte (dev.base + 1) 0,
          .byte (dev.base + 2) sectCount, .byte (dev.base + 3) (relLba + dev.startLba).toUInt8,
          .byte (dev.base + 4) ((relLba + dev.startLba) >>> 8).toUInt8,
          .byte (dev.base + 5) ((relLba + dev.startLba) >>> 16).toUInt8,
          .byte (dev.base + 7) 0x30] ++
        (List.range (sectors28 sectCount * 256)).map
          fun i => .word dev.base (sourceWord src i)) := by
  rw [recordedWriteSects28Pio_eq fuel hbase]
  refine congrArg Except.ok ((RecordedDisk.writes_foldl_outw _ _ _ _).trans ?_)
  simp only [recordedIssueCommand, RecordedDisk.outb, List.append_assoc, List.cons_append,
    List.nil_append]
  rfl

/-- The controller after the two stores of the flush. -/
def flushed (r : RecordedDisk) (dev : AtaDevice) : RecordedDisk :=
  (r.outb (dev.base + regDevSelPort) (masterDrive ||| (dev.slaveBit <<< 4))).outb
    (dev.base + regCmdPort) cacheFlush

lemma writes_flushed (r : RecordedDisk) (dev : AtaDevice) : (flushed r dev).writes = r.writes ++
    [.byte (dev.base + 6) (masterDrive ||| (dev.slaveBit <<< 4)), .byte (dev.base + 7) 0xE7] := by
  simp only [flushed, RecordedDisk.outb, List.append_assoc]
  rfl

lemma sectors_flushed (r : RecordedDisk) (dev : AtaDevice) :
    (flushed r dev).disk.sectors = r.disk.sectors := by
  rw [flushed, RecordedDisk.disk_outb, RecordedDisk.disk_outb, PioDisk.sectors_outb,
    PioDisk.sectors_outb]

/-- The flush comes back from a drive that has neither bit of 0x50 in its status, and panics on
every other one. -/
lemma ataFlushCache_eq (fuel : Nat) (hbase : dev.base = r.disk.base) :
    ataFlushCache fuel r dev =
      if r.disk.status &&& 0x50 ≠ 0 then .error (.panic [] "ERROR") else .ok (flushed r dev) := by
  have hbase' : dev.base = (flushed r dev).disk.base := by
    rw [flushed, RecordedDisk.disk_outb, RecordedDisk.disk_outb, PioDisk.base_outb,
      PioDisk.base_outb, hbase]
  have hkept : (flushed r dev).disk.status = r.disk.status := by
    rw [flushed, RecordedDisk.disk_outb, RecordedDisk.disk_outb, PioDisk.status_outb,
      PioDisk.status_outb]
  have hstatus : (flushed r dev).disk.inb (dev.base + regCmdPort) = r.disk.status := by
    rw [hbase', ← hkept]
    exact (flushed r dev).disk.inb_status
  have hwait : awaitStatus (flushed r dev).disk dev fuel r.disk.status = .ok r.disk.status := by
    rw [← hkept, ← awaitStatus_ok (flushed r dev).disk fuel hbase', hstatus, hkept]
  have hflush : ataFlushCache fuel r dev = if r.disk.status = 0 then .ok (flushed r dev) else
      awaitStatus (flushed r dev).disk dev fuel r.disk.status >>= fun status =>
        if status &&& 0x01 ≠ 0 ∨ status &&& 0x50 ≠ 0 then .error (.panic [] "ERROR")
        else .ok (flushed r dev) := by
    rw [← hstatus]
    rfl
  rw [hflush, hwait]
  by_cases hzero : r.disk.status = 0
  · rw [if_pos hzero, hzero]
    rfl
  · rw [if_neg hzero]
    simp only [bind, Except.bind, r.disk.noError, ne_eq, not_true_eq_false, false_or]

/-- The flush panics on every drive that says it is ready. -/
theorem ataFlushCache_panics_iff (fuel : Nat) (hbase : dev.base = r.disk.base) :
    ataFlushCache fuel r dev = .error (.panic [] "ERROR") ↔ r.disk.status &&& 0x50 ≠ 0 := by
  rw [ataFlushCache_eq fuel hbase]
  by_cases hready : r.disk.status &&& 0x50 ≠ 0
  · rw [if_pos hready]
    exact iff_of_true rfl hready
  · rw [if_neg hready]
    exact iff_of_false (fun h => by cases h) hready

lemma disk_withWords (src : Nat → UInt8) (dev : AtaDevice) (r : RecordedDisk) (k : Nat) :
    (withWords src dev r k).disk.base = r.disk.base ∧
      (withWords src dev r k).disk.status = r.disk.status := by
  induction k with
  | zero => exact ⟨rfl, rfl⟩
  | succ k ih =>
    rw [withWords_succ]
    exact ⟨(PioDisk.outw_keeps _ _ _).1.trans ih.1, (PioDisk.outw_keeps _ _ _).2.trans ih.2⟩

lemma status_issueCommand (disk : PioDisk) (lba : UInt32) (cmd : UInt8) :
    (issueCommand disk sectCount dev lba cmd).status = disk.status := by
  simp only [issueCommand, PioDisk.status_outb]

lemma disk_afterWords (r : RecordedDisk) (src : Nat → UInt8) (sectCount : UInt8) (dev : AtaDevice)
    (relLba : UInt32) :
    (afterWords r src sectCount dev relLba).disk.base = r.disk.base ∧
      (afterWords r src sectCount dev relLba).disk.status = r.disk.status := by
  obtain ⟨hb, hs⟩ := disk_withWords src dev
    (recordedIssueCommand r sectCount dev (relLba + dev.startLba) writeSectsCmd)
    (sectors28 sectCount * 256)
  rw [disk_recordedIssueCommand] at hb hs
  exact ⟨hb.trans (base_issueCommand _ _ _), hs.trans (status_issueCommand _ _ _)⟩

lemma ataWrite28Pio_settles (h : sectCount ≠ 0) (src : Nat → UInt8) (relLba : UInt32)
    (hbase : dev.base = r.disk.base) :
    Settles (fun fuel => ataWrite28Pio fuel r src sectCount dev relLba)
      (if r.disk.status &&& 0x50 ≠ 0 then .error (.panic [] "ERROR")
        else .ok (flushed (afterWords r src sectCount dev relLba) dev)) := by
  obtain ⟨n, hn⟩ := ataWrite28PioWords_settles h src dev relLba r
  obtain ⟨hb, hs⟩ := disk_afterWords r src sectCount dev relLba
  refine ⟨n, fun fuel hf => ?_⟩
  have hwords : ataWrite28PioWords fuel r src sectCount dev relLba = _ := hn fuel hf
  change ataWrite28Pio fuel r src sectCount dev relLba = _
  rw [ataWrite28Pio, hwords]
  change ataFlushCache fuel (afterWords r src sectCount dev relLba) dev = _
  rw [ataFlushCache_eq fuel (hbase.trans hb.symm), hs]

/-- `ata_write_28_pio` comes back, having stored the same registers and words as the other write,
whatever the budget of that one, and then flushed the cache, exactly if the sectors are not 256
and the status of the drive has no bit of 0x50, that of a ready drive among them. -/
theorem ataWrite28Pio_agrees_iff (disk : PioDisk) (src : Nat → UInt8) (sectCount : UInt8)
    (dev : AtaDevice) (relLba : UInt32) (hbase : dev.base = disk.base) :
    (∃ r r', (∀ fuel,
        recordedWriteSects28Pio fuel (.start disk) src sectCount dev relLba = .ok r) ∧
      Settles (fun fuel => ataWrite28Pio fuel (.start disk) src sectCount dev relLba) (.ok r') ∧
      r'.writes = r.writes ++
        [.byte (dev.base + 6) (masterDrive ||| (dev.slaveBit <<< 4)), .byte (dev.base + 7) 0xE7] ∧
      r'.disk.sectors = r.disk.sectors) ↔
    sectCount ≠ 0 ∧ disk.status &&& 0x50 = 0 := by
  constructor
  · rintro ⟨r, r', -, hsettles, -, -⟩
    by_cases hzero : sectCount = 0
    · obtain ⟨n, hn⟩ := hsettles
      have hreturns : ataWrite28Pio n (.start disk) src sectCount dev relLba = .ok r' :=
        hn n (Nat.le_refl n)
      rw [hzero, ataWrite28Pio, ataWrite28PioWords_diverges] at hreturns
      cases hreturns
    · refine ⟨hzero, ?_⟩
      by_contra hready
      have hpanics := ataWrite28Pio_settles hzero src relLba (r := .start disk) hbase
      rw [RecordedDisk.start, if_pos hready] at hpanics
      cases hsettles.unique hpanics
  · rintro ⟨hne, hready⟩
    have hreturns := ataWrite28Pio_settles hne src relLba (r := .start disk) hbase
    rw [RecordedDisk.start, if_neg (not_not_intro hready)] at hreturns
    exact ⟨_, _, fun fuel => recordedWriteSects28Pio_eq fuel hbase, hreturns, writes_flushed _ _,
      sectors_flushed _ _⟩

/-- A drive that has nothing to say. -/
def silentDisk : PioDisk := { emptyDisk with status := 0, notBusy := rfl, noError := rfl }

/-- One sector to a drive whose status is 0. -/
theorem ataWrite28Pio_agrees_one :
    ∃ r r', (∀ fuel, recordedWriteSects28Pio fuel (.start silentDisk) (fun j => UInt8.ofNat j) 1
        ⟨2048, 1, 0x1F0⟩ 5 = .ok r) ∧
      Settles (fun fuel => ataWrite28Pio fuel (.start silentDisk) (fun j => UInt8.ofNat j) 1
        ⟨2048, 1, 0x1F0⟩ 5) (.ok r') ∧
      r'.writes = r.writes ++ [.byte 0x1F6 0xB0, .byte 0x1F7 0xE7] ∧
      r'.disk.sectors = r.disk.sectors :=
  (ataWrite28Pio_agrees_iff silentDisk (fun j => UInt8.ofNat j) 1 ⟨2048, 1, 0x1F0⟩ 5 rfl).mpr
    ⟨by decide, rfl⟩

/-- 256 sectors are written by the one and never by the other, which panics behind one sector. -/
theorem ataWrite28Pio_hangs :
    (∀ fuel, ataWrite28Pio fuel (.start emptyDisk) (fun _ => 0) 0 ⟨2048, 1, 0x1F0⟩ 5 =
      .error .diverge) ∧
    (∃ r, recordedWriteSects28Pio 0 (.start emptyDisk) (fun _ => 0) 0 ⟨2048, 1, 0x1F0⟩ 5 =
      .ok r) ∧
    Settles (fun fuel => ataWrite28Pio fuel (.start emptyDisk) (fun _ => 0) 1 ⟨2048, 1, 0x1F0⟩ 5)
      (.error (.panic [] "ERROR")) ∧
    ∃ r, recordedWriteSects28Pio 0 (.start emptyDisk) (fun _ => 0) 1 ⟨2048, 1, 0x1F0⟩ 5 =
      .ok r := by
  refine ⟨fun fuel => ?_, ⟨_, recordedWriteSects28Pio_eq 0 rfl⟩, ?_, _,
    recordedWriteSects28Pio_eq 0 rfl⟩
  · rw [ataWrite28Pio, ataWrite28PioWords_diverges]
    rfl
  · exact ataWrite28Pio_settles (by decide) (fun _ => 0) 5 (r := .start emptyDisk) rfl

end SaxonOS.Proofs
