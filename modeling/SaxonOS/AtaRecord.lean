import SaxonOS.Ata
import SaxonOS.Lib.Loop
import SaxonOS.Lib.PioRecord

/-!
# ATA writes over a controller that is watched

`ata_write_sects_28_pio` again, with every register and data word on the record, and beside it
`ata_write_28_pio` and `ata_flush_cache` of `drivers/ata.c`.
-/

namespace SaxonOS
open Lib

def masterDrive : UInt8 := 0xA0

def cacheFlush : UInt8 := 0xE7

def recordedIssueCommand (r : RecordedDisk) (sectCount : UInt8) (dev : AtaDevice)
    (realLba : UInt32) (cmd : UInt8) : RecordedDisk :=
  let r := r.outb (dev.base + regDevSelPort) (devSel dev realLba)
  let r := r.outb (dev.base + regInfoPort) 0x00
  let r := r.outb (dev.base + regSectCntPort) sectCount
  let r := r.outb (dev.base + regLbaLowPort) realLba.toUInt8
  let r := r.outb (dev.base + regLbaMidPort) (realLba >>> 8).toUInt8
  let r := r.outb (dev.base + regLbaHighPort) (realLba >>> 16).toUInt8
  r.outb (dev.base + regCmdPort) cmd

def recordedWriteSects28Pio (fuel : Nat) (r : RecordedDisk) (src : Nat → UInt8)
    (sectCount : UInt8) (dev : AtaDevice) (relLba : UInt32) : Except Fault RecordedDisk := do
  let r := recordedIssueCommand r sectCount dev (relLba + dev.startLba) writeSectsCmd
  awaitReady fuel r.disk dev
  .ok ((List.range (sectors28 sectCount * 256)).foldl
    (fun r i => r.outw dev.base (word (src (2 * i)) (src (2 * i + 1)))) r)

/-- One turn of the loop of `ata_write_28_pio`. -/
def sendWord (src : Nat → UInt8) (dev : AtaDevice) (st : UInt16 × RecordedDisk) :
    UInt16 × RecordedDisk :=
  let i := st.1.toNat
  (st.1 + 1, st.2.outw dev.base (word (src (2 * i)) (src (2 * i + 1))))

/-- The counter has 16 bits, and nothing waits for the status. -/
def sendLoop (src : Nat → UInt8) (sectCount : UInt8) (dev : AtaDevice) :
    Nat → UInt16 × RecordedDisk → Except Fault (UInt16 × RecordedDisk) :=
  whileLoop .diverge (fun st => .ok (decide (st.1.toNat < sectors28 sectCount * 256)))
    (fun st => .ok (sendWord src dev st))

/-- `ata_write_28_pio` up to the flush. -/
def ataWrite28PioWords (fuel : Nat) (r : RecordedDisk) (src : Nat → UInt8) (sectCount : UInt8)
    (dev : AtaDevice) (relLba : UInt32) : Except Fault RecordedDisk :=
  let r := recordedIssueCommand r sectCount dev (relLba + dev.startLba) writeSectsCmd
  (sendLoop src sectCount dev fuel (0, r)).map Prod.snd

def ataFlushCache (fuel : Nat) (r : RecordedDisk) (dev : AtaDevice) :
    Except Fault RecordedDisk := do
  let r := r.outb (dev.base + regDevSelPort) (masterDrive ||| (dev.slaveBit <<< 4))
  let r := r.outb (dev.base + regCmdPort) cacheFlush
  let status := r.disk.inb (dev.base + regCmdPort)
  if status = 0x00 then .ok r
  else
    let status ← awaitStatus r.disk dev fuel status
    if status &&& 0x01 ≠ 0 ∨ status &&& 0x50 ≠ 0 then .error (.panic [] "ERROR") else .ok r

def ataWrite28Pio (fuel : Nat) (r : RecordedDisk) (src : Nat → UInt8) (sectCount : UInt8)
    (dev : AtaDevice) (relLba : UInt32) : Except Fault RecordedDisk := do
  let r ← ataWrite28PioWords fuel r src sectCount dev relLba
  ataFlushCache fuel r dev

end SaxonOS
