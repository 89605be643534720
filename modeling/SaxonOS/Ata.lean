import SaxonOS.Common
import SaxonOS.Lib.PioDisk

/-!
# ATA drives

`ata_write_sects_28_pio` and `ata_read_sects_28_pio` of `drivers/ata.c`, over the controller
that answers at the ports of the device.
-/

namespace SaxonOS
open Lib

/-- The fields of `bdev_t` that say where a device is. -/
structure AtaDevice where
  startLba : UInt32
  slaveBit : UInt8
  base : UInt16

def regInfoPort : UInt16 := 0x01

def regSectCntPort : UInt16 := 0x02

def regLbaLowPort : UInt16 := 0x03

def regLbaMidPort : UInt16 := 0x04

def regLbaHighPort : UInt16 := 0x05

def regDevSelPort : UInt16 := 0x06

def regCmdPort : UInt16 := 0x07

def readSectsCmd : UInt8 := 0x20

def writeSectsCmd : UInt8 := 0x30

/-- The byte for `REG_DEV_SEL_PORT`. -/
def devSel (dev : AtaDevice) (realLba : UInt32) : UInt8 :=
  ((if dev.slaveBit ≠ 0 then (0xF0 : UInt32) else 0xE0) ||| ((realLba >>> 24) &&& 0x0F)).toUInt8

/-- The register stores that both transfers start with. -/
def issueCommand (disk : PioDisk) (sectCount : UInt8) (dev : AtaDevice) (realLba : UInt32)
    (cmd : UInt8) : PioDisk :=
  let disk := disk.outb (dev.base + regDevSelPort) (devSel dev realLba)
  let disk := disk.outb (dev.base + regInfoPort) 0x00
  let disk := disk.outb (dev.base + regSectCntPort) sectCount
  let disk := disk.outb (dev.base + regLbaLowPort) realLba.toUInt8
  let disk := disk.outb (dev.base + regLbaMidPort) (realLba >>> 8).toUInt8
  let disk := disk.outb (dev.base + regLbaHighPort) (realLba >>> 16).toUInt8
  disk.outb (dev.base + regCmdPort) cmd

/-- `while (((status & 0x80) == 0x80) && ((status & 0x01) != 0x01))`. -/
def awaitStatus (disk : PioDisk) (dev : AtaDevice) : Nat → UInt8 → Except Fault UInt8
  | fuel, status =>
    if status &&& 0x80 = 0x80 ∧ status &&& 0x01 ≠ 0x01 then
      match fuel with
      | 0 => .error .diverge
      | fuel + 1 => awaitStatus disk dev fuel (disk.inb (dev.base + regCmdPort))
    else .ok status

/-- The wait for the status, with the panic on `STATUS_ERR`. -/
def awaitReady (fuel : Nat) (disk : PioDisk) (dev : AtaDevice) : Except Fault Unit := do
  let status ← awaitStatus disk dev fuel (disk.inb (dev.base + regCmdPort))
  if status &&& 0x01 ≠ 0 then .error (.panic [] "Status = 0x01") else .ok ()

/-- `(sect_count == 0) ? 256 : sect_count`. -/
def sectors28 (sectCount : UInt8) : Nat := if sectCount = 0 then 256 else sectCount.toNat

def ataWriteSects28Pio (fuel : Nat) (disk : PioDisk) (src : Nat → UInt8) (sectCount : UInt8)
    (dev : AtaDevice) (relLba : UInt32) : Except Fault PioDisk := do
  let disk := issueCommand disk sectCount dev (relLba + dev.startLba) writeSectsCmd
  awaitReady fuel disk dev
  .ok ((List.range (sectors28 sectCount * 256)).foldl
    (fun disk i => disk.outw dev.base (word (src (2 * i)) (src (2 * i + 1)))) disk)

/-- One turn of the loop of `ata_read_sects_28_pio`. -/
def readWord (dev : AtaDevice) (st : PioDisk × (Nat → UInt8)) (i : Nat) :
    PioDisk × (Nat → UInt8) :=
  let (tmp, disk) := st.1.inw dev.base
  (disk, Function.update (Function.update st.2 (i * 2) tmp.toUInt8) (i * 2 + 1)
    (tmp >>> 8).toUInt8)

def ataReadSects28Pio (fuel : Nat) (disk : PioDisk) (dest : Nat → UInt8) (sectCount : UInt8)
    (dev : AtaDevice) (relLba : UInt32) : Except Fault (PioDisk × (Nat → UInt8)) := do
  let disk := issueCommand disk sectCount dev (relLba + dev.startLba) readSectsCmd
  awaitReady fuel disk dev
  .ok ((List.range (sectors28 sectCount * 256)).foldl (readWord dev) (disk, dest))

end SaxonOS
