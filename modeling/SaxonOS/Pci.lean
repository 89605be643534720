import SaxonOS.Lib.PciHost

/-!
# PCI configuration reads

The three accessors of `drivers/pci.c` and `fill_device_descriptor`, over the host bridge. They
differ in the type of what they keep.
-/

namespace SaxonOS
open Lib

def configAddress : UInt16 := 0xCF8

def configData : UInt16 := 0xCFC

/-- The address that is written out. -/
def pciAddress (bus device func offset : UInt8) : UInt32 :=
  (bus.toUInt32 <<< 16) ||| (device.toUInt32 <<< 11) ||| (func.toUInt32 <<< 8) |||
    (offset &&& 0xFC).toUInt32 ||| 0x80000000

/-- `(inl(0xCFC) >> ((offset & 2) * 8)) & 0xffff`, after the address. -/
def pciConfigRead (host : PciHost) (bus device func offset : UInt8) : UInt32 × PciHost :=
  let host := host.outl configAddress (pciAddress bus device func offset)
  ((host.inl configData >>> ((offset &&& 2) * 8).toUInt32) &&& 0xFFFF, host)

/-- `tmp` has 16 bits here too. -/
def pciConfigReadDouble (host : PciHost) (bus device func offset : UInt8) : UInt32 × PciHost :=
  let (data, host) := pciConfigRead host bus device func offset
  let tmp : UInt16 := data.toUInt16
  (tmp.toUInt32, host)

def pciConfigReadWord (host : PciHost) (bus device func offset : UInt8) : UInt16 × PciHost :=
  let (data, host) := pciConfigRead host bus device func offset
  let tmp : UInt16 := data.toUInt16
  (tmp, host)

def pciConfigReadByte (host : PciHost) (bus device func offset : UInt8) : UInt8 × PciHost :=
  let (data, host) := pciConfigRead host bus device func offset
  let tmp : UInt16 := data.toUInt8.toUInt16
  (tmp.toUInt8, host)

structure PciDev where
  portBase : UInt32
  interrupt : UInt32
  bus : UInt16
  dev : UInt16
  func : UInt16
  vendorId : UInt16
  devId : UInt16
  classId : UInt8
  subclassId : UInt8
  interfaceId : UInt8
  revision : UInt8

/-- `fill_device_descriptor`, with what the stack holds in `result`. `port_base` stays so. -/
def fillDeviceDescriptor (host : PciHost) (result : PciDev) (bus device function : UInt8) :
    PciDev × PciHost :=
  let (vendorId, host) := pciConfigReadWord host bus device function 0x00
  let (devId, host) := pciConfigReadWord host bus device function 0x02
  let (classId, host) := pciConfigReadByte host bus device function 0x0B
  let (subclassId, host) := pciConfigReadByte host bus device function 0x0A
  let (interfaceId, host) := pciConfigReadByte host bus device function 0x09
  let (revision, host) := pciConfigReadByte host bus device function 0x08
  let (interrupt, host) := pciConfigReadDouble host bus device function 0x3C
  ({ result with
      bus := bus.toUInt16
      dev := device.toUInt16
      func := function.toUInt16
      vendorId, devId, classId, subclassId, interfaceId, revision, interrupt }, host)

end SaxonOS
