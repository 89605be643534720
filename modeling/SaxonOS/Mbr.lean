import SaxonOS.Ata

/-!
# The master boot record

`parse_mbr` of `fs/mbr.c`, which takes the start of the first partition from the words of the
boot sector as they come.
-/

namespace SaxonOS
open Lib

/-- One turn of the loop of `parse_mbr`. -/
def parseMbrWord (st : PioDisk × AtaDevice) (i : Nat) : PioDisk × AtaDevice :=
  let (tmp, disk) := st.1.inw st.2.base
  (disk, if i = 227 then { st.2 with startLba := tmp.toUInt32 } else st.2)

/-- `parse_mbr`, which waits as the transfers do but has no panic for `STATUS_ERR`. -/
def parseMbr (fuel : Nat) (disk : PioDisk) (dev : AtaDevice) :
    Except Fault (PioDisk × AtaDevice) := do
  let disk := issueCommand disk 1 dev dev.startLba readSectsCmd
  let _ ← awaitStatus disk dev fuel (disk.inb (dev.base + regCmdPort))
  .ok ((List.range 256).foldl parseMbrWord (disk, dev))

end SaxonOS
