import SaxonOS.Lib.PioDisk

/-!
# A controller with a record

The controller together with everything that has been written to its ports since the record was
started, in order.
-/

namespace Lib

inductive PortWrite where
  | byte (port : UInt16) (v : UInt8)
  | word (port v : UInt16)
deriving DecidableEq

structure RecordedDisk where
  disk : PioDisk
  writes : List PortWrite

/-- A store to a register neither moves the controller nor changes its status or a sector. -/
lemma PioDisk.outb_keeps (d : PioDisk) (port : UInt16) (v : UInt8) :
    (d.outb port v).base = d.base ∧ (d.outb port v).status = d.status ∧
      (d.outb port v).sectors = d.sectors := by
  unfold PioDisk.outb
  split <;> try exact ⟨rfl, rfl, rfl⟩
  split
  · exact ⟨rfl, rfl, rfl⟩
  · split <;> exact ⟨rfl, rfl, rfl⟩

lemma PioDisk.base_outb (d : PioDisk) (port : UInt16) (v : UInt8) :
    (d.outb port v).base = d.base := (d.outb_keeps port v).1

lemma PioDisk.status_outb (d : PioDisk) (port : UInt16) (v : UInt8) :
    (d.outb port v).status = d.status := (d.outb_keeps port v).2.1

lemma PioDisk.sectors_outb (d : PioDisk) (port : UInt16) (v : UInt8) :
    (d.outb port v).sectors = d.sectors := (d.outb_keeps port v).2.2

lemma PioDisk.outw_keeps (d : PioDisk) (port v : UInt16) :
    (d.outw port v).base = d.base ∧ (d.outw port v).status = d.status := by
  unfold PioDisk.outw
  split
  · split <;> exact ⟨rfl, rfl⟩
  · exact ⟨rfl, rfl⟩

namespace RecordedDisk

/-- A record that starts here. -/
def start (disk : PioDisk) : RecordedDisk := ⟨disk, []⟩

def outb (r : RecordedDisk) (port : UInt16) (v : UInt8) : RecordedDisk :=
  ⟨r.disk.outb port v, r.writes ++ [.byte port v]⟩

def outw (r : RecordedDisk) (port v : UInt16) : RecordedDisk :=
  ⟨r.disk.outw port v, r.writes ++ [.word port v]⟩

@[simp] lemma disk_outb (r : RecordedDisk) (port : UInt16) (v : UInt8) :
    (r.outb port v).disk = r.disk.outb port v := rfl

/-- The controller sees the words of a loop as it does without the record. -/
lemma disk_foldl_outw (port : UInt16) (f : Nat → UInt16) (l : List Nat) (r : RecordedDisk) :
    (l.foldl (fun r i => r.outw port (f i)) r).disk =
      l.foldl (fun disk i => disk.outw port (f i)) r.disk :=
  (List.foldl_hom RecordedDisk.disk fun _ _ => rfl).symm

lemma writes_foldl_outw (port : UInt16) (f : Nat → UInt16) (l : List Nat) (r : RecordedDisk) :
    (l.foldl (fun r i => r.outw port (f i)) r).writes =
      r.writes ++ l.map fun i => .word port (f i) := by
  induction l generalizing r with
  | nil => rw [List.foldl_nil, List.map_nil, List.append_nil]
  | cons i l ih =>
    rw [List.foldl_cons, ih, List.map_cons, outw, List.append_assoc, List.singleton_append]

end RecordedDisk

end Lib
