import Mathlib.Logic.Function.Basic

/-!
# A controller for programmed input and output

Two drives behind eight ports. The controller latches what is stored in its registers, is never
busy or in error, and moves the words of consecutive sectors through the data port, the low byte
of a word first.
-/

namespace Lib

/-- The word of two bytes, the first of them low. -/
def word (lo hi : UInt8) : UInt16 := UInt16.ofNat (lo.toNat + 256 * hi.toNat)

def lowByte (v : UInt16) : UInt8 := v.toUInt8

def highByte (v : UInt16) : UInt8 := (v >>> 8).toUInt8

lemma word_toNat (lo hi : UInt8) : (word lo hi).toNat = lo.toNat + 256 * hi.toNat := by
  have hlo := lo.toNat_lt
  have hhi := hi.toNat_lt
  exact UInt16.toNat_ofNat_of_lt' (by change _ < 65536; omega)

lemma lowByte_word (lo hi : UInt8) : lowByte (word lo hi) = lo := by
  apply UInt8.toNat_inj.mp
  have hlo := lo.toNat_lt
  rw [lowByte, UInt16.toNat_toUInt8, word_toNat]
  omega

lemma highByte_word (lo hi : UInt8) : highByte (word lo hi) = hi := by
  apply UInt8.toNat_inj.mp
  have hlo := lo.toNat_lt
  have hhi := hi.toNat_lt
  rw [highByte, UInt16.toNat_toUInt8, UInt16.toNat_shiftRight, word_toNat]
  change (lo.toNat + 256 * hi.toNat) >>> 8 % 2 ^ 8 = hi.toNat
  rw [Nat.shiftRight_eq_div_pow]
  omega

/-- A transfer from sector `lba` on, of which `next` words have been moved. -/
structure Transfer where
  write : Bool
  drive : Bool
  lba : Nat
  words : Nat
  next : Nat

/-- The bytes of the sectors of both drives. -/
abbrev Drives := Bool → Nat → Fin 512 → UInt8

structure PioDisk where
  base : UInt16
  status : UInt8
  notBusy : status &&& 0x80 = 0
  noError : status &&& 0x01 = 0
  (sel count low mid high : UInt8)
  transfer : Option Transfer
  sectors : Drives

namespace Transfer

/-- The sectors with the next word stored. -/
def store (t : Transfer) (v : UInt16) (sectors : Drives) : Drives := fun drive lba i =>
  if drive = t.drive ∧ lba = t.lba + t.next / 256 ∧ i.val / 2 = t.next % 256 then
    if i.val % 2 = 0 then lowByte v else highByte v
  else sectors drive lba i

/-- The next word. -/
def load (t : Transfer) (sectors : Drives) : UInt16 :=
  word (sectors t.drive (t.lba + t.next / 256) ⟨2 * (t.next % 256), by omega⟩)
    (sectors t.drive (t.lba + t.next / 256) ⟨2 * (t.next % 256) + 1, by omega⟩)

def advance (t : Transfer) : Transfer := { t with next := t.next + 1 }

/-- The byte `j` of the sectors that a transfer runs over. -/
def byteAt (t : Transfer) (sectors : Drives) (j : Nat) : UInt8 :=
  sectors t.drive (t.lba + j / 512) ⟨j % 512, Nat.mod_lt j (by decide)⟩

lemma load_eq (t : Transfer) (sectors : Drives) (k : Nat) :
    load { t with next := k } sectors =
      word (t.byteAt sectors (2 * k)) (t.byteAt sectors (2 * k + 1)) := by
  have hsec : k / 256 = 2 * k / 512 := by omega
  have hsec' : k / 256 = (2 * k + 1) / 512 := by omega
  have hlow : 2 * (k % 256) = 2 * k % 512 := by omega
  have hhigh : 2 * (k % 256) + 1 = (2 * k + 1) % 512 := by omega
  simp only [load, byteAt, ← hsec, ← hsec', ← hlow, ← hhigh]

end Transfer

namespace PioDisk

/-- The 28 bits of the address registers. -/
def address (d : PioDisk) : Nat :=
  d.low.toNat + 256 * d.mid.toNat + 65536 * d.high.toNat + 16777216 * (d.sel.toNat % 16)

/-- A command takes its address in blocks where bit 6 of the drive register is set. Bit 4 is
the drive, and a count of 0 stands for 256. -/
def start (d : PioDisk) (write : Bool) : PioDisk :=
  { d with
    transfer :=
      if d.sel.toNat / 64 % 2 = 1 then
        some ⟨write, d.sel.toNat / 16 % 2 = 1, d.address,
          256 * (if d.count = 0 then 256 else d.count.toNat), 0⟩
      else none }

def outb (d : PioDisk) (port : UInt16) (v : UInt8) : PioDisk :=
  match (port - d.base).toNat with
  | 2 => { d with count := v }
  | 3 => { d with low := v }
  | 4 => { d with mid := v }
  | 5 => { d with high := v }
  | 6 => { d with sel := v }
  | 7 =>
    if v = 0x30 then d.start true
    else if v = 0x20 then d.start false
    else { d with transfer := none }
  | _ => d

def inb (d : PioDisk) (port : UInt16) : UInt8 :=
  match (port - d.base).toNat with
  | 2 => d.count
  | 3 => d.low
  | 4 => d.mid
  | 5 => d.high
  | 6 => d.sel
  | 7 => d.status
  | _ => 0xFF

def outw (d : PioDisk) (port v : UInt16) : PioDisk :=
  match d.transfer with
  | some t =>
    if port = d.base ∧ t.write = true ∧ t.next < t.words then
      { d with transfer := some t.advance, sectors := t.store v d.sectors }
    else d
  | none => d

def inw (d : PioDisk) (port : UInt16) : UInt16 × PioDisk :=
  match d.transfer with
  | some t =>
    if port = d.base ∧ t.write = false ∧ t.next < t.words then
      (t.load d.sectors, { d with transfer := some t.advance })
    else (0xFFFF, d)
  | none => (0xFFFF, d)

lemma port_sub (base c : UInt16) : base + c - base = c := by
  rw [UInt16.add_comm, UInt16.add_sub_cancel]

lemma outb_info (d : PioDisk) (v : UInt8) : d.outb (d.base + 1) v = d := by
  rw [outb, port_sub]
  rfl

lemma outb_count (d : PioDisk) (v : UInt8) : d.outb (d.base + 2) v = { d with count := v } := by
  rw [outb, port_sub]
  rfl

lemma outb_low (d : PioDisk) (v : UInt8) : d.outb (d.base + 3) v = { d with low := v } := by
  rw [outb, port_sub]
  rfl

lemma outb_mid (d : PioDisk) (v : UInt8) : d.outb (d.base + 4) v = { d with mid := v } := by
  rw [outb, port_sub]
  rfl

lemma outb_high (d : PioDisk) (v : UInt8) : d.outb (d.base + 5) v = { d with high := v } := by
  rw [outb, port_sub]
  rfl

lemma outb_sel (d : PioDisk) (v : UInt8) : d.outb (d.base + 6) v = { d with sel := v } := by
  rw [outb, port_sub]
  rfl

lemma outb_write (d : PioDisk) : d.outb (d.base + 7) 0x30 = d.start true := by
  rw [outb, port_sub]
  rfl

lemma outb_read (d : PioDisk) : d.outb (d.base + 7) 0x20 = d.start false := by
  rw [outb, port_sub]
  rfl

lemma inb_status (d : PioDisk) : d.inb (d.base + 7) = d.status := by
  rw [inb, port_sub]
  rfl

/-- The byte `j` of a sequence of words. -/
def streamByte (f : Nat → UInt16) (j : Nat) : UInt8 :=
  if j % 2 = 0 then lowByte (f (j / 2)) else highByte (f (j / 2))

/-- The sectors after the first `k` words of a transfer. -/
def stored (t : Transfer) (f : Nat → UInt16) (k : Nat) (sectors : Drives) : Drives :=
  fun drive lba i =>
    if drive = t.drive ∧ t.lba ≤ lba ∧ ((lba - t.lba) * 512 + i.val) / 2 < k then
      streamByte f ((lba - t.lba) * 512 + i.val)
    else sectors drive lba i

/-- The disk in the middle of a transfer. -/
def atWord (d : PioDisk) (t : Transfer) (k : Nat) (sectors : Drives) : PioDisk :=
  { d with transfer := some { t with next := k }, sectors := sectors }

variable {d : PioDisk} {t : Transfer} {f : Nat → UInt16} {k : Nat} {sectors : Drives}

lemma stored_zero : stored t f 0 sectors = sectors := by
  funext drive lba i
  exact if_neg (by omega)

lemma store_stored :
    Transfer.store { t with next := k } (f k) (stored t f k sectors) =
      stored t f (k + 1) sectors := by
  funext drive lba i
  have hi := i.isLt
  simp only [Transfer.store, stored, streamByte]
  by_cases hdrive : drive = t.drive
  · by_cases hnew : lba = t.lba + k / 256 ∧ i.val / 2 = k % 256
    · have hk : ((lba - t.lba) * 512 + i.val) / 2 = k := by omega
      have hmod : ((lba - t.lba) * 512 + i.val) % 2 = i.val % 2 := by omega
      rw [if_pos ⟨hdrive, hnew⟩, hk, hmod, if_pos (And.intro hdrive ⟨by omega, by omega⟩)]
    · rw [if_neg (fun h => hnew h.2)]
      congr 1
      apply propext
      apply and_congr_right
      intro _
      omega
  · rw [if_neg (fun h => hdrive h.1), if_neg (fun h => hdrive h.1), if_neg (fun h => hdrive h.1)]

lemma outw_atWord (hw : t.write = true) (hk : k < t.words) (v : UInt16) :
    (d.atWord t k sectors).outw d.base v =
      d.atWord t (k + 1) (Transfer.store { t with next := k } v sectors) :=
  if_pos ⟨rfl, hw, hk⟩

lemma inw_atWord (d : PioDisk) (sectors : Drives) (hw : t.write = false) (hk : k < t.words) :
    (d.atWord t k sectors).inw d.base =
      (word (t.byteAt sectors (2 * k)) (t.byteAt sectors (2 * k + 1)),
        d.atWord t (k + 1) sectors) := by
  rw [← t.load_eq]
  exact if_pos ⟨rfl, hw, hk⟩

/-- Words sent to the data port end up in consecutive sectors. -/
lemma outw_stream (d : PioDisk) (hw : t.write = true) (f : Nat → UInt16) (sectors : Drives)
    (hk : k ≤ t.words) :
    (List.range k).foldl (fun disk i => disk.outw d.base (f i)) (d.atWord t 0 sectors) =
      d.atWord t k (stored t f k sectors) := by
  induction k with
  | zero => rw [List.range_zero, List.foldl_nil, stored_zero]
  | succ k ih =>
    rw [List.range_succ, List.foldl_append, List.foldl_cons, List.foldl_nil, ih (by omega),
      outw_atWord hw (by omega), store_stored]

end PioDisk

end Lib
