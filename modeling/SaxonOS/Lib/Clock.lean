import Mathlib.Logic.Function.Basic

/-!
# The clock of the CMOS memory

Dates and times of the calendar, the four ways in which the clock chip writes them into its
registers, and the two ports through which the registers are read.
-/

namespace Lib

def IsLeap (year : Nat) : Prop := year % 4 = 0 ∧ (year % 100 ≠ 0 ∨ year % 400 = 0)

instance (year : Nat) : Decidable (IsLeap year) := inferInstanceAs (Decidable (_ ∧ _))

def daysInMonth (year month : Nat) : Nat :=
  if month = 2 then if IsLeap year then 29 else 28
  else if month ∈ [4, 6, 9, 11] then 30
  else 31

lemma daysInMonth_le (year month : Nat) : daysInMonth year month ≤ 31 := by
  unfold daysInMonth
  split
  · split <;> decide
  · split <;> decide

/-- A date that is in the calendar, and a time of the day. -/
structure DateTime where
  year : Nat
  month : Nat
  day : Nat
  hour : Nat
  minute : Nat
  second : Nat
  month_pos : 1 ≤ month
  month_le : month ≤ 12
  day_pos : 1 ≤ day
  day_le : day ≤ daysInMonth year month
  hour_lt : hour < 24
  minute_lt : minute < 60
  second_lt : second < 60

lemma DateTime.day_lt (t : DateTime) : t.day < 32 :=
  Nat.lt_succ_of_le (Nat.le_trans t.day_le (daysInMonth_le t.year t.month))

/-- The two mode bits of register B. -/
structure ClockMode where
  binary : Bool
  hours24 : Bool

namespace ClockMode

def ofRegisterB (b : UInt8) : ClockMode := ⟨b &&& 0x04 ≠ 0, b &&& 0x02 ≠ 0⟩

/-- A number below 100, one decimal digit in each half of the byte if it is not binary. -/
def encode (m : ClockMode) (n : Nat) : UInt8 :=
  UInt8.ofNat (if m.binary then n else n / 10 * 16 + n % 10)

/-- The hour. On the 12-hour clock noon and midnight are twelve, and bit 7 marks the afternoon. -/
def encodeHour (m : ClockMode) (hour : Nat) : UInt8 :=
  if m.hours24 then m.encode hour
  else m.encode (if hour % 12 = 0 then 12 else hour % 12) ||| if 12 ≤ hour then 0x80 else 0

end ClockMode

structure Cmos where
  index : UInt8
  registers : UInt8 → UInt8

namespace Cmos

/-- Port 0x70 selects a register, where bit 7 is not part of its number, and port 0x71 is the
selected one. -/
def outb (c : Cmos) (port : UInt16) (v : UInt8) : Cmos :=
  if port = 0x70 then { c with index := v &&& 0x7F }
  else if port = 0x71 then { c with registers := Function.update c.registers c.index v }
  else c

def inb (c : Cmos) (port : UInt16) : UInt8 :=
  if port = 0x71 then c.registers c.index else 0xFF

/-- The registers hold `t` in the encoding that register B asks for, and no update of them is in
progress. -/
structure Holds (c : Cmos) (t : DateTime) : Prop where
  second : c.registers 0x00 = (ClockMode.ofRegisterB (c.registers 0x0B)).encode t.second
  minute : c.registers 0x02 = (ClockMode.ofRegisterB (c.registers 0x0B)).encode t.minute
  hour : c.registers 0x04 = (ClockMode.ofRegisterB (c.registers 0x0B)).encodeHour t.hour
  day : c.registers 0x07 = (ClockMode.ofRegisterB (c.registers 0x0B)).encode t.day
  month : c.registers 0x08 = (ClockMode.ofRegisterB (c.registers 0x0B)).encode t.month
  year : c.registers 0x09 = (ClockMode.ofRegisterB (c.registers 0x0B)).encode (t.year % 100)
  notUpdating : c.registers 0x0A &&& 0x80 = 0

/-- A chip in the mode of `registerB` that has been set to `t`. -/
def setTo (registerB : UInt8) (t : DateTime) : Cmos where
  index := 0
  registers := fun i => match i.toNat with
    | 0x00 => (ClockMode.ofRegisterB registerB).encode t.second
    | 0x02 => (ClockMode.ofRegisterB registerB).encode t.minute
    | 0x04 => (ClockMode.ofRegisterB registerB).encodeHour t.hour
    | 0x07 => (ClockMode.ofRegisterB registerB).encode t.day
    | 0x08 => (ClockMode.ofRegisterB registerB).encode t.month
    | 0x09 => (ClockMode.ofRegisterB registerB).encode (t.year % 100)
    | 0x0B => registerB
    | _ => 0

lemma holds_setTo (registerB : UInt8) (t : DateTime) : (setTo registerB t).Holds t where
  second := rfl
  minute := rfl
  hour := rfl
  day := rfl
  month := rfl
  year := rfl
  notUpdating := UInt8.zero_and

end Cmos

end Lib
