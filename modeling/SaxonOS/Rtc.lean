import SaxonOS.Common
import SaxonOS.Lib.Clock

/-!
# The real-time clock

`read_rtc` of `drivers/rtc.c` over the CMOS chip. The static variables of the file are the
fields of `Rtc`.
-/

namespace SaxonOS
open Lib

structure Rtc where
  second : UInt8
  minute : UInt8
  hour : UInt8
  day : UInt8
  month : UInt8
  year : UInt32
  century : UInt8

def cmosAddress : UInt16 := 0x70

def cmosData : UInt16 := 0x71

def currentYear : UInt32 := 2017

def getRtcRegister (cmos : Cmos) (reg : UInt32) : UInt8 × Cmos :=
  let cmos := cmos.outb cmosAddress reg.toUInt8
  (cmos.inb cmosData, cmos)

def updateInProgressFlag (cmos : Cmos) : UInt8 × Cmos :=
  let cmos := cmos.outb cmosAddress 0x0A
  (cmos.inb cmosData &&& 0x80, cmos)

/-- `while (update_in_progress_flag());`. -/
def awaitUpdate : Nat → Cmos → Except Fault Cmos
  | fuel, cmos =>
    let (flag, cmos) := updateInProgressFlag cmos
    if flag ≠ 0 then
      match fuel with
      | 0 => .error .diverge
      | fuel + 1 => awaitUpdate fuel cmos
    else .ok cmos

/-- `(bcd & 0x0F) + ((bcd / 16) * 10)` for the variables of one byte. -/
def bcdToBinary (bcd : UInt8) : UInt8 := (bcd &&& 0x0F) + bcd / 16 * 10

/-- The conversion of BCD to binary. Bit 7 of the hour is kept. -/
def convertBcd (centuryRegister registerB : UInt32) (rtc : Rtc) : Rtc :=
  if registerB &&& 0x04 = 0 then
    { second := bcdToBinary rtc.second
      minute := bcdToBinary rtc.minute
      hour := ((rtc.hour &&& 0x0F) + (rtc.hour &&& 0x70) / 16 * 10) ||| (rtc.hour &&& 0x80)
      day := bcdToBinary rtc.day
      month := bcdToBinary rtc.month
      year := (rtc.year &&& 0x0F) + rtc.year / 16 * 10
      century := if centuryRegister ≠ 0 then bcdToBinary rtc.century else rtc.century }
  else rtc

/-- The conversion of the 12-hour clock to the 24-hour clock. -/
def convertHours (registerB : UInt32) (rtc : Rtc) : Rtc :=
  if registerB &&& 0x02 = 0 ∧ rtc.hour &&& 0x80 ≠ 0 then
    { rtc with hour := ((rtc.hour &&& 0x7F) + 12) % 24 }
  else rtc

/-- The full year, from the century register or else the first that is not before
`CURRENT_YEAR`. -/
def fullYear (centuryRegister : UInt32) (rtc : Rtc) : Rtc :=
  if centuryRegister ≠ 0 then { rtc with year := rtc.year + rtc.century.toUInt32 * 100 }
  else
    let year := rtc.year + currentYear / 100 * 100
    { rtc with year := if year < currentYear then year + 100 else year }

def readRtc (fuel : Nat) (centuryRegister : UInt32) (cmos : Cmos) (rtc : Rtc) :
    Except Fault (Cmos × Rtc) := do
  let cmos ← awaitUpdate fuel cmos
  let (second, cmos) := getRtcRegister cmos 0x00
  let (minute, cmos) := getRtcRegister cmos 0x02
  let (hour, cmos) := getRtcRegister cmos 0x04
  let (day, cmos) := getRtcRegister cmos 0x07
  let (month, cmos) := getRtcRegister cmos 0x08
  let (year, cmos) := getRtcRegister cmos 0x09
  let (century, cmos) :=
    if centuryRegister ≠ 0 then getRtcRegister cmos centuryRegister else (rtc.century, cmos)
  let (registerB, cmos) := getRtcRegister cmos 0x0B
  let rtc : Rtc := ⟨second, minute, hour, day, month, year.toUInt32, century⟩
  .ok (cmos, fullYear centuryRegister
    (convertHours registerB.toUInt32 (convertBcd centuryRegister registerB.toUInt32 rtc)))

end SaxonOS
