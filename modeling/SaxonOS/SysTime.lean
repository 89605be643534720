import SaxonOS.Rtc

/-!
# The time system call

`userspace/sys_time.c` and the getters of `drivers/rtc.c` that it calls.
-/

namespace SaxonOS
open Lib

def getYear (rtc : Rtc) : UInt32 := rtc.year

def getMonth (rtc : Rtc) : UInt8 := rtc.month

def getDay (rtc : Rtc) : UInt8 := rtc.day

def getHour (rtc : Rtc) : UInt8 := rtc.hour

def getMinute (rtc : Rtc) : UInt8 := rtc.minute

def getSecond (rtc : Rtc) : UInt8 := rtc.second

def minuteToSecond (a : UInt32) : UInt32 := a * 60

def hourToSecond (a : UInt32) : UInt32 := a * 3600

def dayToSecond (a : UInt32) : UInt32 := a * 86400

def monthToSecond (a : UInt32) : UInt32 := a * 2592000

def yearToSecond (a : UInt32) : UInt32 := a * 31536000

/-- `sys_time`. The year makes the whole sum unsigned, and `int ret` takes its 32 bits. -/
def sysTime (rtc : Rtc) (m : Mem) (tloc : UInt32) : Int32 × Mem :=
  let year := getYear rtc - 1970
  let month := getMonth rtc
  let day := getDay rtc
  let hour := getHour rtc
  let minute := getMinute rtc
  let second := getSecond rtc
  let ret := (yearToSecond year + monthToSecond month.toUInt32 + dayToSecond day.toUInt32 +
    hourToSecond hour.toUInt32 + minuteToSecond minute.toUInt32 + second.toUInt32).toInt32
  (ret, if tloc ≠ 0 then write32 m tloc ret.toUInt32 else m)

end SaxonOS
