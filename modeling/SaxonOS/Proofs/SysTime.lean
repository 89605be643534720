import SaxonOS.SysTime
import SaxonOS.Lib.UnixTime
import SaxonOS.Proofs.Rtc

/-!
# A clock that is ahead

`sys_time` counts months of 30 days, no leap days, and the first day of the first month as a month
and a day. It is always ahead of Unix time, stands still where a month of 31 days ends, and turns
negative two weeks early.
-/

namespace SaxonOS.Proofs
open SaxonOS Lib

variable {rtc rtc' : Rtc} {t u : DateTime}

/-- The days that `sys_time` counts. -/
def countedDays (t : DateTime) : Nat := 365 * (t.year - 1970) + 30 * t.month + t.day

def countedTime (t : DateTime) : Nat := countedDays t * 86400 + t.secondOfDay

/-- The numbers of a date in the calendar and a time of the day. -/
structure InCalendar (year month day hour minute second : Nat) : Prop where
  month_pos : 1 ≤ month
  month_le : month ≤ 12
  day_pos : 1 ≤ day
  day_le : day ≤ daysInMonth year month
  hour_lt : hour < 24
  minute_lt : minute < 60
  second_lt : second < 60

def InCalendar.dateTime {year month day hour minute second : Nat}
    (h : InCalendar year month day hour minute second) : DateTime :=
  { year, month, day, hour, minute, second
    month_pos := h.month_pos
    month_le := h.month_le
    day_pos := h.day_pos
    day_le := h.day_le
    hour_lt := h.hour_lt
    minute_lt := h.minute_lt
    second_lt := h.second_lt }

lemma unixEnd_inCalendar : InCalendar 2038 1 19 3 14 7 := by
  constructor <;> decide

/-- The last second that a signed number of 32 bits can count. -/
def unixEnd : DateTime := unixEnd_inCalendar.dateTime

/-- From 1 January 1970 to the last second that can be counted. -/
structure UnixRange (t : DateTime) : Prop where
  first : 1970 ≤ t.year
  last : ¬unixEnd.Before t

lemma unixEnd_unixTime : unixEnd.unixTime = 2 ^ 31 - 1 := by decide +kernel

lemma UnixRange.unixTime_lt (h : UnixRange t) : t.unixTime < 2 ^ 31 := by
  have hle := mt (DateTime.unixTime_lt_iff (t := unixEnd) (by decide) h.first).mp h.last
  rw [unixEnd_unixTime] at hle
  omega

/-- The last year ends with its nineteenth day. -/
lemma UnixRange.bounds (h : UnixRange t) :
    t.year ≤ 2038 ∧ (t.year = 2038 → t.month = 1 ∧ t.day ≤ 19) := by
  have hlast := h.last
  have hpos := t.month_pos
  unfold DateTime.Before at hlast
  simp only [unixEnd, InCalendar.dateTime] at hlast
  omega

lemma countedTime_lt (h : UnixRange t) : countedTime t < 2 ^ 32 := by
  obtain ⟨hyear, hlast⟩ := h.bounds
  have hmonth := t.month_le
  have hday := t.day_lt
  have hsec := t.secondOfDay_lt
  rw [countedTime, countedDays]
  omega

/-- `sys_time` without the reading of its value as a signed number. -/
def secondsSum (rtc : Rtc) : UInt32 :=
  yearToSecond (getYear rtc - 1970) + monthToSecond (getMonth rtc).toUInt32 +
    dayToSecond (getDay rtc).toUInt32 + hourToSecond (getHour rtc).toUInt32 +
    minuteToSecond (getMinute rtc).toUInt32 + (getSecond rtc).toUInt32

lemma secondsSum_toNat (ht : Tells rtc t) (h : UnixRange t) :
    (secondsSum rtc).toNat = countedTime t := by
  have hlt := countedTime_lt h
  have hfirst := h.first
  have h1970 : (1970 : UInt32).toNat = 1970 := rfl
  have hmin : (60 : UInt32).toNat = 60 := rfl
  have hhour : (3600 : UInt32).toNat = 3600 := rfl
  have hday : (86400 : UInt32).toNat = 86400 := rfl
  have hmonth : (2592000 : UInt32).toNat = 2592000 := rfl
  have hyear : (31536000 : UInt32).toNat = 31536000 := rfl
  rw [countedTime, countedDays, DateTime.secondOfDay] at hlt ⊢
  simp only [secondsSum, yearToSecond, monthToSecond, dayToSecond, hourToSecond, minuteToSecond,
    getYear, getMonth, getDay, getHour, getMinute, getSecond, UInt32.toNat_add, UInt32.toNat_mul,
    UInt32.toNat_sub, UInt8.toNat_toUInt32, ht.year, ht.month, ht.day, ht.hour, ht.minute,
    ht.second, h1970, hmin, hhour, hday, hmonth, hyear]
  omega

lemma toInt32_toInt (x : UInt32) :
    x.toInt32.toInt = if x.toNat < 2 ^ 31 then (x.toNat : Int) else x.toNat - 4294967296 := by
  have h := BitVec.toInt_eq_toNat_cond x.toBitVec
  change x.toBitVec.toInt = _
  rw [h, UInt32.toNat_toBitVec]
  split <;> split <;> omega

lemma sysTime_returns (ht : Tells rtc t) (h : UnixRange t) (m : Mem) (tloc : UInt32) :
    (sysTime rtc m tloc).1.toInt =
      if countedTime t < 2 ^ 31 then (countedTime t : Int) else countedTime t - 4294967296 := by
  rw [← secondsSum_toNat ht h]
  exact toInt32_toInt (secondsSum rtc)

lemma sysTime_stores (ht : Tells rtc t) (h : UnixRange t) (m : Mem) {tloc : UInt32}
    (hloc : tloc ≠ 0) : (read32 (sysTime rtc m tloc).2 tloc).toNat = countedTime t := by
  have hmem : (sysTime rtc m tloc).2 = write32 m tloc (secondsSum rtc) := if_pos hloc
  rw [hmem, read32_write32_same, secondsSum_toNat ht h]

lemma unixTime_lt_countedTime (h : UnixRange t) : t.unixTime < countedTime t := by
  have hyear := h.bounds.1
  have hyears := yearDays_le (t.year - 1970)
  have hmonths := monthDays_le t.year (t.month - 1)
  have hpos := t.month_pos
  have hle := t.month_le
  have hday := t.day_pos
  rw [DateTime.unixTime, DateTime.dayNumber, countedTime, countedDays]
  omega

/-- From the 31st of a month to the first of the next one, to no later time of the day. -/
def StandsStill (t u : DateTime) : Prop :=
  t.year = u.year ∧ u.month = t.month + 1 ∧ t.day = 31 ∧ u.day = 1 ∧
    u.secondOfDay ≤ t.secondOfDay

lemma countedTime_lt_iff (h : t.Before u) (ht : 1970 ≤ t.year) :
    countedTime t < countedTime u ↔ ¬StandsStill t u := by
  have hday := t.day_lt
  have hday' := u.day_pos
  have hmonth := t.month_le
  have hmonth' := u.month_pos
  have hsec := t.secondOfDay_lt
  have hsec' := u.secondOfDay_lt
  unfold DateTime.Before at h
  unfold StandsStill
  rw [countedTime, countedTime, countedDays, countedDays]
  omega

lemma signFlip_inCalendar : InCalendar 2038 1 5 3 14 8 := by
  constructor <;> decide

/-- The first second that `sys_time` takes for a negative number. -/
def signFlip : DateTime := signFlip_inCalendar.dateTime

lemma countedTime_fits_iff (h : UnixRange t) : countedTime t < 2 ^ 31 ↔ t.Before signFlip := by
  have hyear := h.bounds
  have hday := t.day_lt
  have hmonth := t.month_le
  have hpos := t.month_pos
  have hsec := t.secondOfDay_lt
  have hflip : signFlip.secondOfDay = 11648 := rfl
  unfold DateTime.Before
  rw [countedTime, countedDays, hflip]
  simp only [signFlip, InCalendar.dateTime]
  omega

/-- Two results in the order of the calendar. -/
lemma sysTime_lt_iff (ht : Tells rtc t) (hu : Tells rtc' u) (hrt : UnixRange t)
    (hru : UnixRange u) (m : Mem) (tloc : UInt32) (h : t.Before u) :
    (sysTime rtc m tloc).1.toInt < (sysTime rtc' m tloc).1.toInt ↔
      ¬StandsStill t u ∧ (u.Before signFlip ∨ ¬t.Before signFlip) := by
  have hlt := countedTime_lt hrt
  have hlt' := countedTime_lt hru
  have htrans : u.Before signFlip → t.Before signFlip := by
    intro hflip
    unfold DateTime.Before at h hflip ⊢
    omega
  rw [sysTime_returns ht hrt, sysTime_returns hu hru, ← countedTime_lt_iff h hrt.first,
    ← countedTime_fits_iff hrt, ← countedTime_fits_iff hru]
  rw [← countedTime_fits_iff hrt, ← countedTime_fits_iff hru] at htrans
  split <;> split <;> omega

/-- On no date the result, or what is stored, is Unix time. Of two dates the later one has a
greater result if and only if the clock does not stand still from the one to the other and does
not turn negative between them. -/
theorem sysTime_never_unix (rtc rtc' : Rtc) (t u : DateTime) (m : Mem) (tloc : UInt32)
    (ht : Tells rtc t) (hu : Tells rtc' u) (hrt : UnixRange t) (hru : UnixRange u) :
    ((sysTime rtc m tloc).1.toInt ≠ t.unixTime ∧
      (tloc ≠ 0 → (read32 (sysTime rtc m tloc).2 tloc).toNat ≠ t.unixTime)) ∧
    (t.unixTime < u.unixTime →
      ((sysTime rtc m tloc).1.toInt < (sysTime rtc' m tloc).1.toInt ↔
        ¬StandsStill t u ∧ (u.Before signFlip ∨ ¬t.Before signFlip))) := by
  have hahead := unixTime_lt_countedTime hrt
  refine ⟨⟨?_, fun hloc => ?_⟩, fun hlt => ?_⟩
  · have hlt := countedTime_lt hrt
    rw [sysTime_returns ht hrt]
    split <;> omega
  · rw [sysTime_stores ht hrt m hloc]
    omega
  · rw [DateTime.unixTime_lt_iff hrt.first hru.first] at hlt
    exact sysTime_lt_iff ht hu hrt hru m tloc hlt

/-- Variables that hold a date. -/
def rtcOf (t : DateTime) : Rtc where
  second := UInt8.ofNat t.second
  minute := UInt8.ofNat t.minute
  hour := UInt8.ofNat t.hour
  day := UInt8.ofNat t.day
  month := UInt8.ofNat t.month
  year := UInt32.ofNat t.year
  century := 0

lemma tells_rtcOf (h : t.year < 2 ^ 32) : Tells (rtcOf t) t := by
  have hsecond := t.second_lt
  have hminute := t.minute_lt
  have hhour := t.hour_lt
  have hday := t.day_lt
  have hmonth := t.month_le
  constructor
  all_goals
    simp only [rtcOf, UInt8.toNat_ofNat', UInt32.toNat_ofNat']
    omega

/-- Midnight at the start of a day. -/
def startOf (year month day : Nat) (h : 1 ≤ month ∧ month ≤ 12 ∧ 1 ≤ day ∧
    day ≤ daysInMonth year month) : DateTime where
  year := year
  month := month
  day := day
  hour := 0
  minute := 0
  second := 0
  month_pos := h.1
  month_le := h.2.1
  day_pos := h.2.2.1
  day_le := h.2.2.2
  hour_lt := by decide
  minute_lt := by decide
  second_lt := by decide

/-- From a leap day to the day after it. -/
theorem sysTime_never_unix_leapDay :
    (sysTime (rtcOf (startOf 2000 2 29 (by decide))) (fun _ => 0) 0x1000).1.toInt ≠
      (startOf 2000 2 29 (by decide)).unixTime ∧
    (sysTime (rtcOf (startOf 2000 2 29 (by decide))) (fun _ => 0) 0x1000).1.toInt <
      (sysTime (rtcOf (startOf 2000 3 1 (by decide))) (fun _ => 0) 0x1000).1.toInt := by
  have h := sysTime_never_unix (rtcOf (startOf 2000 2 29 (by decide)))
    (rtcOf (startOf 2000 3 1 (by decide))) (startOf 2000 2 29 (by decide))
    (startOf 2000 3 1 (by decide)) (fun _ => 0) 0x1000 (tells_rtcOf (by decide))
    (tells_rtcOf (by decide)) ⟨by decide, by decide⟩ ⟨by decide, by decide⟩
  refine ⟨h.1.1, (h.2 ?_).mpr ⟨?_, Or.inl (by decide)⟩⟩
  · exact DateTime.Before.unixTime_lt (by decide) (by decide)
  · exact fun hs => absurd hs.2.2.1 (by decide)

/-- The first second of 1970 is second 2678400, and July does not end. -/
theorem sysTime_off :
    (startOf 1970 1 1 (by decide)).unixTime = 0 ∧
    (sysTime (rtcOf (startOf 1970 1 1 (by decide))) (fun _ => 0) 0).1 = 2678400 ∧
    (startOf 2017 7 31 (by decide)).Before (startOf 2017 8 1 (by decide)) ∧
    (sysTime (rtcOf (startOf 2017 7 31 (by decide))) (fun _ => 0) 0).1 =
      (sysTime (rtcOf (startOf 2017 8 1 (by decide))) (fun _ => 0) 0).1 := by
  decide

end SaxonOS.Proofs
