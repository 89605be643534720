import SaxonOS.Rtc

/-!
# Noon and midnight

The conversions of `read_rtc` give back what the clock chip has encoded, but for the two hours
that a 12-hour clock calls twelve: there 12 is not taken as 0 before the afternoon is added.
-/

namespace SaxonOS.Proofs
open SaxonOS Lib

variable {cmos : Cmos} {rtc : Rtc} {t : DateTime} {m : ClockMode}

lemma awaitUpdate_ok (fuel : Nat) (h : cmos.registers 0x0A &&& 0x80 = 0) :
    awaitUpdate fuel cmos = .ok { cmos with index := 0x0A } := by
  have hflag : updateInProgressFlag cmos =
      (cmos.registers 0x0A &&& 0x80, { cmos with index := 0x0A }) := rfl
  unfold awaitUpdate
  rw [hflag, h]
  rfl

/-- The registers as they are read. -/
def rawRtc (cmos : Cmos) (century : UInt8) : Rtc where
  second := cmos.registers 0x00
  minute := cmos.registers 0x02
  hour := cmos.registers 0x04
  day := cmos.registers 0x07
  month := cmos.registers 0x08
  year := (cmos.registers 0x09).toUInt32
  century := century

lemma readRtc_eq (fuel : Nat) (rtc : Rtc) (h : cmos.registers 0x0A &&& 0x80 = 0) :
    readRtc fuel 0 cmos rtc = .ok ({ cmos with index := 0x0B },
      fullYear 0 (convertHours (cmos.registers 0x0B).toUInt32
        (convertBcd 0 (cmos.registers 0x0B).toUInt32 (rawRtc cmos rtc.century)))) := by
  rw [readRtc, awaitUpdate_ok fuel h]
  rfl

/-- What `convertBcd` does to a byte in this mode. -/
def decodeByte (m : ClockMode) (b : UInt8) : UInt8 := if m.binary then b else bcdToBinary b

/-- What `convertBcd` and `convertHours` do to the hour in this mode. -/
def decodeHour (m : ClockMode) (b : UInt8) : UInt8 :=
  let b := if m.binary then b else ((b &&& 0x0F) + (b &&& 0x70) / 16 * 10) ||| (b &&& 0x80)
  if m.hours24 = false ∧ b &&& 0x80 ≠ 0 then ((b &&& 0x7F) + 12) % 24 else b

def decodeYear (m : ClockMode) (b : UInt8) : UInt32 :=
  let year := if m.binary then b.toUInt32 else (b.toUInt32 &&& 0x0F) + b.toUInt32 / 16 * 10
  let year := year + currentYear / 100 * 100
  if year < currentYear then year + 100 else year

lemma decodeByte_encode {n : Nat} (hn : n < 100) : (decodeByte m (m.encode n)).toNat = n := by
  obtain ⟨binary, hours24⟩ := m
  revert binary hours24 n
  decide

/-- The hour comes back shifted by half a day where it is called twelve. -/
lemma decodeHour_encode {hour : Nat} (hhour : hour < 24) :
    (decodeHour m (m.encodeHour hour)).toNat =
      if m.hours24 = false ∧ hour % 12 = 0 then (hour + 12) % 24 else hour := by
  obtain ⟨binary, hours24⟩ := m
  revert binary hours24 hour
  decide

lemma decodeYear_encode {n : Nat} (hn : n < 100) :
    (decodeYear m (m.encode n)).toNat = if n < 17 then 2100 + n else 2000 + n := by
  obtain ⟨binary, hours24⟩ := m
  revert binary hours24 n
  decide

lemma modeBit_iff (b mask : UInt8) : b.toUInt32 &&& mask.toUInt32 = 0 ↔ ¬b &&& mask ≠ 0 := by
  rw [not_not, ← UInt8.toUInt32_and, ← UInt32.toNat_inj, ← UInt8.toNat_inj, UInt8.toNat_toUInt32]
  rfl

lemma binary_iff (b : UInt8) :
    b.toUInt32 &&& 0x04 = 0 ↔ ¬(ClockMode.ofRegisterB b).binary = true := by
  rw [ClockMode.ofRegisterB, decide_eq_true_iff]
  exact modeBit_iff b 0x04

lemma hours24_iff (b : UInt8) :
    b.toUInt32 &&& 0x02 = 0 ↔ (ClockMode.ofRegisterB b).hours24 = false := by
  rw [ClockMode.ofRegisterB, decide_eq_false_iff_not]
  exact modeBit_iff b 0x02

/-- The registers decoded one by one. -/
def decodedRtc (cmos : Cmos) (century : UInt8) : Rtc :=
  let m := ClockMode.ofRegisterB (cmos.registers 0x0B)
  { second := decodeByte m (cmos.registers 0x00)
    minute := decodeByte m (cmos.registers 0x02)
    hour := decodeHour m (cmos.registers 0x04)
    day := decodeByte m (cmos.registers 0x07)
    month := decodeByte m (cmos.registers 0x08)
    year := decodeYear m (cmos.registers 0x09)
    century := century }

lemma convertHours_eq (registerB : UInt32) (rtc : Rtc) : convertHours registerB rtc =
    { rtc with
      hour := if registerB &&& 0x02 = 0 ∧ rtc.hour &&& 0x80 ≠ 0 then
        ((rtc.hour &&& 0x7F) + 12) % 24 else rtc.hour } := by
  rw [convertHours]
  split <;> rfl

lemma conversions_eq (cmos : Cmos) (century : UInt8) :
    fullYear 0 (convertHours (cmos.registers 0x0B).toUInt32
      (convertBcd 0 (cmos.registers 0x0B).toUInt32 (rawRtc cmos century))) =
      decodedRtc cmos century := by
  rw [decodedRtc, convertHours_eq]
  simp only [convertBcd, binary_iff, hours24_iff, decodeByte, decodeHour, decodeYear]
  by_cases hbinary : (ClockMode.ofRegisterB (cmos.registers 0x0B)).binary = true
  · simp only [hbinary, not_true_eq_false, if_true, if_false]
    rfl
  · simp only [hbinary]
    rfl

/-- The variables hold the date and the time `t`. -/
structure Tells (rtc : Rtc) (t : DateTime) : Prop where
  second : rtc.second.toNat = t.second
  minute : rtc.minute.toNat = t.minute
  hour : rtc.hour.toNat = t.hour
  day : rtc.day.toNat = t.day
  month : rtc.month.toNat = t.month
  year : rtc.year.toNat = t.year

lemma decodedRtc_hour (h : cmos.Holds t) (century : UInt8) :
    (decodedRtc cmos century).hour.toNat =
      if (ClockMode.ofRegisterB (cmos.registers 0x0B)).hours24 = false ∧ t.hour % 12 = 0 then
        (t.hour + 12) % 24
      else t.hour := by
  rw [decodedRtc]
  dsimp only
  rw [h.hour]
  exact decodeHour_encode t.hour_lt

lemma decodedRtc_year (h : cmos.Holds t) (hfrom : 2017 ≤ t.year) (hto : t.year ≤ 2116)
    (century : UInt8) : (decodedRtc cmos century).year.toNat = t.year := by
  have hmod : t.year % 100 < 100 := Nat.mod_lt _ (by decide)
  rw [decodedRtc]
  dsimp only
  rw [h.year, decodeYear_encode hmod]
  split <;> omega

lemma tells_decodedRtc (h : cmos.Holds t) (hfrom : 2017 ≤ t.year) (hto : t.year ≤ 2116)
    (century : UInt8) : Tells (decodedRtc cmos century) t ↔
      (decodedRtc cmos century).hour.toNat = t.hour := by
  have hmonth := t.month_le
  have hday := t.day_lt
  have hminute := t.minute_lt
  have hsecond := t.second_lt
  have hbyte : ∀ reg n, cmos.registers reg =
      (ClockMode.ofRegisterB (cmos.registers 0x0B)).encode n → n < 100 →
      (decodeByte (ClockMode.ofRegisterB (cmos.registers 0x0B))
        (cmos.registers reg)).toNat = n := by
    intro reg n hreg hn
    rw [hreg]
    exact decodeByte_encode hn
  constructor
  · exact fun htells => htells.hour
  · intro hhour
    exact ⟨hbyte _ _ h.second (by omega), hbyte _ _ h.minute (by omega), hhour,
      hbyte _ _ h.day (by omega), hbyte _ _ h.month (by omega), decodedRtc_year h hfrom hto century⟩

/-- The time is read as it is if and only if the chip has a 24-hour clock or it is neither noon
nor midnight. -/
theorem readRtc_tells_iff (fuel : Nat) (cmos : Cmos) (rtc : Rtc) (t : DateTime)
    (h : cmos.Holds t) (hfrom : 2017 ≤ t.year) (hto : t.year ≤ 2116) :
    (∃ cmos' rtc', readRtc fuel 0 cmos rtc = .ok (cmos', rtc') ∧ Tells rtc' t) ↔
      cmos.registers 0x0B &&& 0x02 ≠ 0 ∨ t.hour ≠ 0 ∧ t.hour ≠ 12 := by
  have hlt := t.hour_lt
  have hmode : (ClockMode.ofRegisterB (cmos.registers 0x0B)).hours24 = false ↔
      ¬cmos.registers 0x0B &&& 0x02 ≠ 0 := decide_eq_false_iff_not
  have hread : (∃ cmos' rtc', readRtc fuel 0 cmos rtc = .ok (cmos', rtc') ∧ Tells rtc' t) ↔
      Tells (decodedRtc cmos rtc.century) t := by
    rw [readRtc_eq fuel rtc h.notUpdating, conversions_eq]
    constructor
    · rintro ⟨cmos', rtc', heq, htells⟩
      obtain ⟨-, rfl⟩ := Prod.mk.inj (Except.ok.inj heq)
      exact htells
    · exact fun htells => ⟨_, _, rfl, htells⟩
  rw [hread, tells_decodedRtc h hfrom hto, decodedRtc_hour h]
  by_cases h24 : cmos.registers 0x0B &&& 0x02 ≠ 0
  · rw [if_neg fun hc => hmode.mp hc.1 h24]
    exact iff_of_true rfl (Or.inl h24)
  · simp only [hmode.mpr h24, h24, true_and, false_or]
    split <;> omega

/-- The first of March 2100 at this hour. -/
def firstOfMarch (hour : Nat) (h : hour < 24) : DateTime where
  year := 2100
  month := 3
  day := 1
  hour := hour
  minute := 59
  second := 7
  month_pos := by decide
  month_le := by decide
  day_pos := by decide
  day_le := by decide
  hour_lt := h
  minute_lt := by decide
  second_lt := by decide

/-- An afternoon in BCD on a 12-hour clock. -/
theorem readRtc_tells_iff_afternoon : ∃ cmos' rtc',
    readRtc 0 0 (Cmos.setTo 0 (firstOfMarch 23 (by decide))) ⟨0, 0, 0, 0, 0, 0, 0⟩ =
      .ok (cmos', rtc') ∧ Tells rtc' (firstOfMarch 23 (by decide)) :=
  (readRtc_tells_iff 0 (Cmos.setTo 0 (firstOfMarch 23 (by decide))) ⟨0, 0, 0, 0, 0, 0, 0⟩ _
    (Cmos.holds_setTo 0 _) (by decide) (by decide)).mpr (Or.inr (by decide))

/-- In BCD on a 12-hour clock noon is read as hour 0, and midnight as hour 12. -/
theorem readRtc_confuses_twelve :
    (Cmos.setTo 0 (firstOfMarch 12 (by decide))).Holds (firstOfMarch 12 (by decide)) ∧
    (Cmos.setTo 0 (firstOfMarch 0 (by decide))).Holds (firstOfMarch 0 (by decide)) ∧
    (∃ cmos' rtc', readRtc 0 0 (Cmos.setTo 0 (firstOfMarch 12 (by decide)))
      ⟨0, 0, 0, 0, 0, 0, 0⟩ = .ok (cmos', rtc') ∧ rtc'.hour = 0) ∧
    ∃ cmos' rtc', readRtc 0 0 (Cmos.setTo 0 (firstOfMarch 0 (by decide)))
      ⟨0, 0, 0, 0, 0, 0, 0⟩ = .ok (cmos', rtc') ∧ rtc'.hour = 12 :=
  ⟨Cmos.holds_setTo 0 _, Cmos.holds_setTo 0 _, ⟨_, _, readRtc_eq 0 _ rfl, by decide⟩,
    ⟨_, _, readRtc_eq 0 _ rfl, by decide⟩⟩

end SaxonOS.Proofs
