import SaxonOS.Lib.Clock

/-!
# Seconds since 1970

The calendar as a count of days, and Unix time, which is in the order of the calendar.
-/

namespace Lib

def daysInYear (year : Nat) : Nat := if IsLeap year then 366 else 365

/-- The days of the first `n` years since 1970. -/
def yearDays : Nat → Nat
  | 0 => 0
  | n + 1 => yearDays n + daysInYear (1970 + n)

/-- The days of the first `n` months of a year. -/
def monthDays (year : Nat) : Nat → Nat
  | 0 => 0
  | n + 1 => monthDays year n + daysInMonth year (n + 1)

namespace DateTime

variable {t u : DateTime}

/-- The days since 1 January 1970. -/
def dayNumber (t : DateTime) : Nat :=
  yearDays (t.year - 1970) + monthDays t.year (t.month - 1) + (t.day - 1)

def secondOfDay (t : DateTime) : Nat := t.hour * 3600 + t.minute * 60 + t.second

def unixTime (t : DateTime) : Nat := t.dayNumber * 86400 + t.secondOfDay

/-- The order of the calendar. -/
def Before (t u : DateTime) : Prop :=
  t.year < u.year ∨ t.year = u.year ∧ (t.month < u.month ∨ t.month = u.month ∧
    (t.day < u.day ∨ t.day = u.day ∧ t.secondOfDay < u.secondOfDay))

instance (t u : DateTime) : Decidable (t.Before u) := inferInstanceAs (Decidable (_ ∨ _))

lemma secondOfDay_lt (t : DateTime) : t.secondOfDay < 86400 := by
  have hh := t.hour_lt
  have hm := t.minute_lt
  have hs := t.second_lt
  rw [secondOfDay]
  omega

lemma not_before_iff : ¬t.Before u ↔ u.Before t ∨ (t.year = u.year ∧ t.month = u.month ∧
    t.day = u.day ∧ t.secondOfDay = u.secondOfDay) := by
  unfold Before
  omega

end DateTime

lemma yearDays_mono {n k : Nat} (h : n ≤ k) : yearDays n ≤ yearDays k := by
  induction h with
  | refl => exact Nat.le_refl _
  | step _ ih => exact Nat.le_trans ih (Nat.le_add_right _ _)

lemma monthDays_mono (year : Nat) {n k : Nat} (h : n ≤ k) :
    monthDays year n ≤ monthDays year k := by
  induction h with
  | refl => exact Nat.le_refl _
  | step _ ih => exact Nat.le_trans ih (Nat.le_add_right _ _)

/-- One year in four is a leap year at most. -/
lemma yearDays_le (n : Nat) : yearDays n ≤ 365 * n + (n + 1) / 4 := by
  induction n with
  | zero => decide
  | succ n ih =>
    rw [yearDays, daysInYear]
    split
    · next hleap =>
      have h4 := hleap.1
      omega
    · omega

lemma monthDays_le (year n : Nat) : monthDays year n ≤ 31 * n := by
  induction n with
  | zero => exact Nat.le_refl 0
  | succ n ih =>
    have hmonth := daysInMonth_le year (n + 1)
    rw [monthDays]
    omega

lemma monthDays_year (year : Nat) : monthDays year 12 = daysInYear year := by
  by_cases hleap : IsLeap year <;> simp [monthDays, daysInMonth, daysInYear, hleap]

namespace DateTime

variable {t u : DateTime}

/-- The days up to the end of the month. -/
lemma monthDays_day (t : DateTime) :
    monthDays t.year (t.month - 1) + t.day ≤ monthDays t.year t.month := by
  have hpos := t.month_pos
  have hday := t.day_le
  obtain ⟨n, hn⟩ : ∃ n, t.month = n + 1 := ⟨t.month - 1, by omega⟩
  rw [hn] at hday ⊢
  exact Nat.add_le_add_left hday _

/-- The days of a year lie between those of the years around it. -/
lemma dayNumber_lt (t : DateTime) (ht : 1970 ≤ t.year) :
    t.dayNumber < yearDays (t.year - 1970 + 1) := by
  have hday := t.monthDays_day
  have hmonth := monthDays_mono t.year t.month_le
  have hpos := t.day_pos
  have hyear : 1970 + (t.year - 1970) = t.year := by omega
  rw [monthDays_year] at hmonth
  rw [dayNumber, yearDays, hyear]
  omega

lemma dayNumber_lt_of_month (hyear : t.year = u.year) (hmonth : t.month < u.month) :
    t.dayNumber < u.dayNumber := by
  have hday := t.monthDays_day
  have hpos := t.day_pos
  have hmono := monthDays_mono t.year (show t.month ≤ u.month - 1 by omega)
  rw [dayNumber, dayNumber, ← hyear]
  omega

/-- Unix time goes forward with the calendar. -/
lemma Before.unixTime_lt (ht : 1970 ≤ t.year) (h : t.Before u) : t.unixTime < u.unixTime := by
  have hsec := t.secondOfDay_lt
  have hdays : t.dayNumber < u.dayNumber ∨
      t.dayNumber = u.dayNumber ∧ t.secondOfDay < u.secondOfDay := by
    rcases h with hyear | ⟨hyear, hmonth | ⟨hmonth, hday | ⟨hday, hsecond⟩⟩⟩
    · left
      have hmono := yearDays_mono (show t.year - 1970 + 1 ≤ u.year - 1970 by omega)
      have hlt := t.dayNumber_lt ht
      have hfirst : yearDays (u.year - 1970) ≤ u.dayNumber := by
        rw [dayNumber, Nat.add_assoc]
        exact Nat.le_add_right _ _
      omega
    · exact Or.inl (dayNumber_lt_of_month hyear hmonth)
    · left
      have hpos := t.day_pos
      rw [dayNumber, dayNumber, hyear, hmonth]
      omega
    · right
      rw [dayNumber, dayNumber, hyear, hmonth, hday]
      exact ⟨rfl, hsecond⟩
  rw [unixTime, unixTime]
  omega

/-- Unix time is in the order of the calendar. -/
lemma unixTime_lt_iff (ht : 1970 ≤ t.year) (hu : 1970 ≤ u.year) :
    t.unixTime < u.unixTime ↔ t.Before u := by
  constructor
  · intro hlt
    by_contra hnot
    rcases not_before_iff.mp hnot with h | ⟨hyear, hmonth, hday, hsecond⟩
    · have := h.unixTime_lt hu
      omega
    · rw [unixTime, unixTime, dayNumber, dayNumber, hyear, hmonth, hday, hsecond] at hlt
      exact Nat.lt_irrefl _ hlt
  · exact Before.unixTime_lt ht

end DateTime

end Lib
