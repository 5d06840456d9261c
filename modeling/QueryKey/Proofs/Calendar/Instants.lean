import QueryKey.Proofs.Calendar.ReadBack

/-! Local times of one instant. Days are numbered without gaps and without overlaps, so the number
of a day tells its date; an instant and an offset tell the local time.
-/

namespace QueryKey.Calendar

-----------------------------------------------------------------------------------------
-- Days of a year
-----------------------------------------------------------------------------------------

namespace Date

/-- The days before the first day of a year. -/
def daysBeforeYear (year : Int) : Int :=
  (year - 1) * 365 + (year - 1) / 4 - (year - 1) / 100 + (year - 1) / 400

theorem dayNumber_eq (d : Date)
    : d.dayNumber = daysBeforeYear d.year + daysBeforeMonth d.year d.month + (d.day - 1) :=
  rfl

theorem daysBeforeMonth_succ (year : Int) {month : Nat} (h : 1 ≤ month)
    : daysBeforeMonth year (month + 1) = daysBeforeMonth year month + daysInMonth year month := by
  obtain ⟨months, rfl⟩ := Nat.exists_eq_add_of_le' h
  simp only [daysBeforeMonth, Nat.add_sub_cancel, List.range_succ, List.foldl_append,
    List.foldl_cons, List.foldl_nil]

/-- Months follow one another, by induction on the later one. -/
theorem daysBeforeMonth_add_le (year : Int) {month other : Nat} (hmonth : 1 ≤ month)
    (h : month < other)
    : daysBeforeMonth year month + daysInMonth year month ≤ daysBeforeMonth year other := by
  induction other with
  | zero => omega
  | succ other ih =>
      rcases Nat.lt_succ_iff_lt_or_eq.mp h with h | rfl
      · rw [daysBeforeMonth_succ year (by omega)]
        exact Nat.le_trans (ih h) (Nat.le_add_right _ _)
      · exact Nat.le_of_eq (daysBeforeMonth_succ year hmonth).symm

/-- The days of all months are those from one year to the next. -/
theorem daysBeforeYear_succ (year : Int)
    : daysBeforeYear (year + 1) = daysBeforeYear year + daysBeforeMonth year 13 := by
  have hmonths : daysBeforeMonth year 13 = if isLeapYear year then 366 else 365 := by
    cases h : isLeapYear year <;>
      simp [daysBeforeMonth, daysInMonth, h, List.range, List.range.loop]
  rw [hmonths]
  simp only [daysBeforeYear, isLeapYear, Bool.and_eq_true, Bool.or_eq_true, beq_iff_eq,
    bne_iff_ne]
  split <;> omega

theorem daysBeforeYear_le {year other : Int} (h : year ≤ other)
    : daysBeforeYear year ≤ daysBeforeYear other := by
  simp only [daysBeforeYear]
  omega

/-- A day comes before the end of its month. -/
theorem dayNumber_lt (d : Date)
    : d.dayNumber
      < daysBeforeYear d.year + (daysBeforeMonth d.year d.month + daysInMonth d.year d.month) := by
  have := d.isDate
  rw [dayNumber_eq]
  omega

theorem dayNumber_lt_of_year_lt {d e : Date} (h : d.year < e.year)
    : d.dayNumber < e.dayNumber := by
  have hd := d.isDate
  have he := e.isDate
  have hend := d.dayNumber_lt
  have hmonth := daysBeforeMonth_add_le d.year hd.2.2.1 (by omega : d.month < 13)
  have hyear := daysBeforeYear_le (by omega : d.year + 1 ≤ e.year)
  rw [daysBeforeYear_succ] at hyear
  rw [dayNumber_eq e]
  omega

theorem dayNumber_lt_of_month_lt {d e : Date} (hyear : d.year = e.year) (h : d.month < e.month)
    : d.dayNumber < e.dayNumber := by
  have he := e.isDate
  have hend := d.dayNumber_lt
  have hmonth := daysBeforeMonth_add_le d.year d.isDate.2.2.1 h
  rw [dayNumber_eq e, ← hyear]
  omega

/-- The number of a day tells its date. -/
theorem eq_of_dayNumber_eq {d e : Date} (h : d.dayNumber = e.dayNumber) : d = e := by
  have hyear : d.year = e.year := by
    rcases Int.lt_trichotomy d.year e.year with hlt | heq | hlt
    · exact absurd h (Int.ne_of_lt (dayNumber_lt_of_year_lt hlt))
    · exact heq
    · exact absurd h.symm (Int.ne_of_lt (dayNumber_lt_of_year_lt hlt))
  have hmonth : d.month = e.month := by
    rcases Nat.lt_trichotomy d.month e.month with hlt | heq | hlt
    · exact absurd h (Int.ne_of_lt (dayNumber_lt_of_month_lt hyear hlt))
    · exact heq
    · exact absurd h.symm (Int.ne_of_lt (dayNumber_lt_of_month_lt hyear.symm hlt))
  have hday : d.day = e.day := by
    have hd := d.isDate
    have he := e.isDate
    rw [dayNumber_eq, dayNumber_eq, hyear, hmonth] at h
    omega
  cases d
  cases e
  simp_all

end Date

-----------------------------------------------------------------------------------------
-- Seconds of a day
-----------------------------------------------------------------------------------------

namespace Time

theorem secondOfDay_lt (t : Time) : t.secondOfDay < 86400 := by
  have := t.isTime
  rw [secondOfDay]
  omega

/-- The second of the day and the nanoseconds tell the time. -/
theorem eq_of_secondOfDay_eq {s t : Time} (hsecond : s.secondOfDay = t.secondOfDay)
    (hnanosecond : s.nanosecond = t.nanosecond)
    : s = t := by
  have hs := s.isTime
  have ht := t.isTime
  simp only [secondOfDay] at hsecond
  apply Time.ext <;> omega

end Time

/-- An instant and an offset tell the local time. -/
theorem OffsetDateTime.eq_of_sameInstant {s t : OffsetDateTime} (h : s.sameInstant t = true)
    (hoffset : s.offset = t.offset)
    : s = t := by
  have hs := s.localTime.time.secondOfDay_lt
  have ht := t.localTime.time.secondOfDay_lt
  simp only [sameInstant, beq_iff_eq, instant, Instant.mk.injEq] at h
  obtain ⟨hsecond, hfraction⟩ := h
  have hday : s.localTime.date = t.localTime.date := Date.eq_of_dayNumber_eq (by omega)
  have htime : s.localTime.time = t.localTime.time :=
    Time.eq_of_secondOfDay_eq (by omega) hfraction
  rcases s with ⟨⟨date, time⟩, offset, hlt⟩
  rcases t with ⟨⟨otherDate, otherTime⟩, other, hother⟩
  simp_all

/-- An instant and the local time that is shown tell the offset. -/
theorem OffsetDateTime.offset_eq_of_sameInstant {s t : OffsetDateTime}
    (h : s.sameInstant t = true) (hlocal : s.localTime.carried = t.localTime.carried)
    : s.offset = t.offset := by
  simp only [sameInstant, beq_iff_eq, instant, Instant.mk.injEq] at h
  simp only [DateTime.carried, DateTime.mk.injEq] at hlocal
  have htime : s.localTime.time = t.localTime.time := Time.eq_of_carried_eq hlocal.2 h.2
  rw [hlocal.1, htime] at h
  omega

end QueryKey.Calendar
