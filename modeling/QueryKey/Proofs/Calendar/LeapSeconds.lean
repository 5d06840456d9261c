import QueryKey.Calendar.Text

/-! Leap seconds and their texts. Behind the second 59 a leap second is shown as the second 60;
behind any other second it is shown like the next one. Carried into that next second it is the time
that its text gives back.
-/

namespace QueryKey.Calendar

namespace Time

variable {s t : Time}

/-- A time that is in a leap second, if at all, at the end of a minute. -/
def IsRegular (t : Time) : Prop :=
  nanosecondsPerSecond ≤ t.nanosecond → t.second = 59

/-- The regular time that is shown in the same way. -/
def carried (t : Time) : Time :=
  if h : nanosecondsPerSecond ≤ t.nanosecond ∧ t.second < 59 then
    {
      hour := t.hour
      minute := t.minute
      second := t.second + 1
      nanosecond := t.nanosecond - nanosecondsPerSecond
      isTime := by
        have := t.isTime
        omega
    }
  else
    t

-----------------------------------------------------------------------------------------
-- What is shown
-----------------------------------------------------------------------------------------

theorem shown_of_lt (h : t.nanosecond < nanosecondsPerSecond)
    : t.shownSecond = t.second ∧ t.shownNanosecond = t.nanosecond := by
  rw [shownSecond, shownNanosecond, Nat.div_eq_of_lt h, Nat.mod_eq_of_lt h, Nat.add_zero]
  exact ⟨rfl, rfl⟩

theorem shown_of_le (h : nanosecondsPerSecond ≤ t.nanosecond)
    : t.shownSecond = t.second + 1
      ∧ t.shownNanosecond = t.nanosecond - nanosecondsPerSecond := by
  have ht := t.isTime
  have hrest : t.nanosecond - nanosecondsPerSecond < nanosecondsPerSecond := by omega
  have hpos : 0 < nanosecondsPerSecond := by decide
  rw [shownSecond, shownNanosecond, Nat.div_eq_sub_div hpos h, Nat.mod_eq_sub_mod h,
    Nat.div_eq_of_lt hrest, Nat.mod_eq_of_lt hrest]
  exact ⟨rfl, rfl⟩

theorem shownSecond_le (t : Time) : t.shownSecond ≤ 60 := by
  have ht := t.isTime
  rcases Nat.lt_or_ge t.nanosecond nanosecondsPerSecond with h | h
  · rw [(shown_of_lt h).1]
    omega
  · rw [(shown_of_le h).1]
    omega

theorem shownNanosecond_lt (t : Time) : t.shownNanosecond < nanosecondsPerSecond :=
  Nat.mod_lt _ (by decide)

-----------------------------------------------------------------------------------------
-- Carried times
-----------------------------------------------------------------------------------------

theorem isRegular_carried (t : Time) : t.carried.IsRegular := by
  have ht := t.isTime
  unfold carried
  split
  · simp only [IsRegular]
    omega
  · rw [IsRegular]
    omega

theorem carried_eq_self (h : t.IsRegular) : t.carried = t := by
  rw [carried, dif_neg]
  rintro ⟨hleap, hsecond⟩
  have := h hleap
  omega

/-- A carried time is shown as before. -/
theorem shown_carried (t : Time)
    : t.carried.hour = t.hour ∧ t.carried.minute = t.minute
      ∧ t.carried.shownSecond = t.shownSecond
      ∧ t.carried.shownNanosecond = t.shownNanosecond := by
  have ht := t.isTime
  unfold carried
  split
  · next h =>
      obtain ⟨hsecond, hnanosecond⟩ := shown_of_le h.1
      refine ⟨rfl, rfl, ?_, ?_⟩
      · rw [hsecond]
        exact (shown_of_lt (by simp only; omega)).1
      · rw [hnanosecond]
        exact (shown_of_lt (by simp only; omega)).2
  · exact ⟨rfl, rfl, rfl, rfl⟩

theorem text_carried (p : Precision) (t : Time) : t.carried.text p = t.text p := by
  obtain ⟨hhour, hminute, hsecond, hnanosecond⟩ := t.shown_carried
  rw [text, text, hhour, hminute, hsecond, hnanosecond]

/-- What is shown of a regular time tells it. -/
theorem IsRegular.ofParts? (h : t.IsRegular)
    : ofParts? t.hour t.minute t.shownSecond t.shownNanosecond = some t := by
  have ht := t.isTime
  rw [Time.ofParts?, dif_pos ⟨ht.1, ht.2.1, t.shownSecond_le, t.shownNanosecond_lt⟩]
  refine congrArg some (Time.ext rfl rfl ?_ ?_)
  · show min t.shownSecond 59 = t.second
    rcases Nat.lt_or_ge t.nanosecond nanosecondsPerSecond with hlt | hleap
    · rw [(shown_of_lt hlt).1]
      omega
    · rw [(shown_of_le hleap).1, h hleap]
      rfl
  · show t.shownNanosecond + (if t.shownSecond = 60 then nanosecondsPerSecond else 0)
      = t.nanosecond
    rcases Nat.lt_or_ge t.nanosecond nanosecondsPerSecond with hlt | hleap
    · rw [(shown_of_lt hlt).1, (shown_of_lt hlt).2, if_neg (by omega), Nat.add_zero]
    · rw [(shown_of_le hleap).1, (shown_of_le hleap).2, h hleap, if_pos rfl,
        Nat.sub_add_cancel hleap]

/-- What is shown tells the carried time. -/
theorem ofParts?_shown (t : Time)
    : ofParts? t.hour t.minute t.shownSecond t.shownNanosecond = some t.carried := by
  have hread := t.isRegular_carried.ofParts?
  obtain ⟨hhour, hminute, hsecond, hnanosecond⟩ := t.shown_carried
  rwa [hhour, hminute, hsecond, hnanosecond] at hread

/-- Carrying only forgets whether the nanoseconds went beyond a second. -/
theorem eq_of_carried_eq (h : s.carried = t.carried) (hnanosecond : s.nanosecond = t.nanosecond)
    : s = t := by
  obtain ⟨hshour, hsminute, hssecond, -⟩ := s.shown_carried
  obtain ⟨hthour, htminute, htsecond, -⟩ := t.shown_carried
  rw [h] at hshour hsminute hssecond
  have hshown : s.shownSecond = t.shownSecond := hssecond.symm.trans htsecond
  rw [shownSecond, shownSecond, hnanosecond] at hshown
  exact Time.ext (hshour.symm.trans hthour) (hsminute.symm.trans htminute)
    (Nat.add_right_cancel hshown) hnanosecond

end Time

namespace DateTime

def IsRegular (t : DateTime) : Prop :=
  t.time.IsRegular

def carried (t : DateTime) : DateTime :=
  { t with time := t.time.carried }

theorem carried_eq_self {t : DateTime} (h : t.IsRegular) : t.carried = t := by
  rw [carried, Time.carried_eq_self h]

theorem text_carried (p : Precision) (t : DateTime) : t.carried.text p = t.text p := by
  rw [text, carried, Time.text_carried, text]

end DateTime

namespace OffsetDateTime

def IsRegular (t : OffsetDateTime) : Prop :=
  t.localTime.IsRegular

def carried (t : OffsetDateTime) : OffsetDateTime :=
  { t with localTime := t.localTime.carried }

theorem carried_eq_self {t : OffsetDateTime} (h : t.IsRegular) : t.carried = t := by
  rw [carried, DateTime.carried_eq_self h]

theorem text_carried (p : Precision) (t : OffsetDateTime) : t.carried.text p = t.text p := by
  rw [text, carried, DateTime.text_carried, text]

end OffsetDateTime

end QueryKey.Calendar
