import QueryKey.Number.Power
import QueryKey.Proofs.Calendar.LeapSeconds
import QueryKey.Proofs.Text.Digits

/-! Dates and times read back: every text that is written for a date or a time, in either
precision, is taken off the front of a text again and gives the same date or the carried time.
-/

namespace QueryKey.Calendar

open QueryKey.Number QueryKey.Text

-----------------------------------------------------------------------------------------
-- Numbers of fixed width
-----------------------------------------------------------------------------------------

theorem isBlank_of_isDigit {c : Char} (h : isDigit c = true) : isBlank c = false := by
  simp only [isDigit, digit?] at h
  split at h
  · next hc =>
      simp only [isBlank, Bool.or_eq_false_iff, Bool.and_eq_false_iff, decide_eq_false_iff_not,
        beq_eq_false_iff_ne]
      omega
  · simp at h

theorem dropBlanks_of_stops {text : List Char} (h : Stops isBlank text)
    : dropBlanks text = text := by
  cases text with
  | nil => rfl
  | cons c rest =>
      rw [stops_cons] at h
      simp [dropBlanks, h]

/-- A padded number begins with a digit. -/
theorem exists_cons_paddedDigits (width n : Nat)
    : ∃ c more, paddedDigits 10 width n = c :: more ∧ isDigit c = true := by
  obtain ⟨c, more, h⟩ := List.exists_cons_of_ne_nil (paddedDigits_ne_nil 10 width n)
  exact ⟨c, more, h, isDigit_of_mem_paddedDigits (by rw [h]; simp)⟩

theorem dropBlanks_paddedDigits (width n : Nat) (rest : List Char)
    : dropBlanks (paddedDigits 10 width n ++ rest) = paddedDigits 10 width n ++ rest := by
  obtain ⟨c, more, h, hc⟩ := exists_cons_paddedDigits width n
  apply dropBlanks_of_stops
  simp [h, isBlank_of_isDigit hc]

theorem Scan.digits_paddedDigits {most width n : Nat} {rest : List Char}
    (hm : (paddedDigits 10 width n).length ≤ most)
    (hr : (paddedDigits 10 width n).length = most ∨ Stops isDigit rest)
    : Text.Scan.digits most (paddedDigits 10 width n ++ rest) = some (n, rest) := by
  have hv := ofDigits_digitValue_paddedDigits width n
  have hne : (paddedDigits 10 width n).map digitValue ≠ [] := by
    simpa using paddedDigits_ne_nil 10 width n
  rw [Text.Scan.digits, takeDigits_paddedDigits hm hr]
  split
  · next he => exact absurd (congrArg Prod.fst he) hne
  · next he =>
      obtain ⟨rfl, rfl⟩ := Prod.mk.inj he
      rw [hv]

/-- A number that fills its width is read with room for that width, whatever follows. -/
theorem Scan.number_padded {width n : Nat} (hw : 0 < width) (hn : n < tenTo width)
    (rest : List Char)
    : Scan.number width (paddedDigits 10 width n ++ rest) = some (n, rest) := by
  have hl := length_paddedDigits (by decide : 1 < 10) hw hn
  rw [Scan.number, dropBlanks_paddedDigits, Scan.digits_paddedDigits (Nat.le_of_eq hl) (.inl hl)]

theorem Scan.mark_cons {c : Char} (hc : isBlank c = false) (rest : List Char)
    : Scan.mark c (c :: rest) = some ((), rest) := by
  rw [Scan.mark, dropBlanks_of_stops (by simpa using hc)]
  simp [Text.Scan.literal]

-----------------------------------------------------------------------------------------
-- Dates
-----------------------------------------------------------------------------------------

theorem Date.month_lt (d : Date) : d.month < 100 := by
  have := d.isDate
  omega

theorem daysInMonth_le (year : Int) (month : Nat) : daysInMonth year month ≤ 31 := by
  unfold daysInMonth
  split
  · split <;> omega
  · split <;> omega

theorem Date.day_lt (d : Date) : d.day < 100 := by
  have := d.isDate
  have := daysInMonth_le d.year d.month
  omega

/-- Digits without limit, after the sign of a year. -/
theorem Scan.digits_signed (n : Nat) {rest : List Char} (hr : Stops isDigit rest)
    : Text.Scan.digits (paddedDigits 10 4 n ++ rest).length (paddedDigits 10 4 n ++ rest)
      = some (n, rest) :=
  Scan.digits_paddedDigits (by simp) (.inr hr)

/-- Years are read back in front of anything but a digit. -/
theorem Scan.year_yearText (year : Int) {rest : List Char} (hr : Stops isDigit rest)
    : Scan.year ((yearText year).toList ++ rest) = some (year, rest) := by
  unfold yearText
  split
  · next h =>
      have hn : year.toNat < 10000 := by omega
      have hl := length_paddedDigits (by decide : 1 < 10) (by decide : 0 < 4) hn
      have hd := @Scan.digits_paddedDigits _ _ _ rest (Nat.le_of_eq hl) (.inl hl)
      obtain ⟨c, more, hp, hc⟩ := exists_cons_paddedDigits 4 year.toNat
      simp only [padded, String.toList_ofList, Scan.year, dropBlanks_paddedDigits]
      rw [hp] at hd ⊢
      have hminus : c ≠ '-' := ne_of_isDigit hc rfl
      have hplus : c ≠ '+' := ne_of_isDigit hc rfl
      simp only [List.cons_append] at hd ⊢
      split
      · next he => exact absurd (List.cons.inj he).1 hminus
      · next he => exact absurd (List.cons.inj he).1 hplus
      · rw [hd, Option.map_some, Int.toNat_of_nonneg h.1]
  · next h =>
      have hd := Scan.digits_signed year.natAbs hr
      split
      · next hneg =>
          simp only [padded, String.toList_append, String.toList_ofList, Scan.year]
          rw [dropBlanks_of_stops (by simp; decide)]
          simp only [show "-".toList = ['-'] from rfl, List.cons_append, List.nil_append, hd,
            Option.map_some]
          congr 2
          omega
      · next hpos =>
          simp only [padded, String.toList_append, String.toList_ofList, Scan.year]
          rw [dropBlanks_of_stops (by simp; decide)]
          simp only [show "+".toList = ['+'] from rfl, List.cons_append, List.nil_append, hd,
            Option.map_some]
          congr 2
          omega

theorem Date.ofParts?_self (d : Date) : Date.ofParts? d.year d.month d.day = some d := by
  rw [Date.ofParts?, dif_pos d.isDate]

/-- Dates are read back, whatever follows them. -/
theorem Scan.date_text (d : Date) (rest : List Char)
    : Scan.date (d.text.toList ++ rest) = some (d, rest) := by
  have hstops : Stops isDigit
      ('-' :: (paddedDigits 10 2 d.month ++ '-' :: (paddedDigits 10 2 d.day ++ rest))) := by
    simp only [stops_cons]
    decide
  have hy := Scan.year_yearText d.year hstops
  have hm := Scan.number_padded (by decide : 0 < 2) d.month_lt
    ('-' :: (paddedDigits 10 2 d.day ++ rest))
  have hd := Scan.number_padded (by decide : 0 < 2) d.day_lt rest
  have hmark (rest : List Char) := Scan.mark_cons (c := '-') (by decide) rest
  simp only [Date.text, padded, String.toList_append, String.toList_ofList, List.append_assoc,
    show "-".toList = ['-'] from rfl, List.cons_append, List.nil_append]
  simp only [Scan.date, hy, hm, hd, hmark, d.ofParts?_self, Option.bind_eq_bind,
    Option.bind_some, Option.pure_def]

theorem Scan.dateWithinYears_text {d : Date} (h : d.IsWithinYears) (rest : List Char)
    : Scan.dateWithinYears (d.text.toList ++ rest) = some (d, rest) := by
  simp only [Scan.dateWithinYears, Scan.date_text, Option.bind_eq_bind, Option.bind_some,
    if_pos h]

-----------------------------------------------------------------------------------------
-- Times of day
-----------------------------------------------------------------------------------------

/-- What may not follow a time: a digit, or the point of a fraction. -/
def extendsTime (c : Char) : Bool :=
  isDigit c || c == '.'

theorem stops_isDigit_of_extendsTime {rest : List Char} (h : Stops extendsTime rest)
    : Stops isDigit rest := by
  intro c hc
  have := h c hc
  simp only [extendsTime, Bool.or_eq_false_iff] at this
  exact this.1

theorem ofDigits_append_zeros (base zeros : Nat) (digits : List Nat)
    : ofDigits base (digits ++ List.replicate zeros 0)
      = ofDigits base digits * Nat.pow base zeros := by
  induction zeros with
  | zero => simp
  | succ zeros ih =>
      rw [List.replicate_succ', ← List.append_assoc, ofDigits_append, ih, Nat.add_zero,
        Nat.mul_assoc]
      rfl

/-- Places that are few enough count as the number with zeros behind it. -/
theorem Time.nanoseconds_eq {places : List Nat} (h : places.length ≤ 9)
    : Time.nanoseconds places = ofDigits 10 places * tenTo (9 - places.length) := by
  rw [Time.nanoseconds, List.take_append, List.take_of_length_le h, List.take_replicate,
    Nat.min_eq_left (by omega), ofDigits_append_zeros, tenTo]

/-- A point and places that fill their width. -/
theorem Scan.fraction_padded {width n : Nat} (hw : 0 < width) (h9 : width ≤ 9)
    (hn : n < tenTo width) {rest : List Char} (hr : Stops isDigit rest)
    : Scan.fraction ('.' :: (paddedDigits 10 width n ++ rest))
      = some (n * tenTo (9 - width), rest) := by
  have hl := length_paddedDigits (by decide : 1 < 10) hw hn
  have ht : takeAllDigits (paddedDigits 10 width n ++ rest)
      = ((paddedDigits 10 width n).map digitValue, rest) := by
    rw [takeAllDigits]
    exact takeDigits_paddedDigits (by simp) (.inr hr)
  have hv : Time.nanoseconds ((paddedDigits 10 width n).map digitValue)
      = n * tenTo (9 - width) := by
    rw [Time.nanoseconds_eq (by simpa [hl] using h9), ofDigits_digitValue_paddedDigits,
      List.length_map, hl]
  have hne : (paddedDigits 10 width n).map digitValue ≠ [] := by
    simpa using paddedDigits_ne_nil 10 width n
  simp only [Scan.fraction, ht, hv]

/-- Fractions are read back in front of anything that does not go on with them. -/
theorem Scan.fraction_fractionText (p : Precision) {n : Nat} (hn : n < nanosecondsPerSecond)
    {rest : List Char} (hr : Stops extendsTime rest)
    : Scan.fraction ((fractionText p n).toList ++ rest) = some (n, rest) := by
  have hd := stops_isDigit_of_extendsTime hr
  have hpoint : ".".toList = ['.'] := rfl
  rw [nanosecondsPerSecond] at hn
  cases p with
  | nanoseconds =>
      have hf := Scan.fraction_padded (by decide : 0 < 9) (by decide) hn hd
      simp only [fractionText, padded, String.toList_append, String.toList_ofList, hpoint,
        List.cons_append, List.nil_append, hf]
      simp
  | asNeeded =>
      simp only [fractionText]
      split
      · next hz =>
          subst hz
          simp only [String.toList_empty, List.nil_append, Scan.fraction]
          split
          · next he => simp [extendsTime] at hr
          · rfl
      · split
        · next hk =>
            have hunit : tenTo (9 - 3) = 1000000 := rfl
            have hf := Scan.fraction_padded (by decide : 0 < 3) (by decide)
              (by omega : n / 1000000 < 1000) hd
            rw [hunit] at hf
            simp only [padded, String.toList_append, String.toList_ofList, hpoint,
              List.cons_append, List.nil_append, hf]
            congr 2
            omega
        · split
          · next hk =>
              have hunit : tenTo (9 - 6) = 1000 := rfl
              have hf := Scan.fraction_padded (by decide : 0 < 6) (by decide)
                (by omega : n / 1000 < 1000000) hd
              rw [hunit] at hf
              simp only [padded, String.toList_append, String.toList_ofList, hpoint,
                List.cons_append, List.nil_append, hf]
              congr 2
              omega
          · have hf := Scan.fraction_padded (by decide : 0 < 9) (by decide) hn hd
            simp only [padded, String.toList_append, String.toList_ofList, hpoint,
              List.cons_append, List.nil_append, hf]
            simp

theorem Scan.hourMinute_padded (t : Time) (rest : List Char)
    : Scan.hourMinute
        (paddedDigits 10 2 t.hour ++ ':' :: (paddedDigits 10 2 t.minute ++ rest))
      = some ((t.hour, t.minute), rest) := by
  have ht := t.isTime
  have hh := Scan.number_padded (by decide : 0 < 2) (by omega : t.hour < 100)
    (':' :: (paddedDigits 10 2 t.minute ++ rest))
  have hm := Scan.number_padded (by decide : 0 < 2) (by omega : t.minute < 100) rest
  have hmark (rest : List Char) := Scan.mark_cons (c := ':') (by decide) rest
  simp only [Scan.hourMinute, hh, hm, hmark, Option.bind_eq_bind, Option.bind_some,
    Option.pure_def]

/-- The characters of the second that is shown, with its fraction. -/
def Time.shownSeconds (p : Precision) (t : Time) : List Char :=
  paddedDigits 10 2 t.shownSecond ++ (fractionText p t.shownNanosecond).toList

theorem Scan.seconds_shownSeconds (p : Precision) (t : Time) {rest : List Char}
    (hr : Stops extendsTime rest)
    : Scan.seconds (':' :: (t.shownSeconds p ++ rest))
      = some ((t.shownSecond, t.shownNanosecond), rest) := by
  have ht := t.shownSecond_le
  have hs := Scan.number_padded (by decide : 0 < 2) (by omega : t.shownSecond < 100)
    ((fractionText p t.shownNanosecond).toList ++ rest)
  have hf := Scan.fraction_fractionText p t.shownNanosecond_lt hr
  simp only [Scan.seconds, Time.shownSeconds, List.append_assoc,
    Scan.mark_cons (c := ':') (by decide), hs, hf, Option.bind_eq_bind, Option.bind_some,
    Option.pure_def]

/-- The characters of a time, as they are read. -/
theorem Time.toList_text (p : Precision) (t : Time)
    : (t.text p).toList
      = paddedDigits 10 2 t.hour ++ ':' :: (paddedDigits 10 2 t.minute
        ++ ':' :: t.shownSeconds p) := by
  simp [Time.text, Time.shownSeconds, padded]

/-- Times are read back in front of anything that does not go on with them, leap seconds carried. -/
theorem Scan.time_text (p : Precision) (t : Time) {rest : List Char}
    (hr : Stops extendsTime rest)
    : Scan.time ((t.text p).toList ++ rest) = some (t.carried, rest) := by
  have hh := Scan.hourMinute_padded t (':' :: (t.shownSeconds p ++ rest))
  have hs := Scan.seconds_shownSeconds p t hr
  simp only [Time.toList_text, List.append_assoc, List.cons_append]
  simp only [Scan.time, hh, hs, t.ofParts?_shown, Option.bind_eq_bind, Option.bind_some,
    Option.pure_def]

theorem Time.ofText?_text (p : Precision) (t : Time)
    : Time.ofText? (t.text p) = some t.carried := by
  have hh := Scan.hourMinute_padded t (':' :: t.shownSeconds p)
  have hs := Scan.seconds_shownSeconds p t (stops_nil extendsTime)
  rw [List.append_nil] at hs
  simp only [Time.ofText?, Scan.only, Time.toList_text, hh, hs, t.ofParts?_shown,
    Option.getD_some, Option.bind_eq_bind, Option.bind_some, Option.pure_def]
  rfl

-----------------------------------------------------------------------------------------
-- Dates with times, and offsets
-----------------------------------------------------------------------------------------

theorem DateTime.toList_text (p : Precision) (t : DateTime)
    : (t.text p).toList = t.date.text.toList ++ 'T' :: (t.time.text p).toList := by
  simp [DateTime.text]

theorem DateTime.ofText?_text (p : Precision) {t : DateTime} (h : t.date.IsWithinYears)
    : DateTime.ofText? (t.text p) = some t.carried := by
  have hd := Scan.dateWithinYears_text h ('T' :: (t.time.text p).toList)
  have ht := Scan.time_text p t.time (stops_nil extendsTime)
  rw [List.append_nil] at ht
  simp only [DateTime.ofText?, Scan.only, DateTime.toList_text, hd,
    Scan.mark_cons (c := 'T') (by decide), ht, Option.bind_eq_bind, Option.bind_some,
    Option.pure_def]
  rfl

/-- An offset that hours and minutes can tell, and that a document may hold. -/
structure OffsetDateTime.IsPlain (t : OffsetDateTime) : Prop where
  wholeMinutes : t.offset % 60 = 0
  plainYear : 0 ≤ t.localTime.date.year ∧ t.localTime.date.year ≤ 9999

theorem OffsetDateTime.IsPlain.carried {t : OffsetDateTime} (h : t.IsPlain) : t.carried.IsPlain :=
  ⟨h.wholeMinutes, h.plainYear⟩

theorem paddedDigits_two {n : Nat} (h : n < 100)
    : paddedDigits 10 2 n = [Nat.digitChar (n / 10), Nat.digitChar (n % 10)] := by
  by_cases hn : n < 10
  · rw [paddedDigits, Nat.toDigits_of_lt_base hn, Nat.div_eq_of_lt hn, Nat.mod_eq_of_lt hn]
    rfl
  · rw [paddedDigits, Nat.toDigits_of_base_le (by decide) (by omega),
      Nat.toDigits_of_lt_base (by omega : n / 10 < 10)]
    rfl

/-- Two digits each of hours and minutes are read back as seconds. -/
theorem Scan.hoursMinutes_padded {minutes : Nat} (h : minutes < 1440)
    : Scan.hoursMinutes
        (paddedDigits 10 2 (minutes / 60) ++ ':' :: paddedDigits 10 2 (minutes % 60))
      = some (((minutes * 60 : Nat) : Int), []) := by
  have digit {d : Nat} (hd : d < 10) : digit? (Nat.digitChar d) = some d :=
    digit?_digitChar hd
  have blank {d : Nat} (hd : d < 10)
      : (Nat.digitChar d == ':' || isBlank (Nat.digitChar d)) = false := by
    have hc := isDigit_digitChar hd
    rw [isBlank_of_isDigit hc, Bool.or_false, beq_eq_false_iff_ne]
    rintro he
    rw [he] at hc
    exact absurd hc (by decide)
  rw [paddedDigits_two (by omega), paddedDigits_two (by omega)]
  simp only [Scan.hoursMinutes, List.cons_append, List.nil_append, List.dropWhile_cons,
    blank (by omega : minutes % 60 / 10 < 10), beq_self_eq_true, Bool.true_or, if_true,
    Bool.false_eq_true, if_false]
  simp only [digit (by omega : minutes / 60 / 10 < 10), digit (by omega : minutes / 60 % 10 < 10),
    digit (by omega : minutes % 60 / 10 < 10), digit (by omega : minutes % 60 % 10 < 10),
    Option.bind_eq_bind, Option.bind_some, (by omega : minutes % 60 / 10 < 6), if_true]
  congr 3
  omega

theorem Scan.offset_plus (text : List Char) : Scan.offset ('+' :: text) = hoursMinutes text := by
  rw [Scan.offset, if_neg (by decide), if_neg (by simp), if_pos rfl]

theorem Scan.offset_minus (text : List Char)
    : Scan.offset ('-' :: text) = (hoursMinutes text).map fun (n, after) => (-n, after) := by
  rw [Scan.offset, if_neg (by decide), if_neg (by simp), if_neg (by decide), if_pos (.inl rfl)]

/-- Offsets of whole minutes are read back from hours and minutes with a sign. -/
theorem Scan.offset_offsetText {offset : Int} (hl : -86400 < offset ∧ offset < 86400)
    (hw : offset % 60 = 0)
    : Scan.offset (offsetText offset).toList = some (offset, []) := by
  have hm := Scan.hoursMinutes_padded (by omega : (offset.natAbs + 30) / 60 < 1440)
  have hcolon : ":".toList = [':'] := rfl
  simp only [offsetText, padded, String.toList_append, String.toList_ofList, hcolon,
    List.append_assoc, List.cons_append, List.nil_append]
  split
  · next hneg =>
      have hvalue : -(((offset.natAbs + 30) / 60 * 60 : Nat) : Int) = offset := by omega
      simp only [show "-".toList = ['-'] from rfl, List.cons_append, List.nil_append,
        Scan.offset_minus, hm, Option.map_some, hvalue]
  · next hpos =>
      have hvalue : (((offset.natAbs + 30) / 60 * 60 : Nat) : Int) = offset := by omega
      simp only [show "+".toList = ['+'] from rfl, List.cons_append, List.nil_append,
        Scan.offset_plus, hm, hvalue]

-----------------------------------------------------------------------------------------
-- Days that exist in universal time
-----------------------------------------------------------------------------------------

theorem Date.daysBeforeMonth_le (year : Int) (month : Nat)
    : Date.daysBeforeMonth year month ≤ (month - 1) * 31 := by
  rw [Date.daysBeforeMonth]
  induction month - 1 with
  | zero => simp
  | succ months ih =>
      have := daysInMonth_le year (months + 1)
      rw [List.range_succ, List.foldl_append, List.foldl_cons, List.foldl_nil]
      omega

/-- The years of four digits are far from both ends of the calendar, also a day away. -/
theorem OffsetDateTime.IsPlain.ofParts? {t : OffsetDateTime} (h : t.IsPlain)
    : OffsetDateTime.ofParts? t.localTime t.offset = some t := by
  have hy := h.plainYear
  have hd := t.localTime.date.isDate
  have hdays := Date.daysBeforeMonth_le t.localTime.date.year t.localTime.date.month
  have hday := daysInMonth_le t.localTime.date.year t.localTime.date.month
  have ht := t.localTime.time.isTime
  have ho := t.offset_lt
  have hfirst : Date.first.dayNumber = -95746130 := by decide
  have hlast : Date.last.dayNumber = 95745398 := by decide
  have hrange : Date.first.dayNumber ≤ t.instant.second / 86400
      ∧ t.instant.second / 86400 ≤ Date.last.dayNumber := by
    rw [hfirst, hlast]
    simp only [OffsetDateTime.instant, Date.dayNumber, Time.secondOfDay]
    omega
  rw [OffsetDateTime.ofParts?, dif_pos ho]
  exact if_pos hrange

/-- What stands behind the local time: the offset, or a name for none. -/
def zoneText (p : Precision) (offset : Int) : String :=
  if p = .asNeeded ∧ offset = 0 then "Z" else offsetText offset

theorem OffsetDateTime.toList_text (p : Precision) (t : OffsetDateTime)
    : (t.text p).toList
      = t.localTime.date.text.toList ++ 'T' :: ((t.localTime.time.text p).toList
        ++ (zoneText p t.offset).toList) := by
  simp [OffsetDateTime.text, DateTime.text, zoneText]

/-- The sign or name of an offset ends the time in front of it and is no blank. -/
theorem zoneText_head (p : Precision) (offset : Int)
    : ∃ c more, (zoneText p offset).toList = c :: more ∧ (c = 'Z' ∨ c = '+' ∨ c = '-') := by
  unfold zoneText
  split
  · exact ⟨'Z', [], rfl, .inl rfl⟩
  · simp only [offsetText, String.toList_append]
    split
    · exact ⟨'-', _, rfl, .inr (.inr rfl)⟩
    · exact ⟨'+', _, rfl, .inr (.inl rfl)⟩

theorem stops_zoneText {p : Char → Bool} (hz : p 'Z' = false) (hp : p '+' = false)
    (hm : p '-' = false) (precision : Precision) (offset : Int)
    : Stops p (zoneText precision offset).toList := by
  obtain ⟨c, more, h, hc⟩ := zoneText_head precision offset
  rw [h, stops_cons]
  rcases hc with rfl | rfl | rfl
  · exact hz
  · exact hp
  · exact hm

/-- A local time with its offset is read back if the offset has no seconds, leap seconds carried. -/
theorem OffsetDateTime.IsPlain.ofText?_text {t : OffsetDateTime} (h : t.IsPlain)
    : OffsetDateTime.ofText? (t.text .asNeeded) = some t.carried := by
  have hwithin : t.localTime.date.IsWithinYears := by
    have := h.plainYear
    simp only [Date.IsWithinYears, leastYear, greatestYear]
    omega
  have hparts : OffsetDateTime.ofParts? ⟨t.localTime.date, t.localTime.time.carried⟩ t.offset
      = some t.carried :=
    h.carried.ofParts?
  have hd := Scan.dateWithinYears_text hwithin
    ('T' :: ((t.localTime.time.text .asNeeded).toList ++ (zoneText .asNeeded t.offset).toList))
  have ht := Scan.time_text .asNeeded t.localTime.time
    (stops_zoneText (p := extendsTime) rfl rfl rfl .asNeeded t.offset)
  have hb := dropBlanks_of_stops
    (stops_zoneText (p := isBlank) rfl rfl rfl .asNeeded t.offset)
  have ho : Scan.offset (zoneText .asNeeded t.offset).toList = some (t.offset, []) := by
    unfold zoneText
    split
    · next hz =>
        rw [hz.2]
        rfl
    · exact Scan.offset_offsetText t.offset_lt h.wholeMinutes
  simp only [OffsetDateTime.ofText?, Scan.only, OffsetDateTime.toList_text, hd, ht, hb, ho,
    hparts, Option.bind_eq_bind, Option.bind_some, Option.pure_def, true_or, if_true]
  rfl

end QueryKey.Calendar
