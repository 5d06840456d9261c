import QueryKey.Calendar.Basic
import QueryKey.Text.Blank
import QueryKey.Text.Scan

/-! Texts of dates and times. Writing has one form for documents and one for keys; reading is
lenient about blanks before a part and about missing leading zeros.
-/

namespace QueryKey.Calendar

open QueryKey.Text
open QueryKey.Text.Scan (digits literal)

/-- Years from 0 to 9999 have four digits and no sign, all others a sign and at least four
digits.
-/
def yearText (year : Int) : String :=
  if 0 ≤ year ∧ year ≤ 9999 then padded 4 year.toNat
  else (if year < 0 then "-" else "+") ++ padded 4 year.natAbs

namespace Date

def text (d : Date) : String :=
  yearText d.year ++ "-" ++ padded 2 d.month ++ "-" ++ padded 2 d.day

end Date

/-- How many digits a fraction of a second gets. -/
inductive Precision where
  | asNeeded
  | nanoseconds
deriving DecidableEq

/-- As many groups of three digits as the fraction needs, or always nine digits. -/
def fractionText (p : Precision) (nanosecond : Nat) : String :=
  match p with
  | .nanoseconds => "." ++ padded 9 nanosecond
  | .asNeeded =>
      if nanosecond = 0 then ""
      else if nanosecond % 1000000 = 0 then "." ++ padded 3 (nanosecond / 1000000)
      else if nanosecond % 1000 = 0 then "." ++ padded 6 (nanosecond / 1000)
      else "." ++ padded 9 nanosecond

namespace Time

/-- The second that a clock shows. A leap second is shown as the one behind its second, like an
ordinary one; only behind the second 59 it has a number of its own.
-/
def shownSecond (t : Time) : Nat :=
  t.second + t.nanosecond / nanosecondsPerSecond

/-- The nanoseconds since the start of the second that is shown. -/
def shownNanosecond (t : Time) : Nat :=
  t.nanosecond % nanosecondsPerSecond

def text (p : Precision) (t : Time) : String :=
  padded 2 t.hour ++ ":" ++ padded 2 t.minute ++ ":" ++ padded 2 t.shownSecond
    ++ fractionText p t.shownNanosecond

end Time

namespace DateTime

def text (p : Precision) (t : DateTime) : String :=
  t.date.text ++ "T" ++ t.time.text p

end DateTime

/-- Hours and minutes with a sign, the seconds rounded to the nearest minute. -/
def offsetText (offset : Int) : String :=
  let minutes := (offset.natAbs + 30) / 60
  (if offset < 0 then "-" else "+") ++ padded 2 (minutes / 60) ++ ":" ++ padded 2 (minutes % 60)

namespace OffsetDateTime

/-- Documents write `Z` for no offset, keys write it out. -/
def text (p : Precision) (t : OffsetDateTime) : String :=
  t.localTime.text p
    ++ (if p = .asNeeded ∧ t.offset = 0 then "Z" else offsetText t.offset)

end OffsetDateTime

namespace Scan

/-- A number after any blanks. -/
def number (most : Nat) : Scan Nat := fun text =>
  digits most (dropBlanks text)

/-- Any blanks and then the character. -/
def mark (c : Char) : Scan Unit := fun text =>
  literal c (dropBlanks text)

/-- At most four digits, or any number of them after a sign. -/
def year : Scan Int := fun text =>
  match dropBlanks text with
  | '-' :: rest => (digits rest.length rest).map fun (n, after) => (-(n : Int), after)
  | '+' :: rest => (digits rest.length rest).map fun (n, after) => ((n : Int), after)
  | rest => (digits 4 rest).map fun (n, after) => ((n : Int), after)

/-- The nanoseconds of a fraction; digits after the ninth are dropped, and without a point the
fraction is zero.
-/
def fraction : Scan Nat := fun text =>
  match text with
  | '.' :: rest =>
      match takeAllDigits rest with
      | ([], _) => none
      | (ds, after) => some (Time.nanoseconds ds, after)
  | _ => some (0, text)

def date : Scan Date := fun text => do
  let (y, text) ← year text
  let (_, text) ← mark '-' text
  let (m, text) ← number 2 text
  let (_, text) ← mark '-' text
  let (d, text) ← number 2 text
  let date ← Date.ofParts? y m d
  return (date, text)

/-- A day in the years of the calendar. -/
def dateWithinYears : Scan Date := fun text => do
  let (d, text) ← date text
  if d.IsWithinYears then some (d, text) else none

/-- Hours and minutes. -/
def hourMinute : Scan (Nat × Nat) := fun text => do
  let (h, text) ← number 2 text
  let (_, text) ← mark ':' text
  let (m, text) ← number 2 text
  return ((h, m), text)

/-- A colon, seconds and their fraction. -/
def seconds : Scan (Nat × Nat) := fun text => do
  let (_, text) ← mark ':' text
  let (s, text) ← number 2 text
  let (n, text) ← fraction text
  return ((s, n), text)

def time : Scan Time := fun text => do
  let ((h, m), text) ← hourMinute text
  let ((s, n), text) ← seconds text
  let time ← Time.ofParts? h m s n
  return (time, text)

/-- Two digits each of hours and minutes, colons and blanks between them at will. -/
def hoursMinutes : Scan Int := fun text =>
  match text with
  | a :: b :: rest =>
      match rest.dropWhile (fun c => c == ':' || isBlank c) with
      | c :: d :: after => do
          let h₁ ← digit? a
          let h₂ ← digit? b
          let m₁ ← digit? c
          let m₂ ← digit? d
          if m₁ < 6 then some ((((h₁ * 10 + h₂) * 60 + m₁ * 10 + m₂) * 60 : Nat), after)
          else none
      | _ => none
  | _ => none

/-- The minus sign proper. -/
def minusSign : Char := '\u2212'

/-- The seconds of an offset: a zero by name, or signed hours and minutes. -/
def offset : Scan Int := fun text =>
  match text with
  | [] => none
  | c :: rest =>
      if c = 'Z' ∨ c = 'z' then some (0, rest)
      else if ((c :: rest).take 3).map Char.toUpper = ['U', 'T', 'C'] then some (0, rest.drop 2)
      else if c = '+' then hoursMinutes rest
      else if c = '-' ∨ c = minusSign then
        (hoursMinutes rest).map fun (n, after) => (-n, after)
      else none

/-- Nothing may follow but blanks. -/
def only {α : Type} (s : Scan α) (text : String) : Option α := do
  let (value, rest) ← s text.toList
  if (dropBlanks rest).isEmpty then some value else none

end Scan

namespace DateTime

def ofText? : String → Option DateTime :=
  Scan.only fun text => do
    let (date, text) ← Scan.dateWithinYears text
    let (_, text) ← Scan.mark 'T' text
    let (time, text) ← Scan.time text
    return (⟨date, time⟩, text)

end DateTime

namespace OffsetDateTime

/-- Between date and time stands one `T`, `t` or space. -/
def ofText? : String → Option OffsetDateTime :=
  Scan.only fun text => do
    let (date, text) ← Scan.dateWithinYears text
    let text ←
      match text with
      | c :: rest => if c = 'T' ∨ c = 't' ∨ c = ' ' then some rest else none
      | [] => none
    let (time, text) ← Scan.time text
    let (offset, text) ← Scan.offset (dropBlanks text)
    let value ← ofParts? ⟨date, time⟩ offset
    return (value, text)

end OffsetDateTime

namespace Time

/-- The seconds may be missing. -/
def ofText? (text : String) : Option Time :=
  Scan.only
    (fun text => do
      let ((h, m), text) ← Scan.hourMinute text
      let ((s, n), text) := (Scan.seconds text).getD ((0, 0), text)
      let time ← ofParts? h m s n
      return (time, text))
    text

end Time

end QueryKey.Calendar
