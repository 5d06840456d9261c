import QueryKey.Proofs.Calendar.ReadBack
import QueryKey.Proofs.GuidText
import QueryKey.Proofs.Key.Recorded
import QueryKey.Proofs.Metadata.Identity

/-! Reading literals in front of the colon of their identity. Their first characters tell most of
them apart; a time of day and a number only differ in how many colons follow.
-/

namespace QueryKey.Key.Reader

open QueryKey.Expr QueryKey.Metadata QueryKey.Number QueryKey.Calendar QueryKey.Text

-----------------------------------------------------------------------------------------
-- Quoted texts
-----------------------------------------------------------------------------------------

/-- The characters up to the quote that closes a text, its own quotes taken once. -/
def unquote : List Char → Option (List Char × List Char)
  | [] => none
  | c :: rest =>
      if c = Quoted.mark then
        match rest with
        | d :: more =>
            if d = Quoted.mark then
              (unquote more).map fun (text, rest) => (Quoted.mark :: text, rest)
            else
              some ([], rest)
        | [] => some ([], rest)
      else
        (unquote rest).map fun (text, rest) => (c :: text, rest)

def quoted : Scan (List Char) := fun text =>
  match text with
  | c :: rest => if c = Quoted.mark then unquote rest else none
  | [] => none

/-- Encoded texts are taken back up to their closing quote, by induction on the text. -/
theorem unquote_encode (text : List Char) {rest : List Char}
    (hr : rest.head? ≠ some Quoted.mark)
    : unquote (Quoted.encode text ++ Quoted.mark :: rest) = some (text, rest) := by
  induction text with
  | nil =>
      cases rest with
      | nil => simp [Quoted.encode, unquote]
      | cons c more =>
          have hc : c ≠ Quoted.mark := by simpa using hr
          simp [Quoted.encode, unquote, hc]
  | cons c more ih =>
      by_cases hc : c = Quoted.mark
      · subst hc
        simp [Quoted.encode, unquote, ih]
      · rw [Quoted.encode, if_neg hc, List.cons_append, unquote.eq_def]
        simp [hc, ih]

/-- Quoted texts are read back in front of anything but a quote. -/
theorem quoted_quote (text : List Char) {rest : List Char} (hr : rest.head? ≠ some Quoted.mark)
    : quoted ((quote (String.ofList text)).toList ++ rest) = some (text, rest) := by
  simp only [quote, String.toList_ofList, List.cons_append, List.append_assoc, List.nil_append]
  rw [quoted, if_pos rfl, unquote_encode text hr]

-----------------------------------------------------------------------------------------
-- Numbers
-----------------------------------------------------------------------------------------

/-- Digits with at most one point among them, after a sign if there is one. -/
def number : Scan Recorded := fun text =>
  let negative := text.head? == some '-'
  let (whole, text) := takeAllDigits (if negative then text.tail else text)
  match text with
  | '.' :: rest =>
      let (places, rest) := takeAllDigits rest
      some (.number negative (ofDigits 10 (whole ++ places)) places.length, rest)
  | _ => some (.number negative (ofDigits 10 whole) 0, text)

theorem takeAllDigits_append {digits rest : List Char} (hd : ∀ c ∈ digits, isDigit c = true)
    (hr : Stops isDigit rest)
    : takeAllDigits (digits ++ rest) = (digits.map digitValue, rest) :=
  takeDigits_append hd (by simp) (.inr hr)

theorem takeAllDigits_wholeDigits (coefficient scale : Nat) {rest : List Char}
    (hr : Stops isDigit rest)
    : takeAllDigits (Decimal.wholeDigits coefficient scale ++ rest)
      = ((Decimal.wholeDigits coefficient scale).map digitValue, rest) :=
  takeAllDigits_append (fun _ => Decimal.isDigit_of_mem_wholeDigits) hr

theorem takeAllDigits_placeDigits (coefficient scale : Nat) {rest : List Char}
    (hr : Stops isDigit rest)
    : takeAllDigits (Decimal.placeDigits coefficient scale ++ rest)
      = ((Decimal.placeDigits coefficient scale).map digitValue, rest) :=
  takeAllDigits_append (fun _ => Decimal.isDigit_of_mem_placeDigits) hr

/-- Numbers are read back in front of a mark that is neither a digit nor a point. -/
theorem number_numberText (negative : Bool) (coefficient scale : Nat) {mark : Char}
    (hmark : isDigit mark = false) (hne : mark ≠ '.') (rest : List Char)
    : number (Recorded.numberText negative coefficient scale ++ mark :: rest)
      = some (.number negative coefficient scale, mark :: rest) := by
  obtain ⟨c, more, hcons, hdigit⟩ := Decimal.exists_cons_unsigned coefficient scale
  have hminus : c ≠ '-' := ne_of_isDigit hdigit rfl
  have hnegative : ((Recorded.numberText negative coefficient scale ++ mark :: rest).head?
      == some '-') = negative := by
    cases negative <;> simp [Recorded.numberText, hcons, hminus]
  have htail : (if negative
        then (Recorded.numberText negative coefficient scale ++ mark :: rest).tail
        else Recorded.numberText negative coefficient scale ++ mark :: rest)
      = Decimal.unsigned coefficient scale ++ mark :: rest := by
    cases negative <;> simp [Recorded.numberText]
  have hstops : Stops isDigit (mark :: rest) := (stops_cons ..).mpr hmark
  have hvalue : ofDigits 10 ((Decimal.wholeDigits coefficient scale).map digitValue
      ++ (Decimal.placeDigits coefficient scale).map digitValue) = coefficient := by
    rw [← List.map_append, Decimal.wholeDigits_append_placeDigits,
      ofDigits_digitValue_paddedDigits]
  by_cases hscale : scale = 0
  · subst hscale
    have hplaces : Decimal.placeDigits coefficient 0 = [] :=
      List.length_eq_zero_iff.mp (Decimal.length_placeDigits coefficient 0)
    rw [hplaces, List.map_nil, List.append_nil] at hvalue
    simp only [number, hnegative, htail, Decimal.unsigned, if_true, List.append_nil,
      takeAllDigits_wholeDigits coefficient 0 hstops, hvalue]
    split
    · next heq => exact absurd (List.cons.inj heq).1 hne
    · rfl
  · have hpoint : Stops isDigit
        ('.' :: (Decimal.placeDigits coefficient scale ++ mark :: rest)) := by
      rw [stops_cons]
      decide
    simp only [number, hnegative, htail, Decimal.unsigned, if_neg hscale, List.append_assoc,
      List.cons_append, takeAllDigits_wholeDigits coefficient scale hpoint,
      takeAllDigits_placeDigits coefficient scale hstops, hvalue, List.length_map,
      Decimal.length_placeDigits]

-----------------------------------------------------------------------------------------
-- Dates, times and identifiers
-----------------------------------------------------------------------------------------

/-- A date and a time of day, with an offset if no colon follows. -/
def dateTime : Scan Recorded := fun text => do
  let (date, text) ← Calendar.Scan.date text
  let (_, text) ← Scan.literal 'T' text
  let (time, text) ← Calendar.Scan.time text
  match text with
  | [] => none
  | c :: rest =>
      if c = ':' then some (.value (.dateTime ⟨date, time⟩), c :: rest)
      else do
        let ((hours, minutes), rest) ← Calendar.Scan.hourMinute rest
        return (.offset ⟨date, time⟩ (c == '-') (hours * 60 + minutes), rest)

def guid : Scan Recorded := fun text =>
  (Guid.ofHyphenated? (text.take 36)).map fun g => (.value (.guid g), text.drop 36)

def time : Scan Recorded := fun text =>
  (Calendar.Scan.time text).map fun (t, rest) => (.value (.time t), rest)

/-- Whether three colons follow with nothing but words between them: two for a time of day, and
the one of its identity.
-/
def isClock (text : List Char) : Bool :=
  match text.dropWhile (· != ':') with
  | [] => false
  | _ :: rest =>
      match (takeIdentity true 0 rest).2 with
      | ':' :: rest => (takeIdentity true 0 rest).2.head? == some ':'
      | _ => false

theorem stops_extendsTime_colon (rest : List Char) : Stops extendsTime (':' :: rest) := by
  rw [stops_cons]
  decide

theorem dateTime_text (t : DateTime) (rest : List Char)
    : dateTime ((t.text .nanoseconds).toList ++ ':' :: rest)
      = some (.value (.dateTime t.carried), ':' :: rest) := by
  have hd := Calendar.Scan.date_text t.date
    ('T' :: ((t.time.text .nanoseconds).toList ++ ':' :: rest))
  have ht := Calendar.Scan.time_text .nanoseconds t.time (stops_extendsTime_colon rest)
  simp only [dateTime, DateTime.toList_text, List.append_assoc, List.cons_append, hd, ht,
    Scan.literal, if_true, Option.bind_eq_bind, Option.bind_some]
  rfl

/-- Dates and times with their offset in minutes are read back. -/
theorem dateTime_offsetText (t : DateTime) (negative : Bool) {minutes : Nat} (h : minutes ≤ 1440)
    (rest : List Char)
    : dateTime ((t.text .nanoseconds).toList ++ Recorded.minutesText negative minutes ++ rest)
      = some (.offset t.carried negative minutes, rest) := by
  have hstops : Stops extendsTime (Recorded.minutesText negative minutes ++ rest) := by
    cases negative <;> simp [Recorded.minutesText, extendsTime, isDigit, digit?]
  have hd := Calendar.Scan.date_text t.date
    ('T' :: ((t.time.text .nanoseconds).toList ++ (Recorded.minutesText negative minutes ++ rest)))
  have ht := Calendar.Scan.time_text .nanoseconds t.time hstops
  have hh := Calendar.Scan.number_padded (by decide : 0 < 2) (by omega : minutes / 60 < 100)
    (':' :: (paddedDigits 10 2 (minutes % 60) ++ rest))
  have hm := Calendar.Scan.number_padded (by decide : 0 < 2) (by omega : minutes % 60 < 100) rest
  have hcolon := Calendar.Scan.mark_cons (by decide : isBlank ':' = false)
    (paddedDigits 10 2 (minutes % 60) ++ rest)
  have hsum : minutes / 60 * 60 + minutes % 60 = minutes := by omega
  simp only [dateTime, DateTime.toList_text, List.append_assoc, List.cons_append, hd, ht,
    Scan.literal, if_true, Option.bind_eq_bind, Option.bind_some]
  cases negative <;>
    simp [Recorded.minutesText, Calendar.Scan.hourMinute, hh, hm, hcolon, hsum, DateTime.carried]

theorem guid_text (g : Guid) (rest : List Char)
    : guid (g.text.toList ++ rest) = some (.value (.guid g), rest) := by
  rw [guid, List.take_left' g.length_text, List.drop_left' g.length_text, g.ofHyphenated?_text]
  rfl

theorem time_text (t : Time) (rest : List Char)
    : time ((t.text .nanoseconds).toList ++ ':' :: rest)
      = some (.value (.time t.carried), ':' :: rest) := by
  rw [time, Calendar.Scan.time_text .nanoseconds t (stops_extendsTime_colon rest)]
  rfl

-----------------------------------------------------------------------------------------
-- What follows an expression
-----------------------------------------------------------------------------------------

/-- What may follow an operand: the end of the key, a mark, or an identity and a mark. -/
inductive Closes : List Char → Prop
  | nil : Closes []
  | parenthesis (rest : List Char) : Closes (')' :: rest)
  | comma (rest : List Char) : Closes (',' :: rest)
  | colon {identity : List Char} (passes : Passes true 0 identity) (rest : List Char)
    : Closes (':' :: (identity ++ ')' :: rest))

/-- What may follow an expression: a property is read from it, or it is an operand. -/
inductive Follows : List Char → Prop
  | operand {rest : List Char} (closes : Closes rest) : Follows rest
  | property (rest : List Char) : Follows ('[' :: '.' :: ']' :: rest)

theorem takeIdentity_parenthesis (facets : Bool) (rest : List Char)
    : takeIdentity facets 0 (')' :: rest) = ([], ')' :: rest) :=
  takeIdentity_of_head (by simp; decide)

theorem takeIdentity_colon (facets : Bool) (rest : List Char)
    : takeIdentity facets 0 (':' :: rest) = ([], ':' :: rest) :=
  takeIdentity_of_head (by simp; decide)

theorem Closes.head?_ne {rest : List Char} (h : Closes rest)
    : rest.head? ≠ some '[' ∧ rest.head? ≠ some '(' := by
  cases h <;> simp

theorem Follows.head?_ne {rest : List Char} (h : Follows rest) : rest.head? ≠ some '(' := by
  cases h with
  | operand closes => exact closes.head?_ne.2
  | property rest => simp

/-- Identities end in front of what follows an expression. -/
theorem Follows.takeIdentity {rest : List Char} (h : Follows rest)
    : takeIdentity true 0 rest = ([], rest) := by
  cases h with
  | operand closes =>
      cases closes with
      | nil => rfl
      | parenthesis rest => exact takeIdentity_parenthesis true rest
      | comma rest => exact takeIdentity_of_head (by simp; decide)
      | colon passes rest => exact takeIdentity_colon true _
  | property rest => simp [Metadata.takeIdentity, isWordChar, isNameChar]

theorem dropWhile_append_mark {front : List Char} {mark : Char} (h : mark ∉ front)
    (rest : List Char)
    : (front ++ mark :: rest).dropWhile (· != mark) = mark :: rest := by
  rw [List.dropWhile_append_of_pos (by
    intro c hc
    simpa using fun heq : c = mark => h (heq ▸ hc))]
  simp

theorem isWordChar_of_mem_paddedDigits {width n : Nat} {c : Char} (h : c ∈ paddedDigits 10 width n)
    : isWordChar c = true := by
  have all : ∀ d < 10, isWordChar (Nat.digitChar d) = true := by decide
  obtain ⟨d, hd, rfl⟩ := exists_digitChar_of_mem_paddedDigits (by decide) h
  exact all d hd

theorem not_mem_paddedDigits {c : Char} (hc : isWordChar c = false) (width n : Nat)
    : c ∉ paddedDigits 10 width n := by
  intro h
  rw [isWordChar_of_mem_paddedDigits h] at hc
  cases hc

/-- A time of day has the two colons of its parts in front of that of its identity. -/
theorem isClock_time (t : Time) (rest : List Char)
    : isClock ((t.text .nanoseconds).toList ++ ':' :: rest) = true := by
  have hminute : Passes true 0 (paddedDigits 10 2 t.minute) :=
    .word fun _ => isWordChar_of_mem_paddedDigits
  have hsecond : Passes true 0 (t.shownSeconds .nanoseconds) := by
    refine .append (.word fun _ => isWordChar_of_mem_paddedDigits) (.word fun c hc => ?_)
    simp only [fractionText, padded, String.toList_append, String.toList_ofList,
      List.mem_append] at hc
    rcases hc with hc | hc
    · obtain rfl : c = '.' := by simpa using hc
      decide
    · exact isWordChar_of_mem_paddedDigits hc
  simp only [isClock, Time.toList_text, List.append_assoc, List.cons_append]
  rw [dropWhile_append_mark (not_mem_paddedDigits (by decide) 2 t.hour)]
  simp only [takeIdentity_append hminute (takeIdentity_colon true _)]
  rw [takeIdentity_append hsecond (takeIdentity_colon true rest)]
  simp

/-- A number is no time of day, whatever identity it has and whatever follows. -/
theorem isClock_number {front identity rest : List Char} (hfront : ':' ∉ front)
    (hidentity : Passes true 0 identity) (hrest : Follows rest)
    : isClock (front ++ ':' :: (identity ++ rest)) = false := by
  rw [isClock, dropWhile_append_mark hfront]
  simp only [takeIdentity_append hidentity hrest.takeIdentity]
  cases hrest with
  | operand closes =>
      cases closes with
      | colon passes rest =>
          simp [takeIdentity_append passes (takeIdentity_parenthesis true rest)]
      | _ => rfl
  | property rest => rfl

-----------------------------------------------------------------------------------------
-- Literals
-----------------------------------------------------------------------------------------

/-- A shape in a plane: its reference system, and its text up to the colon behind it. -/
def shape : Scan Recorded := fun text => do
  let (_, text) ← Scan.word "SRID=".toList text
  let (srid, text) ← number text
  let (_, text) ← Scan.literal ';' text
  match srid with
  | .number negative coefficient _ =>
      let system : Int := if negative then -coefficient else coefficient
      let wkt := String.ofList (text.takeWhile (· != ':'))
      some (.value (.geometry ⟨.ofInt system, wkt⟩), text.dropWhile (· != ':'))
  | _ => none

def literal : Scan Recorded := fun text =>
  let front := text.takeWhile (· != ':')
  if text.head? = some Quoted.mark then
    (quoted text).map fun (text, rest) => (.quoted text, rest)
  else if text.head? = some 'T' then
    (Scan.word "True".toList text).map fun (_, rest) => (.value (.boolean true), rest)
  else if text.head? = some 'F' then
    (Scan.word "False".toList text).map fun (_, rest) => (.value (.boolean false), rest)
  else if text.head? = some 'S' then shape text
  else if 'T' ∈ front then dateTime text
  else if '-' ∈ front.tail then guid text
  else if isClock text then time text
  else number text

theorem takeWhile_append_mark {front : List Char} {mark : Char} (h : mark ∉ front)
    (rest : List Char)
    : (front ++ mark :: rest).takeWhile (· != mark) = front := by
  rw [List.takeWhile_append_of_pos (by
    intro c hc
    simpa using fun heq : c = mark => h (heq ▸ hc))]
  simp

/-- The characters that tell a literal: those of quoted texts, truth values and shapes. -/
def tellsLiteral (c : Char) : Bool :=
  c == Quoted.mark || c == 'T' || c == 'F' || c == 'S'

theorem tellsLiteral_of_isDigit {c : Char} (h : isDigit c = true) : tellsLiteral c = false := by
  simp only [tellsLiteral, Bool.or_eq_false_iff, beq_eq_false_iff_ne]
  refine ⟨⟨⟨?_, ?_⟩, ?_⟩, ?_⟩ <;> exact ne_of_isDigit h rfl

/-- A literal that its first character does not tell is told by the text in front of the first
colon, and by what follows if that may be a number.
-/
theorem literal_of_front {front : List Char} (hcolon : ':' ∉ front)
    (hhead : ∃ c more, front = c :: more ∧ tellsLiteral c = false) (rest : List Char)
    : literal (front ++ ':' :: rest)
      = if 'T' ∈ front then dateTime (front ++ ':' :: rest)
        else if '-' ∈ front.tail then guid (front ++ ':' :: rest)
        else if isClock (front ++ ':' :: rest) then time (front ++ ':' :: rest)
        else number (front ++ ':' :: rest) := by
  obtain ⟨c, more, rfl, hc⟩ := hhead
  simp only [tellsLiteral, Bool.or_eq_false_iff, beq_eq_false_iff_ne] at hc
  simp only [literal, takeWhile_append_mark hcolon]
  simp [hc]

/-- The characters of dates. -/
theorem mem_dateText {d : Date} {c : Char} (h : c ∈ d.text.toList)
    : isDigit c = true ∨ c = '-' ∨ c = '+' := by
  have hdash : "-".toList = ['-'] := rfl
  have hplus : "+".toList = ['+'] := rfl
  have hyear {c : Char} (h : c ∈ (yearText d.year).toList)
      : isDigit c = true ∨ c = '-' ∨ c = '+' := by
    unfold yearText at h
    split at h
    · exact .inl (isDigit_of_mem_paddedDigits (by simpa [padded] using h))
    · rw [String.toList_append, List.mem_append] at h
      rcases h with h | h
      · split at h <;> simp_all
      · exact .inl (isDigit_of_mem_paddedDigits (by simpa [padded] using h))
  simp only [Date.text, padded, String.toList_append, String.toList_ofList, hdash,
    List.mem_append, List.mem_singleton] at h
  rcases h with (((h | h) | h) | h) | h
  · exact hyear h
  · exact .inr (.inl h)
  · exact .inl (isDigit_of_mem_paddedDigits h)
  · exact .inr (.inl h)
  · exact .inl (isDigit_of_mem_paddedDigits h)

theorem mem_unsigned {coefficient scale : Nat} {c : Char}
    (h : c ∈ Decimal.unsigned coefficient scale)
    : isDigit c = true ∨ c = '.' := by
  rw [Decimal.unsigned, List.mem_append] at h
  rcases h with h | h
  · exact .inl (Decimal.isDigit_of_mem_wholeDigits h)
  · split at h
    · cases h
    · rcases List.mem_cons.mp h with rfl | h
      · exact .inr rfl
      · exact .inl (Decimal.isDigit_of_mem_placeDigits h)

/-- The characters of identifiers. -/
theorem mem_guidText {g : Guid} {c : Char} (h : c ∈ g.text.toList)
    : c = '-' ∨ ∃ d < 16, c = Nat.digitChar d := by
  obtain ⟨a, b, d, e, f, hgrouping, htext⟩ := g.exists_text
  have hdigit {c : Char} (h : c ∈ a ++ (b ++ (d ++ (e ++ (f ++ [])))))
      : ∃ d < 16, c = Nat.digitChar d :=
    exists_digitChar_of_mem_paddedDigits (by decide) (hgrouping.eq_append ▸ h)
  simp only [htext, Guid.hyphenated, List.mem_append, List.mem_singleton, List.not_mem_nil,
    or_false] at h
  simp only [List.mem_append, List.not_mem_nil, or_false] at hdigit
  rcases h with h | h | h | h | h | h | h | h | h
  all_goals first | exact .inl h | exact .inr (hdigit (by simp [h]))

/-- Numbers are literals that are read back. -/
theorem literal_number (negative : Bool) (coefficient scale : Nat) {identity rest : List Char}
    (hidentity : Passes true 0 identity) (hrest : Follows rest)
    : literal (Recorded.numberText negative coefficient scale ++ ':' :: (identity ++ rest))
      = some (.number negative coefficient scale, ':' :: (identity ++ rest)) := by
  obtain ⟨c, more, hcons, hdigit⟩ := Decimal.exists_cons_unsigned coefficient scale
  have hunsigned (d) (hd : d ∈ c :: more) : d ≠ ':' ∧ d ≠ 'T' ∧ d ≠ '-' := by
    rcases mem_unsigned (hcons ▸ hd) with h | rfl
    · exact ⟨ne_of_isDigit h rfl, ne_of_isDigit h rfl, ne_of_isDigit h rfl⟩
    · decide
  have hchars (d) (hd : d ∈ Recorded.numberText negative coefficient scale)
      : d ≠ ':' ∧ d ≠ 'T' := by
    rw [Recorded.numberText, hcons, List.mem_append] at hd
    rcases hd with h | h
    · obtain rfl : d = '-' := by cases negative <;> simp_all
      decide
    · exact ⟨(hunsigned d h).1, (hunsigned d h).2.1⟩
  have htail : '-' ∉ (Recorded.numberText negative coefficient scale).tail := by
    intro h
    cases negative with
    | true => exact (hunsigned '-' (by simpa [Recorded.numberText, hcons] using h)).2.2 rfl
    | false =>
        have h : '-' ∈ more := by simpa [Recorded.numberText, hcons] using h
        exact (hunsigned '-' (List.mem_cons_of_mem c h)).2.2 rfl
  have hhead : ∃ d more, Recorded.numberText negative coefficient scale = d :: more
      ∧ tellsLiteral d = false := by
    cases negative with
    | true => exact ⟨'-', _, rfl, by decide⟩
    | false =>
        exact ⟨c, more, by simp [Recorded.numberText, hcons], tellsLiteral_of_isDigit hdigit⟩
  have hcolon : ':' ∉ Recorded.numberText negative coefficient scale := fun h =>
    (hchars ':' h).1 rfl
  rw [literal_of_front hcolon hhead, if_neg fun h => (hchars 'T' h).2 rfl, if_neg htail,
    isClock_number hcolon hidentity hrest, if_neg (by decide),
    number_numberText _ _ _ (by decide) (by decide)]

/-- Identifiers are literals that are read back. -/
theorem literal_guid (g : Guid) (rest : List Char)
    : literal (g.text.toList ++ ':' :: rest) = some (.value (.guid g), ':' :: rest) := by
  have hchars (c) (hc : c ∈ g.text.toList) : c ≠ ':' ∧ c ≠ 'T' ∧ tellsLiteral c = false := by
    have all : ∀ d < 16, Nat.digitChar d ≠ ':' ∧ Nat.digitChar d ≠ 'T'
      ∧ tellsLiteral (Nat.digitChar d) = false := by decide
    rcases mem_guidText hc with rfl | ⟨d, hd, rfl⟩
    · decide
    · exact all d hd
  obtain ⟨a, b, d, e, f, hgrouping, htext⟩ := g.exists_text
  have hlength := hgrouping.lengths.1
  cases a with
  | nil => cases hlength
  | cons c more =>
      have htail : '-' ∈ g.text.toList.tail := by
        simp [htext, Guid.hyphenated]
      have hhead : c ∈ g.text.toList := by
        simp [htext, Guid.hyphenated]
      have hfront : ∃ d more, g.text.toList = d :: more ∧ tellsLiteral d = false :=
        ⟨c, _, by rw [htext, Guid.hyphenated, List.cons_append], (hchars c hhead).2.2⟩
      rw [literal_of_front (fun h => (hchars ':' h).1 rfl) hfront,
        if_neg fun h => (hchars 'T' h).2.1 rfl, if_pos htail, guid_text]

/-- Times of day are literals that are read back. -/
theorem literal_time (t : Time) (rest : List Char)
    : literal ((t.text .nanoseconds).toList ++ ':' :: rest)
      = some (.value (.time t.carried), ':' :: rest) := by
  have hread := time_text t rest
  have hclock := isClock_time t rest
  obtain ⟨c, more, hcons, hdigit⟩ := exists_cons_paddedDigits 2 t.hour
  have hhead : ∃ c more, paddedDigits 10 2 t.hour = c :: more ∧ tellsLiteral c = false :=
    ⟨c, more, hcons, tellsLiteral_of_isDigit hdigit⟩
  have hT : 'T' ∉ paddedDigits 10 2 t.hour := fun h =>
    ne_of_isDigit (isDigit_of_mem_paddedDigits h) rfl rfl
  have hminus : '-' ∉ (paddedDigits 10 2 t.hour).tail := fun h =>
    ne_of_isDigit (isDigit_of_mem_paddedDigits (List.mem_of_mem_tail h)) rfl rfl
  simp only [Time.toList_text, List.append_assoc, List.cons_append] at hread hclock ⊢
  rw [literal_of_front (not_mem_paddedDigits (by decide) 2 t.hour) hhead, if_neg hT, if_neg hminus,
    if_pos hclock, hread]

/-- Whatever starts with a date is read as one. -/
theorem literal_date (d : Date) (rest : List Char)
    : literal (d.text.toList ++ 'T' :: rest) = dateTime (d.text.toList ++ 'T' :: rest) := by
  have hchars (c) (hc : c ∈ d.text.toList) : c ≠ ':' ∧ tellsLiteral c = false := by
    rcases mem_dateText hc with h | rfl | rfl
    · exact ⟨ne_of_isDigit h rfl, tellsLiteral_of_isDigit h⟩
    · decide
    · decide
  have hne : d.text.toList ≠ [] := by
    simp [Date.text]
  obtain ⟨c, more, hcons⟩ := List.exists_cons_of_ne_nil hne
  have hT : 'T' ∈ (d.text.toList ++ 'T' :: rest).takeWhile (· != ':') := by
    rw [List.takeWhile_append_of_pos fun c hc => by simpa using (hchars c hc).1]
    simp
  have htold := (hchars c (by simp [hcons])).2
  simp only [tellsLiteral, Bool.or_eq_false_iff, beq_eq_false_iff_ne] at htold
  simp only [literal, if_pos hT]
  simp [hcons, htold]

theorem word_append (w rest : List Char) : Scan.word w (w ++ rest) = some ((), rest) := by
  induction w with
  | nil => rfl
  | cons c more ih => simp [Scan.word, Scan.literal, ih]

/-- Quoted texts are literals that are read back. -/
theorem literal_quote (text rest : List Char)
    : literal ((quote (String.ofList text)).toList ++ ':' :: rest)
      = some (.quoted text, ':' :: rest) := by
  have hhead : ((quote (String.ofList text)).toList ++ ':' :: rest).head? = some Quoted.mark := by
    simp [quote]
  rw [literal, if_pos hhead, quoted_quote text (by simp; decide)]
  rfl

theorem literal_boolean (b : Bool) (rest : List Char)
    : literal ((if b then "True" else "False").toList ++ rest)
      = some (.value (.boolean b), rest) := by
  have hmark : Quoted.mark ≠ 'T' ∧ Quoted.mark ≠ 'F' := by decide
  cases b with
  | true =>
      have hread := word_append "True".toList rest
      have hhead : ("True".toList ++ rest).head? = some 'T' := rfl
      simp only [literal, if_true, hhead, Option.some.injEq, hmark.1.symm, if_false, hread]
      rfl
  | false =>
      have hread := word_append "False".toList rest
      have hhead : ("False".toList ++ rest).head? = some 'F' := rfl
      simp only [literal, Bool.false_eq_true, if_true, hhead, Option.some.injEq, hmark.2.symm,
        if_false, hread]
      rfl

/-- The text of a shape: its reference system and its own text between marks. -/
theorem toList_shapeText (s : Spatial)
    : (Recorded.ofPayload (.geometry s)).text
      = "SRID=".toList ++ (Recorded.numberText (s.srid.toInt < 0) s.srid.toInt.natAbs 0
        ++ ';' :: s.wkt.toList) := by
  have htext : (Recorded.ofPayload (.geometry s)).text = (Literal.spatialText s).toList := rfl
  have hmark : ";".toList = [';'] := rfl
  rw [htext, Literal.spatialText, String.toList_append, String.toList_append, String.toList_append,
    toList_toString_ofInt, hmark, List.append_assoc, List.append_assoc]
  rfl

/-- Shapes are literals that are read back up to the first colon. -/
theorem literal_shape {s : Spatial} (h : ':' ∉ s.wkt.toList) (rest : List Char)
    : literal ((Recorded.ofPayload (.geometry s)).text ++ ':' :: rest)
      = some (.value (.geometry s), ':' :: rest) := by
  have hsystem : Int32.ofInt
      (if decide (s.srid.toInt < 0) = true then -(s.srid.toInt.natAbs : Int)
        else s.srid.toInt.natAbs) = s.srid := by
    have hsign : (if decide (s.srid.toInt < 0) = true then -(s.srid.toInt.natAbs : Int)
        else s.srid.toInt.natAbs) = s.srid.toInt := by
      simp only [decide_eq_true_eq]
      omega
    rw [hsign, Int32.ofInt_toInt]
  have hread : shape ((Recorded.ofPayload (.geometry s)).text ++ ':' :: rest)
      = some (.value (.geometry s), ':' :: rest) := by
    rw [toList_shapeText]
    simp only [shape, List.append_assoc, List.cons_append, word_append, Option.bind_eq_bind,
      Option.bind_some, number_numberText _ _ 0 (by decide : isDigit ';' = false) (by decide),
      Scan.literal, if_true, takeWhile_append_mark h, dropWhile_append_mark h, hsystem,
      String.ofList_toList]
  have hhead : ((Recorded.ofPayload (.geometry s)).text ++ ':' :: rest).head? = some 'S' := by
    rw [toList_shapeText]
    rfl
  have hmark : some 'S' ≠ some Quoted.mark := by decide
  rw [literal, hhead, if_neg hmark, if_neg (by decide), if_neg (by decide), if_pos rfl, hread]

/-- Literals are read back in front of the colon of their identity, whatever follows that, if that
is the first colon that is not quoted.
-/
theorem literal_text {payload : Payload} {kind : Primitive} {text : String}
    (h : Literal.payloadText? kind payload = some text) (hlegible : payload.IsLegible)
    (hflat : payload.IsFlat) {identity rest : List Char} (hidentity : Passes true 0 identity)
    (hrest : Follows rest)
    : literal ((Recorded.ofPayload payload).text ++ ':' :: (identity ++ rest))
      = some (.ofPayload payload, ':' :: (identity ++ rest)) := by
  cases payload with
  | binary bytes => exact literal_quote _ _
  | string text => exact literal_quote _ _
  | byte n | sbyte n | int16 n | int32 n | int64 n | decimal d =>
      exact literal_number _ _ _ hidentity hrest
  | boolean b => exact literal_boolean b _
  | guid g => exact literal_guid g _
  | time t =>
      rw [text_time]
      exact literal_time t _
  | dateTime t =>
      have hread := dateTime_text t (identity ++ rest)
      rw [text_dateTime]
      rw [DateTime.toList_text, List.append_assoc, List.cons_append] at hread ⊢
      rw [literal_date, hread]
      rfl
  | dateTimeOffset t =>
      have hlimit := t.offset_lt
      have hread := dateTime_offsetText t.localTime (t.offset < 0)
        (by omega : (t.offset.natAbs + 30) / 60 ≤ 1440) (':' :: (identity ++ rest))
      simp only [Recorded.ofPayload, Recorded.text, DateTime.text_carried]
      rw [DateTime.toList_text, List.append_assoc, List.append_assoc, List.cons_append] at hread ⊢
      rw [literal_date, hread]
  | geometry s => exact literal_shape hlegible _
  | geography s => cases hflat
  | hierarchyId path => cases kind <;> cases h
  | single value | double value => cases hlegible

end QueryKey.Key.Reader
