import Mathlib.Data.List.Basic
import QueryKey.Proofs.Key.LiteralReader

/-! What literals lose. Payloads that fit one kind and have the same literal are the same, unless
their times differ by being in a leap second within a minute: the texts are read back, and a key
records of them all else that the kind does not tell.
-/

-----------------------------------------------------------------------------------------
-- Payloads that fit a kind
-----------------------------------------------------------------------------------------

namespace QueryKey.Expr.Payload

open QueryKey.Metadata

/-- Offsets are in whole minutes. -/
def HasWholeMinutes : Payload → Prop
  | dateTimeOffset t => t.offset % 60 = 0
  | _ => True

/-- The natural kind of the payloads that fit a kind; all shapes of a family are held alike. -/
def heldKind (kind : Primitive) : Primitive :=
  if kind.isGeometry then .geometry else if kind.isGeography then .geography else kind

theorem naturalKind_of_fits {payload : Payload} {kind : Primitive}
    (h : payload.fits kind = true)
    : payload.naturalKind = heldKind kind := by
  cases payload with
  | geometry shape =>
      have hplanar : kind.isGeometry = true := h
      rw [heldKind, if_pos hplanar, naturalKind]
  | geography shape =>
      have hglobal : kind.isGeography = true := h
      have hplanar : kind.isGeometry = false := by
        cases kind <;> first | rfl | cases h
      rw [heldKind, hplanar, if_neg Bool.false_ne_true, if_pos hglobal, naturalKind]
  | _ =>
      obtain rfl := eq_of_beq h
      rfl

/-- Payloads that fit a kind are floats or shapes, or have an exact text. -/
theorem isExact_of_fits {payload : Payload} {kind : Primitive} (h : payload.fits kind = true)
    (hfloat : kind ≠ .single ∧ kind ≠ .double)
    : payload.isExact = true ∨ ∃ shape, payload = geometry shape ∨ payload = geography shape := by
  cases payload with
  | single value => exact absurd (eq_of_beq h).symm hfloat.1
  | double value => exact absurd (eq_of_beq h).symm hfloat.2
  | geometry shape => exact .inr ⟨shape, .inl rfl⟩
  | geography shape => exact .inr ⟨shape, .inr rfl⟩
  | _ => exact .inl rfl

theorem isExact_congr {v w : Payload} (h : v.naturalKind = w.naturalKind)
    : v.isExact = w.isExact := by
  cases v <;> cases w <;> first | rfl | cases h

end QueryKey.Expr.Payload

namespace QueryKey.Key

open QueryKey.Expr QueryKey.Metadata QueryKey.Calendar QueryKey.Text

-----------------------------------------------------------------------------------------
-- What is recorded
-----------------------------------------------------------------------------------------

namespace Recorded

/-- The digits of a byte tell it. -/
theorem byte_eq_of_digits_eq {a b : UInt8}
    (h : (paddedDigits 16 2 a.toNat).map Char.toUpper
      = (paddedDigits 16 2 b.toNat).map Char.toUpper)
    : a = b := by
  have hvalue (d) (hd : d < 16) : (hexValue ∘ Char.toUpper) (Nat.digitChar d) = d := by
    have all : ∀ d < 16, (hexValue ∘ Char.toUpper) (Nat.digitChar d) = d := by decide
    exact all d hd
  have hread := congrArg (fun digits => ofDigits 16 (digits.map hexValue)) h
  simp only [List.map_map, ofDigits_paddedDigits (by decide : 1 < 16) _ hvalue] at hread
  exact UInt8.toNat_inj.mp hread

/-- Two digits for each byte tell the bytes, by induction on both lists. -/
theorem hexDigits_injective {front back : List UInt8} (h : hexDigits front = hexDigits back)
    : front = back := by
  have hlength (b : UInt8) : ((paddedDigits 16 2 b.toNat).map Char.toUpper).length = 2 := by
    have hbound : b.toNat < Nat.pow 16 2 := b.toNat_lt
    rw [List.length_map, length_paddedDigits (by decide) (by decide) hbound]
  have hne (b : UInt8) (rest : List UInt8) : hexDigits (b :: rest) ≠ hexDigits [] := by
    simp [hexDigits, paddedDigits_ne_nil]
  induction front generalizing back with
  | nil =>
      cases back with
      | nil => rfl
      | cons b back => exact absurd h.symm (hne b back)
  | cons a front ih =>
      cases back with
      | nil => exact absurd h (hne a front)
      | cons b back =>
          simp only [hexDigits, List.flatMap_cons] at h
          obtain ⟨hbyte, hrest⟩ := List.append_inj h (by rw [hlength, hlength])
          rw [byte_eq_of_digits_eq hbyte, ih hrest]

theorem ofInt_injective {m n : Int} (h : ofInt m = ofInt n) : m = n := by
  simp only [ofInt, number.injEq, decide_eq_decide] at h
  omega

end Recorded

/-- A sign and whole minutes tell the offset. -/
theorem offset_eq_of_minutes_eq {s t : OffsetDateTime} (hs : s.offset % 60 = 0)
    (ht : t.offset % 60 = 0) (hsign : s.offset < 0 ↔ t.offset < 0)
    (hminutes : (s.offset.natAbs + 30) / 60 = (t.offset.natAbs + 30) / 60)
    : s.offset = t.offset := by
  omega

/-- What is recorded of payloads of one natural kind tells their carried forms, case by case. -/
theorem carried_eq_of_ofPayload_eq {v w : Payload} (hkind : v.naturalKind = w.naturalKind)
    (hv : v.HasWholeMinutes) (hw : w.HasWholeMinutes)
    (h : Recorded.ofPayload v = Recorded.ofPayload w)
    : v.carried = w.carried := by
  cases v <;> cases w <;> try cases hkind
  case binary.binary a b => rw [Recorded.hexDigits_injective (Recorded.quoted.inj h)]
  case string.string s t => rw [String.toList_injective (Recorded.quoted.inj h)]
  case byte.byte m n =>
    have hvalue : (m.toNat : Int) = n.toNat := Recorded.ofInt_injective h
    rw [UInt8.toNat_inj.mp (Int.ofNat_inj.mp hvalue)]
  case sbyte.sbyte m n => rw [Int8.toInt_inj.mp (Recorded.ofInt_injective h)]
  case int16.int16 m n => rw [Int16.toInt_inj.mp (Recorded.ofInt_injective h)]
  case int32.int32 m n => rw [Int32.toInt_inj.mp (Recorded.ofInt_injective h)]
  case int64.int64 m n => rw [Int64.toInt_inj.mp (Recorded.ofInt_injective h)]
  case decimal.decimal d e =>
    obtain ⟨hnegative, hcoefficient, hscale⟩ := Recorded.number.inj h
    cases d
    cases e
    simp_all
  case dateTimeOffset.dateTimeOffset s t =>
    obtain ⟨hlocal, hsign, hminutes⟩ := Recorded.offset.inj h
    have hoffset := offset_eq_of_minutes_eq hv hw (decide_eq_decide.mp hsign) hminutes
    simp only [Payload.carried, OffsetDateTime.carried, hlocal, hoffset]
  all_goals exact Recorded.value.inj h

-----------------------------------------------------------------------------------------
-- What the text tells
-----------------------------------------------------------------------------------------

/-- Payloads with an exact text are recorded alike if their literals are the same. -/
theorem ofPayload_eq_of_text_eq {v w : Payload} {kind : Primitive} {text : String}
    (hv : Literal.payloadText? kind v = some text) (hw : Literal.payloadText? kind w = some text)
    (hvexact : v.isExact = true) (hwexact : w.isExact = true)
    : Recorded.ofPayload v = Recorded.ofPayload w := by
  have hvread := Reader.literal_text hv (Payload.isLegible_of_isExact hvexact)
    (Payload.isFlat_of_isExact hvexact) .nil (.operand .nil)
  have hwread := Reader.literal_text hw (Payload.isLegible_of_isExact hwexact)
    (Payload.isFlat_of_isExact hwexact) .nil (.operand .nil)
  rw [← toList_payloadText? hv] at hvread
  rw [← toList_payloadText? hw, hvread] at hwread
  exact (Prod.mk.inj (Option.some.inj hwread)).1

/-- A shape is all that stands in its text: the system ends at the first semicolon, and everything
behind it is the shape's own text.
-/
theorem spatialText_injective {s t : Spatial}
    (h : Literal.spatialText s = Literal.spatialText t)
    : s = t := by
  have htext (s : Spatial) : (Literal.spatialText s).toList
      = "SRID=".toList ++ ((Recorded.ofInt s.srid.toInt).text ++ ';' :: s.wkt.toList) :=
    Reader.toList_shapeText s
  have hlists := congrArg String.toList h
  rw [htext, htext] at hlists
  have hread := congrArg Reader.number (List.append_cancel_left hlists)
  simp only [Recorded.ofInt, Recorded.text] at hread
  rw [Reader.number_numberText _ _ 0 (by decide) (by decide),
    Reader.number_numberText _ _ 0 (by decide) (by decide)] at hread
  obtain ⟨hsystem, hwkt⟩ := Prod.mk.inj (Option.some.inj hread)
  have hsrid : s.srid = t.srid := Int32.toInt_inj.mp (Recorded.ofInt_injective hsystem)
  have hwkt : s.wkt = t.wkt := String.toList_injective (List.cons.inj hwkt).2
  cases s
  cases t
  simp_all

/-- Payloads that fit one kind and have one text have the same carried form. -/
theorem carried_eq_of_payloadText?_eq {v w : Payload} {kind : Primitive} {text : String}
    (hfloat : kind ≠ .single ∧ kind ≠ .double) (hvfits : v.fits kind = true)
    (hwfits : w.fits kind = true) (hvminutes : v.HasWholeMinutes) (hwminutes : w.HasWholeMinutes)
    (hv : Literal.payloadText? kind v = some text) (hw : Literal.payloadText? kind w = some text)
    : v.carried = w.carried := by
  have hkind : v.naturalKind = w.naturalKind := by
    rw [Payload.naturalKind_of_fits hvfits, Payload.naturalKind_of_fits hwfits]
  rcases Payload.isExact_of_fits hvfits hfloat with hvexact | ⟨shape, rfl | rfl⟩
  · have hwexact : w.isExact = true := Payload.isExact_congr hkind ▸ hvexact
    have hrecorded := ofPayload_eq_of_text_eq hv hw hvexact hwexact
    exact carried_eq_of_ofPayload_eq hkind hvminutes hwminutes hrecorded
  all_goals
    cases w <;> try cases hkind
    next other =>
      have htext : Literal.spatialText shape = Literal.spatialText other :=
        String.toList_injective ((toList_payloadText? hv).symm.trans (toList_payloadText? hw))
      rw [spatialText_injective htext]

-----------------------------------------------------------------------------------------
-- Literals
-----------------------------------------------------------------------------------------

/-- A constant is written like the one with its time carried. -/
theorem append_carried (key : String) (payload : Payload) (usage : TypeUsage)
    : Literal.append key payload.carried usage = Literal.append key payload usage := by
  have hname : payload.carried.shapeName = payload.shapeName := by
    cases payload <;> rfl
  simp only [Literal.append_eq_map_text, Literal.text, payloadText?_carried, hname]

theorem exists_text_of_append {key result : String} {payload : Payload} {usage : TypeUsage}
    (h : Literal.append key payload usage = .ok result)
    : ∃ text, Literal.text payload usage = .ok text ∧ result = key ++ text ++ ":" ++ usage.identity
    := by
  rw [Literal.append_eq_map_text] at h
  cases htext : Literal.text payload usage with
  | error failure =>
      rw [htext] at h
      cases h
  | ok text =>
      rw [htext] at h
      exact ⟨text, rfl, (Except.ok.inj h).symm⟩

theorem carried_eq_of_append_eq {usage : TypeUsage} {kind : Primitive} {v w : Payload}
    {key result : String} (hkind : usage.type.scalarKind? = some kind)
    (hfloat : kind ≠ .single ∧ kind ≠ .double)
    (hvfits : v.fits kind = true) (hwfits : w.fits kind = true)
    (hvminutes : v.HasWholeMinutes) (hwminutes : w.HasWholeMinutes)
    (hv : Literal.append key v usage = .ok result) (hw : Literal.append key w usage = .ok result)
    : v.carried = w.carried := by
  obtain ⟨vtext, hvtext, rfl⟩ := exists_text_of_append hv
  obtain ⟨wtext, hwtext, heq⟩ := exists_text_of_append hw
  have htext : vtext = wtext := by
    have hlists := congrArg String.toList heq
    simp only [String.toList_append, List.append_assoc, List.append_cancel_left_eq,
      List.append_cancel_right_eq] at hlists
    exact String.toList_injective hlists
  subst htext
  have hpayload {payload : Payload} (h : Literal.text payload usage = .ok vtext)
      : Literal.payloadText? kind payload = some vtext := by
    obtain ⟨other, hother, htext⟩ := exists_payloadText? h
    rw [hkind] at hother
    rwa [Option.some.inj hother]
  exact carried_eq_of_payloadText?_eq hfloat hvfits hwfits hvminutes hwminutes (hpayload hvtext)
    (hpayload hwtext)

/-- A constant tells its payload, but for leap seconds within a minute: of the payloads that fit the
kind of a type, floats apart, two are written alike exactly if they are the same with their times
carried. So no two are written alike whose leap seconds, if any, end their minutes.
-/
theorem append_eq_iff_carried_eq {usage : TypeUsage} {kind : Primitive} {v w : Payload}
    {key result other : String} (hkind : usage.type.scalarKind? = some kind)
    (hfloat : kind ≠ .single ∧ kind ≠ .double)
    (hvfits : v.fits kind = true) (hwfits : w.fits kind = true)
    (hvminutes : v.HasWholeMinutes) (hwminutes : w.HasWholeMinutes)
    (hv : Literal.append key v usage = .ok result) (hw : Literal.append key w usage = .ok other)
    : (result = other ↔ v.carried = w.carried)
      ∧ (v.IsRegular → w.IsRegular → result = other → v = w) := by
  have htells (h : result = other) : v.carried = w.carried := by
    subst h
    exact carried_eq_of_append_eq hkind hfloat hvfits hwfits hvminutes hwminutes hv hw
  constructor
  · constructor
    · exact htells
    · intro hcarried
      rw [← append_carried, hcarried, append_carried, hw] at hv
      exact (Except.ok.inj hv).symm
  · intro hvregular hwregular h
    have hcarried := htells h
    rwa [Payload.carried_eq_self hvregular, Payload.carried_eq_self hwregular] at hcarried

/-- The last second of a year before the year 0, five and a half hours in the west, and the leap
second behind it.
-/
def earlyLastSecond : OffsetDateTime :=
  ⟨⟨⟨-43, 12, 31, by decide⟩, ⟨23, 59, 59, 5, by decide⟩⟩, -19800, by decide⟩

def earlyLeapSecond : OffsetDateTime :=
  ⟨⟨⟨-43, 12, 31, by decide⟩, ⟨23, 59, 59, 1000000005, by decide⟩⟩, -19800, by decide⟩

/-- The leap second and the second before it are told apart, and no other regular time has the
literal of the leap second.
-/
theorem append_earlyLeapSecond
    : (∃ result other,
        Literal.append "" (.dateTimeOffset earlyLeapSecond) (.primitive .dateTimeOffset)
            = .ok result
          ∧ Literal.append "" (.dateTimeOffset earlyLastSecond) (.primitive .dateTimeOffset)
            = .ok other
          ∧ result ≠ other)
      ∧ Literal.append "" (.dateTimeOffset earlyLeapSecond) (.primitive .dateTimeOffset)
        = .ok "-0043-12-31T23:59:60.000000005-05:30:Edm.DateTimeOffset"
      ∧ ∀ t : OffsetDateTime, t.offset % 60 = 0 → t.IsRegular
        → Literal.append "" (.dateTimeOffset t) (.primitive .dateTimeOffset)
          = .ok "-0043-12-31T23:59:60.000000005-05:30:Edm.DateTimeOffset"
        → t = earlyLeapSecond := by
  have hleap : Literal.append "" (.dateTimeOffset earlyLeapSecond) (.primitive .dateTimeOffset)
      = .ok "-0043-12-31T23:59:60.000000005-05:30:Edm.DateTimeOffset" := by
    decide +kernel
  have hlast : Literal.append "" (.dateTimeOffset earlyLastSecond) (.primitive .dateTimeOffset)
      = .ok "-0043-12-31T23:59:59.000000005-05:30:Edm.DateTimeOffset" := by
    decide +kernel
  have hkind : (TypeUsage.primitive .dateTimeOffset).type.scalarKind? = some .dateTimeOffset := rfl
  have hregular : (Payload.dateTimeOffset earlyLeapSecond).IsRegular := fun _ => rfl
  have hleapMinutes : (Payload.dateTimeOffset earlyLeapSecond).HasWholeMinutes := rfl
  refine ⟨⟨_, _, hleap, hlast, fun heq => ?_⟩, hleap, fun t hminutes htregular ht => ?_⟩
  · have hlastMinutes : (Payload.dateTimeOffset earlyLastSecond).HasWholeMinutes := rfl
    have hsame := (append_eq_iff_carried_eq hkind (by decide) rfl rfl hleapMinutes hlastMinutes
      hleap hlast).2 hregular (fun _ => rfl) heq
    exact absurd hsame (by decide +kernel)
  · have htMinutes : (Payload.dateTimeOffset t).HasWholeMinutes := hminutes
    have hsame := (append_eq_iff_carried_eq hkind (by decide) rfl rfl htMinutes hleapMinutes
      ht hleap).2 htregular hregular rfl
    exact Payload.dateTimeOffset.inj hsame

/-- One and a half seconds after half past eight, in a leap second and in an ordinary one. -/
def leapAfterHalfPast : Time := ⟨8, 30, 0, 1500000000, by decide⟩

def secondAfterHalfPast : Time := ⟨8, 30, 1, 500000000, by decide⟩

/-- A leap second within a minute and the second that is shown like it are different times of the
same kind, with the same literal.
-/
theorem append_leapAfterHalfPast
    : (TypeUsage.primitive .time).type.scalarKind? = some .time
      ∧ (Payload.time leapAfterHalfPast).fits .time = true
      ∧ (Payload.time secondAfterHalfPast).fits .time = true
      ∧ (Payload.time leapAfterHalfPast).HasWholeMinutes
      ∧ (Payload.time secondAfterHalfPast).HasWholeMinutes
      ∧ Literal.append "" (.time leapAfterHalfPast) (.primitive .time)
        = .ok "08:30:01.500000000:Edm.Time"
      ∧ Literal.append "" (.time secondAfterHalfPast) (.primitive .time)
        = .ok "08:30:01.500000000:Edm.Time"
      ∧ Payload.time leapAfterHalfPast ≠ .time secondAfterHalfPast := by
  refine ⟨rfl, rfl, rfl, trivial, trivial, ?_, ?_, ?_⟩ <;> decide +kernel

end QueryKey.Key
