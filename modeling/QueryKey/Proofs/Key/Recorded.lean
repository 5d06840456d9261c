import QueryKey.Key.Literal
import QueryKey.Proofs.Calendar.LeapSeconds
import QueryKey.Proofs.Number.DecimalText

/-! What the literal of a constant tells about its payload. Numbers are written alike whatever
their kinds, bytes like a text of their digits, offsets in whole minutes, and leap seconds within a
minute like the seconds behind them.
-/

namespace QueryKey.Expr

/-- Times that are in a leap second, if at all, at the end of a minute. -/
def Payload.IsRegular : Payload → Prop
  | dateTime t => t.IsRegular
  | dateTimeOffset t => t.IsRegular
  | time t => t.IsRegular
  | _ => True

/-- The payload with its time carried out of a leap second within a minute. -/
def Payload.carried : Payload → Payload
  | dateTime t => dateTime t.carried
  | dateTimeOffset t => dateTimeOffset t.carried
  | time t => time t.carried
  | payload => payload

theorem Payload.carried_eq_self {payload : Payload} (h : payload.IsRegular)
    : payload.carried = payload := by
  cases payload with
  | dateTime t => rw [carried, Calendar.DateTime.carried_eq_self h]
  | dateTimeOffset t => rw [carried, Calendar.OffsetDateTime.carried_eq_self h]
  | time t => rw [carried, Calendar.Time.carried_eq_self h]
  | _ => rfl

theorem Payload.naturalKind_carried (payload : Payload)
    : payload.carried.naturalKind = payload.naturalKind := by
  cases payload <;> rfl

/-- The payloads that are neither floats nor shapes. -/
def Payload.isExact : Payload → Bool
  | single _ | double _ | geometry _ | geography _ => false
  | _ => true

/-- The payloads with an exact text, and shapes without the colon that stands behind their text. -/
def Payload.IsLegible : Payload → Prop
  | geometry s | geography s => ':' ∉ s.wkt.toList
  | payload => payload.isExact = true

/-- Whether the payload is no shape on the globe; such shapes are written like those in a plane. -/
def Payload.IsFlat : Payload → Prop
  | geography _ => False
  | _ => True

theorem Payload.isLegible_of_isExact {payload : Payload} (h : payload.isExact = true)
    : payload.IsLegible := by
  cases payload with
  | single value | double value | geometry shape | geography shape => cases h
  | _ => exact h

theorem Payload.isFlat_of_isExact {payload : Payload} (h : payload.isExact = true)
    : payload.IsFlat := by
  cases payload with
  | geography shape => cases h
  | _ => trivial

end QueryKey.Expr

namespace QueryKey.Key

open QueryKey.Expr QueryKey.Metadata QueryKey.Number QueryKey.Calendar QueryKey.Text

/-- A payload as far as a key tells it. -/
inductive Recorded where
  | quoted (text : List Char)
  | number (negative : Bool) (coefficient scale : Nat)
  | offset (localTime : DateTime) (negative : Bool) (minutes : Nat)
  | value (payload : Payload)
deriving DecidableEq

namespace Recorded

/-- A whole number. -/
def ofInt (n : Int) : Recorded :=
  number (n < 0) n.natAbs 0

/-- The digits of bytes, two for each. -/
def hexDigits (bytes : List UInt8) : List Char :=
  bytes.flatMap fun b => (paddedDigits 16 2 b.toNat).map Char.toUpper

def ofPayload : Payload → Recorded
  | .binary bytes => quoted (hexDigits bytes)
  | .string text => quoted text.toList
  | .byte n => ofInt n.toNat
  | .sbyte n => ofInt n.toInt
  | .int16 n => ofInt n.toInt
  | .int32 n => ofInt n.toInt
  | .int64 n => ofInt n.toInt
  | .decimal d => number d.negative d.coefficient d.scale
  | .dateTimeOffset t => offset t.localTime.carried (t.offset < 0) ((t.offset.natAbs + 30) / 60)
  | payload => value payload.carried

def numberText (negative : Bool) (coefficient scale : Nat) : List Char :=
  (if negative then ['-'] else []) ++ Decimal.unsigned coefficient scale

def minutesText (negative : Bool) (minutes : Nat) : List Char :=
  (if negative then '-' else '+') ::
    (paddedDigits 10 2 (minutes / 60) ++ ':' :: paddedDigits 10 2 (minutes % 60))

/-- The literal for what is recorded. -/
def text : Recorded → List Char
  | quoted text => (quote (String.ofList text)).toList
  | number negative coefficient scale => numberText negative coefficient scale
  | offset localTime negative minutes =>
      (localTime.text .nanoseconds).toList ++ minutesText negative minutes
  | value payload => ((Literal.payloadText? payload.naturalKind payload).getD "").toList

end Recorded

-----------------------------------------------------------------------------------------
-- Literals of payloads
-----------------------------------------------------------------------------------------

/-- A natural number is written as its digits. -/
theorem unsigned_zero (n : Nat) : Decimal.unsigned n 0 = Nat.toDigits 10 n := by
  have hlength : 0 < (Nat.toDigits 10 n).length := List.length_pos_iff.mpr Nat.toDigits_ne_nil
  have hpadding : 1 - (Nat.toDigits 10 n).length = 0 := by omega
  have hdigits : paddedDigits 10 1 n = Nat.toDigits 10 n := by
    rw [paddedDigits, hpadding, List.replicate_zero, List.nil_append]
  simp only [Decimal.unsigned, Decimal.wholeDigits, Nat.zero_add, Nat.sub_zero, hdigits,
    List.take_length, if_true, List.append_nil]

theorem toList_toString_ofInt (n : Int) : (toString n).toList = (Recorded.ofInt n).text := by
  rw [toList_toString_int, Recorded.ofInt, Recorded.text, Recorded.numberText, unsigned_zero]
  simp

/-- A payload is written like the one with its time carried. -/
theorem payloadText?_carried (kind : Primitive) (payload : Payload)
    : Literal.payloadText? kind payload.carried = Literal.payloadText? kind payload := by
  cases payload with
  | dateTime t | dateTimeOffset t | time t =>
      cases kind <;> first | exact congrArg some (t.text_carried .nanoseconds) | rfl
  | _ => rfl

/-- The literal of a payload tells what is recorded of it, whichever kind is declared. -/
theorem toList_payloadText? {kind : Primitive} {payload : Payload} {text : String}
    (h : Literal.payloadText? kind payload = some text)
    : text.toList = (Recorded.ofPayload payload).text := by
  have hnatural : Literal.payloadText? payload.naturalKind payload = some text := by
    cases payload <;> cases kind <;> first | exact h | cases h
  cases payload with
  | binary bytes =>
      cases hnatural
      rfl
  | string text =>
      cases hnatural
      simp [Recorded.ofPayload, Recorded.text]
  | byte n =>
      cases hnatural
      exact toList_toString_ofInt n.toNat
  | sbyte n | int16 n | int32 n | int64 n =>
      cases hnatural
      exact toList_toString_ofInt n.toInt
  | decimal d =>
      cases hnatural
      exact d.toList_text
  | dateTimeOffset t =>
      cases hnatural
      by_cases hneg : t.offset < 0 <;>
        simp [OffsetDateTime.text, offsetText, Recorded.ofPayload, Recorded.text,
          DateTime.text_carried, Recorded.minutesText, padded, hneg]
  | _ =>
      simp [Recorded.ofPayload, Recorded.text, payloadText?_carried, Payload.naturalKind_carried,
        hnatural]

theorem text_dateTime (t : DateTime)
    : (Recorded.ofPayload (.dateTime t)).text = (t.text .nanoseconds).toList := by
  have htext : Literal.payloadText? .dateTime (.dateTime t) = some (t.text .nanoseconds) := rfl
  exact (toList_payloadText? htext).symm

theorem text_time (t : Time)
    : (Recorded.ofPayload (.time t)).text = (t.text .nanoseconds).toList := by
  have htext : Literal.payloadText? .time (.time t) = some (t.text .nanoseconds) := rfl
  exact (toList_payloadText? htext).symm

theorem exists_payloadText? {payload : Payload} {usage : TypeUsage} {text : String}
    (h : Literal.text payload usage = .ok text)
    : ∃ kind, usage.type.scalarKind? = some kind
        ∧ Literal.payloadText? kind payload = some text := by
  unfold Literal.text at h
  split at h
  · cases h
  · next kind hkind =>
      split at h
      · next htext =>
          cases h
          exact ⟨kind, hkind, htext⟩
      · cases h

/-- The literal of a constant tells what is recorded of its payload. -/
theorem toList_literal {payload : Payload} {usage : TypeUsage} {text : String}
    (h : Literal.text payload usage = .ok text)
    : text.toList = (Recorded.ofPayload payload).text := by
  obtain ⟨kind, -, htext⟩ := exists_payloadText? h
  exact toList_payloadText? htext

end QueryKey.Key
