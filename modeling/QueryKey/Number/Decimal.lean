import QueryKey.Number.Power
import QueryKey.Text.Digits

/-! Decimals: a sign, a coefficient of 96 bits and up to 28 decimal places, which are part of the
value and kept when it is written.
-/

namespace QueryKey.Number

/-- The number `± coefficient / 10 ^ scale`. -/
structure Decimal where
  negative : Bool
  coefficient : Nat
  scale : Nat
  coefficient_lt : coefficient < twoTo 96 := by decide
  scale_le : scale ≤ 28 := by decide
deriving DecidableEq

namespace Decimal

/-- A decimal if its parts are in range, in which a zero is not negative. -/
def ofParts? (negative : Bool) (coefficient scale : Nat) : Option Decimal :=
  if h : coefficient < twoTo 96 ∧ scale ≤ 28 then
    some ⟨negative && coefficient != 0, coefficient, scale, h.1, h.2⟩
  else
    none

/-- The value as a multiple of `10 ^ -28`. -/
def units (d : Decimal) : Int :=
  let size : Int := d.coefficient * tenTo (28 - d.scale)
  if d.negative then -size else size

/-- Equality of numbers, whatever their places. -/
def sameNumber (a b : Decimal) : Bool :=
  a.units == b.units

/-- Keeps at most so many places, rounding by the first one that is dropped, a half upwards. A
negative number stays negative even where nothing but zeros is kept.
-/
def roundTo (d : Decimal) (places : Nat) : Decimal :=
  if h : d.scale ≤ places then
    d
  else
    have := d.coefficient_lt
    have := d.scale_le
    have := Nat.div_le_self d.coefficient (tenTo (d.scale - places - 1))
    ⟨d.negative, (d.coefficient / tenTo (d.scale - places - 1) + 5) / 10, places,
      by omega, by omega⟩

theorem scale_roundTo_le (d : Decimal) (places : Nat) : (d.roundTo places).scale ≤ places := by
  unfold roundTo
  split
  · assumption
  · exact Nat.le_refl places

/-- All places are written, and at least one digit before the point. -/
def text (d : Decimal) : String :=
  let digits := Text.paddedDigits 10 (d.scale + 1) d.coefficient
  let whole := digits.take (digits.length - d.scale)
  let places := digits.drop (digits.length - d.scale)
  String.ofList <|
    (if d.negative then ['-'] else []) ++ whole ++ (if d.scale = 0 then [] else '.' :: places)

/-- What has been read of a decimal: the digits so far, how many of them are places (`none`
before the point), and whether a digit has come yet.
-/
structure Reading where
  coefficient : Nat := 0
  places : Option Nat := none
  started : Bool := false

namespace Reading

def scale (r : Reading) : Nat :=
  r.places.getD 0

/-- Without its last digit, the coefficient is safely below a tenth of what a word holds. -/
def isNarrow (r : Reading) : Bool :=
  r.coefficient / 10 < twoTo 64 / 10 - 255

/-- Rounds the last place by the digit after it, a half upwards. A carry out of 96 bits costs one
place.
-/
def round? (r : Reading) (negative : Bool) (digit : Nat) : Option Decimal :=
  if digit < 5 then
    ofParts? negative r.coefficient r.scale
  else if r.coefficient + 1 < twoTo 96 then
    ofParts? negative (r.coefficient + 1) r.scale
  else if r.scale = 0 then
    none
  else
    ofParts? negative ((r.coefficient + 5) / 10) (r.scale - 1)

/-- Ends a reading in front of characters for which there is no room. They are digits and
underscores, and the first digit rounds the last place; an underscore right after a narrow
coefficient stands for a zero.
-/
def close? (r : Reading) (negative : Bool) (rest : List Char) : Option Decimal :=
  if rest.all fun c => (Text.digit? c).isSome || c == '_' then
    match if r.isNarrow then rest else rest.dropWhile (· == '_') with
    | [] => ofParts? negative r.coefficient r.scale
    | c :: _ => r.round? negative ((Text.digit? c).getD 0)
  else
    none

/-- Reads digits, separated at will by underscores once a digit has come, with one point. -/
def run (r : Reading) (negative : Bool) : List Char → Option Decimal
  | [] => if r.started then ofParts? negative r.coefficient r.scale else none
  | c :: rest =>
      if r.places = some 28 then
        r.close? negative (c :: rest)
      else
        match Text.digit? c with
        | some d =>
            let next := r.coefficient * 10 + d
            if next < twoTo 96 then
              run ⟨next, r.places.map (· + 1), true⟩ negative rest
            else if r.places.isSome then
              r.close? negative (c :: rest)
            else
              none
        | none =>
            if c = '.' ∧ r.places.isNone then run { r with places := some 0 } negative rest
            else if c = '_' ∧ r.started then run r negative rest
            else none

end Reading

/-- Reads a decimal in positional notation with an optional sign. -/
def ofPositional? (text : List Char) : Option Decimal :=
  match text with
  | '-' :: rest => ({} : Reading).run true rest
  | '+' :: rest => ({} : Reading).run false rest
  | rest => ({} : Reading).run false rest

/-- An unsigned 32-bit number, with an optional plus sign. -/
def exponentDigits? (text : List Char) : Option Nat :=
  let digits :=
    match text with
    | '+' :: rest => rest
    | rest => rest
  match Text.takeAllDigits digits with
  | (d :: ds, []) =>
      let n := Text.ofDigits 10 (d :: ds)
      if n < twoTo 32 then some n else none
  | _ => none

/-- Multiplies by a power of ten of at most 28, using up places before the coefficient grows. -/
def scaleUp? (d : Decimal) (exponent : Nat) : Option Decimal :=
  if exponent ≤ d.scale then
    ofParts? d.negative d.coefficient (d.scale - exponent)
  else if exponent ≤ 28 then
    ofParts? d.negative (d.coefficient * tenTo (exponent - d.scale)) 0
  else
    none

/-- Divides by a power of ten of at most 28, rounding off the places for which there is no room.
-/
def scaleDown? (d : Decimal) (exponent : Nat) : Option Decimal :=
  if h : exponent ≤ 28 then
    let kept := d.roundTo (28 - exponent)
    have : kept.scale ≤ 28 - exponent := d.scale_roundTo_le (28 - exponent)
    some ⟨kept.negative, kept.coefficient, kept.scale + exponent, kept.coefficient_lt, by omega⟩
  else
    none

/-- Reads `base` and `exponent` of scientific notation. -/
def ofScientific? (text : List Char) : Option Decimal :=
  let base := text.takeWhile fun c => c != 'e' && c != 'E'
  match text.drop base.length with
  | [] => none
  | _ :: exponent => do
      let d ← ofPositional? base
      match exponent with
      | '-' :: rest => (exponentDigits? rest).bind d.scaleDown?
      | rest => (exponentDigits? rest).bind d.scaleUp?

def ofText? (text : String) : Option Decimal :=
  ofPositional? text.toList <|> ofScientific? text.toList

end Decimal

end QueryKey.Number
