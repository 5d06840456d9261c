import QueryKey.Json.Value
import QueryKey.Text.Digits

/-! Number texts of documents, read character by character. The leading digits that fit 64 bits
are kept, further ones only move the point; a float is the kept digits times a power of ten,
either of them rounded to a double before they are combined.
-/

namespace QueryKey.Json

open QueryKey.Number (Binary Double tenTo twoTo)
open QueryKey.Text (digit?)

/-- The digits of a numeral so far, as `± digits · 10 ^ scale`. Once a digit has found no room
the part before or after the point is `full`.
-/
structure Significand where
  negative : Bool
  digits : Nat
  scale : Int
  full : Bool
deriving DecidableEq

namespace Significand

def room : Nat := twoTo 64

/-- Takes in a digit before the point. -/
def pushWhole (s : Significand) (digit : Nat) : Significand :=
  let next := s.digits * 10 + digit
  if !s.full && next < room then { s with digits := next }
  else { s with scale := s.scale + 1, full := true }

/-- Takes in a digit after the point. -/
def pushPlace (s : Significand) (digit : Nat) : Significand :=
  let next := s.digits * 10 + digit
  if !s.full && next < room then { s with digits := next, scale := s.scale - 1 }
  else { s with full := true }

/-- Passes the point. -/
def pass (s : Significand) : Significand :=
  { s with full := false }

/-- The largest power of ten that is a double. -/
def greatestPower : Nat := 308

def power (n : Nat) : Double :=
  Binary.round .double false (tenTo n) 1

/-- Divides by a power of ten, in steps when the power itself is no double. -/
def divide (x : Double) (n : Nat) : Double :=
  if n ≤ greatestPower then (x.over? (power n)).getD .nan
  else if x.isZero then x
  else divide ((x.over? (power greatestPower)).getD .nan) (n - greatestPower)
termination_by n
decreasing_by
  simp only [greatestPower] at *
  omega

/-- The absolute value, unless it is beyond the doubles. -/
def magnitude? (digits : Nat) (scale : Int) : Option Double :=
  let x := Binary.ofNat .double digits
  if scale < 0 then
    some (divide x scale.natAbs)
  else if scale.toNat ≤ greatestPower then
    match x.times? (power scale.toNat) with
    | some (.finite negative exponent fraction) => some (.finite negative exponent fraction)
    | _ => none
  else if x.isZero then
    some x
  else
    none

/-- The float, with an exponent after the digits. An exponent beyond 32 bits makes zero or
lies beyond the doubles.
-/
def toDouble? (s : Significand) (down : Bool) (exponent : Nat) : Option Double :=
  let magnitude :=
    if twoTo 31 ≤ exponent then
      if s.digits = 0 ∨ down then some (Binary.ofNat .double 0) else none
    else
      magnitude? s.digits (if down then s.scale - exponent else s.scale + exponent)
  magnitude.map fun x => if s.negative then x.neg else x

/-- The number without point and exponent: an integer if it fits 64 bits, with sign or without.
Minus zero is a float.
-/
def toNumber? (s : Significand) : Option Number :=
  if !s.full && !s.negative then
    some (.integer s.digits)
  else if !s.full && s.digits ≠ 0 && s.digits ≤ twoTo 63 then
    some (.integer (-s.digits))
  else
    (s.toDouble? false 0).map .double

end Significand

/-- A numeral of which the front has been read. -/
inductive Numeral where
  | minus
  | zero (negative : Bool)
  | whole (s : Significand)
  | point (s : Significand)
  | places (s : Significand)
  | mark (s : Significand)
  | signed (s : Significand) (down : Bool)
  | exponent (s : Significand) (down : Bool) (value : Nat)
deriving DecidableEq

namespace Numeral

/-- The first digit. A leading zero stands alone. -/
def ofDigit (negative : Bool) (digit : Nat) : Numeral :=
  if digit = 0 then zero negative else whole ⟨negative, digit, 0, false⟩

/-- The numeral that begins with the character. -/
def begin? (c : Char) : Option Numeral :=
  if c = '-' then some minus else (digit? c).map (ofDigit false)

/-- What may follow a digit besides a digit. -/
def leave? (s : Significand) (c : Char) : Option Numeral :=
  if c = 'e' ∨ c = 'E' then some (mark s) else none

/-- The numeral with one more character, if it goes on. -/
def push? (n : Numeral) (c : Char) : Option Numeral :=
  match n, digit? c with
  | minus, some d => some (ofDigit true d)
  | zero negative, none =>
      let s : Significand := ⟨negative, 0, 0, false⟩
      if c = '.' then some (point s) else leave? s c
  | whole s, some d => some (whole (s.pushWhole d))
  | whole s, none => if c = '.' then some (point s.pass) else leave? s c
  | point s, some d => some (places (s.pushPlace d))
  | places s, some d => some (places (s.pushPlace d))
  | places s, none => leave? s c
  | mark s, some d => some (exponent s false d)
  | mark s, none =>
      if c = '+' then some (signed s false)
      else if c = '-' then some (signed s true)
      else none
  | signed s down, some d => some (exponent s down d)
  | exponent s down value, some d => some (exponent s down (value * 10 + d))
  | _, _ => none

/-- Whether the numeral may end here. -/
def isComplete : Numeral → Bool
  | minus | point _ | mark _ | signed _ _ => false
  | _ => true

/-- The number of a complete numeral, unless it is beyond the doubles. -/
def value? : Numeral → Option Number
  | zero negative => Significand.toNumber? ⟨negative, 0, 0, false⟩
  | whole s => s.toNumber?
  | places s => (s.toDouble? false 0).map .double
  | exponent s down value => (s.toDouble? down value).map .double
  | _ => none

end Numeral

end QueryKey.Json
