import QueryKey.Number.Power

/-! Binary floating-point numbers of the two interchange formats, with correct rounding of
quotients of natural numbers. All arithmetic is exact until the one rounding step.
-/

namespace QueryKey.Number

/-- A binary format: the widths of its exponent and of its fraction. -/
structure Format where
  exponentBits : Nat
  fractionBits : Nat
deriving DecidableEq, Repr

namespace Format

def single : Format := ⟨8, 23⟩

def double : Format := ⟨11, 52⟩

/-- The exponent of the last place of the smallest numbers. -/
def leastExponent (f : Format) : Int :=
  2 - (twoTo (f.exponentBits - 1) : Int) - f.fractionBits

end Format

/-- A number of format `f`. Every pattern that is no number is the one `nan`. -/
inductive Binary (f : Format) where
  | nan
  | infinite (negative : Bool)
  | finite (negative : Bool) (exponent : Fin (twoTo f.exponentBits - 1))
      (fraction : Fin (twoTo f.fractionBits))
deriving DecidableEq

abbrev Single := Binary .single
abbrev Double := Binary .double

/-- `numerator / denominator` to the nearest integer, a half to the even one. -/
def roundHalfEven (numerator denominator : Nat) : Nat :=
  let quotient := numerator / denominator
  let twice := 2 * (numerator % denominator)
  if twice < denominator then quotient
  else if denominator < twice then quotient + 1
  else quotient + quotient % 2

/-- The largest power of two that is not above `numerator / denominator`, both positive. -/
def floorLog2 (numerator denominator : Nat) : Int :=
  let guess : Int := (numerator.log2 : Int) - denominator.log2
  if denominator * twoTo guess.toNat ≤ numerator * twoTo (-guess).toNat then guess else guess - 1

namespace Binary

variable {f : Format}

/-- A finite number is its significand times two to its last place. -/
def significand (exponent fraction : Nat) : Nat :=
  if exponent = 0 then fraction else twoTo f.fractionBits + fraction

def lastPlace (f : Format) (exponent : Nat) : Int :=
  f.leastExponent + (exponent - 1 : Nat)

/-- The absolute value of a finite number as a quotient. -/
def magnitude? : Binary f → Option (Nat × Nat)
  | finite _ exponent fraction =>
      let place := lastPlace f exponent
      some (significand (f := f) exponent fraction * twoTo place.toNat, twoTo (-place).toNat)
  | _ => none

/-- The number with biased exponent and significand already in range; what is too large is
infinite.
-/
def pack (negative : Bool) (exponent fraction : Nat) : Binary f :=
  if h : exponent < twoTo f.exponentBits - 1 ∧ fraction < twoTo f.fractionBits then
    finite negative ⟨exponent, h.1⟩ ⟨fraction, h.2⟩
  else
    infinite negative

/-- The number nearest to `numerator / denominator`, a half going to the even significand and
what lies beyond the range becoming infinite.
-/
def round (f : Format) (negative : Bool) (numerator denominator : Nat) : Binary f :=
  if numerator = 0 then
    pack negative 0 0
  else
    let unit := twoTo f.fractionBits
    let place := max f.leastExponent (floorLog2 numerator denominator - f.fractionBits)
    let rounded :=
      roundHalfEven (numerator * twoTo (-place).toNat) (denominator * twoTo place.toNat)
    let (rounded, place) := if rounded = 2 * unit then (unit, place + 1) else (rounded, place)
    if rounded < unit then
      pack negative 0 rounded
    else
      pack negative (place - f.leastExponent + 1).toNat (rounded - unit)

def ofNat (f : Format) (n : Nat) : Binary f :=
  round f false n 1

def neg : Binary f → Binary f
  | nan => nan
  | infinite negative => infinite !negative
  | finite negative exponent fraction => finite (!negative) exponent fraction

/-- The same number in another format. -/
def convert (g : Format) (x : Binary f) : Binary g :=
  match x with
  | nan => nan
  | infinite negative => infinite negative
  | finite negative _ _ =>
      match x.magnitude? with
      | some (numerator, denominator) => round g negative numerator denominator
      | none => nan

/-- The product of the absolute values, and their quotient; `none` unless both are finite. -/
def times? (x y : Binary f) : Option (Binary f) := do
  let (a, b) ← x.magnitude?
  let (c, d) ← y.magnitude?
  return round f false (a * c) (b * d)

def over? (x y : Binary f) : Option (Binary f) := do
  let (a, b) ← x.magnitude?
  let (c, d) ← y.magnitude?
  return round f false (a * d) (b * c)

def isZero : Binary f → Bool
  | finite _ exponent fraction => exponent.val == 0 && fraction.val == 0
  | _ => false

/-- Equality of numbers: the zeros are equal, and `nan` differs from itself. -/
def sameNumber (x y : Binary f) : Bool :=
  match x, y with
  | nan, _ => false
  | _, nan => false
  | _, _ => x == y || (x.isZero && y.isZero)

/-- The number with the given interchange bits. -/
def ofBits (f : Format) (bits : Nat) : Binary f :=
  let fraction := bits % twoTo f.fractionBits
  let exponent := bits / twoTo f.fractionBits % twoTo f.exponentBits
  let negative := bits / twoTo (f.fractionBits + f.exponentBits) % 2 == 1
  if exponent = twoTo f.exponentBits - 1 then
    if fraction = 0 then infinite negative else nan
  else
    pack negative exponent fraction

end Binary

end QueryKey.Number
