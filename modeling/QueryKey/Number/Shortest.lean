import QueryKey.Number.Binary

/-! The shortest decimal that reads back as a given binary number: the fewest digits, and of
those the nearest to the number.
-/

namespace QueryKey.Number

/-- Which of two neighbours is taken when both are equally near. -/
inductive Tie where
  | even
  | above
deriving DecidableEq

/-- The decimal number `digits · 10 ^ scale`. -/
structure Scientific where
  digits : Nat
  scale : Int
deriving DecidableEq, Repr

/-- A closed or open interval of rationals around a number, over one denominator. -/
structure Interval where
  low : Nat
  value : Nat
  high : Nat
  denominator : Nat
  closed : Bool

namespace Interval

/-- The reals that round to a positive finite number. Below a power of two the numbers lie
twice as close; the ends belong to the interval when the significand is even.
-/
def ofBinary (f : Format) (exponent fraction : Nat) : Interval :=
  let m := Binary.significand (f := f) exponent fraction
  let place := Binary.lastPlace f exponent - 2
  let factor := twoTo place.toNat
  {
    low := (4 * m - (if fraction = 0 ∧ 1 < exponent then 1 else 2)) * factor
    value := 4 * m * factor
    high := (4 * m + 2) * factor
    denominator := twoTo (-place).toNat
    closed := m % 2 = 0
  }

/-- Whether `candidate · 10 ^ scale` lies in the interval. -/
def contains (i : Interval) (candidate : Nat) (scale : Int) : Bool :=
  let point := candidate * tenTo scale.toNat * i.denominator
  let unit := tenTo (-scale).toNat
  if i.closed then i.low * unit ≤ point && point ≤ i.high * unit
  else i.low * unit < point && point < i.high * unit

/-- The decimal of the interval on the grid of multiples of `10 ^ scale`, the one nearer to the
value if both its neighbours lie inside.
-/
def onGrid? (i : Interval) (tie : Tie) (scale : Int) : Option Scientific :=
  let unit := i.denominator * tenTo scale.toNat
  let scaled := i.value * tenTo (-scale).toNat
  let below := scaled / unit
  let twice := 2 * (scaled % unit)
  let nearer :=
    if twice < unit ∨ twice = unit ∧ tie = .even ∧ below % 2 = 0 then below else below + 1
  let other := if nearer = below then below + 1 else below
  if i.contains nearer scale then some ⟨nearer, scale⟩
  else if i.contains other scale then some ⟨other, scale⟩
  else none

end Interval

/-- The decimal exponent of a positive quotient: `10 ^ e ≤ n / d < 10 ^ (e + 1)`. -/
def decimalExponent (n d : Nat) : Int :=
  if d ≤ n then
    ((Nat.toDigits 10 (n / d)).length : Int) - 1
  else
    let length := (Nat.toDigits 10 (d / n)).length
    if d = n * tenTo (length - 1) then 1 - (length : Int) else -(length : Int)

/-- Tries grids from the coarsest, `count` of them. -/
def Interval.firstGrid (i : Interval) (tie : Tie) : (count : Nat) → (scale : Int) → Option Scientific
  | 0, _ => none
  | count + 1, scale =>
      match i.onGrid? tie scale with
      | some s => some s
      | none => i.firstGrid tie count (scale - 1)

/-- Drops the zeros at the end of the digits. -/
def Scientific.trim (s : Scientific) : Scientific :=
  let digits := (Nat.toDigits 10 s.digits).reverse
  let zeros := (digits.takeWhile (· = '0')).length
  if s.digits = 0 then ⟨0, 0⟩ else ⟨s.digits / tenTo zeros, s.scale + zeros⟩

/-- The shortest decimal of a finite number without its sign; zero has the digit 0. Seventeen
digits suffice for every double.
-/
def shortest (tie : Tie) (f : Format) (exponent fraction : Nat) : Scientific :=
  let i := Interval.ofBinary f exponent fraction
  if i.value = 0 then ⟨0, 0⟩
  else
    let scale := decimalExponent i.value i.denominator
    ((i.firstGrid tie 18 scale).getD ⟨i.value, 0⟩).trim

end QueryKey.Number
