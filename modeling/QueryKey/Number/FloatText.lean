import QueryKey.Number.Shortest
import QueryKey.Text.Digits

/-! Texts of binary floating-point numbers: a layout of the shortest digits for documents, one
for keys, and the reading of decimal texts.
-/

namespace QueryKey.Number

/-- How the digits of a float are laid out. Between the two exponents the notation is
positional; `wholeMark` asks for `.0` after an integer.
-/
structure Layout where
  leastPositional : Option Int
  mostPositional : Option Int
  wholeMark : Bool
  tie : Tie
deriving DecidableEq

namespace Layout

/-- Documents write doubles positionally from 1e-5 to below 1e16. -/
def documentDouble : Layout := ⟨some (-5), some 15, true, .even⟩

/-- Documents write singles positionally from 1e-6 to below 1e13. -/
def documentSingle : Layout := ⟨some (-6), some 12, true, .even⟩

/-- Keys have neither an exponent nor a mark for whole numbers; of two equally near decimals they
take the greater.
-/
def key : Layout := ⟨none, none, false, .above⟩

def isPositional (l : Layout) (exponent : Int) : Bool :=
  l.leastPositional.all (· ≤ exponent) && l.mostPositional.all (exponent ≤ ·)

/-- The digits with the point set where the scale says. -/
def positional (l : Layout) (s : Scientific) : List Char :=
  let digits := Nat.toDigits 10 s.digits
  let point : Int := digits.length + s.scale
  if 0 ≤ s.scale then
    digits ++ List.replicate s.scale.toNat '0' ++ (if l.wholeMark then ['.', '0'] else [])
  else if 0 < point then
    digits.take point.toNat ++ '.' :: digits.drop point.toNat
  else
    '0' :: '.' :: List.replicate (-point).toNat '0' ++ digits

/-- One digit before the point, and an exponent with its sign. -/
def exponential (s : Scientific) : List Char :=
  let digits := Nat.toDigits 10 s.digits
  let exponent : Int := digits.length + s.scale - 1
  let mantissa :=
    match digits with
    | first :: second :: rest => first :: '.' :: second :: rest
    | digits => digits
  mantissa ++ 'e' :: (if exponent < 0 then '-' else '+') :: Nat.toDigits 10 exponent.natAbs

/-- The text of a decimal without sign. -/
def write (l : Layout) (s : Scientific) : List Char :=
  let exponent : Int := (Nat.toDigits 10 s.digits).length + s.scale - 1
  if l.isPositional exponent then l.positional s else exponential s

end Layout

namespace Binary

variable {f : Format}

/-- The text of a number in a layout; infinities and `nan` have the words of keys. -/
def text (l : Layout) : Binary f → String
  | nan => "NaN"
  | infinite negative => if negative then "-inf" else "inf"
  | finite negative exponent fraction =>
      let digits := l.write (shortest l.tie f exponent fraction)
      String.ofList (if negative then '-' :: digits else digits)

/-- The number nearest to `digits · 10 ^ scale`. Scales far outside the range of every format
are cut off before the power is computed.
-/
def ofDecimal (f : Format) (negative : Bool) (digits : Nat) (scale : Int) : Binary f :=
  let exponent := (Nat.toDigits 10 digits).length + scale
  if digits = 0 ∨ exponent < -2000 then round f negative 0 1
  else if 2000 < exponent then infinite negative
  else round f negative (digits * tenTo scale.toNat) (tenTo (-scale).toNat)

/-- An exponent: nothing, or `e` with an optional sign and at least one digit. -/
def readExponent? : List Char → Option Int
  | [] => some 0
  | mark :: rest =>
      if mark = 'e' ∨ mark = 'E' then
        let (negative, digits) :=
          match rest with
          | '-' :: more => (true, more)
          | '+' :: more => (false, more)
          | more => (false, more)
        match Text.takeAllDigits digits with
        | ([], _) => none
        | (ds, []) => some (if negative then -(Text.ofDigits 10 ds : Int) else Text.ofDigits 10 ds)
        | _ => none
      else
        none

/-- Reads digits with an optional point and exponent; a digit must stand on one side of the
point.
-/
def readUnsigned? (f : Format) (negative : Bool) (text : List Char) : Option (Binary f) :=
  let (whole, rest) := Text.takeAllDigits text
  let (fraction, rest) :=
    match rest with
    | '.' :: more => Text.takeAllDigits more
    | more => ([], more)
  if whole.isEmpty && fraction.isEmpty then
    none
  else
    (readExponent? rest).map fun exponent =>
      ofDecimal f negative (Text.ofDigits 10 (whole ++ fraction)) (exponent - fraction.length)

/-- Reads the text of a number: an optional sign, then digits, or a word for infinity or `nan`
in any case.
-/
def ofText? (f : Format) (text : String) : Option (Binary f) :=
  let (negative, rest) :=
    match text.toList with
    | '-' :: more => (true, more)
    | '+' :: more => (false, more)
    | more => (false, more)
  let word := String.ofList (rest.map Char.toLower)
  if word = "nan" then some nan
  else if word = "inf" ∨ word = "infinity" then some (infinite negative)
  else readUnsigned? f negative rest

end Binary

end QueryKey.Number
