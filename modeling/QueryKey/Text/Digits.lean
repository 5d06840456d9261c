/-! Decimal and hexadecimal digits: reading them off the front of a text, and writing a
number with at least a given count of them.
-/

namespace QueryKey.Text

/-- Only the ten ASCII digits count. -/
def digit? (c : Char) : Option Nat :=
  if 48 ≤ c.toNat ∧ c.toNat ≤ 57 then some (c.toNat - 48) else none

def isDigit (c : Char) : Bool :=
  (digit? c).isSome

/-- A hexadecimal digit in either case. -/
def hexDigit? (c : Char) : Option Nat :=
  let n := c.toNat
  if 48 ≤ n ∧ n ≤ 57 then some (n - 48)
  else if 97 ≤ n ∧ n ≤ 102 then some (n - 87)
  else if 65 ≤ n ∧ n ≤ 70 then some (n - 55)
  else none

/-- The number that digits in base `base` write, most significant digit first. -/
def ofDigits (base : Nat) (digits : List Nat) : Nat :=
  digits.foldl (fun value digit => value * base + digit) 0

/-- Splits off the leading digits, at most `most` of them. -/
def takeDigits : (most : Nat) → List Char → List Nat × List Char
  | most + 1, c :: rest =>
      match digit? c with
      | some d =>
          let (digits, after) := takeDigits most rest
          (d :: digits, after)
      | none => ([], c :: rest)
  | _, text => ([], text)

/-- Splits off every leading digit. -/
def takeAllDigits (text : List Char) : List Nat × List Char :=
  takeDigits text.length text

/-- The digit characters of `n` in base `base`, with zeros in front up to `width`. -/
def paddedDigits (base width n : Nat) : List Char :=
  let digits := Nat.toDigits base n
  List.replicate (width - digits.length) '0' ++ digits

def padded (width n : Nat) : String :=
  String.ofList (paddedDigits 10 width n)

end QueryKey.Text
