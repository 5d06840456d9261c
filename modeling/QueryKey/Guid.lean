import QueryKey.Text.Digits

/-! Globally unique identifiers: 128 bits, written as five hyphenated groups of hexadecimal
digits.
-/

namespace QueryKey

structure Guid where
  bits : BitVec 128
deriving DecidableEq

namespace Guid

/-- The lengths of the five groups. -/
def groups : List Nat := [8, 4, 4, 4, 12]

/-- Cuts a list into pieces of the given lengths. -/
def cut {α : Type} : List Nat → List α → List (List α)
  | [], _ => []
  | n :: ns, items => items.take n :: cut ns (items.drop n)

/-- Lower-case digits in hyphenated groups. -/
def text (g : Guid) : String :=
  String.ofList <| ['-'].intercalate (cut groups (Text.paddedDigits 16 32 g.bits.toNat))

/-- Thirty-two hexadecimal digits in either case. -/
def ofDigits? (digits : List Char) : Option Guid := do
  if digits.length = 32 then
    let values ← digits.mapM Text.hexDigit?
    return ⟨BitVec.ofNat 128 (Text.ofDigits 16 values)⟩
  else
    none

/-- Thirty-six characters with a hyphen between the groups and nowhere else. -/
def ofHyphenated? (text : List Char) : Option Guid :=
  let pieces := cut [8, 1, 4, 1, 4, 1, 4, 1, 12] text
  match pieces with
  | [a, h₁, b, h₂, c, h₃, d, h₄, e] =>
      if text.length = 36 ∧ [h₁, h₂, h₃, h₄].all (· == ['-']) then
        ofDigits? (a ++ b ++ c ++ d ++ e)
      else
        none
  | _ => none

/-- The text between curly brackets. -/
def inBraces? (text : List Char) : Option (List Char) :=
  match text with
  | '\x7b' :: rest => if rest.getLast? = some '\x7d' then some rest.dropLast else none
  | _ => none

def nameScheme : String := "urn:uuid:"

/-- Reads plain digits, hyphenated groups, groups in curly brackets, or a name with the scheme in
front, in letters of either case.
-/
def ofText? (text : String) : Option Guid :=
  let chars := text.toList
  match chars.length with
  | 32 => ofDigits? chars
  | 36 => ofHyphenated? chars
  | 38 => (inBraces? chars).bind ofHyphenated?
  | 45 =>
      if (chars.take nameScheme.length).map Char.toLower = nameScheme.toList then
        ofHyphenated? (chars.drop nameScheme.length)
      else
        none
  | _ => none

end Guid

end QueryKey
