import QueryKey.Calendar.Basic
import QueryKey.Number.FloatText
import QueryKey.Text.Scan
import QueryKey.Toml.Table

/-! Scalars of TOML: strings in four kinds of quotes, integers in four bases, floats, and dates
and times.
-/

namespace QueryKey.Toml

open QueryKey.Text QueryKey.Text.Scan
open QueryKey.Number (Binary)
open QueryKey.Calendar (Date Time)

def isWhite (c : Char) : Bool :=
  c = ' ' ∨ c = '\t'

/-- What may stand on a line: tabs, and everything that is no control character. -/
def isPrintable (c : Char) : Bool :=
  c = '\t' ∨ (0x20 ≤ c.toNat ∧ c.toNat ≤ 0x7E) ∨ 0x80 ≤ c.toNat

/-- Any white space. -/
def white : Scan Unit := fun text =>
  some ((), text.dropWhile isWhite)

/-- The end of a line. -/
def lineEnd : Scan Unit :=
  (literal '\n').or (word ['\r', '\n'])

def apostrophe : Char := '\x27'

/-- The characters of a string in double quotes that stand for themselves. -/
def isPlain (c : Char) : Bool :=
  isPrintable c && c != '"' && c != '\\'

/-- The characters of a string in single quotes. -/
def isLiteral (c : Char) : Bool :=
  isPrintable c && c != apostrophe

/-- The code point of exactly `count` hexadecimal digits. -/
def codePoint (count : Nat) : Scan Char := fun text =>
  match (text.take count).mapM hexDigit? with
  | some ds =>
      let n := ofDigits 16 ds
      if ds.length = count ∧ n.isValidChar then some (Char.ofNat n, text.drop count) else none
  | none => none

/-- A character written with a backslash. -/
def escaped : Scan Char
  | '\\' :: c :: rest =>
      if c = 'b' then some ('\x08', rest)
      else if c = 't' then some ('\t', rest)
      else if c = 'n' then some ('\n', rest)
      else if c = 'f' then some ('\x0c', rest)
      else if c = 'r' then some ('\r', rest)
      else if c = '"' ∨ c = '\\' then some (c, rest)
      else if c = 'u' then codePoint 4 rest
      else if c = 'U' then codePoint 8 rest
      else none
  | _ => none

def basicString : Scan String :=
  ((literal '"').andThen (many ((one isPlain).or escaped))).followedBy (literal '"')
    |>.map String.ofList

def literalString : Scan String :=
  ((literal apostrophe).andThen (many (one isLiteral))).followedBy (literal apostrophe)
    |>.map String.ofList

/-- One or two quotes inside a string of several lines: something else must follow them. -/
def innerQuotes (quote : Char) : Scan (List Char) := fun text =>
  let quotes := text.takeWhile (· = quote)
  let rest := text.drop quotes.length
  if (quotes.length = 1 ∨ quotes.length = 2) ∧ !rest.isEmpty then some (quotes, rest) else none

/-- Three quotes, with up to two more before them that belong to the string. -/
def closingQuotes (quote : Char) : Scan (List Char) := fun text =>
  let quotes := (text.takeWhile (· = quote)).take 5
  if 3 ≤ quotes.length then some (quotes.drop 3, text.drop quotes.length) else none

/-- A string between threefold quotes; a line end right after the first ones is no part of it. -/
def multiline (quote : Char) (content : Scan (List Char)) : Scan String := fun text => do
  let (_, text) ← word [quote, quote, quote] text
  let (_, text) ← optional lineEnd text
  let (pieces, text) ← many (content.or (innerQuotes quote)) text
  let (last, text) ← closingQuotes quote text
  return (String.ofList (pieces.flatten ++ last), text)

/-- A backslash at the end of a line takes the white space behind it away. -/
def continuation : Scan (List Char) := fun text => do
  let (_, text) ← literal '\\' text
  let (_, text) ← white text
  let (_, text) ← lineEnd text
  let (_, text) ← many (((one isWhite).map fun _ => ()).or lineEnd) text
  return ([], text)

def newLine : Scan (List Char) :=
  lineEnd.map fun _ => ['\n']

def multilineBasic : Scan String :=
  multiline '"'
    (((one isPlain).map (fun c => [c])).or
      (continuation.or ((escaped.map fun c => [c]).or newLine)))

def multilineLiteral : Scan String :=
  multiline apostrophe (((one isLiteral).map fun c => [c]).or newLine)

def string : Scan String :=
  multilineBasic.or (basicString.or (multilineLiteral.or literalString))

/-- Digits of a class, single underscores between them. -/
def digitRun (digit : Char → Option Nat) : Scan (List Nat) := fun text => do
  let one := (Scan.one fun c => (digit c).isSome).map fun c => (digit c).getD 0
  let (first, text) ← one text
  let (more, text) ← many (one.or ((literal '_').andThen one)) text
  return (first :: more, text)

/-- A sign, if there is one: whether it is a minus. -/
def sign : Scan Bool
  | '-' :: rest => some (true, rest)
  | '+' :: rest => some (false, rest)
  | text => some (false, text)

/-- A signed number without leading zeros. -/
def decimal : Scan (Bool × List Nat) := fun text => do
  let (negative, text) ← sign text
  match text with
  | '0' :: rest => some ((negative, [0]), rest)
  | _ => (digitRun digit? text).map fun (ds, rest) => ((negative, ds), rest)

def integerOf? (negative : Bool) (base : Nat) (digits : List Nat) : Option Int :=
  let n : Int := ofDigits base digits
  let n := if negative then -n else n
  let half : Int := Number.twoTo 63
  if -half ≤ n ∧ n < half then some n else none

def digitBelow (base : Nat) (c : Char) : Option Nat :=
  (hexDigit? c).bind fun d => if d < base then some d else none

def integerIn (mark : Char) (base : Nat) : Scan Int :=
  ((word ['0', mark]).andThen (digitRun (digitBelow base))).check (integerOf? false base)

/-- An integer of 64 bits. -/
def integer : Scan Int :=
  (integerIn 'x' 16).or <| (integerIn 'o' 8).or <| (integerIn 'b' 2).or <|
    decimal.check fun (negative, digits) => integerOf? negative 10 digits

/-- An exponent: a mark, a sign if need be, and digits. -/
def exponent : Scan Int := fun text => do
  let (_, text) ← one (fun c => c = 'e' ∨ c = 'E') text
  let (negative, text) ← sign text
  let (ds, text) ← digitRun digit? text
  let n : Int := ofDigits 10 ds
  return (if negative then -n else n, text)

def fraction : Scan (List Nat) :=
  (literal '.').andThen (digitRun digit?)

/-- A finite float has a fraction or an exponent. What is too large is refused, unless it is
negative.
-/
def finiteFloat : Scan Number.Double := fun text => do
  let ((negative, whole), text) ← decimal text
  let (places, rest) ← optional fraction text
  let (scale, rest) ← optional exponent rest
  if places.isNone && scale.isNone then
    none
  else
    let places := places.getD []
    let value :=
      Binary.ofDecimal .double negative (ofDigits 10 (whole ++ places))
        (scale.getD 0 - places.length)
    if value = .infinite false then none else some (value, rest)

def specialFloat : Scan Number.Double := fun text => do
  let (negative, text) ← sign text
  ((word ['i', 'n', 'f']).map fun _ => .infinite negative).or
    ((word ['n', 'a', 'n']).map fun _ => .nan) text

def float : Scan Number.Double :=
  finiteFloat.or specialFloat

/-- A date in full. -/
def date : Scan Date := fun text => do
  let (y, text) ← exactDigits 4 text
  let (_, text) ← literal '-' text
  let (m, text) ← exactDigits 2 text
  let (_, text) ← literal '-' text
  let (d, text) ← exactDigits 2 text
  let date ← Date.ofParts? y m d
  return (date, text)

/-- A time with seconds; digits of a fraction beyond the ninth are dropped. -/
def time : Scan Time := fun text => do
  let (h, text) ← exactDigits 2 text
  let (_, text) ← literal ':' text
  let (m, text) ← exactDigits 2 text
  let (_, text) ← literal ':' text
  let (s, text) ← exactDigits 2 text
  let (places, text) ← optional ((literal '.').andThen (many (one isDigit))) text
  let places := places.getD ['0']
  if places.isEmpty then
    none
  else
    let time ← Time.ofParts? h m s (Time.nanoseconds (places.filterMap digit?))
    return (time, text)

/-- The distance from universal time. -/
def offset : Scan Unit := fun text =>
  (((one fun c => c = 'Z' ∨ c = 'z').map fun _ => ()).or fun text => do
    let (_, text) ← one (fun c => c = '+' ∨ c = '-') text
    let (h, text) ← exactDigits 2 text
    let (_, text) ← literal ':' text
    let (m, text) ← exactDigits 2 text
    if h < 24 ∧ m < 60 then some ((), text) else none)
    text

/-- A date, a time of day, or both, the latter with an offset if need be. -/
def moment : Scan Unit := fun text =>
  match date text with
  | some (_, rest) => do
      let timeOfDay : Scan Unit := fun text => do
        let (_, text) ← one (fun c => c = 'T' ∨ c = 't' ∨ c = ' ') text
        let (_, text) ← time text
        let (_, text) ← optional offset text
        return ((), text)
      let (_, rest) ← optional timeOfDay rest
      return ((), rest)
  | none => (time.map fun _ => ()) text

def boolean : Scan Bool :=
  ((word ['t', 'r', 'u', 'e']).map fun () => true).or
    ((word ['f', 'a', 'l', 's', 'e']).map fun () => false)

/-- A value without values inside it. -/
def scalar : Scan Value :=
  (string.map .string).or <| (moment.map fun () => .moment).or <| (float.map .float).or <|
    (integer.map .integer).or (boolean.map .boolean)

end QueryKey.Toml
