import QueryKey.Json.Value
import QueryKey.Number.FloatText

/-! Writing documents. All functions put text in front of a given rest, so that writing takes
time proportional to the text.
-/

namespace QueryKey.Json

open QueryKey.Number (Binary Layout Format)
open QueryKey.Text (paddedDigits)

/-- Quotes, backslashes and control characters are escaped, all else stands for itself. -/
def escape (c : Char) : List Char :=
  if c = '"' then ['\\', '"']
  else if c = '\\' then ['\\', '\\']
  else if c = '\x08' then ['\\', 'b']
  else if c = '\x0c' then ['\\', 'f']
  else if c = '\n' then ['\\', 'n']
  else if c = '\r' then ['\\', 'r']
  else if c = '\t' then ['\\', 't']
  else if c.toNat < 0x20 then '\\' :: 'u' :: paddedDigits 16 4 c.toNat
  else [c]

def writeString (text : String) (rest : List Char) : List Char :=
  '"' :: (text.toList.flatMap escape ++ '"' :: rest)

/-- What is no number is null. -/
def floatText {f : Format} (l : Layout) (x : Binary f) : String :=
  match x with
  | .finite _ _ _ => x.text l
  | _ => "null"

def Number.text : Number → String
  | integer value => toString value
  | double value => floatText .documentDouble value
  | single value => floatText .documentSingle value

/-- Documents are written on one line, or indented by two spaces from a given level on. -/
inductive Style where
  | compact
  | indented (level : Nat)
deriving DecidableEq

namespace Style

def deeper : Style → Style
  | compact => compact
  | indented level => indented (level + 1)

/-- A new line at the level of the style. -/
def lineBreak (s : Style) (rest : List Char) : List Char :=
  match s with
  | compact => rest
  | indented level => '\n' :: (List.replicate (2 * level) ' ' ++ rest)

/-- What separates a key from its value. -/
def colon (s : Style) (rest : List Char) : List Char :=
  match s with
  | compact => ':' :: rest
  | indented _ => ':' :: ' ' :: rest

end Style

mutual
def write (s : Style) : Json → List Char → List Char
  | null, rest => 'n' :: 'u' :: 'l' :: 'l' :: rest
  | bool true, rest => 't' :: 'r' :: 'u' :: 'e' :: rest
  | bool false, rest => 'f' :: 'a' :: 'l' :: 's' :: 'e' :: rest
  | number value, rest => value.text.toList ++ rest
  | string value, rest => writeString value rest
  | array [], rest => '[' :: ']' :: rest
  | array (item :: items), rest =>
      '[' :: s.deeper.lineBreak
        (write s.deeper item (writeItems s.deeper items (s.lineBreak (']' :: rest))))
  | object [], rest => '\x7b' :: '\x7d' :: rest
  | object ((key, value) :: members), rest =>
      '\x7b' :: s.deeper.lineBreak
        (writeString key
          (s.colon
            (write s.deeper value
              (writeMembers s.deeper members (s.lineBreak ('\x7d' :: rest))))))

/-- The items after the first. -/
def writeItems (s : Style) : List Json → List Char → List Char
  | [], rest => rest
  | item :: items, rest => ',' :: s.lineBreak (write s item (writeItems s items rest))

/-- The members after the first. -/
def writeMembers (s : Style) : List (String × Json) → List Char → List Char
  | [], rest => rest
  | (key, value) :: members, rest =>
      ',' :: s.lineBreak
        (writeString key (s.colon (write s value (writeMembers s members rest))))
end

/-- The document on lines of its own. -/
def pretty (j : Json) : String :=
  String.ofList (j.write (.indented 0) [])

/-- The document on one line. -/
def compact (j : Json) : String :=
  String.ofList (j.write .compact [])

end QueryKey.Json
