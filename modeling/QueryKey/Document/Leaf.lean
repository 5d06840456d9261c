import QueryKey.Calendar.Text
import QueryKey.Expr.Payload
import QueryKey.Json.Value
import QueryKey.Number.FloatText

/-! The parts of documents that have no parts themselves: texts, flags, numbers, and the values
that are written as a text of their own.
-/

namespace QueryKey.Document

open QueryKey.Number QueryKey.Calendar

inductive Leaf where
  | text | flag | byte | sbyte | int16 | int32 | int64 | single | double | decimal | guid
  | dateTime | dateTimeOffset | time
deriving DecidableEq

/-- An integer in a range. -/
def integer? (low high : Int) : Json → Option Int
  | .number (.integer n) => if low ≤ n ∧ n ≤ high then some n else none
  | _ => none

def string? : Json → Option String
  | .string s => some s
  | _ => none

def bool? : Json → Option Bool
  | .bool b => some b
  | _ => none

/-- An integer of that many bits, one of them for the sign. -/
def signed? (bits : Nat) : Json → Option Int :=
  let half : Int := twoTo (bits - 1)
  integer? (-half) (half - 1)

/-- A float takes any number, rounded to its format in one step. -/
def float? (f : Format) : Json → Option (Binary f)
  | .number (.integer n) => some (.round f (n < 0) n.natAbs 1)
  | .number (.double x) => some (x.convert f)
  | .number (.single x) => some (x.convert f)
  | _ => none

namespace Leaf

abbrev Value : Leaf → Type
  | text => String
  | flag => Bool
  | byte => UInt8
  | sbyte => Int8
  | int16 => Int16
  | int32 => Int32
  | int64 => Int64
  | single => Single
  | double => Double
  | decimal => Decimal
  | guid => Guid
  | dateTime => DateTime
  | dateTimeOffset => OffsetDateTime
  | time => Time

def read? : (l : Leaf) → Json → Option l.Value
  | text, j => string? j
  | flag, j => bool? j
  | byte, j => (integer? 0 255 j).map fun n => UInt8.ofNat n.toNat
  | sbyte, j => (signed? 8 j).map Int8.ofInt
  | int16, j => (signed? 16 j).map Int16.ofInt
  | int32, j => (signed? 32 j).map Int32.ofInt
  | int64, j => (signed? 64 j).map Int64.ofInt
  | single, j => float? .single j
  | double, j => float? .double j
  | decimal, j => (string? j).bind Decimal.ofText?
  | guid, j => (string? j).bind Guid.ofText?
  | dateTime, j => (string? j).bind DateTime.ofText?
  | dateTimeOffset, j => (string? j).bind OffsetDateTime.ofText?
  | time, j => (string? j).bind Time.ofText?

def write : (l : Leaf) → l.Value → Json
  | text, s => .string s
  | flag, b => .bool b
  | byte, n => .number (.integer n.toNat)
  | sbyte, n => .number (.integer n.toInt)
  | int16, n => .number (.integer n.toInt)
  | int32, n => .number (.integer n.toInt)
  | int64, n => .number (.integer n.toInt)
  | single, x => .number (.single x)
  | double, x => .number (.double x)
  | decimal, d => .string d.text
  | guid, g => .string g.text
  | dateTime, t => .string (t.text .asNeeded)
  | dateTimeOffset, t => .string (t.text .asNeeded)
  | time, t => .string (t.text .asNeeded)

end Leaf

end QueryKey.Document
