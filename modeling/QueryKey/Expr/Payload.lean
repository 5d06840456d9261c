import QueryKey.Calendar.Basic
import QueryKey.Guid
import QueryKey.Metadata.Primitive
import QueryKey.Number.Binary
import QueryKey.Number.Decimal

/-! The values that constants hold. A payload has a natural kind; the kind a constant declares
is that of its type, and the two need not agree.
-/

namespace QueryKey.Expr

open QueryKey.Metadata QueryKey.Number QueryKey.Calendar

/-- A shape in well-known text with its reference system. -/
structure Spatial where
  srid : Int32
  wkt : String
deriving DecidableEq

inductive Payload where
  | binary (bytes : List UInt8)
  | boolean (value : Bool)
  | byte (value : UInt8)
  | sbyte (value : Int8)
  | int16 (value : Int16)
  | int32 (value : Int32)
  | int64 (value : Int64)
  | single (value : Single)
  | double (value : Double)
  | decimal (value : Decimal)
  | guid (value : Guid)
  | string (value : String)
  | dateTime (value : DateTime)
  | dateTimeOffset (value : OffsetDateTime)
  | time (value : Time)
  | geometry (value : Spatial)
  | geography (value : Spatial)
  | hierarchyId (path : String)
deriving DecidableEq

namespace Payload

def naturalKind : Payload → Primitive
  | binary _ => .binary
  | boolean _ => .boolean
  | byte _ => .byte
  | sbyte _ => .sbyte
  | int16 _ => .int16
  | int32 _ => .int32
  | int64 _ => .int64
  | single _ => .single
  | double _ => .double
  | decimal _ => .decimal
  | guid _ => .guid
  | string _ => .string
  | dateTime _ => .dateTime
  | dateTimeOffset _ => .dateTimeOffset
  | time _ => .time
  | geometry _ => .geometry
  | geography _ => .geography
  | hierarchyId _ => .hierarchyId

/-- Whether a constant of the kind may hold the payload: a shape fits every kind of its family,
all else only its natural kind.
-/
def fits (payload : Payload) (kind : Primitive) : Bool :=
  match payload with
  | geometry _ => kind.isGeometry
  | geography _ => kind.isGeography
  | _ => payload.naturalKind == kind

/-- The name of the payload's shape in diagnostics. -/
def shapeName (payload : Payload) : String :=
  payload.naturalKind.name

/-- Equality of values: floats and decimals as numbers, times with offset as instants, all else
part by part.
-/
def sameValue (a b : Payload) : Bool :=
  match a, b with
  | single x, single y => x.sameNumber y
  | double x, double y => x.sameNumber y
  | decimal x, decimal y => x.sameNumber y
  | dateTimeOffset x, dateTimeOffset y => x.sameInstant y
  | _, _ => a == b

end Payload

end QueryKey.Expr
