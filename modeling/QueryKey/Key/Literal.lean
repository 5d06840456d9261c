import QueryKey.Calendar.Text
import QueryKey.Expr.Payload
import QueryKey.Failure
import QueryKey.Metadata.Type
import QueryKey.Number.FloatText
import QueryKey.Text.Quoted

/-! Literals: the text of a constant in a key. The kind that the constant declares decides which
payloads can be written; the kinds with plain text take one another's payloads.
-/

namespace QueryKey.Key.Literal

open QueryKey.Expr QueryKey.Metadata QueryKey.Number QueryKey.Text

/-- Two upper-case hexadecimal digits for each byte, between quotes. -/
def bytesText (bytes : List UInt8) : String :=
  quote <| String.ofList <|
    bytes.flatMap fun b => (paddedDigits 16 2 b.toNat).map Char.toUpper

/-- The reference system in front of the shape's own text, which is not quoted. -/
def spatialText (s : Spatial) : String :=
  "SRID=" ++ toString s.srid.toInt ++ ";" ++ s.wkt

/-- The payloads whose text needs no quotes. -/
def plainText? : Payload → Option String
  | .boolean value => some (if value then "True" else "False")
  | .byte value => some (toString value.toNat)
  | .sbyte value => some (toString value.toInt)
  | .int16 value => some (toString value.toInt)
  | .int32 value => some (toString value.toInt)
  | .int64 value => some (toString value.toInt)
  | .single value => some (value.text .key)
  | .double value => some (value.text .key)
  | .decimal value => some value.text
  | .guid value => some value.text
  | .time value => some (value.text .nanoseconds)
  | _ => none

/-- The text of a payload in a constant of the given kind, if the kind can hold it. -/
def payloadText? (kind : Primitive) (payload : Payload) : Option String :=
  match kind with
  | .binary =>
      match payload with
      | .binary bytes => some (bytesText bytes)
      | _ => none
  | .string =>
      match payload with
      | .string text => some (quote text)
      | _ => none
  | .dateTime =>
      match payload with
      | .dateTime value => some (value.text .nanoseconds)
      | _ => none
  | .dateTimeOffset =>
      match payload with
      | .dateTimeOffset value => some (value.text .nanoseconds)
      | _ => none
  | .boolean | .byte | .decimal | .double | .guid | .single | .sbyte | .int16 | .int32 | .int64
  | .time => plainText? payload
  | .geometry | .geometryPoint | .geometryLineString | .geometryPolygon | .geometryMultiPoint
  | .geometryMultiLineString | .geometryMultiPolygon | .geometryCollection =>
      match payload with
      | .geometry shape => some (spatialText shape)
      | _ => none
  | .geography | .geographyPoint | .geographyLineString | .geographyPolygon
  | .geographyMultiPoint | .geographyMultiLineString | .geographyMultiPolygon
  | .geographyCollection =>
      match payload with
      | .geography shape => some (spatialText shape)
      | _ => none
  | .hierarchyId => none

/-- The text of a constant, or why it has none. -/
def text (payload : Payload) (usage : TypeUsage) : Except Failure String :=
  match usage.type.scalarKind? with
  | none => .error (.unsupportedConstant usage.identity "constant is not of a scalar type")
  | some kind =>
      match payloadText? kind payload with
      | some text => .ok text
      | none =>
          let reason :=
            if kind = .hierarchyId then "no canonical text form"
            else "payload is a " ++ payload.shapeName ++ " value"
          .error (.unsupportedConstant kind.name reason)

/-- Appends a literal and the identity of its type usage to a key. Without a literal the key is left
as it is.
-/
def appendTo (key : String) (payload : Payload) (usage : TypeUsage) : String × Option Failure :=
  match text payload usage with
  | .ok literal => (key ++ literal ++ ":" ++ usage.identity, none)
  | .error failure => (key, some failure)

/-- The key with the literal of a payload, or why there is none. -/
def append (key : String) (payload : Payload) (usage : TypeUsage) : Except Failure String :=
  match appendTo key payload usage with
  | (key, none) => .ok key
  | (_, some failure) => .error failure

theorem append_eq_map_text (key : String) (payload : Payload) (usage : TypeUsage)
    : append key payload usage
      = (text payload usage).map fun literal => key ++ literal ++ ":" ++ usage.identity := by
  rw [append, appendTo]
  cases text payload usage <;> rfl

end QueryKey.Key.Literal
