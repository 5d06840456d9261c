import QueryKey.Text.Vocabulary

/-! The primitive scalar kinds of the conceptual model. -/

namespace QueryKey.Metadata

open QueryKey.Text

inductive Primitive where
  | binary | boolean | byte | dateTime | decimal | double | guid | single | sbyte | int16
  | int32 | int64 | string | time | dateTimeOffset | geometry | geography | geometryPoint
  | geometryLineString | geometryPolygon | geometryMultiPoint | geometryMultiLineString
  | geometryMultiPolygon | geometryCollection | geographyPoint | geographyLineString
  | geographyPolygon | geographyMultiPoint | geographyMultiLineString | geographyMultiPolygon
  | geographyCollection | hierarchyId
deriving DecidableEq, Repr

namespace Primitive

def all : List Primitive :=
  [
    .binary, .boolean, .byte, .dateTime, .decimal, .double, .guid, .single, .sbyte, .int16,
    .int32, .int64, .string, .time, .dateTimeOffset, .geometry, .geography, .geometryPoint,
    .geometryLineString, .geometryPolygon, .geometryMultiPoint, .geometryMultiLineString,
    .geometryMultiPolygon, .geometryCollection, .geographyPoint, .geographyLineString,
    .geographyPolygon, .geographyMultiPoint, .geographyMultiLineString, .geographyMultiPolygon,
    .geographyCollection, .hierarchyId
  ]

def name : Primitive → String
  | binary => "Binary"
  | boolean => "Boolean"
  | byte => "Byte"
  | dateTime => "DateTime"
  | decimal => "Decimal"
  | double => "Double"
  | guid => "Guid"
  | single => "Single"
  | sbyte => "SByte"
  | int16 => "Int16"
  | int32 => "Int32"
  | int64 => "Int64"
  | string => "String"
  | time => "Time"
  | dateTimeOffset => "DateTimeOffset"
  | geometry => "Geometry"
  | geography => "Geography"
  | geometryPoint => "GeometryPoint"
  | geometryLineString => "GeometryLineString"
  | geometryPolygon => "GeometryPolygon"
  | geometryMultiPoint => "GeometryMultiPoint"
  | geometryMultiLineString => "GeometryMultiLineString"
  | geometryMultiPolygon => "GeometryMultiPolygon"
  | geometryCollection => "GeometryCollection"
  | geographyPoint => "GeographyPoint"
  | geographyLineString => "GeographyLineString"
  | geographyPolygon => "GeographyPolygon"
  | geographyMultiPoint => "GeographyMultiPoint"
  | geographyMultiLineString => "GeographyMultiLineString"
  | geographyMultiPolygon => "GeographyMultiPolygon"
  | geographyCollection => "GeographyCollection"
  | hierarchyId => "HierarchyId"

instance : Vocabulary Primitive := ⟨all, name⟩

/-- The kinds of planar shapes. -/
def isGeometry : Primitive → Bool
  | geometry | geometryPoint | geometryLineString | geometryPolygon | geometryMultiPoint
  | geometryMultiLineString | geometryMultiPolygon | geometryCollection => true
  | _ => false

/-- The kinds of shapes on the globe. -/
def isGeography : Primitive → Bool
  | geography | geographyPoint | geographyLineString | geographyPolygon | geographyMultiPoint
  | geographyMultiLineString | geographyMultiPolygon | geographyCollection => true
  | _ => false

end Primitive

end QueryKey.Metadata
