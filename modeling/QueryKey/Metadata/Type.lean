import QueryKey.Metadata.Primitive

/-! Model types and their usages. Each carries an identity, a text that the constructors below
compute from the parts, so that a type can be told from its identity alone.
-/

namespace QueryKey.Metadata

mutual
/-- A type of the conceptual model. -/
inductive ModelType where
  | mk (identity : String) (kind : TypeKind)

inductive TypeKind where
  | primitive (kind : Primitive)
  | enumeration (underlying : Primitive)
  | entity
  | complex
  | row
  | collection (element : TypeUsage)
  | reference (element : ModelType)

/-- A type with the facets under which it is used; the identity tells the facets. -/
inductive TypeUsage where
  | mk (identity : String) (type : ModelType)
end

deriving instance DecidableEq for ModelType, TypeKind, TypeUsage

/-- A facet of a type usage, such as `MaxLength=50`. -/
structure Facet where
  name : String
  value : String
deriving DecidableEq

/-- The namespace of the primitive types. -/
def primitiveNamespace : String := "Edm"

/-- The texts with a comma between them. -/
def commaSeparated (texts : List String) : String :=
  String.intercalate "," texts

namespace ModelType

def identity : ModelType → String
  | mk identity _ => identity

def kind : ModelType → TypeKind
  | mk _ kind => kind

def primitive (kind : Primitive) : ModelType :=
  mk (primitiveNamespace ++ "." ++ kind.name) (.primitive kind)

def enumeration (name : String) (underlying : Primitive) : ModelType :=
  mk name (.enumeration underlying)

def entity (name : String) : ModelType :=
  mk name .entity

def complex (name : String) : ModelType :=
  mk name .complex

/-- The kind of a scalar type; an enumeration has its underlying kind. -/
def scalarKind? (type : ModelType) : Option Primitive :=
  match type.kind with
  | .primitive kind => some kind
  | .enumeration underlying => some underlying
  | _ => none

/-- What a reference type refers to. -/
def referenced? (type : ModelType) : Option ModelType :=
  match type.kind with
  | .reference element => some element
  | _ => none

end ModelType

namespace TypeUsage

def identity : TypeUsage → String
  | mk identity _ => identity

def type : TypeUsage → ModelType
  | mk _ type => type

/-- A usage without facets. -/
def ofType (type : ModelType) : TypeUsage :=
  mk type.identity type

/-- A usage with facets, written in the given order. -/
def withFacets (type : ModelType) (facets : List Facet) : TypeUsage :=
  if facets.isEmpty then
    ofType type
  else
    let rendered := commaSeparated (facets.map fun facet => facet.name ++ "=" ++ facet.value)
    mk (type.identity ++ "(" ++ rendered ++ ")") type

end TypeUsage

namespace ModelType

/-- A row type; its identity lists each column with its type usage. -/
def row (columns : List (String × TypeUsage)) : ModelType :=
  let rendered := commaSeparated (columns.map fun (name, usage) => name ++ "=" ++ usage.identity)
  mk ("row[" ++ rendered ++ "]") .row

def collection (element : TypeUsage) : ModelType :=
  mk ("collection[" ++ element.identity ++ "]") (.collection element)

def reference (element : ModelType) : ModelType :=
  mk ("reference[" ++ element.identity ++ "]") (.reference element)

end ModelType

namespace TypeUsage

def primitive (kind : Primitive) : TypeUsage :=
  ofType (.primitive kind)

def boolean : TypeUsage :=
  primitive .boolean

def entity (name : String) : TypeUsage :=
  ofType (.entity name)

def collection (element : TypeUsage) : TypeUsage :=
  ofType (.collection element)

def reference (element : ModelType) : TypeUsage :=
  ofType (.reference element)

/-- The element usage of a collection. -/
def collected? (usage : TypeUsage) : Option TypeUsage :=
  match usage.type.kind with
  | .collection element => some element
  | _ => none

/-- The element usage of a collection, and the usage itself if it is none. -/
def element (usage : TypeUsage) : TypeUsage :=
  usage.collected?.getD usage

end TypeUsage

end QueryKey.Metadata
