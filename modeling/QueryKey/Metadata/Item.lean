import QueryKey.Metadata.Type

/-! Metadata that trees mention besides types: functions, entity sets and relation ends. -/

namespace QueryKey.Metadata

/-- A function; overloads differ in their identity. -/
structure Function where
  name : String
  identity : String
deriving DecidableEq

/-- An entity set of an entity container. -/
structure EntitySet where
  container : String
  name : String
  elementType : ModelType
deriving DecidableEq

/-- One end of an association. -/
structure RelationEnd where
  name : String
  association : String
deriving DecidableEq

namespace Function

/-- The identity is the qualified name with the parameter types. -/
def ofSignature (space name : String) (parameters : List TypeUsage) : Function :=
  {
    name := name
    identity :=
      space ++ "." ++ name ++ "(" ++ commaSeparated (parameters.map TypeUsage.identity) ++ ")"
  }

end Function

namespace EntitySet

def qualifiedName (set : EntitySet) : String :=
  set.container ++ "." ++ set.name

end EntitySet

end QueryKey.Metadata
