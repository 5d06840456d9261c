/-! Settings of key generation. -/

namespace QueryKey.Key

/-- How deep a tree may be, if there is a bound, and whether generated aliases are refused. -/
structure Settings where
  maxDepth : Option Nat := some 1024
  /-- The default is that of a development build, with debug assertions. A release build allows
  generated aliases by default.
  -/
  rejectGeneratedAliases : Bool := true
deriving DecidableEq

namespace Settings

def withMaxDepth (depth : Nat) (s : Settings) : Settings :=
  { s with maxDepth := some depth }

def withoutDepthLimit (s : Settings) : Settings :=
  { s with maxDepth := none }

def strictAliases (s : Settings) : Settings :=
  { s with rejectGeneratedAliases := true }

def allowGeneratedAliases (s : Settings) : Settings :=
  { s with rejectGeneratedAliases := false }

end Settings

end QueryKey.Key
