import QueryKey.Failure
import QueryKey.Key.Settings
import QueryKey.Toml.Parser

/-! Settings from TOML. Keys that are no setting are passed over; settings that are missing keep
their defaults.
-/

namespace QueryKey.Key.Settings

open QueryKey.Toml (Table)

/-- A depth limit is an integer that is not negative. -/
def readMaxDepth (t : Table) (s : Settings) : Option Settings :=
  match t.find? "max_depth" with
  | none => some s
  | some (.value (.integer n)) => if 0 ≤ n then some (s.withMaxDepth n.toNat) else none
  | some _ => none

def readAliasRule (t : Table) (s : Settings) : Option Settings :=
  match t.find? "reject_generated_aliases" with
  | none => some s
  | some (.value (.boolean true)) => some s.strictAliases
  | some (.value (.boolean false)) => some s.allowGeneratedAliases
  | some _ => none

def ofTable? (t : Table) : Option Settings :=
  (readMaxDepth t {}).bind (readAliasRule t)

/-- The settings in a text. -/
def ofText (text : String) : Except Failure Settings :=
  match (Table.ofText? text).bind ofTable? with
  | some s => .ok s
  | none => .error .invalidConfiguration

end QueryKey.Key.Settings
