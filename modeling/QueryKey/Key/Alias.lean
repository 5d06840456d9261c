import QueryKey.Text.Digits

/-! Names that the default alias generator makes. They are numbered per process and not per
query, so they must not reach a key.
-/

namespace QueryKey.Key

open QueryKey.Text

def aliasStem : String := "Var_"

/-- The stem with at least one digit after it, whatever follows. -/
def isGeneratedAlias (name : String) : Bool :=
  aliasStem.toList.isPrefixOf name.toList
    && (name.toList.drop aliasStem.length).head?.any isDigit

end QueryKey.Key
