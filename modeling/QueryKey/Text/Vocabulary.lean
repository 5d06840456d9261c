/-! Closed vocabularies: finite types whose members are written as words. -/

namespace QueryKey.Text

/-- A finite type with its members in declaration order and a word for each. -/
class Vocabulary (α : Type) where
  all : List α
  word : α → String

namespace Vocabulary

variable {α : Type} [Vocabulary α]

/-- The member with the given word. -/
def ofWord? (w : String) : Option α :=
  all.find? fun a => word a == w

/-- Every word, in declaration order. -/
def words (α : Type) [Vocabulary α] : List String :=
  (all : List α).map word

end Vocabulary

end QueryKey.Text
