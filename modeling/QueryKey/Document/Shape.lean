import QueryKey.Document.Leaf
import QueryKey.Expr.Body

/-! The shapes of documents. A shape says how a part of a tree is written; its carrier is the type
of what it stands for, over a type `ε` for whole expressions.
-/

namespace QueryKey.Document

open QueryKey.Expr QueryKey.Metadata QueryKey.Text

/-- The closed vocabularies whose words occur in documents. -/
inductive Words where
  | primitive | comparison | arithmetic | join | apply | quantifier
deriving DecidableEq

abbrev Words.Value : Words → Type
  | primitive => Primitive
  | comparison => ComparisonOp
  | arithmetic => ArithmeticOp
  | join => JoinKind
  | apply => ApplyKind
  | quantifier => QuantifierKind

instance (w : Words) : Vocabulary w.Value :=
  match w with
  | .primitive => (inferInstance : Vocabulary Primitive)
  | .comparison => (inferInstance : Vocabulary ComparisonOp)
  | .arithmetic => (inferInstance : Vocabulary ArithmeticOp)
  | .join => (inferInstance : Vocabulary JoinKind)
  | .apply => (inferInstance : Vocabulary ApplyKind)
  | .quantifier => (inferInstance : Vocabulary QuantifierKind)

/-- The parts with a fixed list of named fields. The last three are what stands inside the type
kinds of their names.
-/
inductive Record where
  | function | set | relationEnd | member | spatial | formal | binding | groupBinding | arm
  | clause | related | enumeration | collection | reference
deriving DecidableEq

inductive Shape where
  | leaf (l : Leaf)
  | word (w : Words)
  | list (s : Shape)
  | optional (s : Shape)
  | record (r : Record)
  | payload
  | usage
  | type
  | typeKind
  | expr
  | body
  | aggregate
deriving DecidableEq

abbrev Record.Carrier (ε : Type) : Record → Type
  | function => Function
  | set => EntitySet
  | relationEnd => RelationEnd
  | member => String
  | spatial => Spatial
  | formal => Formal
  | binding => Binding ε
  | groupBinding => GroupBinding ε
  | arm => Arm ε
  | clause => SortClause ε
  | related => RelatedRef ε
  | enumeration => Primitive
  | collection => TypeUsage
  | reference => ModelType

namespace Shape

abbrev text : Shape := leaf .text

abbrev flag : Shape := leaf .flag

/-- What a shape stands for. -/
abbrev Carrier (ε : Type) : Shape → Type
  | leaf l => l.Value
  | word w => w.Value
  | list s => List (Carrier ε s)
  | optional s => Option (Carrier ε s)
  | record r => r.Carrier ε
  | payload => Payload
  | usage => TypeUsage
  | type => ModelType
  | typeKind => TypeKind
  | expr => ε
  | body => Body ε
  | aggregate => Aggregate ε

/-- What a missing part of the shape would mean. -/
def absent? {ε : Type} : (s : Shape) → Option (s.Carrier ε)
  | leaf .flag => some false
  | list _ => some []
  | optional _ => some none
  | _ => none

/-- Whether nothing is lost by leaving the part out. -/
def isEmpty {ε : Type} : (s : Shape) → s.Carrier ε → Bool
  | list _, items => items.isEmpty
  | optional _, value => value.isNone
  | _, _ => false

end Shape

/-- Whether a field must be there. Of those that need not, some are always written. -/
inductive Presence where
  | required
  | defaulted
  | omittedWhenEmpty
deriving DecidableEq

structure Field where
  name : String
  shape : Shape
  presence : Presence := .required
deriving DecidableEq

/-- What a missing field means; a required one means nothing. -/
def Field.absent? {ε : Type} (f : Field) : Option (f.shape.Carrier ε) :=
  match f.presence with
  | .required => none
  | _ => f.shape.absent?

/-- A value for every field. -/
abbrev Values (ε : Type) : List Field → Type
  | [] => Unit
  | f :: rest => f.shape.Carrier ε × Values ε rest

/-- A value or nothing yet for every field. -/
abbrev Slots (ε : Type) : List Field → Type
  | [] => Unit
  | f :: rest => Option (f.shape.Carrier ε) × Slots ε rest

def Slots.empty {ε : Type} : (fields : List Field) → Slots ε fields
  | [] => ()
  | _ :: rest => (none, empty rest)

end QueryKey.Document
