import QueryKey.Text.Vocabulary

/-! The closed set of node kinds with the token of each in a key, and the operator families
whose members are node kinds.
-/

namespace QueryKey.Expr

open QueryKey.Text

inductive NodeKind where
  | all | and | any | case | cast | constant | crossApply | crossJoin | deref | distinct
  | divide | element | entityRef | equals | except | filter | fullOuterJoin | function
  | greaterThan | greaterThanOrEquals | groupBy | innerJoin | intersect | isEmpty | isNull
  | isOf | isOfOnly | leftOuterJoin | lessThan | lessThanOrEquals | like | limit | minus
  | modulo | multiply | newInstance | not | notEquals | null | ofType | ofTypeOnly | or
  | outerApply | parameterReference | plus | project | property | ref | refKey
  | relationshipNavigation | scan | skip | sort | treat | unaryMinus | unionAll
  | variableReference | lambda | inList
deriving DecidableEq, Repr

namespace NodeKind

/-- Every kind, in the order of the kind table. -/
def table : List NodeKind :=
  [
    .all, .and, .any, .case, .cast, .constant, .crossApply, .crossJoin, .deref, .distinct,
    .divide, .element, .entityRef, .equals, .except, .filter, .fullOuterJoin, .function,
    .greaterThan, .greaterThanOrEquals, .groupBy, .innerJoin, .intersect, .isEmpty, .isNull,
    .isOf, .isOfOnly, .leftOuterJoin, .lessThan, .lessThanOrEquals, .like, .limit, .minus,
    .modulo, .multiply, .newInstance, .not, .notEquals, .null, .ofType, .ofTypeOnly, .or,
    .outerApply, .parameterReference, .plus, .project, .property, .ref, .refKey,
    .relationshipNavigation, .scan, .skip, .sort, .treat, .unaryMinus, .unionAll,
    .variableReference, .lambda, .inList
  ]

def name : NodeKind → String
  | all => "All"
  | and => "And"
  | any => "Any"
  | case => "Case"
  | cast => "Cast"
  | constant => "Constant"
  | crossApply => "CrossApply"
  | crossJoin => "CrossJoin"
  | deref => "Deref"
  | distinct => "Distinct"
  | divide => "Divide"
  | element => "Element"
  | entityRef => "EntityRef"
  | equals => "Equals"
  | except => "Except"
  | filter => "Filter"
  | fullOuterJoin => "FullOuterJoin"
  | function => "Function"
  | greaterThan => "GreaterThan"
  | greaterThanOrEquals => "GreaterThanOrEquals"
  | groupBy => "GroupBy"
  | innerJoin => "InnerJoin"
  | intersect => "Intersect"
  | isEmpty => "IsEmpty"
  | isNull => "IsNull"
  | isOf => "IsOf"
  | isOfOnly => "IsOfOnly"
  | leftOuterJoin => "LeftOuterJoin"
  | lessThan => "LessThan"
  | lessThanOrEquals => "LessThanOrEquals"
  | like => "Like"
  | limit => "Limit"
  | minus => "Minus"
  | modulo => "Modulo"
  | multiply => "Multiply"
  | newInstance => "NewInstance"
  | not => "Not"
  | notEquals => "NotEquals"
  | null => "Null"
  | ofType => "OfType"
  | ofTypeOnly => "OfTypeOnly"
  | or => "Or"
  | outerApply => "OuterApply"
  | parameterReference => "ParameterReference"
  | plus => "Plus"
  | project => "Project"
  | property => "Property"
  | ref => "Ref"
  | refKey => "RefKey"
  | relationshipNavigation => "RelationshipNavigation"
  | scan => "Scan"
  | skip => "Skip"
  | sort => "Sort"
  | treat => "Treat"
  | unaryMinus => "UnaryMinus"
  | unionAll => "UnionAll"
  | variableReference => "VariableReference"
  | lambda => "Lambda"
  | inList => "In"

instance : Vocabulary NodeKind := ⟨table, name⟩

/-- The position of the kind in the kind table. -/
def index (kind : NodeKind) : Nat :=
  table.idxOf kind

/-- The kinds whose token is not their name. Negation and subtraction share one. -/
def symbol? : NodeKind → Option String
  | divide => "/"
  | modulo => "%"
  | multiply => "*"
  | plus => "+"
  | minus | unaryMinus => "-"
  | equals => "="
  | lessThan => "<"
  | lessThanOrEquals => "<="
  | greaterThan => ">"
  | greaterThanOrEquals => ">="
  | notEquals => "<>"
  | property => "."
  | innerJoin => "IJ"
  | fullOuterJoin => "FOJ"
  | leftOuterJoin => "LOJ"
  | crossApply => "CA"
  | outerApply => "OA"
  | _ => none

/-- What a key writes for the kind. -/
def token (kind : NodeKind) : String :=
  kind.symbol?.getD kind.name

def hasSymbol (kind : NodeKind) : Bool :=
  kind.token != kind.name

end NodeKind

/-- The six relational comparisons. -/
inductive ComparisonOp where
  | equals | notEquals | lessThan | lessThanOrEquals | greaterThan | greaterThanOrEquals
deriving DecidableEq, Repr

namespace ComparisonOp

def word : ComparisonOp → String
  | equals => "Equals"
  | notEquals => "NotEquals"
  | lessThan => "LessThan"
  | lessThanOrEquals => "LessThanOrEquals"
  | greaterThan => "GreaterThan"
  | greaterThanOrEquals => "GreaterThanOrEquals"

instance : Vocabulary ComparisonOp :=
  ⟨[.equals, .notEquals, .lessThan, .lessThanOrEquals, .greaterThan, .greaterThanOrEquals], word⟩

def kind : ComparisonOp → NodeKind
  | equals => .equals
  | notEquals => .notEquals
  | lessThan => .lessThan
  | lessThanOrEquals => .lessThanOrEquals
  | greaterThan => .greaterThan
  | greaterThanOrEquals => .greaterThanOrEquals

end ComparisonOp

/-- The arithmetic operators. -/
inductive ArithmeticOp where
  | plus | minus | multiply | divide | modulo | unaryMinus
deriving DecidableEq, Repr

namespace ArithmeticOp

def word : ArithmeticOp → String
  | plus => "Plus"
  | minus => "Minus"
  | multiply => "Multiply"
  | divide => "Divide"
  | modulo => "Modulo"
  | unaryMinus => "UnaryMinus"

instance : Vocabulary ArithmeticOp :=
  ⟨[.plus, .minus, .multiply, .divide, .modulo, .unaryMinus], word⟩

def kind : ArithmeticOp → NodeKind
  | plus => .plus
  | minus => .minus
  | multiply => .multiply
  | divide => .divide
  | modulo => .modulo
  | unaryMinus => .unaryMinus

/-- How many arguments the operator takes. -/
def arity : ArithmeticOp → Nat
  | unaryMinus => 1
  | _ => 2

end ArithmeticOp

/-- The joins with a condition. -/
inductive JoinKind where
  | inner | leftOuter | fullOuter
deriving DecidableEq, Repr

namespace JoinKind

def word : JoinKind → String
  | inner => "Inner"
  | leftOuter => "LeftOuter"
  | fullOuter => "FullOuter"

instance : Vocabulary JoinKind :=
  ⟨[.inner, .leftOuter, .fullOuter], word⟩

def kind : JoinKind → NodeKind
  | inner => .innerJoin
  | leftOuter => .leftOuterJoin
  | fullOuter => .fullOuterJoin

end JoinKind

/-- The correlated joins. -/
inductive ApplyKind where
  | cross | outer
deriving DecidableEq, Repr

namespace ApplyKind

def word : ApplyKind → String
  | cross => "Cross"
  | outer => "Outer"

instance : Vocabulary ApplyKind :=
  ⟨[.cross, .outer], word⟩

def kind : ApplyKind → NodeKind
  | cross => .crossApply
  | outer => .outerApply

end ApplyKind

/-- The quantifiers over a collection. -/
inductive QuantifierKind where
  | any | all
deriving DecidableEq, Repr

namespace QuantifierKind

def word : QuantifierKind → String
  | any => "Any"
  | all => "All"

instance : Vocabulary QuantifierKind :=
  ⟨[.any, .all], word⟩

def kind : QuantifierKind → NodeKind
  | any => .any
  | all => .all

end QuantifierKind

/-- The operators with one operand and nothing else. -/
inductive UnaryOp where
  | isNull | not | deref | refKey | entityRef | distinct | element | isEmpty
deriving DecidableEq, Repr

def UnaryOp.kind : UnaryOp → NodeKind
  | .isNull => .isNull
  | .not => .not
  | .deref => .deref
  | .refKey => .refKey
  | .entityRef => .entityRef
  | .distinct => .distinct
  | .element => .element
  | .isEmpty => .isEmpty

/-- The logical connectives and the set operators. -/
inductive BinaryOp where
  | and | or | unionAll | intersect | except
deriving DecidableEq, Repr

def BinaryOp.kind : BinaryOp → NodeKind
  | .and => .and
  | .or => .or
  | .unionAll => .unionAll
  | .intersect => .intersect
  | .except => .except

/-- The operators that give their operand the type of the node. -/
inductive Conversion where
  | treat | cast
deriving DecidableEq, Repr

def Conversion.kind : Conversion → NodeKind
  | .treat => .treat
  | .cast => .cast

/-- The tests against a type, of a value or of the members of a collection. -/
inductive TypeTest where
  | isOf | ofType
deriving DecidableEq, Repr

/-- A test that excludes subtypes is a kind of its own. -/
def TypeTest.kind : TypeTest → (only : Bool) → NodeKind
  | .isOf, false => .isOf
  | .isOf, true => .isOfOnly
  | .ofType, false => .ofType
  | .ofType, true => .ofTypeOnly

end QueryKey.Expr
