import QueryKey.Expr.Basic

/-! Building trees. Each function makes one node and derives its type from the operands where
they determine it; everywhere else the type is given.
-/

namespace QueryKey.Expr

open QueryKey.Metadata

/-- A constant of the natural kind of its payload. -/
def constant (value : Payload) : Expr :=
  node (.primitive value.naturalKind) (.constant value)

/-- A constant of a declared type, such as an enumeration or one with facets. -/
def typedConstant (value : Payload) (usage : TypeUsage) : Expr :=
  node usage (.constant value)

def null (usage : TypeUsage) : Expr :=
  node usage .null

def variableRef (name : String) (usage : TypeUsage) : Expr :=
  node usage (.variableRef name)

def parameter (name : String) (usage : TypeUsage) : Expr :=
  node usage (.parameter name)

/-- A scan yields a collection of the set's elements. -/
def scan (target : EntitySet) : Expr :=
  node (.collection (.ofType target.elementType)) (.scan target)

def extension (name : String) (usage : TypeUsage) (arguments : List Expr) : Expr :=
  node usage (.extension name arguments)

def call (function : Function) (usage : TypeUsage) (arguments : List Expr) : Expr :=
  node usage (.call function arguments)

/-- A lambda applied to arguments has the type of its body. -/
def lambda (formals : List Formal) (body : Expr) (arguments : List Expr) : Expr :=
  node body.usage (.lambda formals body arguments)

def property (subject : Expr) (name : String) (usage : TypeUsage) : Expr :=
  node usage (.property subject name)

/-- Predicates are Boolean. -/
def compare (left : Expr) (op : ComparisonOp) (right : Expr) : Expr :=
  node .boolean (.comparison op left right)

def like (argument pattern : Expr) (escape : Option Expr) : Expr :=
  node .boolean (.like argument pattern escape)

def isNull (argument : Expr) : Expr :=
  node .boolean (.unary .isNull argument)

/-- Arithmetic has the type of its first operand. -/
def arithmetic (left : Expr) (op : ArithmeticOp) (right : Expr) : Expr :=
  node left.usage (.arithmetic op [left, right])

def negate (argument : Expr) : Expr :=
  node argument.usage (.arithmetic .unaryMinus [argument])

def and (left right : Expr) : Expr :=
  node .boolean (.binary .and left right)

def or (left right : Expr) : Expr :=
  node .boolean (.binary .or left right)

def not (argument : Expr) : Expr :=
  node .boolean (.unary .not argument)

def inList (item : Expr) (list : List Expr) : Expr :=
  node .boolean (.inList item list)

/-- A case distinction has the type of its last branch. -/
def case (arms : List (Arm Expr)) (otherwise : Expr) : Expr :=
  node otherwise.usage (.case arms otherwise)

def cast (argument : Expr) (usage : TypeUsage) : Expr :=
  node usage (.convert .cast argument)

def treat (argument : Expr) (usage : TypeUsage) : Expr :=
  node usage (.convert .treat argument)

def isOf (argument : Expr) (tested : TypeUsage) (only : Bool) : Expr :=
  node .boolean (.typeTest .isOf argument tested only)

/-- The members of a type form a collection of it. -/
def ofType (argument : Expr) (tested : TypeUsage) (only : Bool) : Expr :=
  node (.collection tested) (.typeTest .ofType argument tested only)

def newInstance (usage : TypeUsage) (arguments : List Expr) : Expr :=
  node usage (.newInstance arguments [])

/-- Related references were attached to a node that constructs nothing. -/
structure NoConstructor where
  label : String
deriving DecidableEq

def NoConstructor.message (fault : NoConstructor) : String :=
  "related references attach to NewInstance, not " ++ fault.label

/-- Attaches one more related reference to a constructor. -/
def withRelated (e : Expr) (related : RelatedRef Expr) : Except NoConstructor Expr :=
  match e with
  | node usage (.newInstance arguments present) =>
      .ok (node usage (.newInstance arguments (present ++ [related])))
  | _ => .error ⟨e.label⟩

/-- A reference to the entity of a set with the given key. -/
def entityRefTo (set : EntitySet) (key : Expr) : Expr :=
  node (.reference set.elementType) (.ref set key)

def navigate (source : Expr) (start target : RelationEnd) (usage : TypeUsage) : Expr :=
  node usage (.navigate source start target)

/-- Following a reference yields what it refers to. -/
def deref (argument : Expr) : Expr :=
  let usage :=
    match argument.usage.type.referenced? with
    | some element => .ofType element
    | none => argument.usage
  node usage (.unary .deref argument)

def refKey (argument : Expr) (usage : TypeUsage) : Expr :=
  node usage (.unary .refKey argument)

/-- The reference to an entity is typed by the entity's type, without its facets. -/
def entityRef (argument : Expr) : Expr :=
  node (.reference argument.usage.type) (.unary .entityRef argument)

def distinct (argument : Expr) : Expr :=
  node argument.usage (.unary .distinct argument)

/-- The single element of a collection. -/
def element (argument : Expr) : Expr :=
  node argument.usage.element (.unary .element argument)

def isEmpty (argument : Expr) : Expr :=
  node .boolean (.unary .isEmpty argument)

/-- Set operators have the type of their first operand. -/
def unionAll (left right : Expr) : Expr :=
  node left.usage (.binary .unionAll left right)

def intersect (left right : Expr) : Expr :=
  node left.usage (.binary .intersect left right)

def except (left right : Expr) : Expr :=
  node left.usage (.binary .except left right)

def limit (argument count : Expr) (withTies : Bool) : Expr :=
  node argument.usage (.limit argument count withTies)

def bindAs (source : Expr) (name : String) : Binding Expr :=
  ⟨name, source⟩

def groupBindAs (source : Expr) (name groupName : String) : GroupBinding Expr :=
  ⟨name, groupName, source⟩

def crossJoin (inputs : List (Binding Expr)) (usage : TypeUsage) : Expr :=
  node usage (.crossJoin inputs)

def join (kind : JoinKind) (left right : Binding Expr) (condition : Expr) (usage : TypeUsage)
    : Expr :=
  node usage (.join kind left right condition)

def apply (kind : ApplyKind) (input applied : Binding Expr) (usage : TypeUsage) : Expr :=
  node usage (.apply kind input applied)

def groupBy (input : GroupBinding Expr) (keys : List Expr) (aggregates : List (Aggregate Expr))
    (usage : TypeUsage)
    : Expr :=
  node usage (.groupBy input keys aggregates)

namespace Binding

/-- The bound variable stands for one element. -/
def reference (input : Binding Expr) : Expr :=
  variableRef input.name input.source.usage.element

def filter (input : Binding Expr) (predicate : Expr) : Expr :=
  node input.source.usage (.filter input predicate)

def project (input : Binding Expr) (projection : Expr) : Expr :=
  node (.collection projection.usage) (.project input projection)

def sort (input : Binding Expr) (order : List (SortClause Expr)) : Expr :=
  node input.source.usage (.sort input order)

def skip (input : Binding Expr) (order : List (SortClause Expr)) (count : Expr) : Expr :=
  node input.source.usage (.skip input order count)

def quantify (input : Binding Expr) (quantifier : QuantifierKind) (predicate : Expr) : Expr :=
  node .boolean (.quantify quantifier input predicate)

end Binding

namespace GroupBinding

def reference (input : GroupBinding Expr) : Expr :=
  variableRef input.name input.source.usage.element

/-- The group variable stands for a collection like the one that is grouped. -/
def groupReference (input : GroupBinding Expr) : Expr :=
  variableRef input.groupName input.source.usage

end GroupBinding

end QueryKey.Expr
