import QueryKey.Expr.Kind
import QueryKey.Expr.Payload
import QueryKey.Metadata.Item

/-! One level of an expression: the operation of a node, over whatever stands for its operands.
Whole expressions put expressions there, passes over a tree put their results there.
-/

namespace QueryKey.Expr

open QueryKey.Metadata

/-- A variable that ranges over a collection. -/
structure Binding (ε : Type) where
  name : String
  source : ε
deriving DecidableEq

/-- A collection to be grouped, with a variable for its elements and one for the group. -/
structure GroupBinding (ε : Type) where
  name : String
  groupName : String
  source : ε
deriving DecidableEq

/-- A branch of a case distinction. -/
structure Arm (ε : Type) where
  condition : ε
  result : ε
deriving DecidableEq

/-- One key of a sort order. -/
structure SortClause (ε : Type) where
  key : ε
  ascending : Bool
  collation : Option String
deriving DecidableEq

/-- A formal parameter of a lambda. -/
structure Formal where
  name : String
  usage : TypeUsage
deriving DecidableEq

/-- A reference from a new entity to a related one. -/
structure RelatedRef (ε : Type) where
  source : RelationEnd
  target : RelationEnd
  reference : ε
deriving DecidableEq

/-- What grouping computes: a function of the group, or the group itself. -/
inductive Aggregate (ε : Type) where
  | function (function : Function) (distinct : Bool) (arguments : List ε)
  | group (argument : ε)
deriving DecidableEq

/-- The operation of a node over its operands. -/
inductive Body (ε : Type) where
  | constant (value : Payload)
  | null
  | variableRef (name : String)
  | parameter (name : String)
  | scan (target : EntitySet)
  | call (function : Function) (arguments : List ε)
  | lambda (formals : List Formal) (body : ε) (arguments : List ε)
  | property (subject : ε) (name : String)
  | comparison (op : ComparisonOp) (left right : ε)
  | like (argument pattern : ε) (escape : Option ε)
  | arithmetic (op : ArithmeticOp) (arguments : List ε)
  | unary (op : UnaryOp) (argument : ε)
  | binary (op : BinaryOp) (left right : ε)
  | inList (item : ε) (list : List ε)
  | case (arms : List (Arm ε)) (otherwise : ε)
  | convert (op : Conversion) (argument : ε)
  | typeTest (op : TypeTest) (argument : ε) (tested : TypeUsage) (only : Bool)
  | newInstance (arguments : List ε) (related : List (RelatedRef ε))
  | ref (set : EntitySet) (argument : ε)
  | navigate (source : ε) (start target : RelationEnd)
  | limit (argument count : ε) (withTies : Bool)
  | filter (input : Binding ε) (predicate : ε)
  | project (input : Binding ε) (projection : ε)
  | quantify (quantifier : QuantifierKind) (input : Binding ε) (predicate : ε)
  | crossJoin (inputs : List (Binding ε))
  | join (kind : JoinKind) (left right : Binding ε) (condition : ε)
  | apply (kind : ApplyKind) (input applied : Binding ε)
  | groupBy (input : GroupBinding ε) (keys : List ε) (aggregates : List (Aggregate ε))
  | skip (input : Binding ε) (order : List (SortClause ε)) (count : ε)
  | sort (input : Binding ε) (order : List (SortClause ε))
  | extension (name : String) (arguments : List ε)
deriving DecidableEq

variable {ε δ : Type}

def Binding.map (f : ε → δ) (b : Binding ε) : Binding δ :=
  ⟨b.name, f b.source⟩

def GroupBinding.map (f : ε → δ) (b : GroupBinding ε) : GroupBinding δ :=
  ⟨b.name, b.groupName, f b.source⟩

def Arm.map (f : ε → δ) (a : Arm ε) : Arm δ :=
  ⟨f a.condition, f a.result⟩

def SortClause.map (f : ε → δ) (c : SortClause ε) : SortClause δ :=
  ⟨f c.key, c.ascending, c.collation⟩

def RelatedRef.map (f : ε → δ) (r : RelatedRef ε) : RelatedRef δ :=
  ⟨r.source, r.target, f r.reference⟩

def Aggregate.map (f : ε → δ) : Aggregate ε → Aggregate δ
  | function g distinct arguments => .function g distinct (arguments.map f)
  | group argument => .group (f argument)

/-- The operands of an aggregate. -/
def Aggregate.operands : Aggregate ε → List ε
  | function _ _ arguments => arguments
  | group argument => [argument]

namespace Body

/-- The same operation over other operands. -/
def map (f : ε → δ) : Body ε → Body δ
  | constant value => .constant value
  | null => .null
  | variableRef name => .variableRef name
  | parameter name => .parameter name
  | scan target => .scan target
  | call function arguments => .call function (arguments.map f)
  | lambda formals body arguments => .lambda formals (f body) (arguments.map f)
  | property subject name => .property (f subject) name
  | comparison op left right => .comparison op (f left) (f right)
  | like argument pattern escape => .like (f argument) (f pattern) (escape.map f)
  | arithmetic op arguments => .arithmetic op (arguments.map f)
  | unary op argument => .unary op (f argument)
  | binary op left right => .binary op (f left) (f right)
  | inList item list => .inList (f item) (list.map f)
  | case arms otherwise => .case (arms.map (Arm.map f)) (f otherwise)
  | convert op argument => .convert op (f argument)
  | typeTest op argument tested only => .typeTest op (f argument) tested only
  | newInstance arguments related =>
      .newInstance (arguments.map f) (related.map (RelatedRef.map f))
  | ref set argument => .ref set (f argument)
  | navigate source start target => .navigate (f source) start target
  | limit argument count withTies => .limit (f argument) (f count) withTies
  | filter input predicate => .filter (input.map f) (f predicate)
  | project input projection => .project (input.map f) (f projection)
  | quantify quantifier input predicate => .quantify quantifier (input.map f) (f predicate)
  | crossJoin inputs => .crossJoin (inputs.map (Binding.map f))
  | join kind left right condition => .join kind (left.map f) (right.map f) (f condition)
  | apply kind input applied => .apply kind (input.map f) (applied.map f)
  | groupBy input keys aggregates =>
      .groupBy (input.map f) (keys.map f) (aggregates.map (Aggregate.map f))
  | skip input order count => .skip (input.map f) (order.map (SortClause.map f)) (f count)
  | sort input order => .sort (input.map f) (order.map (SortClause.map f))
  | extension name arguments => .extension name (arguments.map f)

/-- The operands in the order in which walks visit them. A lambda is entered after its
arguments.
-/
def children : Body ε → List ε
  | constant _ | null | variableRef _ | parameter _ | scan _ => []
  | call _ arguments | arithmetic _ arguments | extension _ arguments => arguments
  | lambda _ body arguments => arguments ++ [body]
  | property argument _ | unary _ argument | convert _ argument | typeTest _ argument _ _
  | ref _ argument | navigate argument _ _ => [argument]
  | comparison _ left right | binary _ left right | limit left right _ => [left, right]
  | like argument pattern escape => argument :: pattern :: escape.toList
  | inList item list => item :: list
  | case arms otherwise => arms.flatMap (fun arm => [arm.condition, arm.result]) ++ [otherwise]
  | newInstance arguments related => arguments ++ related.map RelatedRef.reference
  | filter input operand | project input operand | quantify _ input operand =>
      [input.source, operand]
  | crossJoin inputs => inputs.map Binding.source
  | join _ left right condition => [left.source, right.source, condition]
  | apply _ input applied => [input.source, applied.source]
  | groupBy input keys aggregates =>
      input.source :: keys ++ aggregates.flatMap Aggregate.operands
  | skip input order count => input.source :: order.map SortClause.key ++ [count]
  | sort input order => input.source :: order.map SortClause.key

/-- The operation without its operands. -/
def shape (b : Body ε) : Body Unit :=
  b.map fun _ => ()

/-- The node kind; extensions have none. -/
def kind? : Body ε → Option NodeKind
  | constant _ => some .constant
  | null => some .null
  | variableRef _ => some .variableReference
  | parameter _ => some .parameterReference
  | scan _ => some .scan
  | call _ _ => some .function
  | lambda _ _ _ => some .lambda
  | property _ _ => some .property
  | comparison op _ _ => some op.kind
  | like _ _ _ => some .like
  | arithmetic op _ => some op.kind
  | unary op _ => some op.kind
  | binary op _ _ => some op.kind
  | inList _ _ => some .inList
  | case _ _ => some .case
  | convert op _ => some op.kind
  | typeTest op _ _ only => some (op.kind only)
  | newInstance _ _ => some .newInstance
  | ref _ _ => some .ref
  | navigate _ _ _ => some .relationshipNavigation
  | limit _ _ _ => some .limit
  | filter _ _ => some .filter
  | project _ _ => some .project
  | quantify quantifier _ _ => some quantifier.kind
  | crossJoin _ => some .crossJoin
  | join kind _ _ _ => some kind.kind
  | apply kind _ _ => some kind.kind
  | groupBy _ _ _ => some .groupBy
  | skip _ _ _ => some .skip
  | sort _ _ => some .sort
  | extension _ _ => none

/-- What diagnostics call the node. -/
def label (b : Body ε) : String :=
  match b with
  | extension name _ => "Extension(" ++ name ++ ")"
  | _ => (b.kind?.map NodeKind.name).getD ""

/-- The variables that the operation introduces or refers to, in order. -/
def variableNames : Body ε → List String
  | variableRef name => [name]
  | lambda formals _ _ => formals.map Formal.name
  | filter input _ | project input _ | skip input _ _ | sort input _ | quantify _ input _ =>
      [input.name]
  | crossJoin inputs => inputs.map Binding.name
  | join _ left right _ => [left.name, right.name]
  | apply _ input applied => [input.name, applied.name]
  | groupBy input _ _ => [input.name, input.groupName]
  | _ => []

/-- Equality of operations: constants by value, everything else part by part. -/
def sameOperation (a b : Body Unit) : Bool :=
  match a, b with
  | constant x, constant y => x.sameValue y
  | _, _ => a == b

theorem children_map (f : ε → δ) (b : Body ε)
    : (b.map f).children = b.children.map f := by
  cases b with
  | like argument pattern escape => cases escape <;> rfl
  | groupBy input keys aggregates =>
      simp only [map, children, GroupBinding.map, List.map_append, List.map_cons,
        List.cons_append, List.cons.injEq, true_and, List.append_cancel_left_eq]
      induction aggregates with
      | nil => rfl
      | cons aggregate rest ih => cases aggregate <;> simp [Aggregate.map, Aggregate.operands, ih]
  | case arms otherwise =>
      simp only [map, children, List.map_append, List.map_cons, List.map_nil]
      congr 1
      induction arms with
      | nil => rfl
      | cons arm rest ih => simp [Arm.map, ih]
  | _ =>
      simp [map, children, Binding.map, SortClause.map, RelatedRef.map, Function.comp_def]

theorem kind?_map (f : ε → δ) (b : Body ε) : (b.map f).kind? = b.kind? := by
  cases b <;> rfl

theorem label_map (f : ε → δ) (b : Body ε) : (b.map f).label = b.label := by
  cases b <;> rfl

end Body

end QueryKey.Expr
