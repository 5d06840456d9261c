import QueryKey.Expr.Body
import QueryKey.Key.Literal

/-! Templates: what a node contributes to a key, as a list of pieces with its operands in their
places. Everything that can be wrong with a node by itself is found before the first piece.
-/

namespace QueryKey.Key

open QueryKey.Expr QueryKey.Metadata

/-- A piece of a key: a mark of its notation, a name or identity as it stands, the name of a
variable, a literal, or an operand.
-/
inductive Piece (ε : Type) where
  | mark (text : String)
  | raw (text : String)
  | boundName (name : String)
  | literal (text : String)
  | operand (e : ε)
deriving DecidableEq

namespace Piece

variable {ε δ : Type}

def map (f : ε → δ) : Piece ε → Piece δ
  | mark text => mark text
  | raw text => raw text
  | boundName name => boundName name
  | literal text => literal text
  | operand e => operand (f e)

def kind (k : NodeKind) : Piece ε :=
  mark ("[" ++ k.token ++ "]")

def parenthesized (e : ε) : List (Piece ε) :=
  [mark "(", operand e, mark ")"]

def eachParenthesized (es : List ε) : List (Piece ε) :=
  es.flatMap parenthesized

/-- Operands with commas between them. -/
def separated : List ε → List (Piece ε)
  | [] => []
  | [e] => [operand e]
  | e :: rest => operand e :: mark "," :: separated rest

def binding (b : Binding ε) : List (Piece ε) :=
  [mark "BV", boundName b.name, mark "=(", operand b.source, mark ")"]

def groupBinding (b : GroupBinding ε) : List (Piece ε) :=
  [
    mark "GBVV", boundName b.name, mark ",", boundName b.groupName, mark "=(",
    operand b.source, mark ")"
  ]

def call (function : Function) (arguments : List ε) : List (Piece ε) :=
  [mark "FUNC<", raw function.identity, mark ">:ARGS("] ++ eachParenthesized arguments
    ++ [mark ")"]

def setName (set : EntitySet) : List (Piece ε) :=
  [raw set.container, mark ".", raw set.name]

/-- The association of the starting end and the names of both. -/
def navigation (start target : RelationEnd) : List (Piece ε) :=
  [
    mark "A(", raw start.association, mark ")(", raw start.name, mark "->", raw target.name,
    mark ")"
  ]

def formal (f : Formal) : List (Piece ε) :=
  [mark "(V", boundName f.name, mark ":", raw f.usage.identity, mark ")"]

/-- A sort key; a collation without name is not written. -/
def clause (c : SortClause ε) : List (Piece ε) :=
  let key := [mark (if c.ascending then "ASC(" else "DESC("), operand c.key, mark ")"]
  match c.collation with
  | some collation =>
      if collation.isEmpty then key else key ++ [mark ":(", raw collation, mark ")"]
  | none => key

def sortOrder (order : List (SortClause ε)) : List (Piece ε) :=
  mark "SO(" :: order.flatMap clause ++ [mark ")"]

def arm (a : Arm ε) : List (Piece ε) :=
  [mark "WHEN:(", operand a.condition, mark ")THEN:(", operand a.result, mark ")"]

def related (r : RelatedRef ε) : List (Piece ε) :=
  mark "RE(" :: navigation r.source r.target ++ parenthesized r.reference ++ [mark ")"]

def aggregate : Aggregate ε → List (Piece ε)
  | .group argument => mark "GA" :: parenthesized argument
  | .function g distinct arguments =>
      mark "A:" :: (if distinct then [mark "D:"] else []) ++ call g arguments

def groupKey (e : ε) : List (Piece ε) :=
  mark "K" :: parenthesized e

def enclosed (pieces : List (Piece ε)) : List (Piece ε) :=
  mark "(" :: pieces ++ [mark ")"]

end Piece

variable {ε : Type}

open Piece

/-- An operator with the wrong number of arguments; negation and subtraction share a mark and
differ in that number only.
-/
def wrongArity (op : ArithmeticOp) (found : Nat) : Failure :=
  .contractViolation op.kind.name
    ("expected " ++ toString op.arity ++ " argument(s), found " ++ toString found)

/-- A reference constructor whose type is no reference. -/
def noReference (usage : TypeUsage) : Failure :=
  .contractViolation NodeKind.ref.name
    ("result type '" ++ usage.identity ++ "' is not a reference type")

/-- The pieces of a node of the given type, or what is wrong with it. -/
def template (usage : TypeUsage) (body : Body ε) : Except Failure (List (Piece ε)) :=
  match body with
  | .constant value =>
      (Literal.text value usage).map fun text =>
        [.literal text, mark ":", raw usage.identity]
  | .null => .ok [mark "NULL:", raw usage.identity]
  | .variableRef name => .ok [mark "Var(", boundName name, mark ")"]
  | .parameter name => .ok [mark "@", raw name, mark ":", raw usage.identity]
  | .scan target =>
      .ok (kind .scan :: enclosed (setName target ++ [mark ":", raw usage.type.identity]))
  | .call function arguments => .ok (Piece.call function arguments)
  | .lambda formals body arguments =>
      .ok
        (mark "Lambda(" :: formals.flatMap formal ++ mark "=" :: eachParenthesized arguments
          ++ [mark ")Body(", operand body, mark ")"])
  | .property subject name => .ok [operand subject, kind .property, raw name]
  | .comparison op left right => .ok (kind op.kind :: enclosed (separated [left, right]))
  | .like argument pattern escape =>
      .ok
        (kind .like :: parenthesized argument ++ parenthesized pattern
          ++ enclosed (escape.toList.map operand))
  | .arithmetic op arguments =>
      if arguments.length = op.arity then
        .ok (kind op.kind :: eachParenthesized arguments)
      else
        .error (wrongArity op arguments.length)
  | .unary op argument => .ok (kind op.kind :: parenthesized argument)
  | .binary op left right => .ok (kind op.kind :: enclosed (separated [left, right]))
  | .inList item list =>
      .ok (kind .inList :: enclosed ([operand item, mark ","] ++ enclosed (separated list)))
  | .case arms otherwise =>
      .ok
        (kind .case :: enclosed
          (arms.flatMap arm ++ mark "ELSE:" :: parenthesized otherwise))
  | .convert op argument =>
      .ok (kind op.kind :: enclosed [operand argument, mark ":", raw usage.identity])
  | .typeTest op argument tested only =>
      .ok (kind (op.kind only) :: enclosed [operand argument, mark ":", raw tested.type.identity])
  | .newInstance arguments related =>
      .ok
        ([kind .newInstance, mark ":", raw usage.type.identity]
          ++ enclosed (eachParenthesized arguments ++ related.flatMap Piece.related))
  | .ref set argument =>
      match usage.type.referenced? with
      | some element =>
          .ok
            (kind .ref :: enclosed
              (mark "ESET" :: enclosed (setName set) ++ mark "T" :: enclosed [raw element.identity]
                ++ parenthesized argument))
      | none => .error (noReference usage)
  | .navigate source start target =>
      .ok
        (kind .relationshipNavigation :: parenthesized source ++ navigation start target)
  | .limit argument count withTies =>
      .ok
        (kind .limit :: (if withTies then [mark "WithTies"] else [])
          ++ parenthesized argument ++ parenthesized count)
  | .filter input predicate =>
      .ok (kind .filter :: enclosed (binding input ++ parenthesized predicate))
  | .project input projection =>
      .ok (kind .project :: enclosed (binding input ++ parenthesized projection))
  | .quantify quantifier input predicate =>
      .ok (kind quantifier.kind :: enclosed (binding input ++ parenthesized predicate))
  | .crossJoin inputs => .ok (kind .crossJoin :: enclosed (inputs.flatMap binding))
  | .join join left right condition =>
      .ok
        (kind join.kind :: enclosed
          (binding left ++ binding right ++ parenthesized condition))
  | .apply apply input applied =>
      .ok (kind apply.kind :: enclosed (binding input ++ binding applied))
  | .groupBy input keys aggregates =>
      .ok
        (kind .groupBy :: enclosed
          (groupBinding input ++ keys.flatMap groupKey ++ aggregates.flatMap aggregate))
  | .skip input order count =>
      .ok
        (kind .skip :: enclosed (binding input ++ sortOrder order ++ parenthesized count))
  | .sort input order => .ok (kind .sort :: enclosed (binding input ++ sortOrder order))
  | .extension _ _ => .error (.unsupportedExpression body.label)

end QueryKey.Key
