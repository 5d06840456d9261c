import QueryKey.Expr.Walk
import QueryKey.Key.Alias
import QueryKey.Validation.Report

/-! The rules of validation. A rule looks at one node at a time; its report on a tree collects
what it finds on the walk over the tree.
-/

namespace QueryKey.Validation

open QueryKey.Expr QueryKey.Metadata QueryKey.Key

/-- Something wrong with a node, before its path is known. -/
inductive Issue where
  | error (code : ErrorCode) (message : String)
  | warning (code : WarningCode) (message : String)
deriving DecidableEq

inductive Rule where
  | names | identities | arity | constants
deriving DecidableEq

namespace Rule

/-- Every rule, in the order in which validation applies them. -/
def all : List Rule := [.names, .identities, .arity, .constants]

def name : Rule → String
  | names => "names"
  | identities => "identities"
  | arity => "arity"
  | constants => "constants"

instance : Text.Vocabulary Rule := ⟨all, name⟩

def description : Rule → String
  | names =>
      "Validates that variables, parameters and members are named, and flags generated aliases"
  | identities => "Validates that result types, functions and entity sets carry identities"
  | arity => "Validates operand counts of arithmetic, IN, CROSS JOIN, CASE and sort operators"
  | constants => "Validates that constants are scalar and that payloads match declared kinds"

/-- Variables must have a name, and it should not be a generated one. -/
def aliasIssues (name : String) : List Issue :=
  if name.isEmpty then
    [.error .emptyVariableName "Variable name cannot be empty"]
  else if isGeneratedAlias name then
    [.warning .generatedAlias ("Variable '" ++ name ++ "' comes from the default alias generator")]
  else
    []

/-- Parameters, properties and the ends of a navigation must have names. -/
def memberIssues (body : Body Expr) : List Issue :=
  match body with
  | .parameter name =>
      if name.isEmpty then [.error .emptyParameterName "Parameter name cannot be empty"] else []
  | .property _ name =>
      if name.isEmpty then [.error .emptyMemberName "Property name cannot be empty"] else []
  | .navigate _ start target =>
      if start.name.isEmpty || target.name.isEmpty then
        [.error .emptyMemberName "Relationship end names cannot be empty"]
      else
        []
  | _ => []

def noIdentity (what : String) : Issue :=
  .error .emptyIdentity (what ++ " has no identity")

def setIssues (set : EntitySet) : List Issue :=
  if set.container.isEmpty || set.name.isEmpty then [noIdentity "Entity set"] else []

def aggregateIssues : Aggregate Expr → List Issue
  | .function g _ _ => if g.identity.isEmpty then [noIdentity "Aggregate function"] else []
  | .group _ => []

/-- The metadata that an operation refers to must have identities. -/
def metadataIssues (body : Body Expr) : List Issue :=
  match body with
  | .call function _ => if function.identity.isEmpty then [noIdentity "Function"] else []
  | .scan set | .ref set _ => setIssues set
  | .typeTest _ _ tested _ =>
      if tested.type.identity.isEmpty then [noIdentity "Tested type"] else []
  | .groupBy _ _ aggregates => aggregates.flatMap aggregateIssues
  | _ => []

/-- Operators must have as many operands as they take, and lists must not be empty. -/
def arityIssues (body : Body Expr) : List Issue :=
  match body with
  | .arithmetic op arguments =>
      if arguments.length = op.arity then []
      else
        [.error .arityMismatch
          (op.kind.name ++ " expects " ++ toString op.arity ++ " argument(s), found "
            ++ toString arguments.length)]
  | .inList _ list =>
      if list.isEmpty then [.error .emptyList "IN list cannot be empty"] else []
  | .crossJoin inputs =>
      if inputs.length < 2 then
        [.error .arityMismatch
          ("CrossJoin needs at least two inputs, found " ++ toString inputs.length)]
      else
        []
  | .case arms _ =>
      if arms.isEmpty then [.error .emptyList "Case needs at least one WHEN clause"] else []
  | .sort _ order | .skip _ order _ =>
      if order.isEmpty then [.error .emptyList "Sort order cannot be empty"] else []
  | .extension name _ =>
      [.warning .extensionNode ("Provider-specific node '" ++ name ++ "' cannot be keyed")]
  | _ => []

/-- How diagnostics call a type that is not scalar. -/
def structureWord : TypeKind → String
  | .collection _ => "a collection"
  | .reference _ => "a reference"
  | _ => "a structural"

/-- Constants must be scalar, and their payloads should fit the kinds they declare. -/
def constantIssues (usage : TypeUsage) (body : Body Expr) : List Issue :=
  match body with
  | .constant payload =>
      match usage.type.scalarKind? with
      | none =>
          [.error .nonScalarConstant
            ("Constant is declared as " ++ structureWord usage.type.kind ++ " type '"
              ++ usage.identity ++ "'")]
      | some kind =>
          if payload.fits kind then []
          else
            [.warning .constantTypeMismatch
              ("Constant declared as " ++ kind.name ++ " holds a " ++ payload.shapeName
                ++ " value")]
  | _ => []

/-- What the rule finds at a node. -/
def issues (rule : Rule) (e : Expr) : List Issue :=
  match rule with
  | names => e.body.variableNames.flatMap aliasIssues ++ memberIssues e.body
  | identities =>
      (if e.usage.identity.isEmpty then [noIdentity "Result type"] else [])
        ++ metadataIssues e.body
  | arity => arityIssues e.body
  | constants => constantIssues e.usage e.body

/-- Adds an issue at a path. -/
def addIssue (path : String) (r : Report) : Issue → Report
  | .error code message => r.addError ⟨code, message, path⟩
  | .warning code message => r.addWarning ⟨code, message, path⟩

/-- The report of the rule on a tree. -/
def report (rule : Rule) (tree : Expr) : Report :=
  tree.forEachNode (fun r node path => (rule.issues node).foldl (addIssue path) r) .ok

end Rule

/-- The reports of the rules, one after the other. -/
def validate (rules : List Rule) (tree : Expr) : Report :=
  rules.foldl (fun r rule => r.merge (rule.report tree)) .ok

/-- The result of validation by all rules. -/
def check (tree : Expr) : Except Failure Unit :=
  (validate Rule.all tree).toResult

def isValid (tree : Expr) : Bool :=
  (check tree).isOk

/-- The texts of the errors that all rules find. -/
def errorTexts (tree : Expr) : List String :=
  (validate Rule.all tree).messages

end QueryKey.Validation
