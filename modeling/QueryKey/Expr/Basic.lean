import QueryKey.Expr.Body

/-! Expressions: trees of typed nodes. Every pass over a tree is a `fold`, which computes a
node's result from its type and its operation over the results of its operands.
-/

namespace QueryKey

open QueryKey.Metadata QueryKey.Expr

/-- A node of a query command tree: the type of its result and its operation. -/
inductive Expr where
  | node (usage : TypeUsage) (body : Body Expr)

namespace Expr

def usage : Expr → TypeUsage
  | node usage _ => usage

def body : Expr → Body Expr
  | node _ body => body

def children (e : Expr) : List Expr :=
  e.body.children

def kind? (e : Expr) : Option NodeKind :=
  e.body.kind?

def label (e : Expr) : String :=
  e.body.label

section Fold

variable {α : Type} (step : TypeUsage → Body α → α)

mutual
/-- The result of a pass: `step` at every node, over the results of its operands. -/
def fold : Expr → α
  | node usage body => step usage (foldBody body)

def foldBody : Body Expr → Body α
  | .constant value => .constant value
  | .null => .null
  | .variableRef name => .variableRef name
  | .parameter name => .parameter name
  | .scan target => .scan target
  | .call function arguments => .call function (foldList arguments)
  | .lambda formals body arguments => .lambda formals (fold body) (foldList arguments)
  | .property subject name => .property (fold subject) name
  | .comparison op left right => .comparison op (fold left) (fold right)
  | .like argument pattern escape =>
      .like (fold argument) (fold pattern) (foldOption escape)
  | .arithmetic op arguments => .arithmetic op (foldList arguments)
  | .unary op argument => .unary op (fold argument)
  | .binary op left right => .binary op (fold left) (fold right)
  | .inList item list => .inList (fold item) (foldList list)
  | .case arms otherwise => .case (foldArms arms) (fold otherwise)
  | .convert op argument => .convert op (fold argument)
  | .typeTest op argument tested only => .typeTest op (fold argument) tested only
  | .newInstance arguments related =>
      .newInstance (foldList arguments) (foldRelated related)
  | .ref set argument => .ref set (fold argument)
  | .navigate source start target => .navigate (fold source) start target
  | .limit argument count withTies => .limit (fold argument) (fold count) withTies
  | .filter input predicate => .filter (foldBinding input) (fold predicate)
  | .project input projection => .project (foldBinding input) (fold projection)
  | .quantify quantifier input predicate =>
      .quantify quantifier (foldBinding input) (fold predicate)
  | .crossJoin inputs => .crossJoin (foldBindings inputs)
  | .join kind left right condition =>
      .join kind (foldBinding left) (foldBinding right) (fold condition)
  | .apply kind input applied => .apply kind (foldBinding input) (foldBinding applied)
  | .groupBy input keys aggregates =>
      .groupBy (foldGroupBinding input) (foldList keys) (foldAggregates aggregates)
  | .skip input order count => .skip (foldBinding input) (foldClauses order) (fold count)
  | .sort input order => .sort (foldBinding input) (foldClauses order)
  | .extension name arguments => .extension name (foldList arguments)

def foldList : List Expr → List α
  | [] => []
  | e :: rest => fold e :: foldList rest

def foldOption : Option Expr → Option α
  | none => none
  | some e => some (fold e)

def foldBinding : Binding Expr → Binding α
  | ⟨name, source⟩ => ⟨name, fold source⟩

def foldBindings : List (Binding Expr) → List (Binding α)
  | [] => []
  | b :: rest => foldBinding b :: foldBindings rest

def foldGroupBinding : GroupBinding Expr → GroupBinding α
  | ⟨name, groupName, source⟩ => ⟨name, groupName, fold source⟩

def foldArm : Arm Expr → Arm α
  | ⟨condition, result⟩ => ⟨fold condition, fold result⟩

def foldArms : List (Arm Expr) → List (Arm α)
  | [] => []
  | arm :: rest => foldArm arm :: foldArms rest

def foldClause : SortClause Expr → SortClause α
  | ⟨key, ascending, collation⟩ => ⟨fold key, ascending, collation⟩

def foldClauses : List (SortClause Expr) → List (SortClause α)
  | [] => []
  | clause :: rest => foldClause clause :: foldClauses rest

def foldRelatedRef : RelatedRef Expr → RelatedRef α
  | ⟨source, target, reference⟩ => ⟨source, target, fold reference⟩

def foldRelated : List (RelatedRef Expr) → List (RelatedRef α)
  | [] => []
  | r :: rest => foldRelatedRef r :: foldRelated rest

def foldAggregate : Aggregate Expr → Aggregate α
  | .function g distinct arguments => .function g distinct (foldList arguments)
  | .group argument => .group (fold argument)

def foldAggregates : List (Aggregate Expr) → List (Aggregate α)
  | [] => []
  | a :: rest => foldAggregate a :: foldAggregates rest
end

theorem foldList_eq_map (es : List Expr) : foldList step es = es.map (fold step) := by
  induction es with
  | nil => rfl
  | cons e rest ih => simp [foldList, ih]

theorem foldOption_eq_map (e? : Option Expr) : foldOption step e? = e?.map (fold step) := by
  cases e? <;> rfl

theorem foldBinding_eq_map (b : Binding Expr)
    : foldBinding step b = b.map (fold step) := by
  cases b; rfl

theorem foldGroupBinding_eq_map (b : GroupBinding Expr)
    : foldGroupBinding step b = b.map (fold step) := by
  cases b; rfl

theorem foldBindings_eq_map (bs : List (Binding Expr))
    : foldBindings step bs = bs.map (Binding.map (fold step)) := by
  induction bs with
  | nil => rfl
  | cons b rest ih => simp [foldBindings, foldBinding_eq_map, ih]

theorem foldArms_eq_map (arms : List (Arm Expr))
    : foldArms step arms = arms.map (Arm.map (fold step)) := by
  induction arms with
  | nil => rfl
  | cons arm rest ih => cases arm; simp [foldArms, foldArm, Arm.map, ih]

theorem foldClauses_eq_map (clauses : List (SortClause Expr))
    : foldClauses step clauses = clauses.map (SortClause.map (fold step)) := by
  induction clauses with
  | nil => rfl
  | cons clause rest ih => cases clause; simp [foldClauses, foldClause, SortClause.map, ih]

theorem foldRelated_eq_map (related : List (RelatedRef Expr))
    : foldRelated step related = related.map (RelatedRef.map (fold step)) := by
  induction related with
  | nil => rfl
  | cons r rest ih => cases r; simp [foldRelated, foldRelatedRef, RelatedRef.map, ih]

theorem foldAggregates_eq_map (aggregates : List (Aggregate Expr))
    : foldAggregates step aggregates = aggregates.map (Aggregate.map (fold step)) := by
  induction aggregates with
  | nil => rfl
  | cons a rest ih =>
      cases a <;> simp [foldAggregates, foldAggregate, Aggregate.map, foldList_eq_map, ih]

/-- Folding a body folds each of its operands. -/
theorem foldBody_eq_map (b : Body Expr) : foldBody step b = b.map (fold step) := by
  cases b <;>
    simp [foldBody, Body.map, foldList_eq_map, foldOption_eq_map, foldBindings_eq_map,
      foldArms_eq_map, foldClauses_eq_map, foldRelated_eq_map, foldAggregates_eq_map,
      foldBinding_eq_map, foldGroupBinding_eq_map]

/-- What a pass computes at a node, in terms of the operands of the node. -/
theorem fold_node (usage : TypeUsage) (body : Body Expr)
    : fold step (.node usage body) = step usage (body.map (fold step)) := by
  rw [fold, foldBody_eq_map]

end Fold

/-- Equality by value: the same types and operations, and operands that are pairwise equal.
Constants are compared as values.
-/
def sameValue : Expr → Expr → Bool :=
  fold fun usage body other =>
    usage == other.usage && body.shape.sameOperation other.body.shape
      && (body.children.zip other.children).all fun (same, child) => same child

end Expr

end QueryKey
