import QueryKey.Proofs.Expr.Walk
import QueryKey.Proofs.Key.Recorded
import QueryKey.Proofs.Metadata.Identity

/-! Clean trees: all names in them are clean, their metadata is built from clean names, and their
constants have exact texts. The names of variables may be any texts. In legible trees there are
shapes as well, and the names of parameters may be any texts in which no colon ends them early.
-/

namespace QueryKey.Metadata

def EntitySet.IsClean (set : EntitySet) : Prop :=
  isClean set.container = true ∧ isClean set.name = true

def RelationEnd.IsClean (e : RelationEnd) : Prop :=
  isClean e.name = true ∧ isClean e.association = true

theorem TypeUsage.Built.type {usage : TypeUsage} (h : usage.Built) : usage.type.Built := by
  cases h with
  | ofType built => exact built
  | @withFacets type facets built clean => cases facets <;> exact built

theorem ModelType.Built.referenced {type element : ModelType} (h : type.Built)
    (hr : type.referenced? = some element)
    : element.Built := by
  cases h with
  | reference built =>
      cases hr
      exact built
  | _ => cases hr

end QueryKey.Metadata

namespace QueryKey.Expr

open QueryKey.Metadata

variable {ε : Type}

def Aggregate.IsClean : Aggregate ε → Prop
  | function g _ _ => g.Built
  | group _ => True

/-- A collation is clean or has no name. -/
def SortClause.IsClean (c : SortClause ε) : Prop :=
  ∀ collation ∈ c.collation, collation.isEmpty = true ∨ isClean collation = true

def Body.IsClean (b : Body ε) : Prop :=
  match b with
  | constant payload => payload.isExact = true
  | parameter name | property _ name => isClean name = true
  | scan set | ref set _ => set.IsClean
  | call g _ => g.Built
  | lambda formals _ _ => ∀ f ∈ formals, f.usage.Built
  | typeTest _ _ tested _ => tested.Built
  | newInstance _ related => ∀ r ∈ related, r.source.IsClean ∧ r.target.IsClean
  | navigate _ start target => start.IsClean ∧ target.IsClean
  | groupBy _ _ aggregates => ∀ a ∈ aggregates, a.IsClean
  | skip _ order _ | sort _ order => ∀ c ∈ order, c.IsClean
  | _ => True

/-- Like a clean operation, but the names of parameters may be any texts without colons, and so may
the texts of shapes.
-/
def Body.IsLegible (b : Body ε) : Prop :=
  match b with
  | constant payload => payload.IsLegible
  | parameter name => ':' ∉ name.toList
  | _ => b.IsClean

/-- Whether the operation is no constant that holds a shape on the globe. -/
def Body.IsFlat (b : Body ε) : Prop :=
  ∀ payload, b = constant payload → payload.IsFlat

theorem Body.IsClean.isLegible {b : Body ε} (h : b.IsClean) : b.IsLegible := by
  cases b with
  | constant payload => exact Payload.isLegible_of_isExact h
  | parameter name =>
      intro hcolon
      exact absurd (isWordChar_of_isClean h ':' hcolon) (by decide)
  | _ => exact h

theorem Body.IsClean.isFlat {b : Body ε} (h : b.IsClean) : b.IsFlat := by
  rintro payload rfl
  exact Payload.isFlat_of_isExact h

/-- Every node of the tree is clean and has a usage that is built from clean names. -/
def IsClean (e : Expr) : Prop :=
  ∀ n ∈ e.nodes, n.usage.Built ∧ n.body.IsClean

theorem isClean_node {usage : TypeUsage} {body : Body Expr}
    : (node usage body).IsClean
      ↔ usage.Built ∧ body.IsClean ∧ ∀ c ∈ body.children, c.IsClean := by
  simp only [IsClean, nodes_eq (node usage body), List.forall_mem_cons, List.forall_mem_flatMap,
    Expr.usage, Expr.body, Expr.children, and_assoc]

/-- Every node of the tree is legible and has a usage that is built from clean names. -/
def IsLegible (e : Expr) : Prop :=
  ∀ n ∈ e.nodes, n.usage.Built ∧ n.body.IsLegible

/-- No constant in the tree holds a shape on the globe. -/
def IsFlat (e : Expr) : Prop :=
  ∀ n ∈ e.nodes, n.body.IsFlat

theorem IsClean.isLegible {e : Expr} (h : e.IsClean) : e.IsLegible :=
  fun n hn => ⟨(h n hn).1, (h n hn).2.isLegible⟩

theorem IsClean.isFlat {e : Expr} (h : e.IsClean) : e.IsFlat :=
  fun n hn => (h n hn).2.isFlat

end QueryKey.Expr
