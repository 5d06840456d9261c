import QueryKey.Expr.Builder
import QueryKey.Proofs.Key.FirstFailure

/-! Trees that were put together with the builders. A builder derives from its operands whatever
generation asks of a node, so that every composition of builders has a key.
-/

namespace QueryKey.Expr

open QueryKey.Metadata

/-- The trees that compositions of builders make: constants by the natural kinds of their payloads,
and no provider-specific nodes. A constant of the kind without text and a negation with two
operands are left out. Bindings, sort clauses and aggregates are built if the trees in them are;
references to what is bound are variables.
-/
inductive Built : Expr → Prop
  | constant {value : Payload} (hvalue : value.naturalKind ≠ .hierarchyId) : Built (constant value)
  | null (usage : TypeUsage) : Built (null usage)
  | variableRef (name : String) (usage : TypeUsage) : Built (variableRef name usage)
  | parameter (name : String) (usage : TypeUsage) : Built (parameter name usage)
  | scan (target : EntitySet) : Built (scan target)
  | call (function : Function) (usage : TypeUsage) {arguments : List Expr}
      (harguments : ∀ e ∈ arguments, Built e)
      : Built (call function usage arguments)
  | lambda (formals : List Formal) {body : Expr} {arguments : List Expr} (hbody : Built body)
      (harguments : ∀ e ∈ arguments, Built e)
      : Built (lambda formals body arguments)
  | property {subject : Expr} (name : String) (usage : TypeUsage) (hsubject : Built subject)
      : Built (subject.property name usage)
  | compare {left right : Expr} (op : ComparisonOp) (hleft : Built left) (hright : Built right)
      : Built (left.compare op right)
  | like {argument pattern : Expr} {escape : Option Expr} (hargument : Built argument)
      (hpattern : Built pattern) (hescape : ∀ e ∈ escape, Built e)
      : Built (argument.like pattern escape)
  | isNull {argument : Expr} (hargument : Built argument) : Built argument.isNull
  | arithmetic {left right : Expr} {op : ArithmeticOp} (hop : op ≠ .unaryMinus)
      (hleft : Built left) (hright : Built right)
      : Built (left.arithmetic op right)
  | negate {argument : Expr} (hargument : Built argument) : Built argument.negate
  | and {left right : Expr} (hleft : Built left) (hright : Built right) : Built (left.and right)
  | or {left right : Expr} (hleft : Built left) (hright : Built right) : Built (left.or right)
  | not {argument : Expr} (hargument : Built argument) : Built argument.not
  | inList {item : Expr} {list : List Expr} (hitem : Built item) (hlist : ∀ e ∈ list, Built e)
      : Built (item.inList list)
  | case {arms : List (Arm Expr)} {otherwise : Expr} (hconditions : ∀ a ∈ arms, Built a.condition)
      (hresults : ∀ a ∈ arms, Built a.result) (hotherwise : Built otherwise)
      : Built (case arms otherwise)
  | cast {argument : Expr} (usage : TypeUsage) (hargument : Built argument)
      : Built (argument.cast usage)
  | treat {argument : Expr} (usage : TypeUsage) (hargument : Built argument)
      : Built (argument.treat usage)
  | isOf {argument : Expr} (tested : TypeUsage) (only : Bool) (hargument : Built argument)
      : Built (argument.isOf tested only)
  | ofType {argument : Expr} (tested : TypeUsage) (only : Bool) (hargument : Built argument)
      : Built (argument.ofType tested only)
  | newInstance (usage : TypeUsage) {arguments : List Expr} (harguments : ∀ e ∈ arguments, Built e)
      : Built (newInstance usage arguments)
  | withRelated {e made : Expr} {related : RelatedRef Expr} (he : Built e)
      (hreference : Built related.reference) (hmade : e.withRelated related = .ok made)
      : Built made
  | entityRefTo (set : EntitySet) {key : Expr} (hkey : Built key) : Built (entityRefTo set key)
  | navigate {source : Expr} (start target : RelationEnd) (usage : TypeUsage)
      (hsource : Built source)
      : Built (source.navigate start target usage)
  | deref {argument : Expr} (hargument : Built argument) : Built argument.deref
  | refKey {argument : Expr} (usage : TypeUsage) (hargument : Built argument)
      : Built (argument.refKey usage)
  | entityRef {argument : Expr} (hargument : Built argument) : Built argument.entityRef
  | distinct {argument : Expr} (hargument : Built argument) : Built argument.distinct
  | element {argument : Expr} (hargument : Built argument) : Built argument.element
  | isEmpty {argument : Expr} (hargument : Built argument) : Built argument.isEmpty
  | unionAll {left right : Expr} (hleft : Built left) (hright : Built right)
      : Built (left.unionAll right)
  | intersect {left right : Expr} (hleft : Built left) (hright : Built right)
      : Built (left.intersect right)
  | except {left right : Expr} (hleft : Built left) (hright : Built right)
      : Built (left.except right)
  | limit {argument count : Expr} (withTies : Bool) (hargument : Built argument)
      (hcount : Built count)
      : Built (argument.limit count withTies)
  | crossJoin {inputs : List (Binding Expr)} (usage : TypeUsage)
      (hinputs : ∀ b ∈ inputs, Built b.source)
      : Built (crossJoin inputs usage)
  | join (kind : JoinKind) {left right : Binding Expr} {condition : Expr} (usage : TypeUsage)
      (hleft : Built left.source) (hright : Built right.source) (hcondition : Built condition)
      : Built (join kind left right condition usage)
  | apply (kind : ApplyKind) {input applied : Binding Expr} (usage : TypeUsage)
      (hinput : Built input.source) (happlied : Built applied.source)
      : Built (apply kind input applied usage)
  | groupBy {input : GroupBinding Expr} {keys : List Expr} {aggregates : List (Aggregate Expr)}
      (usage : TypeUsage) (hinput : Built input.source) (hkeys : ∀ e ∈ keys, Built e)
      (haggregates : ∀ a ∈ aggregates, ∀ e ∈ a.operands, Built e)
      : Built (groupBy input keys aggregates usage)
  | filter {input : Binding Expr} {predicate : Expr} (hinput : Built input.source)
      (hpredicate : Built predicate)
      : Built (input.filter predicate)
  | project {input : Binding Expr} {projection : Expr} (hinput : Built input.source)
      (hprojection : Built projection)
      : Built (input.project projection)
  | sort {input : Binding Expr} {order : List (SortClause Expr)} (hinput : Built input.source)
      (horder : ∀ c ∈ order, Built c.key)
      : Built (input.sort order)
  | skip {input : Binding Expr} {order : List (SortClause Expr)} {count : Expr}
      (hinput : Built input.source) (horder : ∀ c ∈ order, Built c.key) (hcount : Built count)
      : Built (input.skip order count)
  | quantify {input : Binding Expr} (quantifier : QuantifierKind) {predicate : Expr}
      (hinput : Built input.source) (hpredicate : Built predicate)
      : Built (input.quantify quantifier predicate)

end QueryKey.Expr

namespace QueryKey.Key

open QueryKey.Expr QueryKey.Metadata

/-- No operation in the tree is defective. -/
def IsSound (e : Expr) : Prop :=
  ∀ n ∈ e.nodes, operationFailure? n = none

/-- A tree is sound if its root is and its operands are. -/
theorem isSound_node {usage : TypeUsage} {body : Body Expr}
    (hroot : operationFailure? (.node usage body) = none)
    (hchildren : ∀ c ∈ body.children, IsSound c)
    : IsSound (.node usage body) := by
  intro n hn
  rw [nodes_eq, List.mem_cons, List.mem_flatMap] at hn
  rcases hn with rfl | ⟨c, hc, hn⟩
  · exact hroot
  · exact hchildren c hc n hn

theorem IsSound.child {e c : Expr} (h : IsSound e) (hc : c ∈ e.children) : IsSound c :=
  fun n hn => h n (mem_nodes_of_mem_children hc hn)

/-- A constant of the natural kind of its payload has a text, unless the kind has none. -/
theorem operationFailure?_constant_natural {value : Payload}
    (h : value.naturalKind ≠ .hierarchyId)
    : operationFailure? (Expr.constant value) = none := by
  cases value with
  | hierarchyId path => exact absurd rfl h
  | _ => rfl

/-- Every operator but negation takes two operands. -/
theorem operationFailure?_arithmetic {left right : Expr} {op : ArithmeticOp} (h : op ≠ .unaryMinus)
    : operationFailure? (left.arithmetic op right) = none := by
  cases op with
  | unaryMinus => exact absurd rfl h
  | _ => rfl

/-- Related references leave a constructor sound, if they are sound themselves. -/
theorem isSound_withRelated {e made : Expr} {related : RelatedRef Expr}
    (hmade : e.withRelated related = .ok made) (he : IsSound e)
    (hreference : IsSound related.reference)
    : IsSound made := by
  rcases e with ⟨usage, body⟩
  cases body with
  | newInstance arguments present =>
      obtain rfl := Except.ok.inj hmade
      refine isSound_node rfl fun c hc => ?_
      simp only [Body.children, List.map_append, List.map_cons, List.map_nil, List.mem_append,
        List.mem_singleton] at hc
      rcases hc with hc | hc | rfl
      · exact he.child (List.mem_append_left _ hc)
      · exact he.child (List.mem_append_right _ hc)
      · exact hreference
  | _ => cases hmade

/-- What builders make is sound, by induction on the composition: the operands are sound, and the
root has the number of operands and the type that its operation needs.
-/
theorem isSound_of_built {e : Expr} (h : Built e) : IsSound e := by
  induction h with
  | constant hvalue =>
      exact isSound_node (operationFailure?_constant_natural hvalue) (by simp [Body.children])
  | null | variableRef | parameter | scan => exact isSound_node rfl (by simp [Body.children])
  | call _ _ _ ih | newInstance _ _ ih =>
      exact isSound_node rfl (by simpa [Body.children] using ih)
  | lambda _ _ _ hbody harguments =>
      refine isSound_node rfl ?_
      simpa [Body.children, or_imp, forall_and] using ⟨harguments, hbody⟩
  | isNull _ ih | not _ ih | negate _ ih | cast _ _ ih | treat _ _ ih | isOf _ _ _ ih
  | ofType _ _ _ ih | property _ _ _ ih | entityRefTo _ _ ih | navigate _ _ _ _ ih | deref _ ih
  | refKey _ _ ih | entityRef _ ih | distinct _ ih | element _ ih | isEmpty _ ih =>
      exact isSound_node rfl (by simpa [Body.children] using ih)
  | compare _ _ _ hleft hright | and _ _ hleft hright | or _ _ hleft hright
  | unionAll _ _ hleft hright | intersect _ _ hleft hright | except _ _ hleft hright
  | limit _ _ _ hleft hright | filter _ _ hleft hright | project _ _ hleft hright
  | quantify _ _ _ hleft hright | apply _ _ _ _ hleft hright =>
      exact isSound_node rfl (by simpa [Body.children] using ⟨hleft, hright⟩)
  | arithmetic hop _ _ hleft hright =>
      exact isSound_node (operationFailure?_arithmetic hop)
        (by simpa [Body.children] using ⟨hleft, hright⟩)
  | like _ _ _ hargument hpattern hescape =>
      exact isSound_node rfl (by simpa [Body.children] using ⟨hargument, hpattern, hescape⟩)
  | inList _ _ hitem hlist =>
      exact isSound_node rfl (by simpa [Body.children] using ⟨hitem, hlist⟩)
  | case _ _ _ hconditions hresults hotherwise =>
      refine isSound_node rfl ?_
      simp only [Body.children, List.forall_mem_append, List.forall_mem_flatMap,
        List.forall_mem_cons]
      exact ⟨fun a ha => ⟨hconditions a ha, hresults a ha, List.forall_mem_nil _⟩, hotherwise,
        List.forall_mem_nil _⟩
  | withRelated _ _ hmade he hreference => exact isSound_withRelated hmade he hreference
  | crossJoin _ _ ih => exact isSound_node rfl (by simpa [Body.children] using ih)
  | join _ _ _ _ _ hleft hright hcondition =>
      exact isSound_node rfl (by simpa [Body.children] using ⟨hleft, hright, hcondition⟩)
  | groupBy _ _ _ _ hinput hkeys haggregates =>
      refine isSound_node rfl ?_
      simp only [Body.children, List.cons_append, List.forall_mem_cons, List.forall_mem_append,
        List.forall_mem_flatMap]
      exact ⟨hinput, hkeys, haggregates⟩
  | sort _ _ hinput horder =>
      exact isSound_node rfl (by simpa [Body.children] using ⟨hinput, horder⟩)
  | skip _ _ _ hinput horder hcount =>
      refine isSound_node rfl ?_
      simp only [Body.children, List.cons_append, List.forall_mem_cons, List.forall_mem_append,
        List.forall_mem_map]
      exact ⟨hinput, horder, hcount, List.forall_mem_nil _⟩

/-- Every tree that was put together with the builders has a key, if there is no depth limit and
generated aliases are allowed.
-/
theorem exists_key_of_built {e : Expr} (h : Built e)
    : ∃ key, generate { maxDepth := none, rejectGeneratedAliases := false } e = .ok key := by
  refine exists_key_iff.mpr fun p hp => ?_
  exact isSound_of_built h p.1 (List.mem_map_of_mem hp)

/-- A credit note for each order, which takes back the total and refers to its customer. -/
def creditNotes : Expr :=
  let orders := bindAs (scan ⟨"Shop", "Orders", .entity "Order"⟩) "o"
  let total := orders.reference.property "Total" (.primitive .int32)
  let customer := entityRefTo ⟨"Shop", "Customers", .entity "Customer"⟩ (constant (.int32 7))
  orders.project
    (node (.ofType (.entity "Note"))
      (.newInstance [total.negate] [⟨⟨"Note", "Credited"⟩, ⟨"Customer", "Credited"⟩, customer⟩]))

/-- The notes are projected from a scan; a note is a constructor with one related reference. -/
theorem built_creditNotes : Built creditNotes := by
  have hnumber : Payload.naturalKind (.int32 7) ≠ .hierarchyId := by decide
  refine .project (.scan _) ?_
  refine .withRelated (.newInstance _ fun e he => ?_) (.entityRefTo _ (.constant hnumber)) rfl
  obtain rfl := List.mem_singleton.mp he
  exact .negate (.property _ _ (.variableRef _ _))

theorem exists_key_creditNotes
    : Built creditNotes
      ∧ ∃ key, generate { maxDepth := none, rejectGeneratedAliases := false } creditNotes
          = .ok key :=
  ⟨built_creditNotes, exists_key_of_built built_creditNotes⟩

end QueryKey.Key
