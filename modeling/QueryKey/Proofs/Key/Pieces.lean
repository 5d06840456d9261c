import QueryKey.Key.Template

/-! Templates as words: a template does not depend on what stands for the operands of a node, and
its operands are the node's children in the order of walks.
-/

namespace QueryKey.Key

open QueryKey.Expr QueryKey.Metadata

variable {ε δ : Type}

namespace Piece

-----------------------------------------------------------------------------------------
-- Replacing operands
-----------------------------------------------------------------------------------------

@[simp] theorem map_mark (f : ε → δ) (text : String) : (mark text).map f = mark text := rfl

@[simp] theorem map_raw (f : ε → δ) (text : String) : (raw text).map f = raw text := rfl

@[simp] theorem map_boundName (f : ε → δ) (name : String)
    : (boundName name).map f = boundName name := rfl

@[simp] theorem map_literal (f : ε → δ) (text : String)
    : (literal text).map f = literal text := rfl

@[simp] theorem map_operand (f : ε → δ) (e : ε) : (operand e).map f = operand (f e) := rfl

@[simp] theorem map_kind (f : ε → δ) (k : NodeKind) : (kind k).map f = kind k := rfl

/-- Fragments made for every item of a list may be made after replacing the operands. -/
theorem map_flatMap {α β : Type} (f : ε → δ) (g : α → β) (items : List α)
    {fragment : α → List (Piece ε)} {replaced : β → List (Piece δ)}
    (h : ∀ a, (fragment a).map (map f) = replaced (g a))
    : (items.flatMap fragment).map (map f) = (items.map g).flatMap replaced := by
  simp only [List.map_flatMap, List.flatMap_map, h]

@[simp] theorem map_parenthesized (f : ε → δ) (e : ε)
    : (parenthesized e).map (map f) = parenthesized (f e) := rfl

@[simp] theorem map_eachParenthesized (f : ε → δ) (es : List ε)
    : (eachParenthesized es).map (map f) = eachParenthesized (es.map f) :=
  map_flatMap f f es (map_parenthesized f)

@[simp] theorem map_separated (f : ε → δ) (es : List ε)
    : (separated es).map (map f) = separated (es.map f) := by
  induction es with
  | nil => rfl
  | cons e rest ih =>
      cases rest with
      | nil => rfl
      | cons d rest => simp_all [separated]

@[simp] theorem map_binding (f : ε → δ) (b : Binding ε)
    : (binding b).map (map f) = binding (b.map f) := rfl

@[simp] theorem map_groupBinding (f : ε → δ) (b : GroupBinding ε)
    : (groupBinding b).map (map f) = groupBinding (b.map f) := rfl

@[simp] theorem map_call (f : ε → δ) (g : Function) (arguments : List ε)
    : (call g arguments).map (map f) = call g (arguments.map f) := by
  simp [call]

@[simp] theorem map_setName (f : ε → δ) (set : EntitySet)
    : (setName set).map (map f) = setName set := rfl

@[simp] theorem map_navigation (f : ε → δ) (start target : RelationEnd)
    : (navigation start target).map (map f) = navigation start target := rfl

@[simp] theorem map_formal (f : ε → δ) (x : Formal) : (formal x).map (map f) = formal x := rfl

@[simp] theorem map_clause (f : ε → δ) (c : SortClause ε)
    : (clause c).map (map f) = clause (c.map f) := by
  rcases c with ⟨key, ascending, collation⟩
  cases collation with
  | none => rfl
  | some collation =>
      by_cases h : collation.isEmpty <;> simp only [clause, SortClause.map, h, if_true, if_false,
        Bool.false_eq_true] <;> rfl

@[simp] theorem map_sortOrder (f : ε → δ) (order : List (SortClause ε))
    : (sortOrder order).map (map f) = sortOrder (order.map (SortClause.map f)) := by
  simp [sortOrder, map_flatMap f (SortClause.map f) order (map_clause f)]

@[simp] theorem map_arm (f : ε → δ) (a : Arm ε) : (arm a).map (map f) = arm (a.map f) := rfl

@[simp] theorem map_related (f : ε → δ) (r : RelatedRef ε)
    : (related r).map (map f) = related (r.map f) := by
  simp [related, RelatedRef.map]

@[simp] theorem map_aggregate (f : ε → δ) (a : Aggregate ε)
    : (aggregate a).map (map f) = aggregate (a.map f) := by
  cases a with
  | function g distinct arguments => cases distinct <;> simp [aggregate, Aggregate.map]
  | group argument => rfl

@[simp] theorem map_groupKey (f : ε → δ) (e : ε)
    : (groupKey e).map (map f) = groupKey (f e) := rfl

@[simp] theorem map_enclosed (f : ε → δ) (pieces : List (Piece ε))
    : (enclosed pieces).map (map f) = enclosed (pieces.map (map f)) := by
  simp [enclosed]

end Piece

open Piece

/-- A template is the same for whatever stands for the operands. -/
theorem template_map (f : ε → δ) (usage : TypeUsage) (body : Body ε)
    : template usage (body.map f) = (template usage body).map (List.map (Piece.map f)) := by
  cases body with
  | constant value =>
      simp only [Body.map, template]
      cases Literal.text value usage <;> rfl
  | like argument pattern escape =>
      cases escape <;> simp [Body.map, template, Except.map]
  | arithmetic op arguments =>
      simp only [Body.map, template, List.length_map]
      split <;> simp [Except.map]
  | ref set argument =>
      simp only [Body.map, template]
      cases usage.type.referenced? <;> simp [Except.map]
  | limit argument count withTies =>
      cases withTies <;> simp [Body.map, template, Except.map]
  | lambda formals body arguments =>
      simp [Body.map, template, Except.map, List.map_flatMap]
  | case arms otherwise =>
      simp [Body.map, template, Except.map, map_flatMap f (Arm.map f) arms (map_arm f)]
  | newInstance arguments related =>
      simp [Body.map, template, Except.map,
        map_flatMap f (RelatedRef.map f) related (map_related f)]
  | crossJoin inputs =>
      simp [Body.map, template, Except.map,
        map_flatMap f (Binding.map f) inputs (map_binding f)]
  | groupBy input keys aggregates =>
      simp [Body.map, template, Except.map, map_flatMap f f keys (map_groupKey f),
        map_flatMap f (Aggregate.map f) aggregates (map_aggregate f)]
  | _ => simp [Body.map, template, Except.map, Body.label]

-----------------------------------------------------------------------------------------
-- The operands of a template
-----------------------------------------------------------------------------------------

namespace Piece

def operand? : Piece ε → Option ε
  | operand e => some e
  | _ => none

/-- The operands among pieces, in order. -/
def operands (pieces : List (Piece ε)) : List ε :=
  pieces.filterMap operand?

theorem mem_operands_iff {e : ε} {pieces : List (Piece ε)}
    : e ∈ operands pieces ↔ operand e ∈ pieces := by
  rw [operands, List.mem_filterMap]
  constructor
  · rintro ⟨piece, hpiece, he⟩
    cases piece <;> cases he
    exact hpiece
  · exact fun h => ⟨_, h, rfl⟩

@[simp] theorem operands_nil : operands ([] : List (Piece ε)) = [] := rfl

@[simp] theorem operands_append (front back : List (Piece ε))
    : operands (front ++ back) = operands front ++ operands back :=
  List.filterMap_append ..

@[simp] theorem operands_mark_cons (text : String) (rest : List (Piece ε))
    : operands (mark text :: rest) = operands rest := rfl

@[simp] theorem operands_raw_cons (text : String) (rest : List (Piece ε))
    : operands (raw text :: rest) = operands rest := rfl

@[simp] theorem operands_boundName_cons (name : String) (rest : List (Piece ε))
    : operands (boundName name :: rest) = operands rest := rfl

@[simp] theorem operands_literal_cons (text : String) (rest : List (Piece ε))
    : operands (literal text :: rest) = operands rest := rfl

@[simp] theorem operands_operand_cons (e : ε) (rest : List (Piece ε))
    : operands (operand e :: rest) = e :: operands rest := rfl

@[simp] theorem operands_kind_cons (k : NodeKind) (rest : List (Piece ε))
    : operands (kind k :: rest) = operands rest := rfl

theorem operands_map (f : ε → δ) (pieces : List (Piece ε))
    : operands (pieces.map (map f)) = (operands pieces).map f := by
  induction pieces with
  | nil => rfl
  | cons piece rest ih => cases piece <;> simp [ih]

/-- The operands of fragments made for every item of a list. -/
theorem operands_flatMap {α : Type} (items : List α) (fragment : α → List (Piece ε))
    : operands (items.flatMap fragment) = items.flatMap fun a => operands (fragment a) :=
  List.filterMap_flatMap ..

@[simp] theorem operands_parenthesized (e : ε) : operands (parenthesized e) = [e] := rfl

@[simp] theorem operands_eachParenthesized (es : List ε)
    : operands (eachParenthesized es) = es := by
  simp [eachParenthesized, operands_flatMap]

@[simp] theorem operands_separated (es : List ε) : operands (separated es) = es := by
  induction es with
  | nil => rfl
  | cons e rest ih =>
      cases rest with
      | nil => rfl
      | cons d rest => simp_all [separated]

@[simp] theorem operands_map_operand (es : List ε) : operands (es.map operand) = es := by
  induction es with
  | nil => rfl
  | cons e rest ih => simp [ih]

@[simp] theorem operands_binding (b : Binding ε) : operands (binding b) = [b.source] := rfl

@[simp] theorem operands_groupBinding (b : GroupBinding ε)
    : operands (groupBinding b) = [b.source] := rfl

@[simp] theorem operands_call (g : Function) (arguments : List ε)
    : operands (call g arguments) = arguments := by
  simp [call]

@[simp] theorem operands_setName (set : EntitySet)
    : operands (setName set : List (Piece ε)) = [] := rfl

@[simp] theorem operands_navigation (start target : RelationEnd)
    : operands (navigation start target : List (Piece ε)) = [] := rfl

@[simp] theorem operands_formals (formals : List Formal)
    : operands (formals.flatMap formal : List (Piece ε)) = [] := by
  simp [operands_flatMap, formal]

@[simp] theorem operands_clause (c : SortClause ε) : operands (clause c) = [c.key] := by
  rcases c with ⟨key, ascending, collation⟩
  cases collation with
  | none => rfl
  | some collation => by_cases h : collation.isEmpty <;> simp [clause, h]

@[simp] theorem operands_sortOrder (order : List (SortClause ε))
    : operands (sortOrder order) = order.map SortClause.key := by
  simp [sortOrder, operands_flatMap, List.map_eq_flatMap]

@[simp] theorem operands_related (r : RelatedRef ε) : operands (related r) = [r.reference] := by
  simp [related]

@[simp] theorem operands_aggregate (a : Aggregate ε)
    : operands (aggregate a) = a.operands := by
  cases a with
  | function g distinct arguments => cases distinct <;> simp [aggregate, Aggregate.operands]
  | group argument => rfl

@[simp] theorem operands_enclosed (pieces : List (Piece ε))
    : operands (enclosed pieces) = operands pieces := by
  simp [enclosed]

end Piece

/-- The template of a constant is its literal with the identity of its usage behind it. -/
theorem exists_literal {usage : TypeUsage} {value : Payload} {pieces : List (Piece ε)}
    (h : template usage (.constant value) = .ok pieces)
    : ∃ text, Literal.text value usage = .ok text
        ∧ pieces = [.literal text, .mark ":", .raw usage.identity] := by
  cases ht : Literal.text value usage with
  | error failure => simp [template, ht, Except.map] at h
  | ok text =>
      simp only [template, ht, Except.map, Except.ok.injEq] at h
      exact ⟨text, rfl, h.symm⟩

/-- The operands of a template are the children of the node, in order. -/
theorem operands_template {usage : TypeUsage} {body : Body ε} {pieces : List (Piece ε)}
    (h : template usage body = .ok pieces)
    : operands pieces = body.children := by
  cases body with
  | constant value =>
      obtain ⟨text, -, rfl⟩ := exists_literal h
      rfl
  | arithmetic op arguments =>
      simp only [template] at h
      split at h <;> cases h
      simp [Body.children]
  | ref set argument =>
      simp only [template] at h
      split at h <;> cases h
      simp [Body.children]
  | extension name arguments => cases h
  | limit argument count withTies =>
      cases h
      cases withTies <;> simp [Body.children]
  | case arms otherwise =>
      cases h
      simp [Body.children, operands_flatMap, arm]
  | newInstance arguments related =>
      cases h
      simp [Body.children, operands_flatMap, List.map_eq_flatMap]
  | crossJoin inputs =>
      cases h
      simp [Body.children, operands_flatMap, List.map_eq_flatMap]
  | groupBy input keys aggregates =>
      cases h
      simp [Body.children, operands_flatMap, groupKey]
  | _ =>
      cases h
      simp [Body.children]

end QueryKey.Key
