import QueryKey.Proofs.Key.Tokens

/-! The names and identities in a key. Each node gives those of its operation and, where its kind
says so, the identity of its type; everything else in a key is notation or the text of a literal.
-/

namespace QueryKey.Key

open QueryKey.Expr QueryKey.Metadata

variable {ε : Type}

/-- A name or an identity in a key; those of variables are quoted, all others stand as they are. -/
inductive Name where
  | plain (text : String)
  | bound (text : String)
deriving DecidableEq

def Name.text : Name → String
  | plain text | bound text => text

@[simp] theorem Name.text_plain (text : String) : (plain text).text = text := rfl

@[simp] theorem Name.text_bound (text : String) : (bound text).text = text := rfl

def Name.piece : Name → Piece ε
  | plain text => .raw text
  | bound text => .boundName text

-----------------------------------------------------------------------------------------
-- The names among pieces
-----------------------------------------------------------------------------------------

namespace Piece

def name? : Piece ε → Option Name
  | raw text => some (.plain text)
  | boundName name => some (.bound name)
  | _ => none

/-- The names among pieces, in order. -/
def names (pieces : List (Piece ε)) : List Name :=
  pieces.filterMap name?

theorem mem_names_iff {name : Name} {pieces : List (Piece ε)}
    : name ∈ names pieces ↔ name.piece ∈ pieces := by
  rw [names, List.mem_filterMap]
  constructor
  · rintro ⟨piece, hpiece, hname⟩
    cases piece <;> cases hname <;> exact hpiece
  · intro h
    exact ⟨_, h, by cases name <;> rfl⟩

@[simp] theorem names_nil : names ([] : List (Piece ε)) = [] := rfl

@[simp] theorem names_append (front back : List (Piece ε))
    : names (front ++ back) = names front ++ names back :=
  List.filterMap_append ..

@[simp] theorem names_mark_cons (text : String) (rest : List (Piece ε))
    : names (mark text :: rest) = names rest := rfl

@[simp] theorem names_raw_cons (text : String) (rest : List (Piece ε))
    : names (raw text :: rest) = .plain text :: names rest := rfl

@[simp] theorem names_boundName_cons (name : String) (rest : List (Piece ε))
    : names (boundName name :: rest) = .bound name :: names rest := rfl

@[simp] theorem names_literal_cons (text : String) (rest : List (Piece ε))
    : names (literal text :: rest) = names rest := rfl

@[simp] theorem names_operand_cons (e : ε) (rest : List (Piece ε))
    : names (operand e :: rest) = names rest := rfl

@[simp] theorem names_kind_cons (k : NodeKind) (rest : List (Piece ε))
    : names (kind k :: rest) = names rest := rfl

/-- The names in fragments made for every item of a list. -/
theorem names_flatMap {α : Type} (items : List α) (fragment : α → List (Piece ε))
    : names (items.flatMap fragment) = items.flatMap fun a => names (fragment a) :=
  List.filterMap_flatMap ..

@[simp] theorem names_map_operand (es : List ε) : names (es.map operand) = [] := by
  induction es with
  | nil => rfl
  | cons e rest ih => simp [ih]

@[simp] theorem names_parenthesized (e : ε) : names (parenthesized e) = [] := rfl

@[simp] theorem names_eachParenthesized (es : List ε) : names (eachParenthesized es) = [] := by
  simp [eachParenthesized, names_flatMap]

@[simp] theorem names_separated (es : List ε) : names (separated es) = [] := by
  induction es with
  | nil => rfl
  | cons e rest ih =>
      cases rest with
      | nil => rfl
      | cons d rest => simp_all [separated]

@[simp] theorem names_enclosed (pieces : List (Piece ε))
    : names (enclosed pieces) = names pieces := by
  simp [enclosed]

end Piece

-----------------------------------------------------------------------------------------
-- The names that a node gives
-----------------------------------------------------------------------------------------

def setNames (set : EntitySet) : List Name :=
  [.plain set.container, .plain set.name]

/-- A navigation gives the association of its start and the names of both ends. -/
def navigationNames (start target : RelationEnd) : List Name :=
  [.plain start.association, .plain start.name, .plain target.name]

def formalNames (f : Formal) : List Name :=
  [.bound f.name, .plain f.usage.identity]

def relatedNames (r : RelatedRef ε) : List Name :=
  navigationNames r.source r.target

def aggregateNames : Aggregate ε → List Name
  | .function g _ _ => [.plain g.identity]
  | .group _ => []

/-- A sort key gives its collation, unless that has no name. -/
def collationNames (c : SortClause ε) : List Name :=
  match c.collation with
  | some collation => if collation.isEmpty then [] else [.plain collation]
  | none => []

/-- The names and identities that a key gives of a node, in order. -/
def nodeNames (usage : TypeUsage) (body : Body ε) : List Name :=
  match body with
  | .constant _ | .null | .convert _ _ => [.plain usage.identity]
  | .variableRef name => [.bound name]
  | .parameter name => [.plain name, .plain usage.identity]
  | .scan set => setNames set ++ [.plain usage.type.identity]
  | .call function _ => [.plain function.identity]
  | .lambda formals _ _ => formals.flatMap formalNames
  | .property _ name => [.plain name]
  | .typeTest _ _ tested _ => [.plain tested.type.identity]
  | .newInstance _ related => .plain usage.type.identity :: related.flatMap relatedNames
  | .ref set _ =>
      setNames set ++ (usage.type.referenced?.map fun element => .plain element.identity).toList
  | .navigate _ start target => navigationNames start target
  | .filter input _ | .project input _ | .quantify _ input _ => [.bound input.name]
  | .crossJoin inputs => inputs.map fun input => .bound input.name
  | .join _ left right _ | .apply _ left right => [.bound left.name, .bound right.name]
  | .groupBy input _ aggregates =>
      .bound input.name :: .bound input.groupName :: aggregates.flatMap aggregateNames
  | .skip input order _ | .sort input order => .bound input.name :: order.flatMap collationNames
  | .comparison .. | .like .. | .arithmetic .. | .unary .. | .binary .. | .inList .. | .case ..
  | .limit .. | .extension .. => []

namespace Piece

@[simp] theorem names_setName (set : EntitySet)
    : names (setName set : List (Piece ε)) = setNames set := rfl

@[simp] theorem names_navigation (start target : RelationEnd)
    : names (navigation start target : List (Piece ε)) = navigationNames start target := rfl

@[simp] theorem names_formal (f : Formal)
    : names (formal f : List (Piece ε)) = formalNames f := rfl

@[simp] theorem names_binding (b : Binding ε) : names (binding b) = [.bound b.name] := rfl

@[simp] theorem names_groupBinding (b : GroupBinding ε)
    : names (groupBinding b) = [.bound b.name, .bound b.groupName] := rfl

@[simp] theorem names_call (g : Function) (arguments : List ε)
    : names (call g arguments) = [.plain g.identity] := by
  simp [call]

@[simp] theorem names_clause (c : SortClause ε) : names (clause c) = collationNames c := by
  rcases c with ⟨key, ascending, collation⟩
  cases collation with
  | none => rfl
  | some collation => by_cases h : collation.isEmpty <;> simp [clause, collationNames, h]

@[simp] theorem names_sortOrder (order : List (SortClause ε))
    : names (sortOrder order) = order.flatMap collationNames := by
  simp [sortOrder, names_flatMap]

@[simp] theorem names_arm (a : Arm ε) : names (arm a) = [] := rfl

@[simp] theorem names_related (r : RelatedRef ε) : names (related r) = relatedNames r := by
  simp [related, relatedNames]

@[simp] theorem names_aggregate (a : Aggregate ε) : names (aggregate a) = aggregateNames a := by
  cases a with
  | function g distinct arguments => cases distinct <;> simp [aggregate, aggregateNames]
  | group argument => rfl

@[simp] theorem names_groupKey (e : ε) : names (groupKey e) = [] := rfl

end Piece

open Piece

/-- The names in a template are those that the node gives. -/
theorem names_template {usage : TypeUsage} {body : Body ε} {pieces : List (Piece ε)}
    (h : template usage body = .ok pieces)
    : names pieces = nodeNames usage body := by
  cases body with
  | constant value =>
      obtain ⟨text, -, rfl⟩ := exists_literal h
      rfl
  | arithmetic op arguments =>
      simp only [template] at h
      split at h <;> cases h
      simp [nodeNames]
  | ref set argument =>
      simp only [template] at h
      split at h
      · next element helement =>
          cases h
          simp [nodeNames, helement]
      · cases h
  | extension name arguments => cases h
  | limit argument count withTies =>
      cases h
      cases withTies <;> simp [nodeNames]
  | lambda formals body arguments | case arms otherwise | newInstance arguments related
  | crossJoin inputs | groupBy input keys aggregates =>
      cases h
      simp [nodeNames, names_flatMap, List.map_eq_flatMap]
  | _ =>
      cases h
      simp [nodeNames]

theorem bound_not_mem_aggregateNames (name : String) (a : Aggregate ε)
    : .bound name ∉ aggregateNames a := by
  cases a <;> simp [aggregateNames]

theorem bound_not_mem_collationNames (name : String) (c : SortClause ε)
    : .bound name ∉ collationNames c := by
  unfold collationNames
  split
  · split <;> simp
  · simp

/-- The quoted names that a node gives are its variables. -/
theorem bound_mem_nodeNames_iff {usage : TypeUsage} {body : Body ε} {name : String}
    : .bound name ∈ nodeNames usage body ↔ name ∈ body.variableNames := by
  cases body with
  | lambda formals body arguments =>
      simp [nodeNames, Body.variableNames, formalNames, eq_comm]
  | newInstance arguments related =>
      simp [nodeNames, Body.variableNames, relatedNames, navigationNames]
  | ref set argument =>
      cases usage.type.referenced? <;> simp [nodeNames, Body.variableNames, setNames]
  | groupBy input keys aggregates =>
      simp [nodeNames, Body.variableNames, bound_not_mem_aggregateNames]
  | skip input order count | sort input order =>
      simp [nodeNames, Body.variableNames, bound_not_mem_collationNames]
  | _ => simp [nodeNames, Body.variableNames, setNames, navigationNames, eq_comm]

-----------------------------------------------------------------------------------------
-- The names in the key of a tree
-----------------------------------------------------------------------------------------

/-- The names in a key are those that the nodes give. -/
theorem mem_names_tokens_iff {e : Expr}
    (h : ∀ n ∈ e.nodes, ∃ pieces, template n.usage n.body = .ok pieces) {name : Name}
    : name ∈ names (tokens e) ↔ ∃ n ∈ e.nodes, name ∈ nodeNames n.usage n.body := by
  have hpiece : (name.piece : Token).map Empty.elim = (name.piece : Piece Expr) := by
    cases name <;> rfl
  rw [Piece.mem_names_iff, mem_tokens_iff h, hpiece]
  refine exists_congr fun n => and_congr_right fun hn => ?_
  obtain ⟨pieces, ht⟩ := h n hn
  rw [← names_template ht, Piece.mem_names_iff]
  constructor
  · rintro ⟨others, hothers, hmem⟩
    obtain rfl := Except.ok.inj (ht.symm.trans hothers)
    exact hmem
  · exact fun hmem => ⟨pieces, ht, hmem⟩

end QueryKey.Key
