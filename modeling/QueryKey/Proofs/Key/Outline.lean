import QueryKey.Proofs.Expr.Walk
import QueryKey.Proofs.Key.Outcome
import QueryKey.Proofs.Key.Recorded

/-! Outlines: what a key records of a tree. The outline of a node keeps its operation without the
parts that no key tells, the one identity that the key gives, and the outlines of its operands.
-/

namespace QueryKey.Key

open QueryKey.Expr QueryKey.Metadata

variable {ε : Type}

-----------------------------------------------------------------------------------------
-- What is recorded of a node
-----------------------------------------------------------------------------------------

/-- A usage of which only the identity is told. -/
def identified (identity : String) : TypeUsage :=
  .mk identity (.mk identity .row)

/-- Overloads are told apart by their identities. -/
def recordedFunction (g : Function) : Function :=
  ⟨"", g.identity⟩

/-- Formals are told by their names and the identities of their usages. -/
def recordedFormal (f : Formal) : Formal :=
  ⟨f.name, identified f.usage.identity⟩

/-- Only the starting end of a navigation tells the association. -/
def recordedTarget (target : RelationEnd) : RelationEnd :=
  ⟨target.name, ""⟩

def recordedRelated (r : RelatedRef ε) : RelatedRef ε :=
  ⟨r.source, recordedTarget r.target, r.reference⟩

def recordedAggregate : Aggregate ε → Aggregate ε
  | .function g distinct arguments => .function (recordedFunction g) distinct arguments
  | .group argument => .group argument

/-- A collation without name is none. -/
def recordedClause (c : SortClause ε) : SortClause ε :=
  ⟨c.key, c.ascending, c.collation.filter fun collation => !collation.isEmpty⟩

/-- An operation without the parts that no key tells. -/
def recordedOperation (operation : Body ε) : Body ε :=
  match operation with
  | .call g arguments => .call (recordedFunction g) arguments
  | .lambda formals body arguments => .lambda (formals.map recordedFormal) body arguments
  | .typeTest op argument tested only =>
      .typeTest op argument (identified tested.type.identity) only
  | .newInstance arguments related => .newInstance arguments (related.map recordedRelated)
  | .navigate source start target => .navigate source start (recordedTarget target)
  | .groupBy input keys aggregates => .groupBy input keys (aggregates.map recordedAggregate)
  | .skip input order count => .skip input (order.map recordedClause) count
  | .sort input order => .sort input (order.map recordedClause)
  | _ => operation

/-- The identity that a key gives of a node of the usage, if it gives one. -/
def recordedIdentity (usage : TypeUsage) (operation : Body ε) : String :=
  match operation with
  | .null | .parameter _ | .convert _ _ => usage.identity
  | .newInstance _ _ => usage.type.identity
  | _ => ""

/-- What a key records of a node by itself. -/
inductive Entry where
  | literal (value : Recorded) (identity : String)
  | scan (set identity : String)
  | ref (set identity : String)
  | operator (operation : Body Unit) (identity : String)
deriving DecidableEq

/-- The entry of a node; constants are told by their literals, and entity sets by their qualified
names.
-/
def entry (usage : TypeUsage) (operation : Body Unit) : Entry :=
  match operation with
  | .constant value => .literal (.ofPayload value) usage.identity
  | .scan set => .scan set.qualifiedName usage.type.identity
  | .ref set _ =>
      .ref set.qualifiedName ((usage.type.referenced?.map ModelType.identity).getD "")
  | _ => .operator (recordedOperation operation) (recordedIdentity usage operation)

/-- What a key records of a tree. -/
inductive Outline where
  | node (entry : Entry) (operands : List Outline)

end QueryKey.Key

namespace QueryKey.Expr

open QueryKey.Key QueryKey.Metadata

/-- What a key records of a tree: the entries of its nodes, and the operands of each in order. -/
def outline : Expr → Outline :=
  fold fun usage body => .node (entry usage body.shape) body.children

theorem outline_node (usage : TypeUsage) (body : Body Expr)
    : outline (.node usage body) = .node (entry usage body.shape) (body.children.map outline) := by
  rw [outline, fold_node, Body.children_map]
  simp only [Body.shape, Body.map_map]

end QueryKey.Expr

namespace QueryKey.Key

open QueryKey.Expr QueryKey.Metadata

-----------------------------------------------------------------------------------------
-- The text of an outline
-----------------------------------------------------------------------------------------

/-- The pieces of a node with the entry. -/
def Entry.pieces : Entry → List (Piece Unit)
  | literal value identity => [.literal (String.ofList value.text), .mark ":", .raw identity]
  | scan set identity =>
      .kind .scan :: Piece.enclosed [.raw set, .mark ":", .raw identity]
  | ref set identity =>
      .kind .ref :: Piece.enclosed
        (.mark "ESET" :: Piece.enclosed [.raw set] ++ .mark "T" :: Piece.enclosed [.raw identity]
          ++ Piece.parenthesized ())
  | operator operation identity =>
      match template (identified identity) operation with
      | .ok pieces => pieces
      | .error _ => []

/-- The texts of pieces, each operand in turn being given its text. -/
def weave : List (Piece Unit) → List String → String
  | [], _ => ""
  | .operand _ :: rest, text :: texts => text ++ weave rest texts
  | .operand _ :: rest, [] => weave rest []
  | piece :: rest, texts => piece.text (fun _ => "") ++ weave rest texts

/-- The texts of pieces are woven from those of their operands, by induction on the pieces. -/
theorem texts_eq_weave (f : ε → String) (pieces : List (Piece ε))
    : Piece.texts f pieces
      = weave (pieces.map (Piece.map fun _ => ())) ((Piece.operands pieces).map f) := by
  induction pieces with
  | nil => rfl
  | cons piece rest ih =>
      cases piece <;> simp [Piece.texts, Piece.text, Piece.map, weave, ih]

/-- Fragments that tell the same of an item and of what is recorded of it. -/
theorem flatMap_recorded {α : Type} {fragment : α → List (Piece ε)} {recorded : α → α}
    (h : ∀ a, fragment (recorded a) = fragment a) (items : List α)
    : (items.map recorded).flatMap fragment = items.flatMap fragment := by
  simp only [List.flatMap_map, h]

theorem formal_recorded (f : Formal)
    : (Piece.formal (recordedFormal f) : List (Piece ε)) = Piece.formal f :=
  rfl

theorem related_recorded (r : RelatedRef ε) : Piece.related (recordedRelated r) = Piece.related r :=
  rfl

theorem aggregate_recorded (a : Aggregate ε)
    : Piece.aggregate (recordedAggregate a) = Piece.aggregate a := by
  cases a <;> rfl

theorem clause_recorded (c : SortClause ε)
    : Piece.clause (recordedClause c) = Piece.clause c := by
  rcases c with ⟨key, ascending, collation⟩
  cases collation with
  | none => rfl
  | some collation =>
      by_cases h : collation.isEmpty <;> simp [Piece.clause, recordedClause, Option.filter, h]

/-- The entry of a node has the pieces of the node, up to the parts of the names of entity sets.
-/
theorem weave_entry {usage : TypeUsage} {operation : Body Unit} {pieces : List (Piece Unit)}
    (h : template usage operation = .ok pieces) (texts : List String)
    : weave pieces texts = weave (entry usage operation).pieces texts := by
  cases operation with
  | constant value =>
      obtain ⟨text, ht, rfl⟩ := exists_literal h
      simp only [entry, Entry.pieces, ← toList_literal ht, String.ofList_toList]
  | scan set =>
      cases h
      simp [entry, Entry.pieces, Piece.kind, Piece.enclosed, Piece.setName, weave, Piece.text,
        EntitySet.qualifiedName, String.append_assoc]
  | ref set argument =>
      simp only [template] at h
      split at h
      · next element helement =>
          cases h
          simp [entry, Entry.pieces, Piece.kind, Piece.enclosed, Piece.setName, weave, Piece.text,
            EntitySet.qualifiedName, String.append_assoc, helement]
      · cases h
  | arithmetic op arguments =>
      have hp : (entry usage (.arithmetic op arguments)).pieces = pieces := by
        simp only [template] at h
        split at h
        · next harity =>
            cases h
            simp [entry, recordedOperation, Entry.pieces, template, harity]
        · cases h
      rw [hp]
  | lambda formals body arguments =>
      cases h
      simp only [entry, recordedOperation, Entry.pieces, template,
        flatMap_recorded formal_recorded]
  | newInstance arguments related =>
      cases h
      simp only [entry, recordedOperation, recordedIdentity, Entry.pieces, template,
        flatMap_recorded related_recorded]
      rfl
  | groupBy input keys aggregates =>
      cases h
      simp only [entry, recordedOperation, Entry.pieces, template,
        flatMap_recorded aggregate_recorded]
  | skip input order count | sort input order =>
      cases h
      simp only [entry, recordedOperation, Entry.pieces, template, Piece.sortOrder,
        flatMap_recorded clause_recorded]
  | extension name arguments => cases h
  | _ =>
      cases h
      rfl

/-- The text of a node is that of its entry with the texts of the operands. -/
theorem written_node_eq_weave {usage : TypeUsage} {body : Body Expr} {pieces : List (Piece Expr)}
    (h : template usage body = .ok pieces)
    : written (.node usage body)
      = weave (entry usage body.shape).pieces (body.children.map written) := by
  have hshape : template usage body.shape = .ok (pieces.map (Piece.map fun _ => ())) := by
    rw [Body.shape, template_map, h]
    rfl
  rw [written_node h, texts_eq_weave, operands_template h, weave_entry hshape]

/-- Lists that agree in one respect agree in another that the first one decides. -/
theorem map_eq_map_of_map_eq {α β γ : Type} {f : α → β} {g : α → γ} {xs ys : List α}
    (heq : xs.map f = ys.map f) (h : ∀ x ∈ xs, ∀ y ∈ ys, f x = f y → g x = g y)
    : xs.map g = ys.map g := by
  induction xs generalizing ys with
  | nil =>
      obtain rfl := List.map_eq_nil_iff.mp heq.symm
      rfl
  | cons x xs ih =>
      cases ys with
      | nil => cases heq
      | cons y ys =>
          obtain ⟨hhead, htail⟩ := List.cons.inj heq
          rw [List.map_cons, List.map_cons, h x (by simp) y (by simp) hhead,
            ih htail fun x hx y hy => h x (by simp [hx]) y (by simp [hy])]

/-- Every node of a tree has a template if its key can be generated. -/
theorem exists_template_of_failure? {s : Settings} {e : Expr} {depth : Nat}
    (h : failure? s e depth = none)
    : ∀ n ∈ e.nodes, ∃ pieces, template n.usage n.body = .ok pieces := by
  induction e using Expr.induction generalizing depth with
  | step usage body ih =>
      rw [failure?_node] at h
      obtain ⟨-, h⟩ := Option.or_eq_none_iff.mp h
      split at h
      · cases h
      · next pieces ht =>
          intro n hn
          rw [nodes_eq, List.mem_cons, List.mem_flatMap] at hn
          rcases hn with rfl | ⟨c, hc, hn⟩
          · exact ⟨pieces, ht⟩
          · have hc : c ∈ Piece.operands pieces := by
              rw [operands_template ht]
              exact hc
            have hnone := List.findSome?_eq_none_iff.mp h _ (Piece.mem_operands_iff.mp hc)
            exact ih c (by rwa [operands_template ht] at hc) hnone n hn

/-- Trees with one outline have one text, by induction on one of them. -/
theorem written_eq_of_outline_eq {a b : Expr}
    (ha : ∀ n ∈ a.nodes, ∃ pieces, template n.usage n.body = .ok pieces)
    (hb : ∀ n ∈ b.nodes, ∃ pieces, template n.usage n.body = .ok pieces)
    (h : a.outline = b.outline)
    : written a = written b := by
  induction a using Expr.induction generalizing b with
  | step usage body ih =>
      rcases b with ⟨other, operation⟩
      obtain ⟨pieces, hp⟩ : ∃ pieces, template usage body = .ok pieces := ha _ (mem_nodes_self _)
      obtain ⟨others, ho⟩ : ∃ pieces, template other operation = .ok pieces :=
        hb _ (mem_nodes_self _)
      rw [outline_node, outline_node] at h
      obtain ⟨hentry, hoperands⟩ := Outline.node.inj h
      rw [written_node_eq_weave hp, written_node_eq_weave ho, hentry]
      congr 1
      refine map_eq_map_of_map_eq hoperands fun c hc d hd => ?_
      exact ih c hc (fun n hn => ha n (mem_nodes_of_mem_children hc hn))
        (fun n hn => hb n (mem_nodes_of_mem_children hd hn))

end QueryKey.Key
