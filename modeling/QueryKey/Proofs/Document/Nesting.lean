import Mathlib.Data.List.MinMax
import Mathlib.Order.Nat
import QueryKey.Proofs.Document.TreeReadBack
import QueryKey.Proofs.Expr.Depth
import QueryKey.Proofs.Json.Nesting
import QueryKey.Proofs.Key.Outcome

/-! How deep tree files are nested. Every level of a tree takes two levels of its document, so that
the reader of documents refuses the files of trees that are far from too deep for a key. Besides, a
tree file loses the sign of a zero, which a key keeps.
-/

namespace QueryKey.Document

open QueryKey.Expr QueryKey.Metadata

variable {ε : Type}

-----------------------------------------------------------------------------------------
-- Expressions in the parts of a node
-----------------------------------------------------------------------------------------

/-- The expressions in a record. -/
def Record.exprs : (r : Record) → r.Carrier ε → List ε
  | binding, b => [b.source]
  | groupBinding, b => [b.source]
  | arm, a => [a.condition, a.result]
  | clause, c => [c.key]
  | related, r => [r.reference]
  | _, _ => []

/-- The expressions in a part of a node; no such part is a node itself. -/
def Shape.exprs : (s : Shape) → s.Carrier ε → List ε
  | list s, items => items.flatMap s.exprs
  | optional s, value => value.toList.flatMap s.exprs
  | record r, x => r.exprs x
  | expr, e => [e]
  | aggregate, a => a.operands
  | _, _ => []

/-- The expressions in the values of fields. -/
def Values.exprs : (fields : List Field) → Values ε fields → List ε
  | [], () => []
  | f :: rest, (x, xs) => f.shape.exprs x ++ exprs rest xs

theorem Record.exprs_values (r : Record) (x : r.Carrier ε)
    : Values.exprs r.fields (r.values x) = r.exprs x := by
  cases r <;> simp [Record.fields, Record.values, Values.exprs, Shape.exprs, Record.exprs]

theorem AggregateForm.exprs_split (a : Aggregate ε)
    : Values.exprs (split a).1.fields (split a).2 = a.operands := by
  cases a <;>
    simp [split, AggregateForm.fields, Values.exprs, Shape.exprs, Record.exprs, Aggregate.operands]

/-- The fields of a node hold its children; those of a lambda are in another order. -/
theorem NodeForm.mem_exprs_split {b : Body ε} {e : ε}
    : e ∈ Values.exprs (split b).1.fields (split b).2 ↔ e ∈ b.children := by
  cases b with
  | lambda formals body arguments =>
      simp [split, NodeForm.fields, Values.exprs, Shape.exprs, Record.exprs, Body.children,
        or_comm]
  | _ =>
      simp [split, NodeForm.fields, Values.exprs, Shape.exprs, Record.exprs, Body.children,
        List.map_eq_flatMap]

-----------------------------------------------------------------------------------------
-- Levels of documents
-----------------------------------------------------------------------------------------

theorem exprs_of_isEmpty {s : Shape} {x : s.Carrier ε} (h : s.isEmpty x = true)
    : s.exprs x = [] := by
  cases s with
  | list s =>
      obtain rfl := List.isEmpty_iff.mp h
      rfl
  | optional s =>
      obtain rfl := Option.isNone_iff_eq_none.mp h
      rfl
  | _ => cases h

mutual
/-- A part is nested at least as deep as every expression in it, by induction along the writing of
the part.
-/
theorem nesting_le_of_mem_exprs {j : Json}
    : (s : Shape) → (x : s.Carrier Json) → j ∈ s.exprs x → j.nesting ≤ (write s x).nesting
  | .list s, items, h => by
      obtain ⟨item, hitem, hj⟩ := List.mem_flatMap.mp h
      have hitem := List.mem_map_of_mem (f := fun item => write s item) hitem
      rw [write]
      exact Nat.le_of_lt (Nat.lt_of_le_of_lt (nesting_le_of_mem_exprs s item hj)
        (Json.nesting_lt_of_mem_items hitem))
  | .optional s, none, h => nomatch h
  | .optional s, some value, h => by
      rw [write]
      exact nesting_le_of_mem_exprs s value (by simpa [Shape.exprs] using h)
  | .record r, x, h => by
      rw [Shape.exprs, ← Record.exprs_values] at h
      obtain ⟨m, hm, hle⟩ := exists_member_of_mem_exprs r.fields (r.values x) h
      rw [write]
      exact Nat.le_of_lt (Nat.lt_of_le_of_lt hle (Json.nesting_lt_of_mem_members hm))
  | .expr, e, h => by
      obtain rfl := List.mem_singleton.mp h
      rw [write]
  | .aggregate, a, h => by
      rw [Shape.exprs, ← AggregateForm.exprs_split] at h
      rw [write]
      generalize AggregateForm.split a = split at h ⊢
      obtain ⟨form, values⟩ := split
      obtain ⟨m, hm, hle⟩ := exists_member_of_mem_exprs form.fields values h
      have hm := List.mem_cons_of_mem (aggregateTag, Json.string form.word) hm
      exact Nat.le_of_lt (Nat.lt_of_le_of_lt hle (Json.nesting_lt_of_mem_members hm))
  | .leaf _, _, h | .word _, _, h | .payload, _, h | .usage, _, h | .type, _, h
  | .typeKind, _, h | .body, _, h => nomatch h
termination_by s => s.weight
decreasing_by
  · simp [Shape.weight]
  · simp [Shape.weight]
  · exact Record.fieldsWeight_lt r
  · exact AggregateForm.fieldsWeight_lt form

/-- An expression in the values of fields is in one of the members, since what is left out is
empty.
-/
theorem exists_member_of_mem_exprs {j : Json}
    : (fields : List Field) → (xs : Values Json fields) → j ∈ Values.exprs fields xs
      → ∃ m ∈ writeFields fields xs, j.nesting ≤ m.2.nesting
  | [], (), h => nomatch h
  | f :: rest, (x, xs), h => by
      rw [writeFields]
      rcases List.mem_append.mp h with h | h
      · split
        · exact ⟨_, List.mem_cons_self, nesting_le_of_mem_exprs f.shape x h⟩
        · next hwritten =>
            simp only [Field.isWritten, Bool.not_eq_true, Bool.not_eq_false', Bool.and_eq_true]
              at hwritten
            rw [exprs_of_isEmpty hwritten.2] at h
            cases h
      · obtain ⟨m, hm, hle⟩ := exists_member_of_mem_exprs rest xs h
        split
        · exact ⟨m, List.mem_cons_of_mem _ hm, hle⟩
        · exact ⟨m, hm, hle⟩
termination_by fields => fieldsWeight fields
decreasing_by
  all_goals simp only [fieldsWeight]; omega
end

/-- A node is nested deeper than its children. -/
theorem nesting_lt_of_mem_children {b : Body Json} {j : Json} (h : j ∈ b.children)
    : j.nesting < (write .body b).nesting := by
  rw [← NodeForm.mem_exprs_split] at h
  rw [write]
  generalize NodeForm.split b = split at h ⊢
  obtain ⟨form, values⟩ := split
  obtain ⟨m, hm, hle⟩ := exists_member_of_mem_exprs form.fields values h
  have hm := List.mem_cons_of_mem (nodeTag, Json.string form.word) hm
  exact Nat.lt_of_le_of_lt hle (Json.nesting_lt_of_mem_members hm)

/-- Types are objects in objects. -/
theorem nesting_writeUsage (usage : TypeUsage) : 2 ≤ (writeUsage usage).nesting := by
  obtain ⟨identity, ⟨name, kind⟩⟩ := usage
  simp [writeUsage, writeType, Json.nesting, Json.nestingMembers]

/-- Every level of a tree takes two levels of its document, by induction on the tree. -/
theorem height_le_nesting (e : Expr) : 2 * e.height + 1 ≤ (writeExpr e).nesting := by
  induction e using Expr.induction with
  | step usage body ih =>
      have hwrite : writeExpr (.node usage body)
          = .object [("type", writeUsage usage), ("node", write .body (body.map writeExpr))] := by
        rw [writeExpr, fold_node]
      have husage := nesting_writeUsage usage
      have hchildren : (body.children.map height).foldr max 0
          ≤ ((write .body (body.map writeExpr)).nesting - 2) / 2 := by
        refine List.max_le_of_forall_le (body.children.map height) _ fun n hn => ?_
        obtain ⟨c, hc, rfl⟩ := List.mem_map.mp hn
        have hdeeper : (writeExpr c).nesting < (write .body (body.map writeExpr)).nesting := by
          apply nesting_lt_of_mem_children
          rw [Body.children_map]
          exact List.mem_map_of_mem hc
        have := ih c hc
        omega
      simp only [hwrite, height_node, Json.nesting, Json.nestingMembers]
      omega

end QueryKey.Document

namespace QueryKey.TreeFile

open QueryKey.Document QueryKey.Expr QueryKey.Metadata QueryKey.Key QueryKey.Number

theorem ofText_text_of_isKept {tree : Expr} (h : (toJson tree).IsKept)
    : ofText (text tree)
      = if (toJson tree).nesting ≤ Json.State.depthLimit then ofArranged (toJson tree).arranged
        else .error (.document .malformed) := by
  rw [ofText, parse, text, Json.parse_pretty_eq h fun _ => Json.noConfusion]
  split <;> rfl

/-- The file of a tree gives the tree again or is refused, according to how deep it is nested. -/
theorem ofText_text_eq {tree : Expr} (h : tree.IsStorable)
    : ofText (text tree)
      = if (toJson tree).nesting ≤ Json.State.depthLimit then .ok tree
        else .error (.document .malformed) := by
  rw [ofText_text_of_isKept (isKept_toJson h), ofArranged_toJson h]

theorem depth_le_nesting (tree : Expr) : 2 * tree.depth + 2 ≤ (toJson tree).nesting := by
  have htree := height_le_nesting tree
  rw [depth_eq_height]
  simp only [toJson, Json.nesting, Json.nestingMembers]
  omega

/-- A tree that has a key and whose payloads a document tells exactly survives its own file exactly
if the file is not nested too deeply; a file of more than 62 levels of a tree always is. Payloads
that a document does not tell exactly are left out because of zeros with a sign, whose keys change
in their own files.
-/
theorem survives_iff (tree : Expr) (key : CacheKey) (hkey : generate {} tree = .ok key)
    (hstorable : tree.IsStorable)
    : ((∃ loaded, ofText (text tree) = .ok loaded ∧ generate {} loaded = .ok key)
          ↔ (toJson tree).nesting ≤ Json.State.depthLimit)
      ∧ (62 < tree.depth → ofText (text tree) = .error (.document .malformed)) := by
  rw [ofText_text_eq hstorable]
  constructor
  · split
    · next hle => simp [hkey, hle]
    · next hdeep => simp [hdeep]
  · intro hdepth
    have hnesting := depth_le_nesting tree
    have hlimit : Json.State.depthLimit = 127 := rfl
    rw [if_neg (by omega)]

/-- A flag under so many negations. -/
def negatedFlag : Nat → Expr
  | 0 => parameter "flag" .boolean
  | n + 1 => (negatedFlag n).not

theorem isStorable_negatedFlag (n : Nat) : (negatedFlag n).IsStorable := by
  induction n with
  | zero => exact isStorable_node.mpr (by simp [Body.children])
  | succ n ih => exact isStorable_node.mpr (by simpa [Body.children] using ih)

/-- The flag has a key as long as the default limit allows, by induction on the negations. -/
theorem failure?_negatedFlag (n depth : Nat) (h : depth + n < 1024)
    : failure? {} (negatedFlag n) depth = none := by
  have hdepth : ¬1024 ≤ depth := by omega
  induction n generalizing depth with
  | zero =>
      simp [negatedFlag, parameter, failure?_node, template, depthFailure?, hdepth,
        Piece.failure?]
  | succ n ih =>
      have hoperand := ih (depth + 1) (by omega) (by omega)
      simp [negatedFlag, Expr.not, failure?_node, template, depthFailure?, hdepth, Piece.failure?,
        Piece.kind, Piece.parenthesized, hoperand]

theorem exists_key_negatedFlag {n : Nat} (h : n < 1024)
    : ∃ key, generate {} (negatedFlag n) = .ok key :=
  ⟨_, generate_eq_ok_iff.mpr ⟨failure?_negatedFlag n 0 (by omega), rfl⟩⟩

/-- The flag under 61 negations survives its file; under one more it has a key and does not. -/
theorem survives_negatedFlag
    : (∃ key, generate {} (negatedFlag 61) = .ok key
        ∧ ∃ loaded, ofText (text (negatedFlag 61)) = .ok loaded ∧ generate {} loaded = .ok key)
      ∧ (∃ key, generate {} (negatedFlag 62) = .ok key)
      ∧ ofText (text (negatedFlag 62)) = .error (.document .malformed) := by
  obtain ⟨key, hshallow⟩ := exists_key_negatedFlag (n := 61) (by decide)
  obtain ⟨other, hdeep⟩ := exists_key_negatedFlag (n := 62) (by decide)
  refine ⟨⟨key, hshallow, ?_⟩, ⟨other, hdeep⟩, ?_⟩
  · exact (survives_iff _ key hshallow (isStorable_negatedFlag 61)).1.mpr (by decide +kernel)
  · exact (survives_iff _ other hdeep (isStorable_negatedFlag 62)).2 (by decide +kernel)

/-- The flag under 62 negations has a key, but no tree is read from its file. -/
theorem refused_negatedFlag
    : (∃ key, generate {} (negatedFlag 62) = .ok key)
      ∧ ¬∃ loaded, ofText (text (negatedFlag 62)) = .ok loaded := by
  have hdeep : ¬(toJson (negatedFlag 62)).nesting ≤ Json.State.depthLimit := by decide +kernel
  refine ⟨exists_key_negatedFlag (by decide), ?_⟩
  rw [ofText_text_eq (isStorable_negatedFlag 62), if_neg hdeep]
  simp

/-- Whether a price is nothing, which may have a sign. -/
def pricedAtNothing (negative : Bool) : Expr :=
  (parameter "price" (.primitive .decimal)).compare .equals
    (constant (.decimal ⟨negative, 0, 28, by decide, by decide⟩))

/-- A document can give a zero with a sign, by a number that is too small for 28 places. The key of
the tree tells the sign; the tree that is read from its file has none, and another key.
-/
theorem rekeyed_pricedAtNothing
    : Decimal.ofText? "-0.4e-28" = some ⟨true, 0, 28, by decide, by decide⟩
      ∧ generate {} (pricedAtNothing true)
        = .ok ⟨"[=](@price:Edm.Decimal,-0.0000000000000000000000000000:Edm.Decimal)"⟩
      ∧ ∃ loaded, ofText (text (pricedAtNothing true)) = .ok loaded
          ∧ generate {} loaded
            = .ok ⟨"[=](@price:Edm.Decimal,0.0000000000000000000000000000:Edm.Decimal)"⟩ := by
  have hkept : (toJson (pricedAtNothing true)).IsKept := by
    decide +kernel
  have hdeep : (toJson (pricedAtNothing true)).nesting ≤ Json.State.depthLimit := by
    decide +kernel
  have hread : (ofArranged (toJson (pricedAtNothing true)).arranged).map (generate {})
      = .ok (.ok ⟨"[=](@price:Edm.Decimal,0.0000000000000000000000000000:Edm.Decimal)"⟩) := by
    decide +kernel
  refine ⟨by decide +kernel, by decide +kernel, ?_⟩
  rw [ofText_text_of_isKept hkept, if_pos hdeep]
  cases hloaded : ofArranged (toJson (pricedAtNothing true)).arranged with
  | error failure =>
      rw [hloaded] at hread
      cases hread
  | ok loaded =>
      rw [hloaded] at hread
      exact ⟨loaded, rfl, Except.ok.inj hread⟩

end QueryKey.TreeFile
