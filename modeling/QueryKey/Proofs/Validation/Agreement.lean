import QueryKey.Proofs.Key.FirstFailure
import QueryKey.Proofs.Validation.Findings

/-! Validation and key generation judge the same trees: what one of them finds wrong with a node,
the other one does too, save where only one of them looks.
-/

namespace QueryKey.Validation

open QueryKey.Expr QueryKey.Metadata QueryKey.Key

-----------------------------------------------------------------------------------------
-- Nodes that generation accepts
-----------------------------------------------------------------------------------------

/-- A payload that fits a kind has a text in constants of that kind, unless the kind has no text. -/
theorem exists_payloadText {payload : Payload} {kind : Primitive}
    (hfits : payload.fits kind = true) (hkind : kind ≠ .hierarchyId)
    : ∃ text, Literal.payloadText? kind payload = some text := by
  cases payload with
  | geometry shape =>
      cases kind <;> first | exact ⟨_, rfl⟩ | cases hfits
  | geography shape =>
      cases kind <;> first | exact ⟨_, rfl⟩ | cases hfits
  | hierarchyId path => exact absurd (eq_of_beq hfits).symm hkind
  | _ =>
      obtain rfl := eq_of_beq hfits
      exact ⟨_, rfl⟩

/-- A constant whose payload fits the kind that it declares is not defective. -/
theorem operationFailure?_constant {usage : TypeUsage} {payload : Payload} {kind : Primitive}
    (hscalar : usage.type.scalarKind? = some kind) (hfits : payload.fits kind = true)
    (hkind : kind ≠ .hierarchyId)
    : operationFailure? (.node usage (.constant payload)) = none := by
  obtain ⟨text, ht⟩ := exists_payloadText hfits hkind
  simp [operationFailure?, Expr.body, Expr.usage, Literal.append_eq_map_text, Literal.text, hscalar,
    ht, Except.map]

-----------------------------------------------------------------------------------------
-- Paths and labels
-----------------------------------------------------------------------------------------

/-- The path of a node ends with its label, by induction on the tree above it. -/
theorem exists_path_eq_append_label {e : Expr} {path : String}
    (hroot : ∃ front, path = front ++ e.label) {p : Expr × String} (hp : p ∈ e.preorder path)
    : ∃ front, p.2 = front ++ p.1.label := by
  induction e using Expr.induction generalizing path with
  | step usage body ih =>
      rw [preorder_eq, List.mem_cons, List.mem_flatMap] at hp
      rcases hp with rfl | ⟨⟨c, path⟩, hc, hp⟩
      · exact hroot
      · simp only [childrenWithPaths, List.mem_map] at hc
        obtain ⟨⟨c, index⟩, hc, heq⟩ := hc
        obtain ⟨rfl, rfl⟩ := Prod.mk.inj heq
        exact ih c (List.fst_mem_of_mem_zipIdx hc) ⟨_, rfl⟩ hp

/-- A node is called by its kind. -/
theorem label_of_kind? {e : Expr} {kind : NodeKind} (h : e.kind? = some kind)
    : e.label = kind.name := by
  rcases e with ⟨usage, body⟩
  cases body <;> cases h <;> rfl

/-- The labels of a cross join and of an arithmetic node end differently, and so do their paths. -/
theorem crossJoin_path_ne_arithmetic {t : Expr} {p q : Expr × String} {inputs : List (Binding Expr)}
    {op : ArithmeticOp} (hp : p ∈ t.walk) (hq : q ∈ t.walk) (hpath : p.2 = q.2)
    (hjoin : p.1.body = .crossJoin inputs)
    : q.1.kind? ≠ some op.kind := by
  intro harithmetic
  rw [walk_eq_preorder] at hp hq
  have hroot : ∃ front, t.label = front ++ t.label := ⟨"", String.empty_append.symm⟩
  obtain ⟨front, hf⟩ := exists_path_eq_append_label hroot hp
  obtain ⟨before, hb⟩ := exists_path_eq_append_label hroot hq
  have hlast : (front ++ "CrossJoin").toList.getLast?
      = (before ++ op.kind.name).toList.getLast? := by
    have hl : p.1.label = "CrossJoin" := by rw [Expr.label, hjoin]; rfl
    have hk : q.1.label = op.kind.name := label_of_kind? harithmetic
    rw [← hl, ← hk, ← hf, ← hb, hpath]
  cases op <;> simp [ArithmeticOp.kind, NodeKind.name] at hlast

-----------------------------------------------------------------------------------------
-- Agreement node by node
-----------------------------------------------------------------------------------------

/-- A node is not defective if the rules find no error and no other warning than a generated
alias, if it is a reference constructor only of reference type, and if it is no constant of the
kind without text.
-/
theorem operationFailure?_eq_none {e : Expr}
    (herrors : ∀ rule code message, Issue.error code message ∉ Rule.issues rule e)
    (hwarnings : ∀ rule code message,
      Issue.warning code message ∈ Rule.issues rule e → code = .generatedAlias)
    (href : e.kind? = some .ref → e.usage.type.referenced?.isSome = true)
    (hkind : e.kind? = some .constant → e.usage.type.scalarKind? ≠ some .hierarchyId)
    : operationFailure? e = none := by
  rcases e with ⟨usage, body⟩
  cases body with
  | constant payload =>
      cases hscalar : usage.type.scalarKind? with
      | none =>
          refine absurd ?_ (herrors .constants .nonScalarConstant
            ("Constant is declared as " ++ Rule.structureWord usage.type.kind ++ " type '"
              ++ usage.identity ++ "'"))
          simp [Rule.issues, Rule.constantIssues, Expr.body, Expr.usage, hscalar]
      | some kind =>
          cases hfits : payload.fits kind with
          | true =>
              refine operationFailure?_constant hscalar hfits ?_
              rintro rfl
              exact hkind rfl hscalar
          | false =>
              have hcode := hwarnings .constants .constantTypeMismatch
                ("Constant declared as " ++ kind.name ++ " holds a " ++ payload.shapeName
                  ++ " value")
                (by simp [Rule.issues, Rule.constantIssues, Expr.body, Expr.usage, hscalar, hfits])
              cases hcode
  | arithmetic op arguments =>
      by_cases harity : arguments.length = op.arity
      · simp [operationFailure?, Expr.body, harity]
      · refine absurd ?_ (herrors .arity .arityMismatch
          (op.kind.name ++ " expects " ++ toString op.arity ++ " argument(s), found "
            ++ toString arguments.length))
        simp [Rule.issues, Rule.arityIssues, Expr.body, harity]
  | ref set argument =>
      have hsome := href rfl
      simp [operationFailure?, Expr.body, hsome]
  | extension name arguments =>
      have hcode := hwarnings .arity .extensionNode
        ("Provider-specific node '" ++ name ++ "' cannot be keyed")
        (by simp [Rule.issues, Rule.arityIssues, Expr.body])
      cases hcode
  | _ => rfl

/-- A constant that is not scalar is found only where generation refuses a node. -/
theorem nonScalarConstant_not_mem_issues {e : Expr} (h : operationFailure? e = none) (rule : Rule)
    (message : String)
    : Issue.error .nonScalarConstant message ∉ rule.issues e := by
  intro hmem
  have hrule := Rule.canFind_of_mem_issues hmem
  rcases e with ⟨usage, body⟩
  cases rule with
  | constants =>
      cases body with
      | constant payload =>
          simp only [Rule.issues, Rule.constantIssues, Expr.body, Expr.usage] at hmem
          split at hmem
          · next hscalar =>
              simp [operationFailure?, Expr.body, Expr.usage, Literal.append_eq_map_text,
                Literal.text, hscalar, Except.map] at h
          · split at hmem <;> simp at hmem
      | _ => cases hmem
  | _ => cases hrule

/-- A wrong number of operands is found, where generation accepts a node, in cross joins only. -/
theorem crossJoin_of_arityMismatch {e : Expr} (h : operationFailure? e = none) {rule : Rule}
    {message : String} (hmem : Issue.error .arityMismatch message ∈ rule.issues e)
    : ∃ inputs, e.body = .crossJoin inputs := by
  have hrule := Rule.canFind_of_mem_issues hmem
  rcases e with ⟨usage, body⟩
  cases rule with
  | arity =>
      cases body with
      | crossJoin inputs => exact ⟨inputs, rfl⟩
      | arithmetic op arguments =>
          simp only [Rule.issues, Rule.arityIssues, Expr.body] at hmem
          split at hmem
          · cases hmem
          · next harity => simp [operationFailure?, Expr.body, harity] at h
      | inList item list | case arms otherwise | skip input order count | sort input order =>
          simp only [Rule.issues, Rule.arityIssues, Expr.body] at hmem
          split at hmem <;> simp at hmem
      | extension name arguments => simp [Rule.issues, Rule.arityIssues, Expr.body] at hmem
      | _ => cases hmem
  | _ => cases hrule

/-- An extension is found only where generation refuses a node. -/
theorem extensionNode_not_mem_issues {e : Expr} (h : operationFailure? e = none) (rule : Rule)
    (message : String)
    : Issue.warning .extensionNode message ∉ rule.issues e := by
  intro hmem
  have hrule := Rule.canFind_of_mem_issues hmem
  rcases e with ⟨usage, body⟩
  cases rule with
  | arity =>
      cases body with
      | extension name arguments => simp [operationFailure?, Expr.body] at h
      | arithmetic op arguments | inList item list | crossJoin inputs | case arms otherwise
      | skip input order count | sort input order =>
          simp only [Rule.issues, Rule.arityIssues, Expr.body] at hmem
          split at hmem <;> simp at hmem
      | _ => cases hmem
  | _ => cases hrule

-----------------------------------------------------------------------------------------
-- Agreement on trees
-----------------------------------------------------------------------------------------

theorem mem_all (rule : Rule) : rule ∈ Rule.all := by
  cases rule <;> decide

/-- Generation without a depth limit and with generated aliases allowed gives a key to every tree
that validation passes, if its reference constructors are of reference type and no constant is of
the kind without text. Validation finds in a tree with a key no constant that is not scalar, no
extension, and no wrong number of operands at the path of an arithmetic node.
-/
theorem validation_agrees_with_generation (t : Expr)
    : ((validate Rule.all t).errors = []
          → (∀ found ∈ (validate Rule.all t).warnings, found.code = .generatedAlias)
          → (∀ p ∈ t.walk, p.1.kind? = some .ref → p.1.usage.type.referenced?.isSome = true)
          → (∀ p ∈ t.walk,
              p.1.kind? = some .constant → p.1.usage.type.scalarKind? ≠ some .hierarchyId)
          → ∃ key, generate { maxDepth := none, rejectGeneratedAliases := false } t = .ok key)
      ∧ ((∃ key, generate { maxDepth := none, rejectGeneratedAliases := false } t = .ok key)
          → (∀ found ∈ (validate Rule.all t).errors, found.code ≠ .nonScalarConstant)
            ∧ (∀ found ∈ (validate Rule.all t).errors, found.code = .arityMismatch
                → ∀ p ∈ t.walk, p.2 = found.path → ∀ op : ArithmeticOp, p.1.kind? ≠ some op.kind)
            ∧ ∀ found ∈ (validate Rule.all t).warnings, found.code ≠ .extensionNode) := by
  rw [exists_key_iff]
  constructor
  · intro herrors hwarnings href hkind p hp
    refine operationFailure?_eq_none ?_ ?_ (href p hp) (hkind p hp)
    · intro rule code message hmem
      have hfound : (⟨code, message, p.2⟩ : ErrorFinding) ∈ (validate Rule.all t).errors :=
        mem_errors_validate.mpr ⟨rule, mem_all rule, p.1, hp, hmem⟩
      rw [herrors] at hfound
      cases hfound
    · intro rule code message hmem
      exact hwarnings ⟨code, message, p.2⟩
        (mem_warnings_validate.mpr ⟨rule, mem_all rule, p.1, hp, hmem⟩)
  · intro hkeyed
    refine ⟨?_, ?_, ?_⟩
    · intro found hfound hcode
      obtain ⟨rule, -, e, he, hmem⟩ := mem_errors_validate.mp hfound
      rw [hcode] at hmem
      exact nonScalarConstant_not_mem_issues (hkeyed _ he) rule _ hmem
    · intro found hfound hcode q hq hpath op
      obtain ⟨rule, -, e, he, hmem⟩ := mem_errors_validate.mp hfound
      rw [hcode] at hmem
      obtain ⟨inputs, hjoin⟩ := crossJoin_of_arityMismatch (hkeyed _ he) hmem
      exact crossJoin_path_ne_arithmetic he hq hpath.symm hjoin
    · intro found hfound hcode
      obtain ⟨rule, -, e, he, hmem⟩ := mem_warnings_validate.mp hfound
      rw [hcode] at hmem
      exact extensionNode_not_mem_issues (hkeyed _ he) rule _ hmem

/-- Whether there is an entity with the sum of two constants as its key. -/
def sumLookup : Expr :=
  let one : Expr := .node (.primitive .int32) (.constant (.int32 1))
  let sum : Expr := .node (.primitive .int32) (.arithmetic .plus [one, one])
  let product := ModelType.entity "Shop.Product"
  .node .boolean
    (.unary .isNull (.node (.reference product) (.ref ⟨"Shop", "Products", product⟩ sum)))

/-- The lookup passes validation, gets a key, and has none of the findings that exclude keys. -/
theorem validation_agrees_on_sumLookup
    : (∃ key, generate { maxDepth := none, rejectGeneratedAliases := false } sumLookup = .ok key)
      ∧ (∀ found ∈ (validate Rule.all sumLookup).errors, found.code ≠ .nonScalarConstant)
      ∧ ∀ found ∈ (validate Rule.all sumLookup).warnings, found.code ≠ .extensionNode := by
  have hkey := (validation_agrees_with_generation sumLookup).1 (by decide +kernel)
    (by decide +kernel) (by decide +kernel) (by decide +kernel)
  have hfindings := (validation_agrees_with_generation sumLookup).2 hkey
  exact ⟨hkey, hfindings.1, hfindings.2.2⟩

end QueryKey.Validation
