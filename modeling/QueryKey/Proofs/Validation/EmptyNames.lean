import QueryKey.Expr.Builder
import QueryKey.Proofs.Key.Names
import QueryKey.Proofs.Validation.Agreement

/-! Empty names. The rules refuse empty names and identities where they look for them, and a key
gives some names of which no rule knows.
-/

namespace QueryKey.Validation

open QueryKey.Expr QueryKey.Metadata QueryKey.Key

variable {ε : Type}

/-- The names and identities that a key gives of a node and that no rule looks at: associations,
the ends of related references, the types of formals and of referenced elements, and the types of
scans and constructors, of which the rules look at the usage only.
-/
def unruledNames (usage : TypeUsage) (body : Body ε) : List String :=
  match body with
  | .scan _ => [usage.type.identity]
  | .lambda formals _ _ => formals.map fun f => f.usage.identity
  | .newInstance _ related =>
      usage.type.identity
        :: related.flatMap fun r => [r.source.association, r.source.name, r.target.name]
  | .ref _ _ => (usage.type.referenced?.map ModelType.identity).toList
  | .navigate _ start _ => [start.association]
  | _ => []

-----------------------------------------------------------------------------------------
-- What the rules refuse
-----------------------------------------------------------------------------------------

/-- No rule finds an error at the node. -/
def Accepted (e : Expr) : Prop :=
  ∀ rule code message, Issue.error code message ∉ Rule.issues rule e

theorem accepted_of_errors_eq_nil {t : Expr} (h : (validate Rule.all t).errors = [])
    : ∀ n ∈ t.nodes, Accepted n := by
  intro n hn rule code message hmem
  obtain ⟨p, hp, rfl⟩ := List.mem_map.mp hn
  have hfound : (⟨code, message, p.2⟩ : ErrorFinding) ∈ (validate Rule.all t).errors :=
    mem_errors_validate.mpr ⟨rule, mem_all rule, p.1, hp, hmem⟩
  rw [h] at hfound
  cases hfound

namespace Accepted

variable {usage : TypeUsage} {body : Body Expr}

theorem identity_ne_empty (h : Accepted (.node usage body)) : usage.identity ≠ "" := by
  intro hempty
  refine h .identities .emptyIdentity "Result type has no identity" ?_
  simp [Rule.issues, Expr.usage, hempty, Rule.noIdentity]

theorem variable_ne_empty (h : Accepted (.node usage body)) {name : String}
    (hname : name ∈ body.variableNames)
    : name ≠ "" := by
  rintro rfl
  refine h .names .emptyVariableName "Variable name cannot be empty" ?_
  exact List.mem_append_left _ (List.mem_flatMap.mpr ⟨"", hname, by simp [Rule.aliasIssues]⟩)

theorem not_mem_memberIssues (h : Accepted (.node usage body)) (code : ErrorCode)
    (message : String)
    : Issue.error code message ∉ Rule.memberIssues body :=
  fun hmem => h .names code message (List.mem_append_right _ hmem)

theorem not_mem_metadataIssues (h : Accepted (.node usage body)) (code : ErrorCode)
    (message : String)
    : Issue.error code message ∉ Rule.metadataIssues body :=
  fun hmem => h .identities code message (List.mem_append_right _ hmem)

end Accepted

theorem setNames_ne_empty {set : EntitySet}
    (h : ∀ code message, Issue.error code message ∉ Rule.setIssues set)
    : set.container ≠ "" ∧ set.name ≠ "" := by
  have := h .emptyIdentity "Entity set has no identity"
  simpa [Rule.setIssues, Rule.noIdentity] using this

theorem aggregateNames_ne_empty {a : Aggregate Expr}
    (h : ∀ code message, Issue.error code message ∉ Rule.aggregateIssues a)
    : ∀ name ∈ aggregateNames a, name.text ≠ "" := by
  cases a with
  | function g distinct arguments =>
      have := h .emptyIdentity "Aggregate function has no identity"
      simpa [Rule.aggregateIssues, Rule.noIdentity, aggregateNames] using this
  | group argument => simp [aggregateNames]

theorem collationNames_ne_empty (c : SortClause ε)
    : ∀ name ∈ collationNames c, name.text ≠ "" := by
  unfold collationNames
  split
  · split
    · simp
    · next h => simpa [Name.text] using h
  · simp

/-- At a node without errors the names that a key gives are not empty, if those are not that no
rule looks at.
-/
theorem nodeNames_ne_empty_iff {usage : TypeUsage} {body : Body Expr}
    (h : Accepted (.node usage body))
    : (∀ name ∈ nodeNames usage body, name.text ≠ "")
      ↔ ∀ text ∈ unruledNames usage body, text ≠ "" := by
  have hidentity := h.identity_ne_empty
  have hvariable : ∀ name ∈ body.variableNames, name ≠ "" := fun _ => h.variable_ne_empty
  have hmember := h.not_mem_memberIssues
  have hmetadata := h.not_mem_metadataIssues
  -- In each case the rules account for some of the names; the others are the ones on the right.
  cases body with
  | constant value | null | convert op argument =>
      simpa [nodeNames, unruledNames] using hidentity
  | variableRef name | filter input predicate | project input projection
  | quantify quantifier input predicate | crossJoin inputs | join kind left right condition
  | apply kind input applied =>
      simpa [nodeNames, unruledNames, Body.variableNames] using hvariable
  | parameter name =>
      have hname := hmember .emptyParameterName "Parameter name cannot be empty"
      simpa [nodeNames, unruledNames, hidentity, Rule.memberIssues] using hname
  | scan set =>
      obtain ⟨hcontainer, hname⟩ := setNames_ne_empty hmetadata
      simp [nodeNames, unruledNames, setNames, hcontainer, hname]
  | call function arguments =>
      have hfunction := hmetadata .emptyIdentity "Function has no identity"
      simpa [nodeNames, unruledNames, Rule.metadataIssues, Rule.noIdentity]
        using hfunction
  | lambda formals body arguments =>
      have hformal : ∀ f ∈ formals, f.name ≠ "" := by
        simpa [Body.variableNames] using hvariable
      simp only [nodeNames, unruledNames, List.forall_mem_flatMap, List.forall_mem_map]
      refine forall₂_congr fun f hf => ?_
      simp [formalNames, hformal f hf]
  | property subject name =>
      have hname := hmember .emptyMemberName "Property name cannot be empty"
      simpa [nodeNames, unruledNames, Rule.memberIssues] using hname
  | typeTest op argument tested only =>
      have htested := hmetadata .emptyIdentity "Tested type has no identity"
      simpa [nodeNames, unruledNames, Rule.metadataIssues, Rule.noIdentity]
        using htested
  | newInstance arguments related =>
      simp only [nodeNames, unruledNames, List.forall_mem_cons, List.forall_mem_flatMap]
      simp [relatedNames, navigationNames]
  | ref set argument =>
      obtain ⟨hcontainer, hname⟩ := setNames_ne_empty hmetadata
      cases usage.type.referenced? <;>
        simp [nodeNames, unruledNames, setNames, hcontainer, hname]
  | navigate source start target =>
      have hends : start.name ≠ "" ∧ target.name ≠ "" := by
        simpa [Rule.memberIssues]
          using hmember .emptyMemberName "Relationship end names cannot be empty"
      simp [nodeNames, unruledNames, navigationNames, hends]
  | groupBy input keys aggregates =>
      have hnames : input.name ≠ "" ∧ input.groupName ≠ "" := by
        simpa [Body.variableNames] using hvariable
      have haggregates : ∀ name ∈ aggregates.flatMap aggregateNames, name.text ≠ "" :=
        List.forall_mem_flatMap.mpr fun a ha => aggregateNames_ne_empty fun code message hmem =>
          hmetadata code message (List.mem_flatMap.mpr ⟨a, ha, hmem⟩)
      simpa [nodeNames, unruledNames, hnames] using haggregates
  | skip input order count | sort input order =>
      have hname : input.name ≠ "" := by
        simpa [Body.variableNames] using hvariable
      have hcollations : ∀ name ∈ order.flatMap collationNames, name.text ≠ "" :=
        List.forall_mem_flatMap.mpr fun c _ => collationNames_ne_empty c
      simpa [nodeNames, unruledNames, hname] using hcollations
  | comparison | like | arithmetic | unary | binary | inList | case | limit | extension =>
      simp [nodeNames, unruledNames]

-----------------------------------------------------------------------------------------
-- Empty names in keys
-----------------------------------------------------------------------------------------

/-- The key of a tree in which validation finds no error is free of empty names and identities
exactly if the names that no rule looks at are not empty. Names are those of the tokens of which
the key consists.
-/
theorem names_ne_empty_iff (s : Settings) (t : Expr) (key : CacheKey)
    (hkey : generate s t = .ok key) (hvalid : (validate Rule.all t).errors = [])
    : key.text = Piece.texts Empty.elim (tokens t)
      ∧ ((∀ name ∈ Piece.names (tokens t), name.text ≠ "")
          ↔ ∀ n ∈ t.nodes, ∀ text ∈ unruledNames n.usage n.body, text ≠ "") := by
  have htemplates := exists_template_of_failure? (generate_eq_ok_iff.mp hkey).1
  have hnode (n : Expr) (hn : n ∈ t.nodes)
      : (∀ name ∈ nodeNames n.usage n.body, name.text ≠ "")
        ↔ ∀ text ∈ unruledNames n.usage n.body, text ≠ "" := by
    rcases n with ⟨usage, body⟩
    exact nodeNames_ne_empty_iff (accepted_of_errors_eq_nil hvalid _ hn)
  refine ⟨text_of_generate hkey, ?_⟩
  rw [← forall₂_congr hnode]
  simp only [mem_names_tokens_iff htemplates]
  exact ⟨fun h n hn name hname => h name ⟨n, hn, hname⟩,
    fun h name ⟨n, hn, hname⟩ => h n hn name hname⟩

/-- A new order that refers to its customer, the ends of the reference having the given names. -/
def placedOrder (start target : String) : Expr :=
  let customer := parameter "customer" (.reference (.entity "Customer"))
  node (.ofType (.entity "Order"))
    (.newInstance [constant (.int32 7)]
      [⟨⟨start, "Placed"⟩, ⟨target, "Placed"⟩, customer⟩])

/-- With named ends the key of the order is free of empty names. -/
theorem names_of_placedOrder
    : ∃ key, generate {} (placedOrder "order" "customer") = .ok key
        ∧ ∀ name ∈ Piece.names (tokens (placedOrder "order" "customer")), name.text ≠ "" := by
  have hkey
      : generate {} (placedOrder "order" "customer")
        = .ok ⟨written (placedOrder "order" "customer")⟩ := by
    decide +kernel
  exact ⟨_, hkey,
    (names_ne_empty_iff {} _ _ hkey (by decide +kernel)).2.mpr (by decide +kernel)⟩

/-- An order whose reference has unnamed ends passes validation, and its key has gaps. -/
theorem generate_unnamedEnds
    : validate Rule.all (placedOrder "" "") = .ok
      ∧ generate {} (placedOrder "" "")
        = .ok ⟨"[NewInstance]:Order((7:Edm.Int32)RE(A(Placed)(->)(@customer:reference[Customer])))"⟩
      ∧ ∃ name ∈ Piece.names (tokens (placedOrder "" "")), name.text = "" := by
  refine ⟨by decide +kernel, by decide +kernel, by decide +kernel⟩

end QueryKey.Validation
