import QueryKey.Expr.Builder
import QueryKey.Proofs.Key.Names
import QueryKey.Proofs.Validation.Findings

/-! Generated aliases. Key generation meets the names of variables one by one as it writes them,
validation lists them node by node; both look at the same names.
-/

namespace QueryKey.Validation

open QueryKey.Expr QueryKey.Metadata QueryKey.Key

/-- What validation says about a generated alias. -/
def aliasMessage (name : String) : String :=
  "Variable '" ++ name ++ "' comes from the default alias generator"

/-- An alias is warned of exactly at the nodes that have it among their variables. -/
theorem generatedAlias_mem_issues_iff {e : Expr} {message : String}
    : Issue.warning .generatedAlias message ∈ Rule.names.issues e
      ↔ ∃ name ∈ e.body.variableNames,
          isGeneratedAlias name = true ∧ message = aliasMessage name := by
  have hmember : Issue.warning .generatedAlias message ∉ Rule.memberIssues e.body := by
    rcases e with ⟨usage, body⟩
    cases body with
    | parameter name | property subject name | navigate source start target =>
        simp only [Expr.body, Rule.memberIssues]
        split <;> simp
    | _ => simp [Expr.body, Rule.memberIssues]
  have hname (name : String) : Issue.warning .generatedAlias message ∈ Rule.aliasIssues name
      ↔ isGeneratedAlias name = true ∧ message = aliasMessage name := by
    unfold Rule.aliasIssues
    by_cases hempty : name.isEmpty
    · obtain rfl : name = "" := String.isEmpty_iff.mp hempty
      simp [show isGeneratedAlias "" = false by decide]
    · by_cases hgenerated : isGeneratedAlias name <;> simp [hempty, hgenerated, aliasMessage]
  simp only [Rule.issues, List.mem_append, hmember, or_false, List.mem_flatMap, hname]

/-- Variables in a key are the variables of the nodes on the walk. -/
theorem boundName_mem_tokens_iff {t : Expr}
    (h : ∀ n ∈ t.nodes, ∃ pieces, template n.usage n.body = .ok pieces) {name : String}
    : .boundName name ∈ tokens t ↔ ∃ p ∈ t.walk, name ∈ p.1.body.variableNames := by
  have hnames : .bound name ∈ Piece.names (tokens t) ↔ _ := mem_names_tokens_iff h
  rw [Piece.mem_names_iff] at hnames
  simp only [bound_mem_nodeNames_iff, nodes, List.mem_map, exists_exists_and_eq_and] at hnames
  exact hnames

/-- Where generation that allows generated aliases gives a key, generation that refuses them gives
the same key if validation warns of none; otherwise it fails, and the name that it reports is a
generated alias of which validation warns at a node that has it among its variables.
-/
theorem rejection_agrees_with_warnings (limit : Option Nat) (t : Expr) (key : CacheKey)
    (h : generate { maxDepth := limit, rejectGeneratedAliases := false } t = .ok key)
    : ((∀ found ∈ (Rule.names.report t).warnings, found.code ≠ .generatedAlias)
          → generate { maxDepth := limit, rejectGeneratedAliases := true } t = .ok key)
      ∧ ((∃ found ∈ (Rule.names.report t).warnings, found.code = .generatedAlias)
          → ∃ name,
              generate { maxDepth := limit, rejectGeneratedAliases := true } t
                = .error (.reservedVariableName name)
              ∧ isGeneratedAlias name = true
              ∧ ∃ found ∈ (Rule.names.report t).warnings,
                  found.code = .generatedAlias ∧ found.message = aliasMessage name
                    ∧ ∃ p ∈ t.walk, p.2 = found.path ∧ name ∈ p.1.body.variableNames) := by
  have htemplates := exists_template_of_failure? (generate_eq_ok_iff.mp h).1
  rw [generate_rejecting h]
  cases hfirst : (tokens t).findSome? generatedAlias? with
  | none =>
      refine ⟨fun _ => rfl, ?_⟩
      rintro ⟨found, hfound, hcode⟩
      obtain ⟨e, he, hissue⟩ := mem_warnings_report.mp hfound
      rw [hcode] at hissue
      obtain ⟨name, hname, hgenerated, -⟩ := generatedAlias_mem_issues_iff.mp hissue
      have htoken := (boundName_mem_tokens_iff htemplates).mpr ⟨_, he, hname⟩
      have hnone := List.findSome?_eq_none_iff.mp hfirst _ htoken
      rw [generatedAlias?_eq_some_iff.mpr ⟨rfl, hgenerated⟩] at hnone
      cases hnone
  | some name =>
      -- The first alias in the key need not be the first one on the walk.
      obtain ⟨token, htoken, halias⟩ := List.exists_of_findSome?_eq_some hfirst
      obtain ⟨rfl, hgenerated⟩ := generatedAlias?_eq_some_iff.mp halias
      obtain ⟨p, hp, hname⟩ := (boundName_mem_tokens_iff htemplates).mp htoken
      have hfound : (⟨.generatedAlias, aliasMessage name, p.2⟩ : WarningFinding)
          ∈ (Rule.names.report t).warnings :=
        mem_warnings_report.mpr
          ⟨p.1, hp, generatedAlias_mem_issues_iff.mpr ⟨name, hname, hgenerated, rfl⟩⟩
      exact ⟨fun hnone => absurd rfl (hnone _ hfound),
        fun _ => ⟨name, rfl, hgenerated, _, hfound, rfl, rfl, p, hp, rfl, hname⟩⟩

/-- All pairs of counts, the second of each pair being bound to the name. -/
def pairedCounts (name : String) : Expr :=
  let counts := parameter "counts" (.collection (.primitive .int32))
  crossJoin [bindAs counts "c", bindAs counts name] counts.usage

/-- A chosen name leaves the pairs their key, a generated one takes it from them. -/
theorem rejection_agrees_on_pairedCounts
    : (∃ key,
        generate { maxDepth := some 2, rejectGeneratedAliases := false } (pairedCounts "d")
          = .ok key
        ∧ generate { maxDepth := some 2, rejectGeneratedAliases := true } (pairedCounts "d")
          = .ok key)
      ∧ ∃ key name,
          generate { maxDepth := some 2, rejectGeneratedAliases := false } (pairedCounts "Var_3")
            = .ok key
          ∧ generate { maxDepth := some 2, rejectGeneratedAliases := true } (pairedCounts "Var_3")
            = .error (.reservedVariableName name)
          ∧ isGeneratedAlias name = true := by
  have hchosen
      : generate { maxDepth := some 2, rejectGeneratedAliases := false } (pairedCounts "d")
        = .ok ⟨written (pairedCounts "d")⟩ := by
    decide +kernel
  have hgenerated
      : generate { maxDepth := some 2, rejectGeneratedAliases := false } (pairedCounts "Var_3")
        = .ok ⟨written (pairedCounts "Var_3")⟩ := by
    decide +kernel
  have hplain := (rejection_agrees_with_warnings _ _ _ hchosen).1 (by decide +kernel)
  obtain ⟨name, herror, hname, -⟩ :=
    (rejection_agrees_with_warnings _ _ _ hgenerated).2 (by decide +kernel)
  exact ⟨⟨_, hchosen, hplain⟩, _, name, hgenerated, herror, hname⟩

end QueryKey.Validation
