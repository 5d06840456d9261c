import QueryKey.Proofs.Expr.Walk
import QueryKey.Validation.Rule

/-! What a report contains: the issues that its rules find at the nodes of the walk, with the paths
of these nodes.
-/

namespace QueryKey.Validation

open QueryKey.Expr QueryKey.Metadata

namespace Issue

/-- The error that an issue is at a path, if it is one. -/
def error? (path : String) : Issue → Option ErrorFinding
  | error code message => some ⟨code, message, path⟩
  | warning _ _ => none

/-- The warning that an issue is at a path, if it is one. -/
def warning? (path : String) : Issue → Option WarningFinding
  | error _ _ => none
  | warning code message => some ⟨code, message, path⟩

end Issue

namespace Rule

theorem errors_addIssues (path : String) (r : Report) (issues : List Issue)
    : (issues.foldl (addIssue path) r).errors
      = r.errors ++ issues.filterMap (Issue.error? path) := by
  induction issues generalizing r with
  | nil => simp
  | cons issue rest ih =>
      cases issue <;>
        simp [ih, addIssue, Report.addError, Report.addWarning, Issue.error?, List.filterMap_cons]

theorem warnings_addIssues (path : String) (r : Report) (issues : List Issue)
    : (issues.foldl (addIssue path) r).warnings
      = r.warnings ++ issues.filterMap (Issue.warning? path) := by
  induction issues generalizing r with
  | nil => simp
  | cons issue rest ih =>
      cases issue <;>
        simp [ih, addIssue, Report.addError, Report.addWarning, Issue.warning?, List.filterMap_cons]

/-- A list that every step of a fold extends by what it finds, ends up with all findings. -/
theorem foldl_collect {σ α β : Type} (list : σ → List β) (find : α → List β) (step : σ → α → σ)
    (hstep : ∀ s a, list (step s a) = list s ++ find a) (items : List α) (s : σ)
    : list (items.foldl step s) = list s ++ items.flatMap find := by
  induction items generalizing s with
  | nil => simp
  | cons a rest ih => rw [List.foldl_cons, ih, hstep, List.flatMap_cons, List.append_assoc]

/-- The errors of a report are those found at the nodes of the walk. -/
theorem errors_report (rule : Rule) (t : Expr)
    : (rule.report t).errors
      = t.walk.flatMap fun (e, path) => (rule.issues e).filterMap (Issue.error? path) := by
  rw [report, forEachNode_eq_foldl, ← walk_eq_preorder]
  exact foldl_collect Report.errors (fun (e, path) => (rule.issues e).filterMap (Issue.error? path))
    (fun r (e, path) => (rule.issues e).foldl (addIssue path) r)
    (fun r p => errors_addIssues p.2 r (rule.issues p.1)) t.walk .ok

/-- The warnings of a report are those found at the nodes of the walk. -/
theorem warnings_report (rule : Rule) (t : Expr)
    : (rule.report t).warnings
      = t.walk.flatMap fun (e, path) => (rule.issues e).filterMap (Issue.warning? path) := by
  rw [report, forEachNode_eq_foldl, ← walk_eq_preorder]
  exact foldl_collect Report.warnings
    (fun (e, path) => (rule.issues e).filterMap (Issue.warning? path))
    (fun r (e, path) => (rule.issues e).foldl (addIssue path) r)
    (fun r p => warnings_addIssues p.2 r (rule.issues p.1)) t.walk .ok

-----------------------------------------------------------------------------------------
-- Which rule finds what
-----------------------------------------------------------------------------------------

/-- The issues that a rule may find; no two rules share a code. -/
def canFind : Rule → Issue → Bool
  | names, .error .emptyVariableName _ | names, .error .emptyParameterName _
  | names, .error .emptyMemberName _ | names, .warning .generatedAlias _
  | identities, .error .emptyIdentity _
  | arity, .error .arityMismatch _ | arity, .error .emptyList _ | arity, .warning .extensionNode _
  | constants, .error .nonScalarConstant _ | constants, .warning .constantTypeMismatch _ => true
  | _, _ => false

theorem canFind_of_mem_aliasIssues {name : String} {issue : Issue} (h : issue ∈ aliasIssues name)
    : canFind .names issue = true := by
  unfold aliasIssues at h
  split at h
  · obtain rfl := List.mem_singleton.mp h
    rfl
  · split at h
    · obtain rfl := List.mem_singleton.mp h
      rfl
    · cases h

theorem canFind_of_mem_memberIssues {body : Body Expr} {issue : Issue}
    (h : issue ∈ memberIssues body)
    : canFind .names issue = true := by
  cases body with
  | parameter name | property subject name | navigate source start target =>
      simp only [memberIssues] at h
      split at h
      · obtain rfl := List.mem_singleton.mp h
        rfl
      · cases h
  | _ => cases h

theorem canFind_of_mem_setIssues {set : EntitySet} {issue : Issue} (h : issue ∈ setIssues set)
    : canFind .identities issue = true := by
  unfold setIssues at h
  split at h
  · obtain rfl := List.mem_singleton.mp h
    rfl
  · cases h

theorem canFind_of_mem_aggregateIssues {a : Aggregate Expr} {issue : Issue}
    (h : issue ∈ aggregateIssues a)
    : canFind .identities issue = true := by
  cases a with
  | function g distinct arguments =>
      simp only [aggregateIssues] at h
      split at h
      · obtain rfl := List.mem_singleton.mp h
        rfl
      · cases h
  | group argument => cases h

theorem canFind_of_mem_metadataIssues {body : Body Expr} {issue : Issue}
    (h : issue ∈ metadataIssues body)
    : canFind .identities issue = true := by
  cases body with
  | scan set | ref set argument => exact canFind_of_mem_setIssues h
  | call function arguments | typeTest op argument tested only =>
      simp only [metadataIssues] at h
      split at h
      · obtain rfl := List.mem_singleton.mp h
        rfl
      · cases h
  | groupBy input keys aggregates =>
      obtain ⟨a, -, h⟩ := List.mem_flatMap.mp h
      exact canFind_of_mem_aggregateIssues h
  | _ => cases h

theorem canFind_of_mem_arityIssues {body : Body Expr} {issue : Issue} (h : issue ∈ arityIssues body)
    : canFind .arity issue = true := by
  cases body with
  | arithmetic op arguments =>
      simp only [arityIssues] at h
      split at h
      · cases h
      · obtain rfl := List.mem_singleton.mp h
        rfl
  | inList item list | crossJoin inputs | case arms otherwise | skip input order count
  | sort input order =>
      simp only [arityIssues] at h
      split at h
      · obtain rfl := List.mem_singleton.mp h
        rfl
      · cases h
  | extension name arguments =>
      obtain rfl := List.mem_singleton.mp h
      rfl
  | _ => cases h

theorem canFind_of_mem_constantIssues {usage : TypeUsage} {body : Body Expr} {issue : Issue}
    (h : issue ∈ constantIssues usage body)
    : canFind .constants issue = true := by
  cases body with
  | constant payload =>
      simp only [constantIssues] at h
      split at h
      · obtain rfl := List.mem_singleton.mp h
        rfl
      · split at h
        · cases h
        · obtain rfl := List.mem_singleton.mp h
          rfl
  | _ => cases h

/-- A rule finds only issues of its own codes. -/
theorem canFind_of_mem_issues {rule : Rule} {e : Expr} {issue : Issue} (h : issue ∈ rule.issues e)
    : rule.canFind issue = true := by
  cases rule with
  | names =>
      rcases List.mem_append.mp h with h | h
      · obtain ⟨name, -, h⟩ := List.mem_flatMap.mp h
        exact canFind_of_mem_aliasIssues h
      · exact canFind_of_mem_memberIssues h
  | identities =>
      rcases List.mem_append.mp h with h | h
      · split at h
        · obtain rfl := List.mem_singleton.mp h
          rfl
        · cases h
      · exact canFind_of_mem_metadataIssues h
  | arity => exact canFind_of_mem_arityIssues h
  | constants => exact canFind_of_mem_constantIssues h

end Rule

theorem errors_validate (rules : List Rule) (t : Expr)
    : (validate rules t).errors = rules.flatMap fun rule => (rule.report t).errors := by
  unfold validate
  exact Rule.foldl_collect Report.errors (fun rule => (rule.report t).errors)
    (fun r rule => r.merge (rule.report t)) (fun _ _ => rfl) rules .ok

theorem warnings_validate (rules : List Rule) (t : Expr)
    : (validate rules t).warnings = rules.flatMap fun rule => (rule.report t).warnings := by
  unfold validate
  exact Rule.foldl_collect Report.warnings (fun rule => (rule.report t).warnings)
    (fun r rule => r.merge (rule.report t)) (fun _ _ => rfl) rules .ok

/-- An error is reported exactly if one of the rules finds it at a node of the walk. -/
theorem mem_errors_validate {rules : List Rule} {t : Expr} {found : ErrorFinding}
    : found ∈ (validate rules t).errors
      ↔ ∃ rule ∈ rules, ∃ e : Expr, (e, found.path) ∈ t.walk
          ∧ Issue.error found.code found.message ∈ rule.issues e := by
  simp only [errors_validate, Rule.errors_report, List.mem_flatMap, List.mem_filterMap]
  constructor
  · rintro ⟨rule, hrule, ⟨e, path⟩, he, issue, hissue, hfound⟩
    cases issue with
    | error code message =>
        cases hfound
        exact ⟨rule, hrule, e, he, hissue⟩
    | warning code message => cases hfound
  · rintro ⟨rule, hrule, e, he, hissue⟩
    exact ⟨rule, hrule, (e, found.path), he, _, hissue, rfl⟩

/-- A warning is reported by a rule exactly if the rule finds it at a node of the walk. -/
theorem mem_warnings_report {rule : Rule} {t : Expr} {found : WarningFinding}
    : found ∈ (rule.report t).warnings
      ↔ ∃ e : Expr, (e, found.path) ∈ t.walk
          ∧ Issue.warning found.code found.message ∈ rule.issues e := by
  simp only [Rule.warnings_report, List.mem_flatMap, List.mem_filterMap]
  constructor
  · rintro ⟨⟨e, path⟩, he, issue, hissue, hfound⟩
    cases issue with
    | error code message => cases hfound
    | warning code message =>
        cases hfound
        exact ⟨e, he, hissue⟩
  · rintro ⟨e, he, hissue⟩
    exact ⟨(e, found.path), he, _, hissue, rfl⟩

/-- A warning is reported exactly if one of the rules finds it at a node of the walk. -/
theorem mem_warnings_validate {rules : List Rule} {t : Expr} {found : WarningFinding}
    : found ∈ (validate rules t).warnings
      ↔ ∃ rule ∈ rules, ∃ e : Expr, (e, found.path) ∈ t.walk
          ∧ Issue.warning found.code found.message ∈ rule.issues e := by
  simp only [warnings_validate, List.mem_flatMap, mem_warnings_report]

-----------------------------------------------------------------------------------------
-- Verdicts
-----------------------------------------------------------------------------------------

namespace Report

/-- The stored verdict agrees with the errors. -/
def IsConsistent (r : Report) : Prop :=
  r.valid = true ↔ r.errors = []

theorem isConsistent_ok : ok.IsConsistent :=
  iff_of_true rfl rfl

theorem isConsistent_addError (r : Report) (e : ErrorFinding) : (r.addError e).IsConsistent := by
  simp [IsConsistent, addError]

theorem IsConsistent.addWarning {r : Report} (h : r.IsConsistent) (w : WarningFinding)
    : (r.addWarning w).IsConsistent :=
  h

theorem IsConsistent.merge {r other : Report} (h : r.IsConsistent) (hother : other.IsConsistent)
    : (r.merge other).IsConsistent := by
  simp only [IsConsistent] at h hother
  simp only [IsConsistent, Report.merge, Bool.and_eq_true, List.append_eq_nil_iff, h, hother]

end Report

theorem Rule.isConsistent_addIssues (path : String) {r : Report} (h : r.IsConsistent)
    (issues : List Issue)
    : (issues.foldl (addIssue path) r).IsConsistent := by
  induction issues generalizing r with
  | nil => exact h
  | cons issue rest ih =>
      cases issue with
      | error code message => exact ih (r.isConsistent_addError _)
      | warning code message => exact ih (h.addWarning _)

theorem Rule.isConsistent_report (rule : Rule) (t : Expr) : (rule.report t).IsConsistent := by
  rw [report, forEachNode_eq_foldl]
  refine List.foldlRecOn _ _ Report.isConsistent_ok fun r h p _ => ?_
  exact isConsistent_addIssues p.2 h (rule.issues p.1)

theorem isConsistent_validate (rules : List Rule) (t : Expr)
    : (validate rules t).IsConsistent := by
  unfold validate
  refine List.foldlRecOn _ _ Report.isConsistent_ok fun r h rule _ => ?_
  exact h.merge (rule.isConsistent_report t)

/-- A tree is valid if none of the rules finds an error in it. -/
theorem isValid_iff (t : Expr)
    : isValid t = true ↔ ∀ rule ∈ Rule.all, (rule.report t).errors = [] := by
  have hverdict : isValid t = (validate Rule.all t).valid := by
    rw [isValid, check, Report.toResult]
    cases (validate Rule.all t).valid <;> rfl
  have hconsistent : (validate Rule.all t).valid = true ↔ (validate Rule.all t).errors = [] :=
    isConsistent_validate Rule.all t
  rw [hverdict, hconsistent, errors_validate, List.flatMap_eq_nil_iff]

end QueryKey.Validation
