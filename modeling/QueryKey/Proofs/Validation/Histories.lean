import QueryKey.Proofs.Validation.Findings

/-! How reports come about. A report that is put together from the empty one by its operations holds
what was added to it, in that order, and its stored verdict agrees with its errors; so do all the
answers that are taken from it.
-/

namespace QueryKey.Validation

open QueryKey.Expr

/-- What is added to a report. -/
abbrev Finding := ErrorFinding ⊕ WarningFinding

/-- The operations that make a report from the empty one. A report that is merged into another has a
history of its own.
-/
inductive History where
  | start
  | addError (before : History) (e : ErrorFinding)
  | addWarning (before : History) (w : WarningFinding)
  | merge (before other : History)

namespace History

/-- The report that the operations make. -/
def report : History → Report
  | start => .ok
  | addError before e => before.report.addError e
  | addWarning before w => before.report.addWarning w
  | merge before other => before.report.merge other.report

/-- What the operations add, in the order in which they add it. -/
def findings : History → List Finding
  | start => []
  | addError before e => before.findings ++ [.inl e]
  | addWarning before w => before.findings ++ [.inr w]
  | merge before other => before.findings ++ other.findings

end History

namespace Report

/-- The report holds the findings, errors and warnings apart, and the verdict that they call for. -/
structure Records (r : Report) (findings : List Finding) : Prop where
  consistent : r.IsConsistent
  errors : r.errors = findings.filterMap Sum.getLeft?
  warnings : r.warnings = findings.filterMap Sum.getRight?

namespace Records

variable {r other : Report} {findings more : List Finding}

theorem ok : Report.ok.Records [] :=
  ⟨isConsistent_ok, rfl, rfl⟩

theorem addError (h : r.Records findings) (e : ErrorFinding)
    : (r.addError e).Records (findings ++ [.inl e]) where
  consistent := r.isConsistent_addError e
  errors := by simp [Report.addError, h.errors, List.filterMap_append]
  warnings := by simp [Report.addError, h.warnings, List.filterMap_append]

theorem addWarning (h : r.Records findings) (w : WarningFinding)
    : (r.addWarning w).Records (findings ++ [.inr w]) where
  consistent := h.consistent.addWarning w
  errors := by simp [Report.addWarning, h.errors, List.filterMap_append]
  warnings := by simp [Report.addWarning, h.warnings, List.filterMap_append]

theorem merge (h : r.Records findings) (hother : other.Records more)
    : (r.merge other).Records (findings ++ more) where
  consistent := h.consistent.merge hother.consistent
  errors := by simp only [Report.merge, h.errors, hother.errors, List.filterMap_append]
  warnings := by simp only [Report.merge, h.warnings, hother.warnings, List.filterMap_append]

end Records

/-- The result of a report with the right verdict depends on the errors alone. -/
theorem IsConsistent.toResult_eq {r : Report} (h : r.IsConsistent)
    : r.toResult
      = if r.errors = [] then .ok ()
        else .error (.invalidTree (String.intercalate "; " (r.errors.map ErrorFinding.text))) := by
  rw [toResult, messages]
  by_cases hnil : r.errors = []
  · rw [if_pos hnil, if_pos (h.mpr hnil)]
  · rw [if_neg hnil, if_neg fun hvalid => hnil (h.mp hvalid)]

end Report

/-- A report holds what its history adds, by induction on the history. -/
theorem History.records (h : History) : h.report.Records h.findings := by
  induction h with
  | start => exact .ok
  | addError before e ih => exact ih.addError e
  | addWarning before w ih => exact ih.addWarning w
  | merge before other ih ihother => exact ih.merge ihother

-----------------------------------------------------------------------------------------
-- Reports of rules
-----------------------------------------------------------------------------------------

/-- Issues are added one after the other, by induction on their list. -/
theorem Rule.exists_history_addIssues (path : String) (before : History) (issues : List Issue)
    : ∃ h : History, h.report = issues.foldl (addIssue path) before.report := by
  induction issues generalizing before with
  | nil => exact ⟨before, rfl⟩
  | cons issue rest ih =>
      cases issue with
      | error code message => exact ih (before.addError ⟨code, message, path⟩)
      | warning code message => exact ih (before.addWarning ⟨code, message, path⟩)

theorem Rule.exists_history_report (rule : Rule) (t : Expr)
    : ∃ h : History, h.report = rule.report t := by
  rw [report, forEachNode_eq_foldl]
  refine List.foldlRecOn (motive := fun r => ∃ h : History, h.report = r) _ _ ⟨.start, rfl⟩
    fun r hr p _ => ?_
  obtain ⟨before, rfl⟩ := hr
  exact exists_history_addIssues p.2 before (rule.issues p.1)

/-- Validation puts its report together by the operations. -/
theorem exists_history_validate (rules : List Rule) (t : Expr)
    : ∃ h : History, h.report = validate rules t := by
  unfold validate
  refine List.foldlRecOn (motive := fun r => ∃ h : History, h.report = r) _ _ ⟨.start, rfl⟩
    fun r hr rule _ => ?_
  obtain ⟨before, rfl⟩ := hr
  obtain ⟨other, hother⟩ := rule.exists_history_report t
  exact ⟨before.merge other, by rw [History.report, hother]⟩

/-- A report holds what was added to it in its order, and it is valid exactly if none of that is an
error. The report of validation has such a history and consists of the reports of the rules one
after the other; its result is the list of its errors, if there are any. All answers about a tree
are those of the report by all rules.
-/
theorem reports_keep_findings
    : (∀ h : History,
        (h.report.valid = true ↔ h.report.errors = [])
        ∧ h.report.errors = h.findings.filterMap Sum.getLeft?
        ∧ h.report.warnings = h.findings.filterMap Sum.getRight?)
      ∧ (∀ (rules : List Rule) (t : Expr),
          (∃ h : History, h.report = validate rules t)
          ∧ (validate rules t).errors = rules.flatMap (fun rule => (rule.report t).errors)
          ∧ (validate rules t).warnings = rules.flatMap (fun rule => (rule.report t).warnings)
          ∧ (validate rules t).toResult
            = if (validate rules t).errors = [] then .ok ()
              else
                .error (.invalidTree
                  (String.intercalate "; "
                    ((validate rules t).errors.map fun e => "[" ++ e.path ++ "] " ++ e.message))))
      ∧ ∀ t : Expr,
          check t = (validate Rule.all t).toResult
          ∧ (isValid t = true ↔ (validate Rule.all t).errors = [])
          ∧ errorTexts t
            = (validate Rule.all t).errors.map fun e => "[" ++ e.path ++ "] " ++ e.message := by
  refine ⟨fun h => ?history, fun rules t => ?validation, fun t => ?answers⟩
  case history => exact ⟨h.records.consistent, h.records.errors, h.records.warnings⟩
  case validation =>
    exact ⟨exists_history_validate rules t, errors_validate rules t, warnings_validate rules t,
      (isConsistent_validate rules t).toResult_eq⟩
  case answers =>
    refine ⟨rfl, ?_, rfl⟩
    rw [isValid_iff, errors_validate, List.flatMap_eq_nil_iff]

end QueryKey.Validation
