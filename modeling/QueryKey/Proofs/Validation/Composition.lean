import QueryKey.Proofs.Validation.Findings

/-! Validation is compositional. What a rule reports on a tree is what it finds at the root, and
then its reports on the children one after the other, each with longer paths.
-/

namespace QueryKey.Validation

open QueryKey.Expr QueryKey.Metadata

/-- The error of an operand, its path going on from that of the operand's node. -/
def ErrorFinding.below (front : String) (e : ErrorFinding) : ErrorFinding :=
  { e with path := front ++ e.path }

/-- The warning of an operand, its path going on from that of the operand's node. -/
def WarningFinding.below (front : String) (w : WarningFinding) : WarningFinding :=
  { w with path := front ++ w.path }

namespace Rule

/-- What the rule reports on the root of a tree alone. -/
def rootReport (rule : Rule) (t : Expr) : Report :=
  (rule.issues t).foldl (addIssue t.label) .ok

/-- The findings of one kind along a walk are those at the root and those along the walks over the
operands, if a longer path changes nothing in a finding but its path.
-/
theorem flatMap_walk {β : Type} (finding? : String → Issue → Option β) (below : String → β → β)
    (hpath : ∀ front path issue,
      finding? (front ++ path) issue = (finding? path issue).map (below front))
    (rule : Rule) (t : Expr)
    : (t.walk.flatMap fun (e, path) => (rule.issues e).filterMap (finding? path))
      = (rule.issues t).filterMap (finding? t.label)
        ++ t.children.zipIdx.flatMap fun (c, index) =>
          (c.walk.flatMap fun (e, path) => (rule.issues e).filterMap (finding? path)).map
            (below (t.label ++ "/" ++ toString index ++ ":")) := by
  rw [walk_eq, List.flatMap_cons, List.flatMap_assoc]
  congr 1
  apply List.flatMap_congr
  rintro ⟨c, index⟩ _
  simp only [List.flatMap_map, List.map_flatMap, List.map_filterMap, hpath]

/-- The errors of a rule on a tree, in terms of those on its children. -/
theorem errors_report_eq (rule : Rule) (t : Expr)
    : (rule.report t).errors
      = (rule.rootReport t).errors
        ++ t.children.zipIdx.flatMap fun (c, index) =>
          (rule.report c).errors.map
            (ErrorFinding.below (t.label ++ "/" ++ toString index ++ ":")) := by
  simp only [errors_report, rootReport, errors_addIssues]
  refine flatMap_walk Issue.error? ErrorFinding.below (fun front path issue => ?_) rule t
  cases issue <;> rfl

/-- The warnings of a rule on a tree, in terms of those on its children. -/
theorem warnings_report_eq (rule : Rule) (t : Expr)
    : (rule.report t).warnings
      = (rule.rootReport t).warnings
        ++ t.children.zipIdx.flatMap fun (c, index) =>
          (rule.report c).warnings.map
            (WarningFinding.below (t.label ++ "/" ++ toString index ++ ":")) := by
  simp only [warnings_report, rootReport, warnings_addIssues]
  refine flatMap_walk Issue.warning? WarningFinding.below (fun front path issue => ?_) rule t
  cases issue <;> rfl

/-- A rule finds no error in a tree if it finds none at the root and none in the children. -/
theorem errors_report_eq_nil_iff (rule : Rule) (t : Expr)
    : (rule.report t).errors = []
      ↔ (rule.rootReport t).errors = [] ∧ ∀ c ∈ t.children, (rule.report c).errors = [] := by
  rw [errors_report_eq, List.append_eq_nil_iff, List.flatMap_eq_nil_iff]
  refine and_congr_right fun _ => ⟨fun h c hc => ?_, fun h => ?_⟩
  · obtain ⟨index, hindex⟩ := List.mem_iff_getElem?.mp hc
    exact List.map_eq_nil_iff.mp (h (c, index) (List.mem_zipIdx_iff_getElem?.mpr hindex))
  · rintro ⟨c, index⟩ hc
    exact List.map_eq_nil_iff.mpr (h c (List.fst_mem_of_mem_zipIdx hc))

end Rule

/-- Each rule reports on a tree what it finds at the root, followed by what it reports on the
children in their order, where only the paths become longer: by the root's label and the index of
the child. So a tree is valid exactly if its root passes by itself and all its children are valid.
-/
theorem report_eq_root_and_children (t : Expr)
    : (∀ rule : Rule,
        (rule.report t).errors
          = (rule.rootReport t).errors
            ++ t.children.zipIdx.flatMap (fun (c, index) =>
              (rule.report c).errors.map fun e =>
                { e with path := t.label ++ "/" ++ toString index ++ ":" ++ e.path })
        ∧ (rule.report t).warnings
          = (rule.rootReport t).warnings
            ++ t.children.zipIdx.flatMap (fun (c, index) =>
              (rule.report c).warnings.map fun w =>
                { w with path := t.label ++ "/" ++ toString index ++ ":" ++ w.path }))
      ∧ (isValid t = true
          ↔ (∀ rule ∈ Rule.all, (rule.rootReport t).errors = [])
            ∧ ∀ c ∈ t.children, isValid c = true) := by
  refine ⟨fun rule => ⟨rule.errors_report_eq t, rule.warnings_report_eq t⟩, ?_⟩
  simp only [isValid_iff]
  constructor
  · intro h
    have hparts rule (hrule : rule ∈ Rule.all)
        : (rule.rootReport t).errors = [] ∧ ∀ c ∈ t.children, (rule.report c).errors = [] :=
      (rule.errors_report_eq_nil_iff t).mp (h rule hrule)
    exact ⟨fun rule hrule => (hparts rule hrule).1,
      fun c hc rule hrule => (hparts rule hrule).2 c hc⟩
  · rintro ⟨hroot, hchildren⟩ rule hrule
    exact (rule.errors_report_eq_nil_iff t).mpr
      ⟨hroot rule hrule, fun c hc => hchildren c hc rule hrule⟩

end QueryKey.Validation
