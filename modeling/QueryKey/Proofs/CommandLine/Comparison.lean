import QueryKey.CommandLine.Execution

/-! Comparing two trees and printing their keys. Both commands key a tree in the same way, so that
the ends of two runs that print keys decide how a comparison of the trees ends.
-/

namespace QueryKey.CommandLine

open QueryKey.Key

-----------------------------------------------------------------------------------------
-- How results end
-----------------------------------------------------------------------------------------

/-- The exit code is a matter of the verdict, whatever was printed and whatever the failure is. -/
theorem exitCode_eq (result : Except Failure Outcome)
    : exitCode result
      = match result.map Outcome.verdict with
        | .ok verdict => verdict.exitCode
        | .error _ => failureCode := by
  cases result <;> rfl

theorem verdict_eq_ok_iff {result : Except Failure Outcome} {verdict : Verdict}
    : result.map Outcome.verdict = .ok verdict ↔ ∃ output, result = .ok ⟨verdict, output⟩ := by
  cases result with
  | error failure => simp [Except.map]
  | ok outcome =>
      obtain ⟨other, output⟩ := outcome
      simp [Except.map]

theorem verdict_eq_error_iff {result : Except Failure Outcome} {failure : Failure}
    : result.map Outcome.verdict = .error failure ↔ result = .error failure := by
  cases result <;> simp [Except.map]

/-- No command that runs to its end has the exit code of a failure. -/
theorem exitCode_eq_failureCode_iff {result : Except Failure Outcome}
    : exitCode result = failureCode ↔ ∃ failure, result = .error failure := by
  cases result with
  | error failure => simp [exitCode]
  | ok outcome =>
      obtain ⟨verdict, output⟩ := outcome
      cases verdict <;> simp [exitCode, Verdict.exitCode, failureCode]

-----------------------------------------------------------------------------------------
-- What commands find out about trees
-----------------------------------------------------------------------------------------

/-- The surroundings in which a command with the options is run. -/
def Surroundings.under (s : Surroundings) (options : Given) : Surroundings :=
  { s with color := s.color && !options.has .noColor }

/-- The tree in a file, keyed. -/
def keyFile (s : Surroundings) (settings : Settings) (path : String) : Except Failure Keyed := do
  let tree ← s.loadTree path
  keyTree settings tree

/-- What the key command prints of a tree that has been keyed, without a document. -/
def printedKey (s : Surroundings) : Keyed → Outcome
  | .key k => ⟨.success, lines [k.text]⟩
  | .notCacheable reason => ⟨.negative, lines [notCacheableWord s ++ " " ++ reason.message]⟩

/-- How a comparison ends that has keyed both trees. -/
def comparedVerdict : Keyed → Keyed → Verdict
  | .key a, .key b => if a = b then .success else .negative
  | _, _ => .negative

theorem comparedVerdict_comm (a b : Keyed) : comparedVerdict a b = comparedVerdict b a := by
  cases a <;> cases b <;> simp only [comparedVerdict, eq_comm]

/-- Two trees share a key exactly if the same key is printed of both. -/
theorem comparedVerdict_eq_success_iff {s : Surroundings} {a b : Keyed}
    : comparedVerdict a b = .success
      ↔ ∃ output, printedKey s a = ⟨.success, output⟩ ∧ printedKey s b = ⟨.success, output⟩ := by
  cases a with
  | notCacheable reason => simp [comparedVerdict, printedKey]
  | key k =>
      cases b with
      | notCacheable reason => simp [comparedVerdict, printedKey]
      | key l =>
          obtain ⟨text⟩ := k
          obtain ⟨other⟩ := l
          simp [comparedVerdict, printedKey, lines, String.join, eq_comm]

/-- In every other case one of the trees is not cacheable, or the keys that are printed differ. -/
theorem comparedVerdict_eq_negative_iff {s : Surroundings} {a b : Keyed}
    : comparedVerdict a b = .negative
      ↔ (printedKey s a).verdict = .negative ∨ (printedKey s b).verdict = .negative
        ∨ (printedKey s a).output ≠ (printedKey s b).output := by
  cases a with
  | notCacheable reason => simp [comparedVerdict, printedKey]
  | key k =>
      cases b with
      | notCacheable reason => simp [comparedVerdict, printedKey]
      | key l =>
          obtain ⟨text⟩ := k
          obtain ⟨other⟩ := l
          simp [comparedVerdict, printedKey, lines, String.join]

theorem runKey_eq (s : Surroundings) (settings : Settings) (path : String)
    : runKey s settings path false = (keyFile s settings path).map (printedKey s) := by
  simp only [runKey, keyFile, bind, Except.bind]
  cases s.loadTree path with
  | error failure => rfl
  | ok tree =>
      dsimp only
      cases keyTree settings tree with
      | error failure => rfl
      | ok keyed => cases keyed <;> rfl

/-- The key command ends as its tree was keyed, whether or not the report is a document. -/
theorem verdict_runKey (s : Surroundings) (settings : Settings) (path : String) (json : Bool)
    : (runKey s settings path json).map Outcome.verdict
      = (keyFile s settings path).map Keyed.verdict := by
  simp only [runKey, keyFile, bind, Except.bind]
  cases s.loadTree path with
  | error failure => rfl
  | ok tree =>
      dsimp only
      cases keyTree settings tree <;> rfl

/-- A comparison ends as its trees were keyed, the left one first. -/
theorem verdict_runCompare (s : Surroundings) (settings : Settings) (left right : String)
    : (runCompare s settings left right).map Outcome.verdict
      = do
        let a ← keyFile s settings left
        let b ← keyFile s settings right
        return comparedVerdict a b := by
  simp only [runCompare, keyFile, bind, Except.bind]
  cases s.loadTree left with
  | error failure => rfl
  | ok leftTree =>
      dsimp only
      cases keyTree settings leftTree with
      | error failure => rfl
      | ok a =>
          dsimp only
          cases s.loadTree right with
          | error failure => rfl
          | ok rightTree =>
              dsimp only
              cases keyTree settings rightTree with
              | error failure => rfl
              | ok b =>
                  cases a <;> cases b <;> simp only [comparedVerdict] <;> try rfl
                  split <;> rfl

-----------------------------------------------------------------------------------------
-- Comparisons and keys
-----------------------------------------------------------------------------------------

section Comparisons

variable {s : Surroundings} {settings : Settings} {left right : String}

/-- A comparison succeeds exactly if the same key is printed of both trees. -/
theorem runCompare_success_iff
    : (∃ output, runCompare s settings left right = .ok ⟨.success, output⟩)
      ↔ ∃ output, runKey s settings left false = .ok ⟨.success, output⟩
          ∧ runKey s settings right false = .ok ⟨.success, output⟩ := by
  rw [← verdict_eq_ok_iff, verdict_runCompare, runKey_eq, runKey_eq]
  cases keyFile s settings left with
  | error failure => simp [bind, Except.bind, Except.map]
  | ok a =>
      cases keyFile s settings right with
      | error failure => simp [bind, Except.bind, Except.map]
      | ok b =>
          simpa [bind, Except.bind, Except.map, pure, Except.pure]
            using comparedVerdict_eq_success_iff

/-- A comparison fails exactly if one of the trees cannot be keyed. -/
theorem runCompare_error_iff
    : (∃ failure, runCompare s settings left right = .error failure)
      ↔ (∃ failure, runKey s settings left false = .error failure)
        ∨ ∃ failure, runKey s settings right false = .error failure := by
  refine (exists_congr fun _ => verdict_eq_error_iff.symm).trans ?_
  rw [verdict_runCompare, runKey_eq, runKey_eq]
  cases keyFile s settings left with
  | error failure => simp [bind, Except.bind, Except.map]
  | ok a =>
      cases keyFile s settings right with
      | error failure => simp [bind, Except.bind, Except.map]
      | ok b => simp [bind, Except.bind, Except.map, pure, Except.pure]

/-- A comparison is negative exactly if both trees are reported on, and not by the same key. -/
theorem runCompare_negative_iff
    : (∃ output, runCompare s settings left right = .ok ⟨.negative, output⟩)
      ↔ ∃ a b, runKey s settings left false = .ok a ∧ runKey s settings right false = .ok b
          ∧ (a.verdict = .negative ∨ b.verdict = .negative ∨ a.output ≠ b.output) := by
  rw [← verdict_eq_ok_iff, verdict_runCompare, runKey_eq, runKey_eq]
  cases keyFile s settings left with
  | error failure => simp [bind, Except.bind, Except.map]
  | ok a =>
      cases keyFile s settings right with
      | error failure => simp [bind, Except.bind, Except.map]
      | ok b =>
          simpa [bind, Except.bind, Except.map, pure, Except.pure]
            using comparedVerdict_eq_negative_iff

end Comparisons

/-- The order of the trees has no part in the exit code of a comparison. -/
theorem exitCode_runCompare_comm (s : Surroundings) (settings : Settings) (left right : String)
    : exitCode (runCompare s settings left right)
      = exitCode (runCompare s settings right left) := by
  rw [exitCode_eq, exitCode_eq, verdict_runCompare, verdict_runCompare]
  cases keyFile s settings left with
  | error failure => cases keyFile s settings right <;> rfl
  | ok a =>
      cases keyFile s settings right with
      | error failure => rfl
      | ok b => simp [bind, Except.bind, pure, Except.pure, comparedVerdict_comm a b]

-----------------------------------------------------------------------------------------
-- Runs
-----------------------------------------------------------------------------------------

/-- Every command fails if the settings cannot be loaded. -/
theorem run_of_error {s : Surroundings} {options : Given} {failure : Failure}
    (h : settingsOf (s.under options) options = .error failure) (command : Command)
    : run s ⟨command, options⟩ = .error failure := by
  rw [Surroundings.under] at h
  simp [run, h, bind, Except.bind]

/-- A key is printed with the settings that the options make. -/
theorem run_key_of_ok {s : Surroundings} {options : Given} {settings : Settings}
    (h : settingsOf (s.under options) options = .ok settings) (path : String) (json : Bool)
    : run s ⟨.key path json, options⟩ = runKey (s.under options) settings path json := by
  rw [Surroundings.under] at *
  simp [run, h, bind, Except.bind]

/-- Trees are compared with the settings that the options make. -/
theorem run_compare_of_ok {s : Surroundings} {options : Given} {settings : Settings}
    (h : settingsOf (s.under options) options = .ok settings) (left right : String)
    : run s ⟨.compare left right, options⟩
      = runCompare (s.under options) settings left right := by
  rw [Surroundings.under] at *
  simp [run, h, bind, Except.bind]

/-- With the same files and options, a comparison succeeds exactly if the same key is printed of
both trees, fails exactly if the key of one of them cannot be printed for a failure, and is
negative if both are reported on otherwise: one is not cacheable, or the keys differ. So the exit
code does not depend on the order of the trees. That of the key command does not depend on whether
the report is a document.
-/
theorem compare_agrees_with_key (s : Surroundings) (options : Given) (left right : String)
    : ((∃ output, run s ⟨.compare left right, options⟩ = .ok ⟨.success, output⟩)
        ↔ ∃ output, run s ⟨.key left false, options⟩ = .ok ⟨.success, output⟩
            ∧ run s ⟨.key right false, options⟩ = .ok ⟨.success, output⟩)
      ∧ ((∃ failure, run s ⟨.compare left right, options⟩ = .error failure)
        ↔ (∃ failure, run s ⟨.key left false, options⟩ = .error failure)
          ∨ ∃ failure, run s ⟨.key right false, options⟩ = .error failure)
      ∧ (exitCode (run s ⟨.compare left right, options⟩) = 1
        ↔ ∃ failure, run s ⟨.compare left right, options⟩ = .error failure)
      ∧ ((∃ output, run s ⟨.compare left right, options⟩ = .ok ⟨.negative, output⟩)
        ↔ ∃ a b, run s ⟨.key left false, options⟩ = .ok a
            ∧ run s ⟨.key right false, options⟩ = .ok b
            ∧ (a.verdict = .negative ∨ b.verdict = .negative ∨ a.output ≠ b.output))
      ∧ exitCode (run s ⟨.compare right left, options⟩)
        = exitCode (run s ⟨.compare left right, options⟩)
      ∧ ∀ path, exitCode (run s ⟨.key path true, options⟩)
          = exitCode (run s ⟨.key path false, options⟩) := by
  cases hs : settingsOf (s.under options) options with
  | error failure => simp [run_of_error hs, exitCode, failureCode]
  | ok settings =>
      simp only [run_compare_of_ok hs, run_key_of_ok hs]
      refine ⟨runCompare_success_iff, runCompare_error_iff, exitCode_eq_failureCode_iff,
        runCompare_negative_iff, exitCode_runCompare_comm _ _ _ _, fun path => ?_⟩
      rw [exitCode_eq, exitCode_eq, verdict_runKey, verdict_runKey]

end QueryKey.CommandLine
