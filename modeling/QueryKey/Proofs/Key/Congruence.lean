import Mathlib.Data.List.Basic
import QueryKey.Expr.Builder
import QueryKey.Proofs.Expr.Position
import QueryKey.Proofs.Key.Outcome

/-! Generation is a congruence. Without a depth limit a subtree enters the key of a tree by its own
text alone, so subtrees of one key may stand for one another at every position.
-/

namespace QueryKey.Key

open QueryKey.Expr QueryKey.Metadata

variable {rejectAliases : Bool}

/-- Without a depth limit it does not matter how many nodes are open, by induction on the tree. -/
theorem failure?_unlimited (e : Expr) (depth other : Nat)
    : failure? ⟨none, rejectAliases⟩ e depth = failure? ⟨none, rejectAliases⟩ e other := by
  induction e using Expr.induction generalizing depth other with
  | step usage body ih =>
      rw [failure?_node, failure?_node]
      cases ht : template usage body with
      | error failure => rfl
      | ok pieces =>
          refine congrArg _ (Piece.findSome?_failure?_congr fun c hc => ?_)
          rw [operands_template ht] at hc
          exact ih c hc (depth + 1) (other + 1)

/-- Without a depth limit the visit of a tree with a key does nothing but append the key, wherever
it starts.
-/
theorem visit_eq_of_generate {e : Expr} {key : CacheKey}
    (h : generate ⟨none, rejectAliases⟩ e = .ok key)
    : visit ⟨none, rejectAliases⟩ e = Visit.write key.text := by
  obtain ⟨hnone, rfl⟩ := generate_eq_ok_iff.mp h
  funext p
  have hmeets := visit_meets ⟨none, rejectAliases⟩ e
  have hfailure : failure? ⟨none, rejectAliases⟩ e p.depth = none := by
    rw [failure?_unlimited e p.depth 0, hnone]
  have houtcome := hmeets.outcome p
  have hdepth := hmeets.depth p
  have htext := hmeets.text p hfailure
  rcases hv : visit ⟨none, rejectAliases⟩ e p with ⟨⟨text, depth⟩, outcome⟩
  rw [hv] at houtcome hdepth htext
  rw [hfailure] at houtcome
  simp only at houtcome hdepth htext
  subst houtcome hdepth htext
  rfl

/-- A tree and the tree with a subtree replaced by one of the same key have the same key, or fail
with the same failure.
-/
theorem generate_replaceAt (rejectAliases : Bool) (t replaced replacement : Expr)
    (position : List Nat) (key : CacheKey) (hposition : t.subtreeAt? position = some replaced)
    (hreplaced
      : generate { maxDepth := none, rejectGeneratedAliases := rejectAliases } replaced = .ok key)
    (hreplacement
      : generate { maxDepth := none, rejectGeneratedAliases := rejectAliases } replacement
        = .ok key)
    : generate { maxDepth := none, rejectGeneratedAliases := rejectAliases }
          (t.replaceAt position replacement)
      = generate { maxDepth := none, rejectGeneratedAliases := rejectAliases } t := by
  have : Inhabited Visit := ⟨Visit.done⟩
  have hsame : visit ⟨none, rejectAliases⟩ replacement = visit ⟨none, rejectAliases⟩ replaced := by
    rw [visit_eq_of_generate hreplacement, visit_eq_of_generate hreplaced]
  have hvisit : visit ⟨none, rejectAliases⟩ (t.replaceAt position replacement)
      = visit ⟨none, rejectAliases⟩ t :=
    fold_replaceAt hposition hsame
  rw [generate, hvisit, generate]

/-- Whether a parameter is seven, as a value of the given type. -/
def isSeven (usage : TypeUsage) : Expr :=
  let count := parameter "count" (.primitive .int32)
  node usage (.comparison .equals count (.constant (.int32 7)))

/-- The numbers in groups, each group with the sum of a negation. -/
def negatedSums (operand : Expr) : Expr :=
  let numbers := parameter "numbers" (.collection (.primitive .int32))
  let input := groupBindAs numbers "n" "group"
  let sum := Function.ofSignature "Edm" "Sum" [.primitive .int32]
  groupBy input [input.reference] [.function sum false [negate operand]] numbers.usage

/-- In the argument of an aggregate a number stands for a truth value that has the same key. -/
theorem generate_negatedSums
    : ∃ key,
        (negatedSums (isSeven .boolean)).subtreeAt? [2, 0] = some (isSeven .boolean)
        ∧ generate { maxDepth := none, rejectGeneratedAliases := true } (isSeven .boolean)
          = .ok key
        ∧ generate { maxDepth := none, rejectGeneratedAliases := true }
            (isSeven (.primitive .int32))
          = .ok key
        ∧ generate { maxDepth := none, rejectGeneratedAliases := true }
            ((negatedSums (isSeven .boolean)).replaceAt [2, 0] (isSeven (.primitive .int32)))
          = generate { maxDepth := none, rejectGeneratedAliases := true }
              (negatedSums (isSeven .boolean)) := by
  have hboolean
      : generate { maxDepth := none, rejectGeneratedAliases := true } (isSeven .boolean)
        = .ok ⟨"[=](@count:Edm.Int32,7:Edm.Int32)"⟩ := by
    decide +kernel
  have hnumber
      : generate { maxDepth := none, rejectGeneratedAliases := true }
          (isSeven (.primitive .int32))
        = .ok ⟨"[=](@count:Edm.Int32,7:Edm.Int32)"⟩ := by
    decide +kernel
  have hposition : (negatedSums (isSeven .boolean)).subtreeAt? [2, 0] = some (isSeven .boolean) :=
    rfl
  exact ⟨_, hposition, hboolean, hnumber,
    generate_replaceAt true _ _ _ [2, 0] _ hposition hboolean hnumber⟩

end QueryKey.Key
