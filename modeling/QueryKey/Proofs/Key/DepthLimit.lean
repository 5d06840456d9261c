import QueryKey.Expr.Builder
import QueryKey.Proofs.Expr.Depth
import QueryKey.Proofs.Key.FirstFailure

/-! The depth limit of key generation. The number of open nodes, which a visit counts through all
fragments of a node, is the level at which walks find the nodes; so a limit admits exactly the
trees that are no deeper, and has no part in their keys.
-/

namespace QueryKey.Key

open QueryKey.Expr QueryKey.Metadata

variable {rejectAliases : Bool} {limit depth : Nat}

/-- No piece fails if pieces do not fail. -/
theorem failure?_of_mem_pieces {ε : Type} {s : Settings} {f : ε → Option Failure}
    {pieces : List (Piece ε)} (h : pieces.findSome? (Piece.failure? s f) = none)
    : (∀ e ∈ Piece.operands pieces, f e = none)
      ∧ ∀ name, .boundName name ∈ pieces → Piece.failure? s f (.boundName name) = none := by
  have hpieces := List.findSome?_eq_none_iff.mp h
  exact ⟨fun e he => hpieces _ (Piece.mem_operands_iff.mp he), fun name => hpieces _⟩

/-- Operands that fail by being higher than the limit leaves room for fail together exactly if the
highest one does, by induction on the list.
-/
theorem findSome?_tooHigh {failure : Failure} {f : Expr → Option Failure} {operands : List Expr}
    (hroom : depth ≤ limit)
    (h : ∀ e ∈ operands, f e = if depth + e.height ≤ limit then none else some failure)
    : operands.findSome? f
      = if depth + (operands.map height).foldr max 0 ≤ limit then none else some failure := by
  induction operands with
  | nil => simp [hroom]
  | cons e rest ih =>
      rw [List.findSome?_cons, h e (by simp), ih fun d hd => h d (by simp [hd]), List.map_cons,
        List.foldr_cons]
      by_cases he : depth + e.height ≤ limit <;>
        by_cases hrest : depth + (rest.map height).foldr max 0 ≤ limit <;>
        simp [he, hrest] <;> omega

/-- A tree without failure of its own fails below open nodes exactly if it is higher than the
limit leaves room for, by induction on the tree.
-/
theorem failure?_limited (limit : Nat) {e : Expr}
    (h : failure? ⟨none, rejectAliases⟩ e depth = none)
    : failure? ⟨some limit, rejectAliases⟩ e depth
      = if depth + e.height ≤ limit then none else some (.depthLimitExceeded limit) := by
  induction e using Expr.induction generalizing depth with
  | step usage body ih =>
      rw [failure?_node] at h ⊢
      rw [height_node]
      obtain ⟨-, h⟩ := Option.or_eq_none_iff.mp h
      by_cases hdepth : limit ≤ depth
      · -- No room is left for the root.
        have hhigh : ¬ depth + ((body.children.map height).foldr max 0 + 1) ≤ limit := by omega
        simp [depthFailure?, hdepth, hhigh]
      · have hroom : depth + 1 ≤ limit := by omega
        simp only [depthFailure?, hdepth, if_false, Option.none_or]
        cases ht : template usage body with
        | error failure => rw [ht] at h; cases h
        | ok pieces =>
            rw [ht] at h
            obtain ⟨hoperands, hnames⟩ := failure?_of_mem_pieces h
            rw [operands_template ht] at hoperands
            calc
              pieces.findSome?
                    (Piece.failure? ⟨some limit, rejectAliases⟩
                      fun e => failure? ⟨some limit, rejectAliases⟩ e (depth + 1))
                  = body.children.findSome?
                      (fun e => failure? ⟨some limit, rejectAliases⟩ e (depth + 1)) := by
                rw [← operands_template ht]
                -- Whether a name is allowed does not depend on the limit.
                refine findSome?_pieces ?_
                exact hnames
              _ = if depth + 1 + (body.children.map height).foldr max 0 ≤ limit then none
                  else some (.depthLimitExceeded limit) :=
                findSome?_tooHigh hroom fun c hc => ih c hc (hoperands c hc)
              _ = _ := by rw [Nat.add_assoc, Nat.add_comm 1]

/-- A limit leaves the key of a tree as it is without limit if the tree is no deeper, and takes it
away if the tree is deeper.
-/
theorem generate_within_depth_limit (rejectAliases : Bool) (limit : Nat) (e : Expr)
    (key : CacheKey)
    (h : generate { maxDepth := none, rejectGeneratedAliases := rejectAliases } e = .ok key)
    : (e.depth ≤ limit
          → generate { maxDepth := some limit, rejectGeneratedAliases := rejectAliases } e
            = .ok key)
      ∧ (limit < e.depth
          → generate { maxDepth := some limit, rejectGeneratedAliases := rejectAliases } e
            = .error (.depthLimitExceeded limit)) := by
  obtain ⟨hnone, rfl⟩ := generate_eq_ok_iff.mp h
  have hfailure := failure?_limited limit hnone
  rw [Nat.zero_add, ← depth_eq_height] at hfailure
  rw [generate_eq, hfailure]
  constructor
  · intro hle
    rw [if_pos hle]
  · intro hlt
    rw [if_neg (Nat.not_le.mpr hlt)]

/-- The numbers with a negation below seven, in descending order. -/
def sortedNumbers : Expr :=
  let numbers := Expr.parameter "numbers" (.collection (.primitive .int32))
  let n := bindAs numbers "n"
  let small := Expr.compare (.negate n.reference) .lessThan (.constant (.int32 7))
  let m := bindAs (n.filter small) "m"
  m.sort [⟨.negate m.reference, true, none⟩]

/-- The sort has five levels; its key is the same if as many are allowed, and is gone if only four
are.
-/
theorem generate_sortedNumbers
    : ∃ key,
        generate { maxDepth := none, rejectGeneratedAliases := true } sortedNumbers = .ok key
        ∧ generate { maxDepth := some 5, rejectGeneratedAliases := true } sortedNumbers = .ok key
        ∧ generate { maxDepth := some 4, rejectGeneratedAliases := true } sortedNumbers
          = .error (.depthLimitExceeded 4) := by
  have hkey
      : generate { maxDepth := none, rejectGeneratedAliases := true } sortedNumbers
        = .ok ⟨written sortedNumbers⟩ := by
    decide +kernel
  have hdepth : sortedNumbers.depth = 5 := by decide +kernel
  exact ⟨_, hkey,
    (generate_within_depth_limit true 5 sortedNumbers _ hkey).1 (by omega),
    (generate_within_depth_limit true 4 sortedNumbers _ hkey).2 (by omega)⟩

end QueryKey.Key
