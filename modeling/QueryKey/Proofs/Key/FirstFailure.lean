import QueryKey.Proofs.Expr.Walk
import QueryKey.Proofs.Key.Outcome

/-! The failure of a tree is that of its first defective node. Which node is first, is a matter of
the order in which walks visit the nodes; that a key is written in between, is not.
-/

namespace QueryKey.Key

open QueryKey.Expr QueryKey.Metadata

-----------------------------------------------------------------------------------------
-- Failures of single nodes
-----------------------------------------------------------------------------------------

/-- The failure of a node for its operation alone. -/
def operationFailure? (e : Expr) : Option Failure :=
  match e.body with
  | .extension _ _ => some (.unsupportedExpression e.label)
  | .constant payload =>
      match Literal.append "" payload e.usage with
      | .error failure => some failure
      | .ok _ => none
  | .arithmetic op arguments =>
      if arguments.length = op.arity then none else some (wrongArity op arguments.length)
  | .ref _ _ =>
      if e.usage.type.referenced?.isSome then none else some (noReference e.usage)
  | _ => none

/-- The failure of a node at its level: it may be too deep, and its operation may be defective. -/
def nodeFailure? (limit : Option Nat) (e : Expr) (level : Nat) : Option Failure :=
  match limit with
  | some most =>
      if most < level then some (.depthLimitExceeded most) else operationFailure? e
  | none => operationFailure? e

/-- The first failure among the nodes of a tree, in the order of walks. -/
def firstFailure? (limit : Option Nat) (e : Expr) : Option Failure :=
  e.levels.findSome? fun (e, level) => nodeFailure? limit e level

/-- A node has a template exactly if its operation is not defective. -/
theorem template_eq_error_iff {usage : TypeUsage} {body : Body Expr} {failure : Failure}
    : template usage body = .error failure
      ↔ operationFailure? (.node usage body) = some failure := by
  cases body with
  | constant value =>
      simp only [template, operationFailure?, Expr.body, Literal.append_eq_map_text,
        Expr.usage]
      cases Literal.text value usage <;> simp [Except.map]
  | arithmetic op arguments =>
      simp only [template, operationFailure?, Expr.body]
      split <;> simp
  | ref set argument =>
      simp only [template, operationFailure?, Expr.body, Expr.usage]
      split <;> simp [*]
  | extension name arguments =>
      simp [template, operationFailure?, Expr.body, Expr.label]
  | _ => simp [template, operationFailure?, Expr.body]

theorem nodeFailure?_eq (limit : Option Nat) (rejectAliases : Bool) (e : Expr) (depth : Nat)
    : nodeFailure? limit e (depth + 1)
      = (depthFailure? ⟨limit, rejectAliases⟩ depth).or (operationFailure? e) := by
  cases limit with
  | none => rfl
  | some most =>
      simp only [nodeFailure?, depthFailure?, Nat.lt_succ_iff]
      split <;> rfl

-----------------------------------------------------------------------------------------
-- Failures of trees
-----------------------------------------------------------------------------------------

/-- Pieces whose names are all allowed fail with the first failure among their operands. -/
theorem findSome?_pieces {ε : Type} {s : Settings} {f : ε → Option Failure}
    {pieces : List (Piece ε)}
    (h : ∀ name, .boundName name ∈ pieces → Piece.failure? s f (.boundName name) = none)
    : pieces.findSome? (Piece.failure? s f) = (Piece.operands pieces).findSome? f := by
  induction pieces with
  | nil => rfl
  | cons piece rest ih =>
      have ih := ih fun name hmem => h name (List.mem_cons_of_mem _ hmem)
      cases piece with
      | operand e =>
          simp only [Piece.operands_operand_cons, List.findSome?_cons, ih]
          rfl
      | mark text | raw text | literal text => exact ih
      | boundName name =>
          rw [List.findSome?_cons, h name List.mem_cons_self]
          exact ih

/-- The first hit in lists that are put together is the first hit of the first list with one. -/
theorem findSome?_flatMap_eq {α β γ : Type} {items : List α} {f : α → Option γ} {g : α → List β}
    {h : β → Option γ} (heq : ∀ a ∈ items, f a = (g a).findSome? h)
    : items.findSome? f = (items.flatMap g).findSome? h := by
  induction items with
  | nil => rfl
  | cons a rest ih =>
      rw [List.findSome?_cons, List.flatMap_cons, List.findSome?_append, heq a (by simp),
        ih fun b hb => heq b (by simp [hb])]
      cases (g a).findSome? h <;> rfl

/-- A tree below open nodes fails with the failure of its first defective node, by induction on
the tree.
-/
theorem failure?_eq_findSome? (limit : Option Nat) (e : Expr) (depth : Nat)
    : failure? ⟨limit, false⟩ e depth
      = (leveledNodes [(e, depth + 1)]).findSome?
          fun (e, level) => nodeFailure? limit e level := by
  induction e using Expr.induction generalizing depth with
  | step usage body ih =>
      rw [failure?_node, leveledNodes_singleton, List.findSome?_cons]
      simp only [nodeFailure?_eq limit false]
      cases hd : depthFailure? ⟨limit, false⟩ depth with
      | some failure => rfl
      | none =>
          simp only [Option.none_or]
          cases ht : template usage body with
          | error failure => rw [template_eq_error_iff.mp ht]
          | ok pieces =>
              have hn : operationFailure? (.node usage body) = none := by
                cases ho : operationFailure? (.node usage body) with
                | none => rfl
                | some failure => rw [template_eq_error_iff.mpr ho] at ht; cases ht
              have hp : pieces.findSome? (Piece.failure? ⟨limit, false⟩ fun e =>
                    failure? ⟨limit, false⟩ e (depth + 1))
                  = (Piece.operands pieces).findSome? fun e =>
                    failure? ⟨limit, false⟩ e (depth + 1) :=
                findSome?_pieces fun _ _ => rfl
              rw [operands_template ht] at hp
              rw [hn]
              exact hp.trans (findSome?_flatMap_eq fun c hc => ih c hc (depth + 1))

/-- Generation fails with the first failure among the nodes, and succeeds if there is none. -/
theorem generate_eq_firstFailure? (limit : Option Nat) (e : Expr)
    : generate ⟨limit, false⟩ e
      = match firstFailure? limit e with
        | some failure => .error failure
        | none => .ok ⟨written e⟩ := by
  rw [generate_eq, failure?_eq_findSome?]
  rfl

/-- Without a depth limit, generation succeeds exactly if no operation on the walk is defective. -/
theorem exists_key_iff {t : Expr}
    : (∃ key, generate { maxDepth := none, rejectGeneratedAliases := false } t = .ok key)
      ↔ ∀ p ∈ t.walk, operationFailure? p.1 = none := by
  have hlevels : (∀ p ∈ t.levels, nodeFailure? none p.1 p.2 = none)
      ↔ ∀ p ∈ t.walk, operationFailure? p.1 = none := by
    have hmap := map_fst_levels t
    constructor
    · intro h p hp
      obtain ⟨q, hq, heq⟩ := List.mem_map.mp (hmap ▸ List.mem_map_of_mem (f := Prod.fst) hp)
      rw [← heq]
      exact h q hq
    · intro h p hp
      obtain ⟨q, hq, heq⟩ := List.mem_map.mp (hmap ▸ List.mem_map_of_mem (f := Prod.fst) hp)
      rw [← heq]
      exact h q hq
  rw [← hlevels, generate_eq_firstFailure?]
  cases hf : firstFailure? none t with
  | none => simpa using fun e level h => List.findSome?_eq_none_iff.mp hf (e, level) h
  | some failure =>
      obtain ⟨p, hp, hpf⟩ := List.exists_of_findSome?_eq_some hf
      simp only [reduceCtorEq, exists_false, false_iff]
      exact fun h => nomatch (h p hp).symm.trans hpf

-----------------------------------------------------------------------------------------
-- Tiers of failures
-----------------------------------------------------------------------------------------

/-- A constant without text is unsupported. -/
theorem Literal.isUnsupported_of_text {payload : Payload} {usage : TypeUsage} {failure : Failure}
    (h : Literal.text payload usage = .error failure)
    : failure.isUnsupported = true := by
  unfold Literal.text at h
  split at h
  · cases h
    rfl
  · split at h <;> cases h
    rfl

/-- A failure of a node is of one of two kinds: nodes that are unsupported, and nodes for which
their producer is to blame.
-/
theorem isContractViolation_of_nodeFailure? {limit : Option Nat} {e : Expr} {level : Nat}
    {failure : Failure} (h : nodeFailure? limit e level = some failure)
    : failure.isContractViolation = !failure.isUnsupported := by
  have hoperation (h : operationFailure? e = some failure)
      : failure.isContractViolation = !failure.isUnsupported := by
    unfold operationFailure? at h
    split at h
    · cases h
      rfl
    · next payload _ =>
        cases ht : Literal.text payload e.usage with
        | ok text => simp [Literal.append_eq_map_text, ht, Except.map] at h
        | error other =>
            simp only [Literal.append_eq_map_text, ht, Except.map, Option.some.injEq] at h
            subst h
            have hu := Literal.isUnsupported_of_text ht
            cases other <;> simp_all [Failure.isUnsupported, Failure.isContractViolation]
    · split at h <;> cases h
      rfl
    · split at h <;> cases h
      rfl
    · cases h
  unfold nodeFailure? at h
  split at h
  · split at h
    · cases h
      rfl
    · exact hoperation h
  · exact hoperation h

/-- Unsupported trees go without a key, all other failures are reported. -/
theorem tryGenerate_eq_firstFailure? (limit : Option Nat) (e : Expr)
    : tryGenerate ⟨limit, false⟩ e
      = match firstFailure? limit e with
        | some failure => if failure.isUnsupported then .ok none else .error failure
        | none => .ok (some ⟨written e⟩) := by
  rw [tryGenerate, generate_eq_firstFailure?]
  cases firstFailure? limit e <;> rfl

/-- With generated aliases allowed, the nodes in the order of walks, each at its level, decide
what generation does: it reports the first failure among them, and gives a key if none of them
fails. The first failure also decides whether the tree merely goes without a key.
-/
theorem generate_reports_first_failure (limit : Option Nat) (e : Expr)
    : e.levels.map Prod.fst = e.walk.map Prod.fst
      ∧ (∀ failure,
          generate { maxDepth := limit, rejectGeneratedAliases := false } e = .error failure
            ↔ e.levels.findSome? (fun (e, level) => nodeFailure? limit e level) = some failure)
      ∧ ((∃ key, generate { maxDepth := limit, rejectGeneratedAliases := false } e = .ok key)
          ↔ ∀ p ∈ e.levels, nodeFailure? limit p.1 p.2 = none)
      ∧ (tryGenerate { maxDepth := limit, rejectGeneratedAliases := false } e = .ok none
          ↔ ∃ failure,
              e.levels.findSome? (fun (e, level) => nodeFailure? limit e level) = some failure
                ∧ failure.isUnsupported = true)
      ∧ (∀ failure,
          tryGenerate { maxDepth := limit, rejectGeneratedAliases := false } e = .error failure
            ↔ e.levels.findSome? (fun (e, level) => nodeFailure? limit e level) = some failure
                ∧ failure.isContractViolation = true) := by
  refine ⟨map_fst_levels e, ?_⟩
  have hg := generate_eq_firstFailure? limit e
  have ht := tryGenerate_eq_firstFailure? limit e
  rw [firstFailure?] at hg ht
  cases hf : e.levels.findSome? (fun (e, level) => nodeFailure? limit e level) with
  | none =>
      rw [hf] at hg ht
      have hnone := List.findSome?_eq_none_iff.mp hf
      simpa [hg, ht] using hnone
  | some failure =>
      rw [hf] at hg ht
      obtain ⟨p, hp, hpf⟩ := List.exists_of_findSome?_eq_some hf
      have htier := isContractViolation_of_nodeFailure? hpf
      have hsome : ¬∀ p ∈ e.levels, nodeFailure? limit p.1 p.2 = none := fun hall =>
        nomatch (hall p hp).symm.trans hpf
      cases hu : failure.isUnsupported with
      | true =>
          rw [hu] at htier
          simp_all
      | false =>
          rw [hu] at htier
          simp_all

end QueryKey.Key
