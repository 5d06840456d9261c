import QueryKey.Proofs.Key.Congruence
import QueryKey.Proofs.Key.DepthLimit

/-! What a visit leaves alone. It closes the nodes that it opens and only ever appends to the key,
whether it fails or not; and neither the key before it nor the number of open nodes shows in what it
appends, unless a node is too deep.
-/

namespace QueryKey.Key

open QueryKey.Expr QueryKey.Metadata QueryKey.Text

-----------------------------------------------------------------------------------------
-- Visits in a frame
-----------------------------------------------------------------------------------------

namespace Visit

/-- Below the same number of open nodes the visit always appends the same and ends in the same way,
with as many nodes open as before.
-/
def IsFramed (visit : Visit) : Prop :=
  ∀ depth, ∃ added outcome, ∀ text, visit ⟨text, depth⟩ = (⟨text ++ added, depth⟩, outcome)

namespace IsFramed

variable {first second visit : Visit}

theorem done : Visit.done.IsFramed := fun depth =>
  ⟨"", none, fun text => by rw [Visit.done, String.append_empty]⟩

theorem fail (failure : Failure) : (Visit.fail failure).IsFramed := fun depth =>
  ⟨"", some failure, fun text => by rw [Visit.fail, String.append_empty]⟩

theorem write (added : String) : (Visit.write added).IsFramed := fun _ =>
  ⟨added, none, fun _ => rfl⟩

theorem andThen (hfirst : first.IsFramed) (hsecond : second.IsFramed)
    : (Visit.andThen first second).IsFramed := by
  intro depth
  obtain ⟨front, outcome, hfront⟩ := hfirst depth
  cases outcome with
  | some failure =>
      exact ⟨front, some failure, fun text => by simp only [Visit.andThen, hfront]⟩
  | none =>
      obtain ⟨back, outcome, hback⟩ := hsecond depth
      exact ⟨front ++ back, outcome, fun text => by
        simp only [Visit.andThen, hfront, hback, String.append_assoc]⟩

/-- The node that is opened is closed again, since the visit closes all others. -/
theorem opened (h : visit.IsFramed) : (Visit.opened visit).IsFramed := by
  intro depth
  obtain ⟨added, outcome, hvisit⟩ := h (depth + 1)
  exact ⟨added, outcome, fun text => by simp only [Visit.opened, hvisit, Nat.add_sub_cancel]⟩

theorem limited (h : visit.IsFramed) (limit : Option Nat)
    : (Visit.limited limit visit).IsFramed := by
  cases limit with
  | none => exact h
  | some most =>
      intro depth
      by_cases hdeep : most ≤ depth
      · obtain ⟨added, outcome, hfail⟩ := fail (.depthLimitExceeded most) depth
        exact ⟨added, outcome, fun text => by simp only [Visit.limited, if_pos hdeep, hfail]⟩
      · obtain ⟨added, outcome, hvisit⟩ := h depth
        exact ⟨added, outcome, fun text => by simp only [Visit.limited, if_neg hdeep, hvisit]⟩

end IsFramed

end Visit

variable {s : Settings}

theorem visitPiece_isFramed {piece : Piece Visit} (h : ∀ visit ∈ piece.operand?, visit.IsFramed)
    : (visitPiece s piece).IsFramed := by
  cases piece with
  | mark text | raw text | literal text => exact .write text
  | operand visit => exact h visit rfl
  | boundName name =>
      rw [visitPiece]
      split
      · exact .fail _
      · exact .write _

/-- Pieces are written in a frame one after the other, by induction on the list. -/
theorem visitPieces_isFramed {pieces : List (Piece Visit)}
    (h : ∀ visit ∈ Piece.operands pieces, visit.IsFramed)
    : (visitPieces s pieces).IsFramed := by
  induction pieces with
  | nil => exact .done
  | cons piece rest ih =>
      refine (visitPiece_isFramed fun visit hvisit => ?_).andThen (ih fun visit hvisit => ?_)
      · exact h visit (List.mem_filterMap.mpr ⟨piece, List.mem_cons_self, hvisit⟩)
      · obtain ⟨other, hother, hoperand⟩ := List.mem_filterMap.mp hvisit
        exact h visit (List.mem_filterMap.mpr ⟨other, List.mem_cons_of_mem piece hother, hoperand⟩)

/-- The visit of a tree stays in its frame, by induction on the tree. -/
theorem visit_isFramed (s : Settings) (e : Expr) : (visit s e).IsFramed := by
  induction e using Expr.induction with
  | step usage body ih =>
      rw [visit, fold_node, visitNode]
      refine Visit.IsFramed.limited (.opened ?_) s.maxDepth
      cases ht : template usage (body.map (fold (visitNode s))) with
      | error failure => exact .fail failure
      | ok pieces =>
          refine visitPieces_isFramed fun operand hoperand => ?_
          rw [operands_template ht, Body.children_map] at hoperand
          obtain ⟨c, hc, rfl⟩ := List.mem_map.mp hoperand
          exact ih c hc

-----------------------------------------------------------------------------------------
-- Limits
-----------------------------------------------------------------------------------------

/-- The failure of a tree of so many levels below so many open nodes, if nothing else is wrong with
it.
-/
def tooDeep? (s : Settings) (depth levels : Nat) : Option Failure :=
  match s.maxDepth with
  | some limit => if depth + levels ≤ limit then none else some (.depthLimitExceeded limit)
  | none => none

/-- With room for one more level, the limit does nothing. -/
theorem Visit.limited_of_room {p : Progress} (hroom : tooDeep? s p.depth 1 = none)
    (visit : Visit)
    : Visit.limited s.maxDepth visit p = visit p := by
  unfold tooDeep? at hroom
  unfold Visit.limited
  cases hlimit : s.maxDepth with
  | none => rfl
  | some most =>
      simp only [hlimit, ite_eq_left_iff, reduceCtorEq, imp_false, Decidable.not_not] at hroom
      simp only [if_neg (Nat.not_le.mpr hroom)]

/-- A tree that does not fail under a limit does not fail without it, by induction on the tree. -/
theorem failure?_unlimited_of_eq_none {limit : Option Nat} {rejectAliases : Bool} {e : Expr}
    {depth : Nat} (h : failure? ⟨limit, rejectAliases⟩ e depth = none)
    : failure? ⟨none, rejectAliases⟩ e depth = none := by
  induction e using Expr.induction generalizing depth with
  | step usage body ih =>
      rw [failure?_node] at h ⊢
      obtain ⟨-, h⟩ := Option.or_eq_none_iff.mp h
      cases ht : template usage body with
      | error failure => rw [ht] at h; cases h
      | ok pieces =>
          rw [ht] at h
          obtain ⟨hoperands, hnames⟩ := failure?_of_mem_pieces h
          have hpieces := findSome?_pieces (s := ⟨none, rejectAliases⟩)
            (f := fun e => failure? ⟨none, rejectAliases⟩ e (depth + 1)) hnames
          rw [operands_template ht] at hoperands hpieces
          simp only [depthFailure?, Option.none_or, hpieces]
          exact List.findSome?_eq_none_iff.mpr fun c hc => ih c hc (hoperands c hc)

/-- A tree that does not fail somewhere fails elsewhere for its depth only. -/
theorem failure?_eq_tooDeep? {e : Expr} {depth : Nat} (h : failure? s e depth = none)
    (other : Nat)
    : failure? s e other = tooDeep? s other e.depth := by
  rcases s with ⟨limit, rejectAliases⟩
  have hnone := failure?_unlimited_of_eq_none h
  rw [failure?_unlimited e depth other] at hnone
  cases limit with
  | none => exact hnone
  | some limit => rw [failure?_limited limit hnone, ← depth_eq_height, tooDeep?]

-----------------------------------------------------------------------------------------
-- Constants
-----------------------------------------------------------------------------------------

/-- What a constant appends to a key, or why it appends nothing. -/
def constantText (payload : Payload) (usage : TypeUsage) : Except Failure String :=
  (Literal.text payload usage).map fun literal => literal ++ ":" ++ usage.identity

/-- A constant appends its text to any key or leaves it alone. -/
theorem appendTo_eq_constantText (key : String) (payload : Payload) (usage : TypeUsage)
    : Literal.appendTo key payload usage
      = match constantText payload usage with
        | .ok added => (key ++ added, none)
        | .error failure => (key, some failure) := by
  rw [Literal.appendTo, constantText]
  cases Literal.text payload usage with
  | error failure => rfl
  | ok literal => simp only [Except.map, String.append_assoc]

theorem append_eq_map_constantText (key : String) (payload : Payload) (usage : TypeUsage)
    : Literal.append key payload usage = (constantText payload usage).map (key ++ ·) := by
  rw [Literal.append, appendTo_eq_constantText]
  cases constantText payload usage <;> rfl

/-- The visit of a constant that is not too deep appends its text or leaves everything alone. -/
theorem visit_constant {p : Progress} (hroom : tooDeep? s p.depth 1 = none) (payload : Payload)
    (usage : TypeUsage)
    : visit s (typedConstant payload usage) p
      = match constantText payload usage with
        | .ok added => ({ p with text := p.text ++ added }, none)
        | .error failure => (p, some failure) := by
  rw [typedConstant, visit, fold_node, visitNode, Visit.limited_of_room hroom]
  simp only [Body.map, template, constantText]
  cases Literal.text payload usage with
  | error failure => rfl
  | ok literal =>
      simp [Except.map, Visit.opened, visitPieces, visitPiece, Visit.andThen, Visit.write,
        Visit.done, String.append_assoc]

/-- A visit keeps the number of open nodes and extends the key, whether it fails or not, and nothing
about it depends on the key. If it does not fail it appends the same text everywhere, and elsewhere
it fails only if the tree is too deep there. A constant has a text of its own, which it appends to
any key, or a failure of its own, with which it leaves any key as it is, in a visit or by itself.
-/
theorem visit_frames_key
    : (∀ (s : Settings) (e : Expr),
        (∀ depth, ∃ added outcome, ∀ text,
          visit s e ⟨text, depth⟩ = (⟨text ++ added, depth⟩, outcome))
        ∧ (∃ added, ∀ p, (visit s e p).2 = none → (visit s e p).1.text = p.text ++ added)
        ∧ ∀ p q, (visit s e p).2 = none → (visit s e q).2 = tooDeep? s q.depth e.depth)
      ∧ ∀ (payload : Payload) (usage : TypeUsage), ∃ outcome : Except Failure String,
          (∀ key, Literal.append key payload usage = outcome.map (key ++ ·))
          ∧ (∀ key, Literal.appendTo key payload usage
            = match outcome with
              | .ok added => (key ++ added, none)
              | .error failure => (key, some failure))
          ∧ ∀ (s : Settings) (p : Progress), tooDeep? s p.depth 1 = none
            → visit s (typedConstant payload usage) p
              = match outcome with
                | .ok added => ({ p with text := p.text ++ added }, none)
                | .error failure => (p, some failure) := by
  refine ⟨fun s e => ⟨visit_isFramed s e, ⟨written e, ?text⟩, ?elsewhere⟩, ?constants⟩
  case text =>
    intro p hp
    have hmeets := visit_meets s e
    rw [hmeets.outcome] at hp
    exact hmeets.text p hp
  case elsewhere =>
    intro p q hp
    have hmeets := visit_meets s e
    rw [hmeets.outcome] at hp ⊢
    exact failure?_eq_tooDeep? hp q.depth
  case constants =>
    intro payload usage
    exact ⟨constantText payload usage, fun key => append_eq_map_constantText key payload usage,
      fun key => appendTo_eq_constantText key payload usage,
      fun s p hroom => visit_constant hroom payload usage⟩

/-- The sort has five levels. With six allowed it appends the same to different keys, below one open
node or none; below two it is too deep. A constant with a payload that it cannot hold leaves a key
as it is.
-/
theorem visit_frames_sortedNumbers
    : (∃ added,
        (visit ⟨some 6, true⟩ sortedNumbers ⟨"left=", 0⟩).1.text = "left=" ++ added
        ∧ (visit ⟨some 6, true⟩ sortedNumbers ⟨"right=", 1⟩).1.text = "right=" ++ added)
      ∧ (visit ⟨some 6, true⟩ sortedNumbers ⟨"right=", 2⟩).2 = some (.depthLimitExceeded 6)
      ∧ visit ⟨some 6, true⟩ (typedConstant (.int32 7) (.primitive .string)) ⟨"left=", 5⟩
        = (⟨"left=", 5⟩, some (.unsupportedConstant "String" "payload is a Int32 value"))
      ∧ Literal.appendTo "left=" (.int32 7) (.primitive .string)
        = ("left=", some (.unsupportedConstant "String" "payload is a Int32 value")) := by
  have hleft : (visit ⟨some 6, true⟩ sortedNumbers ⟨"left=", 0⟩).2 = none := by decide +kernel
  have hright : (visit ⟨some 6, true⟩ sortedNumbers ⟨"right=", 1⟩).2 = none := by decide +kernel
  have hdepth : sortedNumbers.depth = 5 := by decide +kernel
  obtain ⟨-, ⟨added, htext⟩, helsewhere⟩ := visit_frames_key.1 ⟨some 6, true⟩ sortedNumbers
  obtain ⟨outcome, happend, hkey, hvisit⟩ := visit_frames_key.2 (.int32 7) (.primitive .string)
  have hfailure
      : outcome
        = .error (.unsupportedConstant "String" "payload is a Int32 value") := by
    have hempty := happend ""
    cases outcome with
    | ok text => cases hempty
    | error failure => exact congrArg _ (Except.error.inj hempty).symm
  refine ⟨⟨added, htext _ hleft, htext _ hright⟩, ?_, ?_, ?_⟩
  · rw [helsewhere _ ⟨"right=", 2⟩ hleft, hdepth]
    rfl
  · rw [hvisit ⟨some 6, true⟩ ⟨"left=", 5⟩ rfl, hfailure]
  · rw [hkey, hfailure]

end QueryKey.Key
