import QueryKey.Expr.Walk
import QueryKey.Key.Generator
import QueryKey.Proofs.Key.Pieces

/-! What a visit does, as functions of the tree: with which failure it stops, which depends on the
number of open nodes only, and which text it appends if it does not stop.
-/

namespace QueryKey.Key

open QueryKey.Expr QueryKey.Metadata QueryKey.Text

variable {ε δ : Type}

namespace Piece

/-- The failure of a piece, with those of operands given. -/
def failure? (s : Settings) (operandFailure : ε → Option Failure) : Piece ε → Option Failure
  | operand e => operandFailure e
  | boundName name =>
      if s.rejectGeneratedAliases && isGeneratedAlias name then
        some (.reservedVariableName name)
      else
        none
  | _ => none

/-- The text of a piece, with those of operands given. -/
def text (operandText : ε → String) : Piece ε → String
  | mark text | raw text | literal text => text
  | boundName name => quote name
  | operand e => operandText e

theorem failure?_map (s : Settings) (f : ε → δ) (g : δ → Option Failure) (piece : Piece ε)
    : (piece.map f).failure? s g = piece.failure? s (g ∘ f) := by
  cases piece <;> rfl

theorem text_map (f : ε → δ) (g : δ → String) (piece : Piece ε)
    : (piece.map f).text g = piece.text (g ∘ f) := by
  cases piece <;> rfl

/-- The texts of pieces one after the other. -/
def texts (operandText : ε → String) : List (Piece ε) → String
  | [] => ""
  | piece :: rest => piece.text operandText ++ texts operandText rest

theorem texts_map (f : ε → δ) (g : δ → String) (pieces : List (Piece ε))
    : texts g (pieces.map (map f)) = texts (g ∘ f) pieces := by
  induction pieces with
  | nil => rfl
  | cons piece rest ih => simp only [List.map_cons, texts, text_map, ih]

theorem findSome?_failure?_map (s : Settings) (f : ε → δ) (g : δ → Option Failure)
    (pieces : List (Piece ε))
    : (pieces.map (map f)).findSome? (failure? s g) = pieces.findSome? (failure? s (g ∘ f)) := by
  simp only [List.findSome?_map, Function.comp_def, failure?_map]

/-- Pieces fail alike if their operands do. -/
theorem findSome?_failure?_congr {s : Settings} {f g : ε → Option Failure}
    {pieces : List (Piece ε)} (h : ∀ e ∈ operands pieces, f e = g e)
    : pieces.findSome? (failure? s f) = pieces.findSome? (failure? s g) := by
  induction pieces with
  | nil => rfl
  | cons piece rest ih =>
      have hrest := ih fun e he => h e (by cases piece <;> simp [he])
      rw [List.findSome?_cons, List.findSome?_cons, hrest]
      cases piece with
      | operand e => simp only [failure?, h e (by simp)]
      | _ => rfl

end Piece

-----------------------------------------------------------------------------------------
-- Failure and text of a tree
-----------------------------------------------------------------------------------------

/-- The failure of a node that opens above so many open nodes. -/
def depthFailure? (s : Settings) (depth : Nat) : Option Failure :=
  match s.maxDepth with
  | some most => if most ≤ depth then some (.depthLimitExceeded most) else none
  | none => none

/-- The failure of a tree below so many open nodes: that of the node by itself, then those of its
pieces in order.
-/
def failure? (s : Settings) : Expr → Nat → Option Failure :=
  fold fun usage body depth =>
    (depthFailure? s depth).or
      (match template usage body with
        | .error failure => some failure
        | .ok pieces => pieces.findSome? (Piece.failure? s fun operand => operand (depth + 1)))

/-- The text of a tree, nothing being written for a node without template. -/
def written : Expr → String :=
  fold fun usage body =>
    match template usage body with
    | .error _ => ""
    | .ok pieces => Piece.texts id pieces

theorem failure?_node (s : Settings) (usage : TypeUsage) (body : Body Expr) (depth : Nat)
    : failure? s (.node usage body) depth
      = (depthFailure? s depth).or
          (match template usage body with
            | .error failure => some failure
            | .ok pieces =>
                pieces.findSome? (Piece.failure? s fun e => failure? s e (depth + 1))) := by
  simp only [failure?, fold_node, template_map]
  cases template usage body with
  | error failure => rfl
  | ok pieces =>
      simp only [Except.map, Piece.findSome?_failure?_map]
      rfl

theorem written_node {usage : TypeUsage} {body : Body Expr} {pieces : List (Piece Expr)}
    (h : template usage body = .ok pieces)
    : written (.node usage body) = Piece.texts written pieces := by
  simp only [written, fold_node, template_map, h, Except.map, Piece.texts_map]
  rfl

-----------------------------------------------------------------------------------------
-- Visits that do what a tree says
-----------------------------------------------------------------------------------------

/-- The visit stops exactly with the failure, closes what it opens, only ever appends, and
appends the text if it does not stop.
-/
structure Visit.Meets (visit : Visit) (failure? : Nat → Option Failure) (text : String) : Prop where
  outcome : ∀ p, (visit p).2 = failure? p.depth
  depth : ∀ p, (visit p).1.depth = p.depth
  appends : ∀ p, ∃ more, (visit p).1.text = p.text ++ more
  text : ∀ p, failure? p.depth = none → (visit p).1.text = p.text ++ text

namespace Visit.Meets

theorem done : Visit.done.Meets (fun _ => none) "" where
  outcome _ := rfl
  depth _ := rfl
  appends _ := ⟨"", String.append_empty.symm⟩
  text _ _ := String.append_empty.symm

theorem fail (failure : Failure) (text : String)
    : (Visit.fail failure).Meets (fun _ => some failure) text where
  outcome _ := rfl
  depth _ := rfl
  appends _ := ⟨"", String.append_empty.symm⟩
  text _ h := nomatch h

theorem write (text : String) : (Visit.write text).Meets (fun _ => none) text where
  outcome _ := rfl
  depth _ := rfl
  appends _ := ⟨text, rfl⟩
  text _ _ := rfl

variable {first second visit : Visit} {f g : Nat → Option Failure} {t u : String}

/-- The second visit fails only where the first does not, and its text follows. -/
theorem andThen (hf : first.Meets f t) (hs : second.Meets g u)
    : (Visit.andThen first second).Meets (fun depth => (f depth).or (g depth)) (t ++ u) := by
  have split (p : Progress)
      : Visit.andThen first second p
        = if f p.depth = none then second (first p).1 else first p := by
    have ho := hf.outcome p
    rcases hp : first p with ⟨q, outcome⟩
    simp only [Visit.andThen, hp] at ho ⊢
    subst ho
    cases f p.depth <;> rfl
  constructor
  · intro p
    rw [split]
    split
    · next h => rw [hs.outcome, hf.depth, h, Option.none_or]
    · next h =>
        obtain ⟨failure, h⟩ := Option.ne_none_iff_exists'.mp h
        rw [hf.outcome, h, Option.some_or]
  · intro p
    rw [split]
    split
    · rw [hs.depth, hf.depth]
    · exact hf.depth p
  · intro p
    rw [split]
    split
    · obtain ⟨more, hm⟩ := hf.appends p
      obtain ⟨others, ho⟩ := hs.appends (first p).1
      exact ⟨more ++ others, by rw [ho, hm, String.append_assoc]⟩
    · exact hf.appends p
  · intro p h
    obtain ⟨hn, hm⟩ := Option.or_eq_none_iff.mp h
    rw [split, if_pos hn, hs.text _ (by rw [hf.depth]; exact hm), hf.text p hn,
      String.append_assoc]

/-- An open node counts for what is inside it and not for what follows. -/
theorem opened (h : visit.Meets f t)
    : (Visit.opened visit).Meets (fun depth => f (depth + 1)) t where
  outcome p := h.outcome { p with depth := p.depth + 1 }
  depth p := by
    have := h.depth { p with depth := p.depth + 1 }
    simp only [Visit.opened, this, Nat.add_sub_cancel]
  appends p := h.appends { p with depth := p.depth + 1 }
  text p := h.text { p with depth := p.depth + 1 }

theorem limited (s : Settings) (h : visit.Meets f t)
    : (Visit.limited s.maxDepth visit).Meets
        (fun depth => (depthFailure? s depth).or (f depth)) t := by
  have split (p : Progress)
      : Visit.limited s.maxDepth visit p
        = match depthFailure? s p.depth with
          | some failure => (p, some failure)
          | none => visit p := by
    unfold Visit.limited depthFailure?
    cases s.maxDepth with
    | none => rfl
    | some most =>
        simp only
        by_cases hm : most ≤ p.depth <;> simp [hm, Visit.fail]
  constructor
  · intro p
    rw [split]
    cases depthFailure? s p.depth with
    | some failure => rfl
    | none => exact h.outcome p
  · intro p
    rw [split]
    cases depthFailure? s p.depth with
    | some failure => rfl
    | none => exact h.depth p
  · intro p
    rw [split]
    cases depthFailure? s p.depth with
    | some failure => exact ⟨"", String.append_empty.symm⟩
    | none => exact h.appends p
  · intro p hp
    obtain ⟨hn, hf⟩ := Option.or_eq_none_iff.mp hp
    rw [split, hn]
    exact h.text p hf

end Visit.Meets

variable {s : Settings}

/-- A piece does what it says if the operand does. -/
theorem visitPiece_meets {visit : ε → Visit} {f : ε → Nat → Option Failure} {t : ε → String}
    {piece : Piece ε} (h : ∀ e ∈ piece.operand?, (visit e).Meets (f e) (t e))
    : (visitPiece s (piece.map visit)).Meets
        (fun depth => piece.failure? s fun e => f e depth) (piece.text t) := by
  cases piece with
  | mark text | raw text | literal text => exact .write text
  | operand e => exact h e rfl
  | boundName name =>
      simp only [Piece.map_boundName, visitPiece, Piece.failure?, Piece.text]
      split
      · exact .fail _ _
      · exact .write _

/-- Pieces do what they say one after the other, by induction on the list. -/
theorem visitPieces_meets {visit : ε → Visit} {f : ε → Nat → Option Failure} {t : ε → String}
    {pieces : List (Piece ε)} (h : ∀ e ∈ Piece.operands pieces, (visit e).Meets (f e) (t e))
    : (visitPieces s (pieces.map (Piece.map visit))).Meets
        (fun depth => pieces.findSome? (Piece.failure? s fun e => f e depth))
        (Piece.texts t pieces) := by
  induction pieces with
  | nil => exact .done
  | cons piece rest ih =>
      have hp : ∀ e ∈ piece.operand?, (visit e).Meets (f e) (t e) := fun e he =>
        h e (List.mem_filterMap.mpr ⟨piece, by simp, he⟩)
      have hr : ∀ e ∈ Piece.operands rest, (visit e).Meets (f e) (t e) := fun e he => by
        obtain ⟨q, hq, hqe⟩ := List.mem_filterMap.mp he
        exact h e (List.mem_filterMap.mpr ⟨q, by simp [hq], hqe⟩)
      have hc (depth : Nat)
          : (piece :: rest).findSome? (Piece.failure? s fun e => f e depth)
            = (piece.failure? s fun e => f e depth).or
                (rest.findSome? (Piece.failure? s fun e => f e depth)) := by
        rw [List.findSome?_cons]
        cases piece.failure? s fun e => f e depth <;> rfl
      simpa only [List.map_cons, visitPieces, hc, Piece.texts]
        using (visitPiece_meets (s := s) hp).andThen (ih hr)

/-- A visit stops with the failure of its tree, and otherwise appends the text of its tree; by
induction on the tree.
-/
theorem visit_meets (s : Settings) (e : Expr)
    : (visit s e).Meets (failure? s e) (written e) := by
  induction e using Expr.induction with
  | step usage body ih =>
      rw [visit, fold_node, visitNode, template_map, funext (failure?_node s usage body)]
      apply Visit.Meets.limited s
      cases ht : template usage body with
      | error failure => exact (Visit.Meets.fail failure _).opened
      | ok pieces =>
          rw [written_node ht]
          have hp : ∀ e ∈ Piece.operands pieces, (visit s e).Meets (failure? s e) (written e) := by
            rw [operands_template ht]
            exact ih
          exact (visitPieces_meets hp).opened

/-- Generation fails with the failure of the tree, and gives the text of the tree otherwise. -/
theorem generate_eq (s : Settings) (e : Expr)
    : generate s e
      = match failure? s e 0 with
        | some failure => .error failure
        | none => .ok ⟨written e⟩ := by
  have h := visit_meets s e
  have ho := h.outcome {}
  have ht := h.text {}
  unfold generate
  rcases hv : visit s e {} with ⟨p, outcome⟩
  rw [hv] at ho ht
  simp only at ho ht
  subst ho
  cases hf : failure? s e 0 with
  | some failure => rfl
  | none =>
      have htext : p.text = written e := by simpa using ht hf
      simp only [htext]

theorem generate_eq_ok_iff {s : Settings} {e : Expr} {k : CacheKey}
    : generate s e = .ok k ↔ failure? s e 0 = none ∧ k = ⟨written e⟩ := by
  rw [generate_eq]
  cases failure? s e 0 <;> simp [eq_comm]

end QueryKey.Key
