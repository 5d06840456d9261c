import QueryKey.Proofs.Key.DepthLimit
import QueryKey.Proofs.Key.Outline

/-! The tokens of a key: its pieces, once the pieces of every operand stand in the operand's place.
Where a key comes from is a matter of the node that has the token among its own pieces.
-/

namespace QueryKey.Key

open QueryKey.Expr QueryKey.Metadata

variable {ε δ : Type}

/-- A piece that is no operand. -/
abbrev Token := Piece Empty

namespace Piece

/-- The tokens of a piece, with those of operands given. -/
def tokens (operandTokens : ε → List Token) : Piece ε → List Token
  | mark text => [mark text]
  | raw text => [raw text]
  | boundName name => [boundName name]
  | literal text => [literal text]
  | operand e => operandTokens e

theorem tokens_map (f : ε → δ) (g : δ → List Token) (piece : Piece ε)
    : (piece.map f).tokens g = piece.tokens (g ∘ f) := by
  cases piece <;> rfl

/-- A token of a piece is the piece itself or comes from an operand. -/
theorem mem_tokens_iff {f : ε → List Token} {piece : Piece ε} {token : Token}
    : token ∈ piece.tokens f
      ↔ token.map Empty.elim = piece ∨ ∃ e, piece = operand e ∧ token ∈ f e := by
  cases token with
  | operand e => exact e.elim
  | _ => cases piece <;> simp [tokens, map, eq_comm]

theorem texts_append (f : ε → String) (front back : List (Piece ε))
    : texts f (front ++ back) = texts f front ++ texts f back := by
  induction front with
  | nil => rw [List.nil_append, texts, String.empty_append]
  | cons piece rest ih => rw [List.cons_append, texts, texts, ih, String.append_assoc]

/-- The text of pieces is that of their tokens, by induction on the pieces. -/
theorem texts_flatMap_tokens (f : ε → List Token) (pieces : List (Piece ε))
    : texts Empty.elim (pieces.flatMap (tokens f))
      = texts (fun e => texts Empty.elim (f e)) pieces := by
  induction pieces with
  | nil => rfl
  | cons piece rest ih =>
      rw [List.flatMap_cons, texts_append, ih, texts]
      cases piece with
      | operand e => rfl
      | _ => simp [tokens, texts, text]

/-- The failure of pieces is that of their tokens. -/
theorem findSome?_flatMap_tokens (s : Settings) (f : ε → List Token) (pieces : List (Piece ε))
    : (pieces.flatMap (tokens f)).findSome? (failure? s Empty.elim)
      = pieces.findSome? (failure? s fun e => (f e).findSome? (failure? s Empty.elim)) := by
  refine (findSome?_flatMap_eq fun piece _ => ?_).symm
  cases piece with
  | operand e => rfl
  | _ => simp [tokens, failure?]

end Piece

-----------------------------------------------------------------------------------------
-- The tokens of a tree
-----------------------------------------------------------------------------------------

/-- The tokens of the key of a tree, none for a node without template. -/
def tokens : Expr → List Token :=
  fold fun usage body =>
    match template usage body with
    | .error _ => []
    | .ok pieces => pieces.flatMap (Piece.tokens id)

theorem tokens_node {usage : TypeUsage} {body : Body Expr} {pieces : List (Piece Expr)}
    (h : template usage body = .ok pieces)
    : tokens (.node usage body) = pieces.flatMap (Piece.tokens tokens) := by
  simp only [tokens, fold_node, template_map, h, Except.map, List.flatMap_map, Piece.tokens_map]
  rfl

/-- The text of a tree is that of its tokens, by induction on the tree. -/
theorem texts_tokens {e : Expr} (h : ∀ n ∈ e.nodes, ∃ pieces, template n.usage n.body = .ok pieces)
    : Piece.texts Empty.elim (tokens e) = written e := by
  induction e using Expr.induction with
  | step usage body ih =>
      obtain ⟨pieces, ht⟩ : ∃ pieces, template usage body = .ok pieces := h _ (mem_nodes_self _)
      rw [tokens_node ht, written_node ht, Piece.texts_flatMap_tokens, texts_eq_weave,
        texts_eq_weave written, operands_template ht]
      congr 1
      refine List.map_congr_left fun c hc => ?_
      exact ih c hc fun n hn => h n (mem_nodes_of_mem_children hc hn)

/-- The key of a tree is the text of its tokens. -/
theorem text_of_generate {s : Settings} {e : Expr} {key : CacheKey} (h : generate s e = .ok key)
    : key.text = Piece.texts Empty.elim (tokens e) := by
  obtain ⟨hnone, rfl⟩ := generate_eq_ok_iff.mp h
  exact (texts_tokens (exists_template_of_failure? hnone)).symm

/-- The tokens of a tree are the pieces of its nodes that are no operands, by induction on the
tree.
-/
theorem mem_tokens_iff {e : Expr}
    (h : ∀ n ∈ e.nodes, ∃ pieces, template n.usage n.body = .ok pieces) {token : Token}
    : token ∈ tokens e
      ↔ ∃ n ∈ e.nodes, ∃ pieces, template n.usage n.body = .ok pieces
          ∧ token.map Empty.elim ∈ pieces := by
  induction e using Expr.induction with
  | step usage body ih =>
      obtain ⟨pieces, ht⟩ : ∃ pieces, template usage body = .ok pieces := h _ (mem_nodes_self _)
      have hchild {c : Expr} (hc : c ∈ body.children) :=
        ih c hc fun n hn => h n (mem_nodes_of_mem_children hc hn)
      have hoperand {c : Expr} : .operand c ∈ pieces ↔ c ∈ body.children := by
        rw [← operands_template ht, Piece.mem_operands_iff]
      rw [tokens_node ht, nodes_eq, List.mem_flatMap]
      constructor
      · rintro ⟨piece, hpiece, htoken⟩
        rcases Piece.mem_tokens_iff.mp htoken with rfl | ⟨c, rfl, htoken⟩
        · exact ⟨_, List.mem_cons_self, pieces, ht, hpiece⟩
        · have hc := hoperand.mp hpiece
          obtain ⟨n, hn, rest⟩ := (hchild hc).mp htoken
          exact ⟨n, List.mem_cons_of_mem _ (List.mem_flatMap.mpr ⟨c, hc, hn⟩), rest⟩
      · rintro ⟨n, hn, others, hothers, hmem⟩
        rcases List.mem_cons.mp hn with rfl | hn
        · obtain rfl : pieces = others := Except.ok.inj (ht.symm.trans hothers)
          exact ⟨_, hmem, Piece.mem_tokens_iff.mpr (.inl rfl)⟩
        · obtain ⟨c, hc, hn⟩ := List.mem_flatMap.mp hn
          have htoken := (hchild hc).mpr ⟨n, hn, others, hothers, hmem⟩
          exact ⟨.operand c, hoperand.mpr hc, Piece.mem_tokens_iff.mpr (.inr ⟨c, rfl, htoken⟩)⟩

/-- A tree with a key fails, when generated aliases are refused, with the first of its tokens that
is refused; by induction on the tree.
-/
theorem failure?_eq_findSome?_tokens {limit : Option Nat} {rejectAliases : Bool} {e : Expr}
    {depth : Nat} (h : failure? ⟨limit, false⟩ e depth = none)
    : failure? ⟨limit, rejectAliases⟩ e depth
      = (tokens e).findSome? (Piece.failure? ⟨limit, rejectAliases⟩ Empty.elim) := by
  induction e using Expr.induction generalizing depth with
  | step usage body ih =>
      rw [failure?_node] at h ⊢
      obtain ⟨hdepth, h⟩ := Option.or_eq_none_iff.mp h
      have hdepth : depthFailure? ⟨limit, rejectAliases⟩ depth = none := hdepth
      rw [hdepth, Option.none_or]
      split at h
      · cases h
      · next pieces ht =>
          rw [tokens_node ht, Piece.findSome?_flatMap_tokens]
          refine Piece.findSome?_failure?_congr fun c hc => ?_
          have hnone := (failure?_of_mem_pieces h).1 c hc
          rw [operands_template ht] at hc
          exact ih c hc hnone

-----------------------------------------------------------------------------------------
-- Generated aliases
-----------------------------------------------------------------------------------------

/-- The generated alias that a token is, if it is one. -/
def generatedAlias? : Token → Option String
  | .boundName name => if isGeneratedAlias name then some name else none
  | _ => none

theorem generatedAlias?_eq_some_iff {token : Token} {name : String}
    : generatedAlias? token = some name
      ↔ token = .boundName name ∧ isGeneratedAlias name = true := by
  cases token with
  | boundName other =>
      simp only [generatedAlias?, Option.ite_none_right_eq_some, Option.some.injEq,
        Piece.boundName.injEq]
      constructor
      · rintro ⟨h, rfl⟩
        exact ⟨rfl, h⟩
      · rintro ⟨rfl, h⟩
        exact ⟨h, rfl⟩
  | _ => simp [generatedAlias?]

/-- Refusing generated aliases takes its key from a tree exactly if there is one in the key; the
first one is reported.
-/
theorem generate_rejecting {limit : Option Nat} {e : Expr} {key : CacheKey}
    (h : generate ⟨limit, false⟩ e = .ok key)
    : generate ⟨limit, true⟩ e
      = match (tokens e).findSome? generatedAlias? with
        | some name => .error (.reservedVariableName name)
        | none => .ok key := by
  obtain ⟨hnone, rfl⟩ := generate_eq_ok_iff.mp h
  have htoken : Piece.failure? ⟨limit, true⟩ Empty.elim
      = Option.map Failure.reservedVariableName ∘ generatedAlias? := by
    funext token
    cases token with
    | operand e => exact e.elim
    | boundName name =>
        simp only [Function.comp_apply, Piece.failure?, generatedAlias?, Bool.true_and]
        split <;> rfl
    | _ => rfl
  rw [generate_eq, failure?_eq_findSome?_tokens hnone, htoken, ← List.map_findSome?]
  cases (tokens e).findSome? generatedAlias? <;> rfl

end QueryKey.Key
