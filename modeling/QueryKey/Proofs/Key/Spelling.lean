import QueryKey.Expr.Builder
import QueryKey.Proofs.Expr.SameValue
import QueryKey.Proofs.Key.LiteralReader
import QueryKey.Proofs.Key.Outline

/-! Keys of trees that are equal by value. A key is meant to be the same exactly for trees with the
same literal values, and times of one instant are told apart by their offsets on purpose. But a key
keeps the places of a decimal as well, so that trees for the same number miss one another's keys.
What holds is that trees of the same value are keyed alike, and share a key exactly if their
constants are spelled alike.
-/

namespace QueryKey.Key

open QueryKey.Expr QueryKey.Metadata QueryKey.Number QueryKey.Calendar

-----------------------------------------------------------------------------------------
-- Failures
-----------------------------------------------------------------------------------------

/-- Payloads of the same value have texts in constants of the same types, and are refused for the
same reasons.
-/
theorem Literal.map_text_of_sameValue {x y : Payload} (h : x.sameValue y = true)
    (usage : TypeUsage)
    : (Literal.text x usage).map (fun _ => ()) = (Literal.text y usage).map fun _ => () := by
  have hkind (kind : Primitive)
      : (payloadText? kind x).isSome = (payloadText? kind y).isSome
        ∧ x.shapeName = y.shapeName := by
    rcases Payload.sameValue_cases h with rfl | ⟨d, e, rfl, rfl, -⟩ | ⟨s, t, rfl, rfl, -⟩
      | ⟨p, q, rfl, rfl⟩ | ⟨p, q, rfl, rfl⟩
    · exact ⟨rfl, rfl⟩
    all_goals cases kind <;> exact ⟨rfl, rfl⟩
  unfold Literal.text
  cases usage.type.scalarKind? with
  | none => rfl
  | some kind =>
      obtain ⟨hsome, hname⟩ := hkind kind
      cases hx : payloadText? kind x <;> cases hy : payloadText? kind y <;>
        simp_all [Except.map]

/-- Trees of the same value fail alike. -/
theorem failure?_of_sameValue (s : Settings) {a b : Expr} (h : a.sameValue b = true)
    : failure? s a = failure? s b := by
  have : Inhabited (Nat → Option Failure) := ⟨fun _ => none⟩
  refine fold_eq_of_sameValue (fun usage x y hvalue => ?_) h
  have htext := Literal.map_text_of_sameValue hvalue usage
  funext depth
  simp only [template]
  cases hx : Literal.text x usage with
  | error failure =>
      cases hy : Literal.text y usage with
      | error other =>
          rw [hx, hy] at htext
          obtain rfl := Except.error.inj htext
          rfl
      | ok text => simp [hx, hy, Except.map] at htext
  | ok text =>
      cases hy : Literal.text y usage with
      | error failure => simp [hx, hy, Except.map] at htext
      | ok other => rfl

-----------------------------------------------------------------------------------------
-- Texts
-----------------------------------------------------------------------------------------

/-- In front of the colon of its identity the literal of a constant tells how the value is
spelled.
-/
theorem literal_append_cancel {x y : Payload} (h : x.sameValue y = true)
    (hfloat : x.isFloat = false) {r q : List Char}
    (heq : (Recorded.ofPayload x).text ++ ':' :: r = (Recorded.ofPayload y).text ++ ':' :: q)
    : x.spelling = y.spelling ∧ r = q := by
  rcases Payload.sameValue_cases h with rfl | ⟨d, e, rfl, rfl, hnumber⟩ | ⟨s, t, rfl, rfl, hinstant⟩
    | ⟨p, q, rfl, rfl⟩ | ⟨p, q, rfl, rfl⟩
  · exact ⟨rfl, by simpa using heq⟩
  · have hread := congrArg Reader.number heq
    simp only [Recorded.ofPayload, Recorded.text] at hread
    rw [Reader.number_numberText _ _ _ (by decide) (by decide),
      Reader.number_numberText _ _ _ (by decide) (by decide)] at hread
    simp only [Option.some.injEq, Prod.mk.injEq, Recorded.number.injEq, List.cons.injEq,
      true_and] at hread
    obtain ⟨⟨hnegative, -, hscale⟩, hrest⟩ := hread
    exact ⟨by rw [Payload.spelling, Payload.spelling, hnegative, hscale], hrest⟩
  · -- The text gives the offset in whole minutes; it is the local time that tells it exactly.
    have hs := s.offset_lt
    have ht := t.offset_lt
    have hread := congrArg Reader.dateTime heq
    simp only [Recorded.ofPayload, Recorded.text, DateTime.text_carried] at hread
    rw [Reader.dateTime_offsetText _ _ (by omega), Reader.dateTime_offsetText _ _ (by omega)]
      at hread
    simp only [Option.some.injEq, Prod.mk.injEq, Recorded.offset.injEq, List.cons.injEq,
      true_and] at hread
    obtain ⟨⟨hlocal, -, -⟩, hrest⟩ := hread
    have hoffset := OffsetDateTime.offset_eq_of_sameInstant hinstant hlocal
    exact ⟨by rw [Payload.spelling, Payload.spelling, hoffset], hrest⟩
  · cases hfloat
  · cases hfloat

/-- Texts that are woven from those of related operands into the same pieces tell what the texts
of the operands tell, by induction on the pieces.
-/
theorem weave_append_cancel {pieces : List (Piece Unit)} {as bs : List Expr}
    {R : Expr → Expr → Prop} (h : List.Forall₂ R as bs)
    (hlength : (Piece.operands pieces).length = as.length)
    (hoperand : ∀ a ∈ as, ∀ b ∈ bs, R a b → ∀ r q,
      (written a).toList ++ r = (written b).toList ++ q → a.spellings = b.spellings ∧ r = q)
    {r q : List Char}
    (heq : (weave pieces (as.map written)).toList ++ r
      = (weave pieces (bs.map written)).toList ++ q)
    : as.flatMap spellings = bs.flatMap spellings ∧ r = q := by
  induction pieces generalizing as bs with
  | nil =>
      obtain rfl := List.length_eq_zero_iff.mp hlength.symm
      cases h
      exact ⟨rfl, by simpa [weave] using heq⟩
  | cons piece rest ih =>
      cases piece with
      | operand u =>
          cases h with
          | nil => cases hlength
          | @cons a b as bs hab h =>
              simp only [List.map_cons, weave, String.toList_append, List.append_assoc] at heq
              obtain ⟨hhead, heq⟩ := hoperand a (by simp) b (by simp) hab _ _ heq
              obtain ⟨htail, hrest⟩ := ih h (by simpa using hlength)
                (fun a ha b hb => hoperand a (by simp [ha]) b (by simp [hb])) heq
              exact ⟨by rw [List.flatMap_cons, List.flatMap_cons, hhead, htail], hrest⟩
      | mark text | raw text | boundName text | literal text =>
          simp only [weave, String.toList_append, List.append_assoc,
            List.append_cancel_left_eq] at heq
          exact ih h hlength hoperand heq

/-- The text of a constant: the literal of its payload, and the identity behind a colon. -/
theorem toList_written_constant {usage : TypeUsage} {x : Payload} {pieces : List (Piece Expr)}
    (h : template usage (.constant x) = .ok pieces)
    : (written (.node usage (.constant x))).toList
      = (Recorded.ofPayload x).text ++ ':' :: usage.identity.toList := by
  rw [written_node h]
  obtain ⟨text, htext, rfl⟩ := exists_literal h
  simp [Piece.texts, Piece.text, toList_literal htext]

/-- Nodes with the same operation have the same pieces around their operands. -/
theorem map_template_of_shape {usage : TypeUsage} {body operation : Body Expr}
    {pieces others : List (Piece Expr)} (hshape : body.shape = operation.shape)
    (hpieces : template usage body = .ok pieces) (hothers : template usage operation = .ok others)
    : pieces.map (Piece.map fun _ => ()) = others.map (Piece.map fun _ => ()) := by
  have hsame := congrArg (template usage) hshape
  rw [Body.shape, Body.shape, template_map, template_map, hpieces, hothers] at hsame
  exact Except.ok.inj hsame

/-- The texts of trees of the same value tell how their constants are spelled, whatever follows
the texts; by induction on one of the trees.
-/
theorem written_append_cancel {a b : Expr} (h : a.sameValue b = true)
    (hfloat : ∀ payload ∈ a.constants, payload.isFloat = false)
    (ha : ∀ n ∈ a.nodes, ∃ pieces, template n.usage n.body = .ok pieces)
    (hb : ∀ n ∈ b.nodes, ∃ pieces, template n.usage n.body = .ok pieces) {r q : List Char}
    (heq : (written a).toList ++ r = (written b).toList ++ q)
    : a.spellings = b.spellings ∧ r = q := by
  induction a using Expr.induction generalizing b r q with
  | step usage body ih =>
      obtain ⟨pieces, ht⟩ : ∃ pieces, template usage body = .ok pieces := ha _ (mem_nodes_self _)
      rcases sameValue_cases h with ⟨x, y, rfl, rfl, hvalue⟩ | ⟨operation, rfl, hshape, hchildren⟩
      · obtain ⟨others, ho⟩ : ∃ pieces, template usage (.constant y : Body Expr) = .ok pieces :=
          hb _ (mem_nodes_self _)
        rw [toList_written_constant ht, toList_written_constant ho, List.append_assoc,
          List.append_assoc, List.cons_append, List.cons_append] at heq
        have hx : x.isFloat = false := hfloat x (by simp [constants_node, Body.constant?])
        obtain ⟨hspelling, hrest⟩ := literal_append_cancel hvalue hx heq
        exact ⟨by simp [spellings_node, Body.constant?, Body.children, hspelling],
          List.append_cancel_left hrest⟩
      · obtain ⟨others, ho⟩ : ∃ pieces, template usage operation = .ok pieces :=
          hb _ (mem_nodes_self _)
        rw [written_node ht, written_node ho, texts_eq_weave, texts_eq_weave,
          operands_template ht, operands_template ho, map_template_of_shape hshape ht ho] at heq
        have hlength : (Piece.operands (others.map (Piece.map fun _ => ()))).length
            = body.children.length := by
          rw [Piece.operands_map, operands_template ho, List.length_map,
            length_children_of_shape hshape]
        obtain ⟨hspellings, hrest⟩ := weave_append_cancel hchildren hlength
          (fun c hc d hd hcd r q =>
            ih c hc hcd (fun p hp => hfloat p (mem_constants_of_mem_children hc hp))
              (fun n hn => ha n (mem_nodes_of_mem_children hc hn))
              (fun n hn => hb n (mem_nodes_of_mem_children hd hn)))
          heq
        exact ⟨by rw [spellings_node, spellings_node, constant?_of_shape hshape, hspellings], hrest⟩

-----------------------------------------------------------------------------------------
-- Keys of trees of the same value
-----------------------------------------------------------------------------------------

/-- A tree of the same value as a tree with a key has a key too. If the trees hold no floats, it is
the same key exactly if corresponding decimals agree in sign and places, and corresponding times in
their offsets. That decimals have to agree in more than their value is a defect of the literals.
-/
theorem generate_of_sameValue (s : Settings) (a b : Expr) (key : CacheKey)
    (hkey : generate s a = .ok key) (hsame : a.sameValue b = true)
    (hfloat : ∀ payload ∈ a.constants, payload.isFloat = false)
    : ∃ other, generate s b = .ok other ∧ (key = other ↔ a.spellings = b.spellings) := by
  obtain ⟨hnone, rfl⟩ := generate_eq_ok_iff.mp hkey
  have hother : failure? s b 0 = none := by rw [← failure?_of_sameValue s hsame, hnone]
  refine ⟨⟨written b⟩, generate_eq_ok_iff.mpr ⟨hother, rfl⟩, ?_⟩
  constructor
  · intro heq
    have htext : (written a).toList ++ [] = (written b).toList ++ [] := by
      rw [CacheKey.mk.inj heq]
    exact (written_append_cancel hsame hfloat (exists_template_of_failure? hnone)
      (exists_template_of_failure? hother) htext).1
  · intro hspellings
    rw [eq_of_spellings_eq hsame hfloat hspellings]

/-- Whether an order is due at the time. -/
def dueAt (time : OffsetDateTime) : Expr :=
  let due := parameter "due" (.primitive .dateTimeOffset)
  due.compare .equals (constant (.dateTimeOffset time))

/-- Noon two hours east, and the same instant in universal time. -/
def easternNoon : OffsetDateTime :=
  ⟨⟨⟨2024, 2, 29, by decide⟩, ⟨12, 0, 0, 0, by decide⟩⟩, 7200, by decide⟩

def universalTen : OffsetDateTime :=
  ⟨⟨⟨2024, 2, 29, by decide⟩, ⟨10, 0, 0, 0, by decide⟩⟩, 0, by decide⟩

/-- An instant with two offsets makes trees of the same value, both with keys, and not the same. -/
theorem generate_dueAt
    : (dueAt easternNoon).sameValue (dueAt universalTen) = true
      ∧ ∃ key other, generate {} (dueAt easternNoon) = .ok key
          ∧ generate {} (dueAt universalTen) = .ok other ∧ key ≠ other := by
  have hkey : generate {} (dueAt easternNoon) = .ok ⟨written (dueAt easternNoon)⟩ := by
    decide +kernel
  have hsame : (dueAt easternNoon).sameValue (dueAt universalTen) = true := by decide +kernel
  obtain ⟨other, hother, hiff⟩ :=
    generate_of_sameValue {} _ (dueAt universalTen) _ hkey hsame (by decide +kernel)
  exact ⟨hsame, _, other, hkey, hother, fun heq => absurd (hiff.mp heq) (by decide +kernel)⟩

/-- Whether a price is the given one. -/
def pricedAt (price : Decimal) : Expr :=
  (parameter "price" (.primitive .decimal)).compare .equals (constant (.decimal price))

/-- One with a place and one with two places are the same number, and queries for them are of the
same value. They ought to have the same key, but the literals keep the places.
-/
theorem generate_pricedAtOne
    : (pricedAt ⟨false, 10, 1, by decide, by decide⟩).sameValue
          (pricedAt ⟨false, 100, 2, by decide, by decide⟩)
        = true
      ∧ (∀ payload ∈ (pricedAt ⟨false, 10, 1, by decide, by decide⟩).constants,
          payload.isFloat = false)
      ∧ generate {} (pricedAt ⟨false, 10, 1, by decide, by decide⟩)
        = .ok ⟨"[=](@price:Edm.Decimal,1.0:Edm.Decimal)"⟩
      ∧ generate {} (pricedAt ⟨false, 100, 2, by decide, by decide⟩)
        = .ok ⟨"[=](@price:Edm.Decimal,1.00:Edm.Decimal)"⟩ := by
  refine ⟨by decide +kernel, by decide +kernel, by decide +kernel, by decide +kernel⟩

end QueryKey.Key
