import Mathlib.Data.List.Forall2
import QueryKey.Proofs.Calendar.Instants
import QueryKey.Proofs.Expr.Indexed
import QueryKey.Proofs.Expr.Walk

/-! Trees that are equal by value. They have the same types and operations throughout, and their
constants are pairwise of the same value; such constants may still be spelled in different ways.
-/

namespace QueryKey.Number.Decimal

/-- A number with given places and sign has one coefficient. -/
theorem eq_of_sameNumber {d e : Decimal} (h : d.sameNumber e = true)
    (hnegative : d.negative = e.negative) (hscale : d.scale = e.scale)
    : d = e := by
  have hpos := tenTo_pos (28 - e.scale)
  simp only [sameNumber, beq_iff_eq, units, hnegative, hscale] at h
  have hcoefficient : d.coefficient = e.coefficient := by
    have hsize : (d.coefficient : Int) * tenTo (28 - e.scale)
        = e.coefficient * tenTo (28 - e.scale) := by
      split at h <;> omega
    exact_mod_cast Int.eq_of_mul_eq_mul_right (by omega) hsize
  cases d
  cases e
  simp_all

end QueryKey.Number.Decimal

namespace QueryKey.Expr

open QueryKey.Metadata QueryKey.Number QueryKey.Calendar

-----------------------------------------------------------------------------------------
-- Payloads of the same value
-----------------------------------------------------------------------------------------

/-- What a value leaves open of its payload: the places of a decimal and the sign of a zero, and
the offset of an instant.
-/
inductive Spelling where
  | decimal (negative : Bool) (scale : Nat)
  | offset (seconds : Int)
  | only
deriving DecidableEq

namespace Payload

def spelling : Payload → Spelling
  | decimal d => .decimal d.negative d.scale
  | dateTimeOffset t => .offset t.offset
  | _ => .only

def isFloat : Payload → Bool
  | single _ | double _ => true
  | _ => false

/-- Payloads of the same value are the same, or both of a kind in which values have several
payloads.
-/
theorem sameValue_cases {x y : Payload} (h : x.sameValue y = true)
    : x = y
      ∨ (∃ d e, x = decimal d ∧ y = decimal e ∧ d.sameNumber e = true)
      ∨ (∃ s t, x = dateTimeOffset s ∧ y = dateTimeOffset t ∧ s.sameInstant t = true)
      ∨ (∃ p q, x = single p ∧ y = single q)
      ∨ ∃ p q, x = double p ∧ y = double q := by
  unfold sameValue at h
  split at h
  · exact .inr (.inr (.inr (.inl ⟨_, _, rfl, rfl⟩)))
  · exact .inr (.inr (.inr (.inr ⟨_, _, rfl, rfl⟩)))
  · exact .inr (.inl ⟨_, _, rfl, rfl, h⟩)
  · exact .inr (.inr (.inl ⟨_, _, rfl, rfl, h⟩))
  · exact .inl (eq_of_beq h)

/-- Of two payloads of the same value that are no floats, one is told by the spelling of the
other.
-/
theorem eq_of_sameValue {x y : Payload} (h : x.sameValue y = true) (hfloat : x.isFloat = false)
    (hspelling : x.spelling = y.spelling)
    : x = y := by
  rcases sameValue_cases h with rfl | ⟨d, e, rfl, rfl, hnumber⟩ | ⟨s, t, rfl, rfl, hinstant⟩
    | ⟨p, q, rfl, rfl⟩ | ⟨p, q, rfl, rfl⟩
  · rfl
  · obtain ⟨hnegative, hscale⟩ := Spelling.decimal.inj hspelling
    rw [Decimal.eq_of_sameNumber hnumber hnegative hscale]
  · rw [OffsetDateTime.eq_of_sameInstant hinstant (Spelling.offset.inj hspelling)]
  · cases hfloat
  · cases hfloat

end Payload

-----------------------------------------------------------------------------------------
-- Trees of the same value
-----------------------------------------------------------------------------------------

variable {ε δ : Type}

/-- The payload of a constant. -/
def Body.constant? : Body ε → Option Payload
  | constant value => some value
  | _ => none

theorem Body.constant?_map (f : ε → δ) (b : Body ε) : (b.map f).constant? = b.constant? := by
  cases b <;> rfl

theorem Body.eq_constant_of_shape {b : Body ε} {value : Payload} (h : b.shape = .constant value)
    : b = .constant value := by
  cases b <;> cases h
  rfl

/-- Operations are the same if they are of the same value, unless they are constants. -/
theorem Body.sameOperation_cases {a b : Body ε} (h : a.shape.sameOperation b.shape = true)
    : (∃ x y, a = .constant x ∧ b = .constant y ∧ x.sameValue y = true) ∨ a.shape = b.shape := by
  unfold sameOperation at h
  split at h
  · next x y ha hb => exact .inl ⟨x, y, eq_constant_of_shape ha, eq_constant_of_shape hb, h⟩
  · exact .inr (eq_of_beq h)

/-- Operands that are pairwise related agree if related ones do, by induction on the pairs. -/
theorem map_eq_map_of_forall₂ {R : ε → δ → Prop} {γ : Type} {f : ε → γ} {g : δ → γ} {as : List ε}
    {bs : List δ} (h : List.Forall₂ R as bs) (heq : ∀ a ∈ as, ∀ b ∈ bs, R a b → f a = g b)
    : as.map f = bs.map g := by
  induction h with
  | nil => rfl
  | cons hab _ ih =>
      rw [List.map_cons, List.map_cons, heq _ (by simp) _ (by simp) hab,
        ih fun a ha b hb => heq a (by simp [ha]) b (by simp [hb])]

theorem length_children_of_shape {a : Body ε} {b : Body δ} (h : a.shape = b.shape)
    : a.children.length = b.children.length := by
  have := congrArg (fun shape => shape.children.length) h
  simpa [Body.shape, Body.children_map] using this

/-- A tree of the same value as a node has the same type and either is a constant like the node,
or has the same operation over operands of the same values.
-/
theorem sameValue_cases {usage : TypeUsage} {body : Body Expr} {b : Expr}
    (h : sameValue (.node usage body) b = true)
    : (∃ x y, body = .constant x ∧ b = .node usage (.constant y) ∧ x.sameValue y = true)
      ∨ ∃ operation, b = .node usage operation ∧ body.shape = operation.shape
          ∧ List.Forall₂ (fun c d => c.sameValue d = true) body.children operation.children := by
  rcases b with ⟨other, operation⟩
  simp only [sameValue, fold_node, Bool.and_eq_true, beq_iff_eq, Expr.usage, Expr.body,
    Body.shape, Body.map_map, Function.comp_def, Body.children_map, List.zip_map_left,
    List.all_map, List.all_eq_true] at h
  obtain ⟨⟨rfl, hoperation⟩, hchildren⟩ := h
  rcases Body.sameOperation_cases hoperation with ⟨x, y, rfl, rfl, hvalue⟩ | hshape
  · exact .inl ⟨x, y, rfl, rfl, hvalue⟩
  · refine .inr ⟨operation, rfl, hshape, List.forall₂_iff_zip.mpr ?_⟩
    exact ⟨length_children_of_shape hshape, fun hmem => hchildren _ hmem⟩

/-- A pass has the same result on trees of the same value, if it has on constants; by induction on
one of the trees.
-/
theorem fold_eq_of_sameValue {α : Type} [Inhabited α] {step : TypeUsage → Body α → α} {a b : Expr}
    (hconstant : ∀ usage x y, x.sameValue y = true
      → step usage (.constant x) = step usage (.constant y))
    (h : a.sameValue b = true)
    : fold step a = fold step b := by
  induction a using Expr.induction generalizing b with
  | step usage body ih =>
      rcases sameValue_cases h with ⟨x, y, rfl, rfl, hvalue⟩ | ⟨operation, rfl, hshape, hchildren⟩
      · simp only [fold_node, Body.map, hconstant usage x y hvalue]
      · have hmap : body.map (fold step) = operation.map (fold step) :=
          Body.map_eq_map_of_shape_eq hshape
            (map_eq_map_of_forall₂ hchildren fun c hc d _ hcd => ih c hc hcd)
        rw [fold_node, fold_node, hmap]

-----------------------------------------------------------------------------------------
-- The constants of a tree
-----------------------------------------------------------------------------------------

/-- The payloads of the constants of a tree, in the order of walks. -/
def constants (e : Expr) : List Payload :=
  e.walk.filterMap fun p => p.1.body.constant?

theorem constants_node (usage : TypeUsage) (body : Body Expr)
    : constants (.node usage body)
      = body.constant?.toList ++ body.children.flatMap constants := by
  have hnodes (e : Expr) : e.constants = e.nodes.filterMap fun n => n.body.constant? := by
    rw [constants, nodes, List.filterMap_map]
    rfl
  rw [hnodes, nodes_eq, List.filterMap_cons, List.filterMap_flatMap, funext hnodes]
  cases h : body.constant? <;> simp [Expr.body, Expr.children, h]

theorem mem_constants_of_mem_children {usage : TypeUsage} {body : Body Expr} {c : Expr}
    {payload : Payload} (hc : c ∈ body.children) (h : payload ∈ c.constants)
    : payload ∈ constants (.node usage body) := by
  rw [constants_node]
  exact List.mem_append_right _ (List.mem_flatMap.mpr ⟨c, hc, h⟩)

/-- The spellings of the constants of a tree, in the order of walks. -/
def spellings (e : Expr) : List Spelling :=
  e.constants.map Payload.spelling

theorem spellings_node (usage : TypeUsage) (body : Body Expr)
    : spellings (.node usage body)
      = body.constant?.toList.map Payload.spelling ++ body.children.flatMap spellings := by
  rw [spellings, constants_node, List.map_append, List.map_flatMap]
  rfl

theorem constant?_of_shape {a b : Body ε} (h : a.shape = b.shape) : a.constant? = b.constant? := by
  rw [← Body.constant?_map (fun _ => ()) a, ← Body.constant?_map (fun _ => ()) b]
  exact congrArg Body.constant? h

/-- Trees of the same value have as many constants, by induction on one of them. -/
theorem length_spellings_of_sameValue {a b : Expr} (h : a.sameValue b = true)
    : a.spellings.length = b.spellings.length := by
  induction a using Expr.induction generalizing b with
  | step usage body ih =>
      rcases sameValue_cases h with ⟨x, y, rfl, rfl, -⟩ | ⟨operation, rfl, hshape, hchildren⟩
      · simp [spellings_node, Body.constant?, Body.children]
      · have hlengths : body.children.map (fun c => c.spellings.length)
            = operation.children.map fun c => c.spellings.length :=
          map_eq_map_of_forall₂ hchildren fun c hc d _ hcd => ih c hc hcd
        simp only [spellings_node, constant?_of_shape hshape, List.length_append,
          List.length_flatMap, hlengths]

/-- Lists that are put together from as long parts have the same parts, by induction on the
pairs.
-/
theorem forall₂_of_flatMap_eq {R : ε → δ → Prop} {γ : Type} {f : ε → List γ} {g : δ → List γ}
    {as : List ε} {bs : List δ} (h : List.Forall₂ R as bs)
    (hlength : ∀ a b, R a b → (f a).length = (g b).length) (heq : as.flatMap f = bs.flatMap g)
    : List.Forall₂ (fun a b => R a b ∧ f a = g b) as bs := by
  induction h with
  | nil => exact .nil
  | cons hab _ ih =>
      rw [List.flatMap_cons, List.flatMap_cons] at heq
      obtain ⟨hhead, htail⟩ := List.append_inj heq (hlength _ _ hab)
      exact .cons ⟨hab, hhead⟩ (ih htail)

/-- Trees of the same value without floats are the same if their constants are spelled alike, by
induction on one of them.
-/
theorem eq_of_spellings_eq {a b : Expr} (h : a.sameValue b = true)
    (hfloat : ∀ payload ∈ a.constants, payload.isFloat = false)
    (hspellings : a.spellings = b.spellings)
    : a = b := by
  induction a using Expr.induction generalizing b with
  | step usage body ih =>
      rcases sameValue_cases h with ⟨x, y, rfl, rfl, hvalue⟩ | ⟨operation, rfl, hshape, hchildren⟩
      · have hx : x.isFloat = false := hfloat x (by simp [constants_node, Body.constant?])
        have hxy : x.spelling = y.spelling := by
          simpa [spellings_node, Body.constant?, Body.children] using hspellings
        rw [Payload.eq_of_sameValue hvalue hx hxy]
      · rw [spellings_node, spellings_node, constant?_of_shape hshape,
          List.append_cancel_left_eq] at hspellings
        have hsplit := forall₂_of_flatMap_eq hchildren
          (fun c d hcd => length_spellings_of_sameValue hcd) hspellings
        have : Inhabited Expr := ⟨.node usage body⟩
        have hbody : body.map id = operation.map id :=
          Body.map_eq_map_of_shape_eq hshape
            (map_eq_map_of_forall₂ hsplit fun c hc d _ hcd =>
              ih c hc hcd.1 (fun p hp => hfloat p (mem_constants_of_mem_children hc hp)) hcd.2)
        rw [Body.map_id, Body.map_id] at hbody
        rw [hbody]

end QueryKey.Expr
