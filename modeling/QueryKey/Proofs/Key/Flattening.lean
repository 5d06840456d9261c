import QueryKey.Expr.Builder
import QueryKey.Proofs.Key.CleanTree
import QueryKey.Proofs.Key.Outline

/-! Flattened trees: shapes on the globe are written like those in a plane, so a tree has the text
of the one with all its shapes in a plane.
-/

namespace QueryKey.Metadata

/-- An enumeration of shapes in a plane under the identities of a usage. -/
def TypeUsage.planar (usage : TypeUsage) : TypeUsage :=
  .mk usage.identity (.enumeration usage.type.identity .geometry)

theorem ModelType.Built.isClean_of_scalarKind? {type : ModelType} {kind : Primitive}
    (h : type.Built) (hkind : type.scalarKind? = some kind)
    : isClean type.identity = true := by
  cases h with
  | primitive kind => exact isClean_primitive kind
  | enumeration underlying clean => exact clean
  | _ => cases hkind

theorem TypeUsage.Built.planar {usage : TypeUsage} {kind : Primitive} (h : usage.Built)
    (hkind : usage.type.scalarKind? = some kind)
    : usage.planar.Built := by
  have hbuilt (type : ModelType) (ht : type.Built) (hkind : type.scalarKind? = some kind)
      : (ModelType.enumeration type.identity .geometry).Built :=
    .enumeration .geometry (ht.isClean_of_scalarKind? hkind)
  cases h with
  | ofType built => exact .ofType (hbuilt _ built hkind)
  | @withFacets type facets built clean =>
      cases facets with
      | nil => exact .ofType (hbuilt _ built hkind)
      | cons facet more => exact .withFacets (hbuilt _ built hkind) clean

end QueryKey.Metadata

namespace QueryKey.Expr

open QueryKey.Metadata

variable {ε δ : Type}

/-- A node, but a shape on the globe becomes one in a plane. -/
def flatNode (usage : TypeUsage) (body : Body Expr) : Expr :=
  match body with
  | .constant (.geography shape) => .node usage.planar (.constant (.geometry shape))
  | _ => .node usage body

/-- The tree with all shapes in a plane. -/
def flattened : Expr → Expr :=
  fold flatNode

/-- A flattened tree has the same root over flattened operands, unless that is a shape on the globe.
-/
theorem flattened_cases (e : Expr)
    : (∃ usage shape, e = typedConstant (.geography shape) usage
        ∧ e.flattened = typedConstant (.geometry shape) usage.planar)
      ∨ e.body.IsFlat ∧ e.flattened = .node e.usage (e.body.map flattened) := by
  rcases e with ⟨usage, body⟩
  by_cases h : ∃ shape, body = .constant (.geography shape)
  · obtain ⟨shape, rfl⟩ := h
    exact .inl ⟨usage, shape, rfl, rfl⟩
  · refine .inr ⟨?_, ?_⟩
    · rintro payload rfl
      cases payload with
      | geography shape => exact h ⟨shape, rfl⟩
      | _ => trivial
    · rw [flattened, fold_node]
      cases body with
      | constant payload =>
          cases payload with
          | geography shape => exact absurd ⟨shape, rfl⟩ h
          | _ => rfl
      | _ => rfl

/-- What does not depend on where shapes are, nor on the operands, is the same after flattening. -/
theorem eq_flattened {α : Type} {f : Expr → α}
    (hshape : ∀ usage shape, f (typedConstant (.geometry shape) usage.planar)
      = f (typedConstant (.geography shape) usage))
    (hmap : ∀ usage body, f (.node usage (body.map flattened)) = f (.node usage body)) (e : Expr)
    : f e.flattened = f e := by
  rcases flattened_cases e with ⟨usage, shape, rfl, h⟩ | ⟨-, h⟩
  · rw [h, hshape]
  · cases e
    rw [h]
    exact hmap _ _

theorem children_flattened (e : Expr) : e.flattened.children = e.children.map flattened := by
  rcases flattened_cases e with ⟨usage, shape, rfl, h⟩ | ⟨-, h⟩
  · rw [h]
    rfl
  · rw [h]
    exact Body.children_map flattened e.body

/-- The nodes of a flattened tree are the flattened nodes, by induction on the tree. -/
theorem nodes_flattened (e : Expr) : e.flattened.nodes = e.nodes.map flattened := by
  induction e using Expr.induction with
  | step usage body ih =>
      rw [nodes_eq, nodes_eq (.node usage body), children_flattened, List.map_cons,
        List.flatMap_map, List.map_flatMap]
      congr 1
      exact List.flatMap_congr ih

theorem Body.isFlat_map {f : ε → δ} {b : Body ε} (h : b.IsFlat) : (b.map f).IsFlat := by
  intro payload hb
  cases b with
  | constant value =>
      cases hb
      exact h payload rfl
  | _ => cases hb

theorem Aggregate.isClean_map {f : ε → δ} {a : Aggregate ε} (h : a.IsClean)
    : (a.map f).IsClean := by
  cases a <;> exact h

theorem Body.isLegible_map {f : ε → δ} {b : Body ε} (h : b.IsLegible) : (b.map f).IsLegible := by
  cases b with
  | newInstance arguments related => exact List.forall_mem_map.mpr h
  | groupBy input keys aggregates =>
      exact List.forall_mem_map.mpr fun a ha => Aggregate.isClean_map (h a ha)
  | skip input order count | sort input order => exact List.forall_mem_map.mpr h
  | _ => exact h

theorem isFlat_flattened (e : Expr) : e.flattened.IsFlat := by
  intro n hn
  rw [nodes_flattened] at hn
  obtain ⟨m, -, rfl⟩ := List.mem_map.mp hn
  rcases flattened_cases m with ⟨usage, shape, rfl, h⟩ | ⟨hflat, h⟩
  · rw [h]
    rintro payload hp
    cases hp
    trivial
  · rw [h]
    exact Body.isFlat_map hflat

end QueryKey.Expr

namespace QueryKey.Key

open QueryKey.Expr QueryKey.Metadata

-----------------------------------------------------------------------------------------
-- Keys of flattened trees
-----------------------------------------------------------------------------------------

/-- Constants with a template are of a scalar kind. -/
theorem exists_scalarKind? {usage : TypeUsage} {payload : Payload} {pieces : List (Piece Expr)}
    (h : template usage (.constant payload) = .ok pieces)
    : ∃ kind, usage.type.scalarKind? = some kind := by
  obtain ⟨text, ht, -⟩ := exists_literal h
  obtain ⟨kind, hkind, -⟩ := exists_payloadText? ht
  exact ⟨kind, hkind⟩

/-- A shape on the globe is written like one in a plane. -/
theorem template_planar {usage : TypeUsage} {shape : Spatial} {pieces : List (Piece Expr)}
    (h : template usage (.constant (.geography shape)) = .ok pieces)
    : template usage.planar (.constant (.geometry shape)) = .ok pieces := by
  obtain ⟨text, ht, rfl⟩ := exists_literal h
  obtain ⟨kind, -, htext⟩ := exists_payloadText? ht
  obtain rfl : Literal.spatialText shape = text := by
    cases kind <;> first | exact Option.some.inj htext | cases htext
  rfl

/-- Flattened nodes have the templates of the nodes over flattened operands. -/
theorem template_flattened {e : Expr} {pieces : List (Piece Expr)}
    (h : template e.usage e.body = .ok pieces)
    : template e.flattened.usage e.flattened.body
      = .ok (pieces.map (Piece.map flattened)) := by
  rcases flattened_cases e with ⟨usage, shape, rfl, hflat⟩ | ⟨-, hflat⟩
  · have hmap := template_map flattened usage (.constant (.geography shape))
    rw [show template usage (.constant (.geography shape)) = .ok pieces from h] at hmap
    rw [hflat]
    exact template_planar hmap
  · rw [hflat]
    exact (template_map flattened e.usage e.body).trans (congrArg _ h)

theorem exists_template_flattened {e : Expr}
    (h : ∀ n ∈ e.nodes, ∃ pieces, template n.usage n.body = .ok pieces)
    : ∀ n ∈ e.flattened.nodes, ∃ pieces, template n.usage n.body = .ok pieces := by
  intro n hn
  rw [nodes_flattened] at hn
  obtain ⟨m, hm, rfl⟩ := List.mem_map.mp hn
  obtain ⟨pieces, hpieces⟩ := h m hm
  exact ⟨_, template_flattened hpieces⟩

theorem isLegible_flattened {e : Expr} (hlegible : e.IsLegible)
    (h : ∀ n ∈ e.nodes, ∃ pieces, template n.usage n.body = .ok pieces)
    : e.flattened.IsLegible := by
  intro n hn
  rw [nodes_flattened] at hn
  obtain ⟨m, hm, rfl⟩ := List.mem_map.mp hn
  obtain ⟨husage, hbody⟩ := hlegible m hm
  obtain ⟨pieces, hpieces⟩ := h m hm
  rcases flattened_cases m with ⟨usage, shape, rfl, hflat⟩ | ⟨-, hflat⟩
  · obtain ⟨kind, hkind⟩ := exists_scalarKind? hpieces
    rw [hflat]
    exact ⟨husage.planar hkind, hbody⟩
  · rw [hflat]
    exact ⟨husage, Body.isLegible_map hbody⟩

theorem written_eq_texts {e : Expr} {pieces : List (Piece Expr)}
    (h : template e.usage e.body = .ok pieces)
    : written e = Piece.texts written pieces := by
  cases e
  exact written_node h

/-- Flattening does not show in the text of a tree, by induction on it. -/
theorem written_flattened {e : Expr}
    (h : ∀ n ∈ e.nodes, ∃ pieces, template n.usage n.body = .ok pieces)
    : written e.flattened = written e := by
  induction e using Expr.induction with
  | step usage body ih =>
      obtain ⟨pieces, hpieces⟩ : ∃ pieces, template usage body = .ok pieces :=
        h _ (mem_nodes_self _)
      have hoperands : (Piece.operands pieces).map (written ∘ flattened)
          = (Piece.operands pieces).map written := by
        rw [operands_template hpieces]
        exact List.map_congr_left fun c hc =>
          ih c hc fun n hn => h n (mem_nodes_of_mem_children hc hn)
      have hflat := template_flattened (e := .node usage body) hpieces
      rw [written_node hpieces]
      calc written (flattened (.node usage body))
          = Piece.texts written (pieces.map (Piece.map flattened)) := written_eq_texts hflat
        _ = Piece.texts (written ∘ flattened) pieces := Piece.texts_map ..
        _ = Piece.texts written pieces := by rw [texts_eq_weave, hoperands, ← texts_eq_weave]

end QueryKey.Key
