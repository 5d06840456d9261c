import QueryKey.Proofs.Key.Flattening
import QueryKey.Proofs.Key.Injectivity

/-! Free texts in keys: the texts of shapes and the names of parameters stand there without quotes.
A key tells them, and all the nodes around them, if no colon is in them; with colons they can pass
for other nodes.
-/

namespace QueryKey.Expr

open QueryKey.Metadata QueryKey.Key

variable {ε : Type}

-----------------------------------------------------------------------------------------
-- Trees with clean names
-----------------------------------------------------------------------------------------

/-- Whether all names but those of parameters are clean, and the operation is no float. -/
def Body.HasCleanNames (b : Body ε) : Prop :=
  match b with
  | constant (.single _) | constant (.double _) => False
  | constant _ | parameter _ => True
  | _ => b.IsClean

/-- The texts that are written without quotes though they may be any. -/
def Body.freeTexts : Body ε → List String
  | constant (.geometry shape) | constant (.geography shape) => [shape.wkt]
  | parameter name => [name]
  | _ => []

theorem Body.isLegible_iff {b : Body ε}
    : b.IsLegible ↔ b.HasCleanNames ∧ ∀ text ∈ b.freeTexts, ':' ∉ text.toList := by
  cases b with
  | constant payload =>
      cases payload <;>
        simp [IsLegible, HasCleanNames, freeTexts, Payload.IsLegible, Payload.isExact]
  | _ => simp [IsLegible, HasCleanNames, freeTexts]

/-- Every node has a usage that is built from clean names and clean names of its own. -/
def HasCleanNames (e : Expr) : Prop :=
  ∀ n ∈ e.nodes, n.usage.Built ∧ n.body.HasCleanNames

/-- The texts in a tree that are written without quotes, in the order of a visit. -/
def freeTexts (e : Expr) : List String :=
  e.nodes.flatMap fun n => n.body.freeTexts

theorem hasCleanNames_node {usage : TypeUsage} {body : Body Expr}
    : (node usage body).HasCleanNames
      ↔ usage.Built ∧ body.HasCleanNames ∧ ∀ c ∈ body.children, c.HasCleanNames := by
  simp only [HasCleanNames, nodes_eq (node usage body), List.forall_mem_cons,
    List.forall_mem_flatMap, Expr.usage, Expr.body, Expr.children, and_assoc]

theorem hasCleanNames_leaf {usage : TypeUsage} {body : Body Expr} (husage : usage.Built)
    (hbody : body.HasCleanNames) (hleaf : body.children = [])
    : (node usage body).HasCleanNames :=
  hasCleanNames_node.mpr ⟨husage, hbody, by simp [hleaf]⟩

theorem freeTexts_node (usage : TypeUsage) (body : Body Expr)
    : (node usage body).freeTexts = body.freeTexts ++ body.children.flatMap freeTexts := by
  simp only [freeTexts, nodes_eq (node usage body), List.flatMap_cons, List.flatMap_assoc]
  rfl

theorem isLegible_iff {e : Expr}
    : e.IsLegible ↔ e.HasCleanNames ∧ ∀ text ∈ e.freeTexts, ':' ∉ text.toList := by
  simp only [IsLegible, HasCleanNames, freeTexts, Body.isLegible_iff, List.forall_mem_flatMap,
    ← and_assoc, forall_and]

end QueryKey.Expr

namespace QueryKey.Key

open QueryKey.Expr

-----------------------------------------------------------------------------------------
-- What an outline tells of the nodes
-----------------------------------------------------------------------------------------

/-- The entries of a tree's nodes in the order of a visit. -/
def entries (e : Expr) : List Entry :=
  e.nodes.map fun n => entry n.usage n.body.shape

theorem entries_eq (e : Expr)
    : entries e = entry e.usage e.body.shape :: e.children.flatMap entries := by
  rw [entries, nodes_eq, List.map_cons, List.map_flatMap]
  rfl

/-- Trees with one outline have one list of entries, by induction on one of them. -/
theorem entries_eq_of_outline_eq {a b : Expr} (h : a.outline = b.outline)
    : entries a = entries b := by
  induction a using Expr.induction generalizing b with
  | step usage body ih =>
      rcases b with ⟨other, operation⟩
      rw [outline_node, outline_node] at h
      obtain ⟨hentry, hoperands⟩ := Outline.node.inj h
      have hchildren : body.children.map entries = operation.children.map entries :=
        map_eq_map_of_map_eq hoperands fun c hc d _ => ih c hc
      rw [entries_eq, entries_eq (.node other operation), List.flatMap_def, List.flatMap_def]
      exact congrArg₂ List.cons hentry (congrArg List.flatten hchildren)

namespace Entry

def kind? : Entry → Option NodeKind
  | literal _ _ => some .constant
  | scan _ _ => some .scan
  | ref _ _ => some .ref
  | operator operation _ => operation.kind?

/-- The shape in a literal. -/
def spatial? : Entry → Option Spatial
  | literal (.value (.geometry shape)) _ | literal (.value (.geography shape)) _ => some shape
  | _ => none

def parameterName? : Entry → Option String
  | operator (.parameter name) _ => some name
  | _ => none

end Entry

end QueryKey.Key

namespace QueryKey.Expr

open QueryKey.Key

/-- The shape that a constant holds, be it in a plane or on the globe. -/
def spatial? (e : Expr) : Option Spatial :=
  match e.body with
  | .constant (.geometry shape) | .constant (.geography shape) => some shape
  | _ => none

/-- The name of a parameter. -/
def parameterName? (e : Expr) : Option String :=
  match e.body with
  | .parameter name => some name
  | _ => none

theorem kind?_entry (e : Expr) : (entry e.usage e.body.shape).kind? = e.kind? := by
  rcases e with ⟨usage, body⟩
  cases body <;> rfl

theorem spatial?_entry (e : Expr) : (entry e.usage e.body.shape).spatial? = e.spatial? := by
  rcases e with ⟨usage, body⟩
  cases body with
  | constant payload => cases payload <;> rfl
  | _ => rfl

theorem parameterName?_entry (e : Expr)
    : (entry e.usage e.body.shape).parameterName? = e.parameterName? := by
  rcases e with ⟨usage, body⟩
  cases body <;> rfl

theorem kind?_flattened (e : Expr) : e.flattened.kind? = e.kind? :=
  eq_flattened (fun _ _ => rfl) (fun _ body => Body.kind?_map flattened body) e

theorem spatial?_flattened (e : Expr) : e.flattened.spatial? = e.spatial? := by
  refine eq_flattened (fun _ _ => rfl) (fun _ body => ?_) e
  cases body <;> rfl

theorem parameterName?_flattened (e : Expr) : e.flattened.parameterName? = e.parameterName? := by
  refine eq_flattened (fun _ _ => rfl) (fun _ body => ?_) e
  cases body <;> rfl

/-- What is told by the entries of a flattened tree is told of the tree. -/
theorem map_nodes_eq {α : Type} {tell : Entry → α} {f : Expr → α}
    (hentry : ∀ e, tell (entry e.usage e.body.shape) = f e) (hflat : ∀ e, f e.flattened = f e)
    (e : Expr)
    : (entries e.flattened).map tell = e.nodes.map f := by
  rw [entries, nodes_flattened, List.map_map, List.map_map]
  exact List.map_congr_left fun n _ => (hentry n.flattened).trans (hflat n)

end QueryKey.Expr

namespace QueryKey.Key

open QueryKey.Expr QueryKey.Metadata

/-- A key tells the number of nodes, and in the order of a visit the kinds of all nodes, the shapes
and the names of parameters, if no colon is in the texts without quotes.
-/
theorem generate_tells_free_texts {s t : Settings} {a b : Expr} {key : CacheKey}
    (ha : a.HasCleanNames) (hb : b.HasCleanNames)
    (hfa : ∀ text ∈ a.freeTexts, ':' ∉ text.toList)
    (hfb : ∀ text ∈ b.freeTexts, ':' ∉ text.toList)
    (hka : generate s a = .ok key) (hkb : generate t b = .ok key)
    : a.nodeCount = b.nodeCount
      ∧ a.nodes.map Expr.kind? = b.nodes.map Expr.kind?
      ∧ a.nodes.map spatial? = b.nodes.map spatial?
      ∧ a.nodes.map parameterName? = b.nodes.map parameterName? := by
  obtain ⟨hna, hwa⟩ := generate_eq_ok_iff.mp hka
  obtain ⟨hnb, hwb⟩ := generate_eq_ok_iff.mp hkb
  have hta := exists_template_of_failure? hna
  have htb := exists_template_of_failure? hnb
  have hwritten : written a.flattened = written b.flattened := by
    rw [written_flattened hta, written_flattened htb]
    exact CacheKey.mk.inj (hwa.symm.trans hwb)
  have houtline : a.flattened.outline = b.flattened.outline :=
    outline_eq_of_legible (isLegible_flattened (isLegible_iff.mpr ⟨ha, hfa⟩) hta)
      (isLegible_flattened (isLegible_iff.mpr ⟨hb, hfb⟩) htb)
      (isFlat_flattened a) (isFlat_flattened b) (exists_template_flattened hta)
      (exists_template_flattened htb) hwritten
  have hentries : entries a.flattened = entries b.flattened := entries_eq_of_outline_eq houtline
  have htold {α : Type} {tell : Entry → α} {f : Expr → α}
      (hentry : ∀ e, tell (entry e.usage e.body.shape) = f e) (hflat : ∀ e, f e.flattened = f e)
      : a.nodes.map f = b.nodes.map f := by
    rw [← map_nodes_eq hentry hflat, hentries, map_nodes_eq hentry hflat]
  have hkinds := htold kind?_entry kind?_flattened
  refine ⟨?_, hkinds, htold spatial?_entry spatial?_flattened,
    htold parameterName?_entry parameterName?_flattened⟩
  rw [nodeCount_eq_length, nodeCount_eq_length]
  simpa using congrArg List.length hkinds

/-- Compares a parameter with a constant, both of an enumeration over the kind. -/
def placeIs (kind : Primitive) (payload : Payload) : Expr :=
  let usage := TypeUsage.ofType (.enumeration "Place" kind)
  compare (.parameter "p,(q)" usage) .equals (.typedConstant payload usage)

/-- A shape whose text holds marks of the notation. -/
def markedShape : Spatial :=
  ⟨4326, "POINT (1 2),@q(["⟩

/-- In a plane and on the globe the shape has one key, which tells it all the same. -/
theorem generate_markedShape
    : generate {} (placeIs .geometry (.geometry markedShape))
        = .ok ⟨"[=](@p,(q):Place,SRID=4326;POINT (1 2),@q([:Place)"⟩
      ∧ generate {} (placeIs .geography (.geography markedShape))
        = .ok ⟨"[=](@p,(q):Place,SRID=4326;POINT (1 2),@q([:Place)"⟩
      ∧ (placeIs .geometry (.geometry markedShape)).nodes.map spatial?
        = (placeIs .geography (.geography markedShape)).nodes.map spatial? := by
  have hplane : generate {} (placeIs .geometry (.geometry markedShape))
      = .ok ⟨"[=](@p,(q):Place,SRID=4326;POINT (1 2),@q([:Place)"⟩ := by
    decide +kernel
  have hglobe : generate {} (placeIs .geography (.geography markedShape))
      = .ok ⟨"[=](@p,(q):Place,SRID=4326;POINT (1 2),@q([:Place)"⟩ := by
    decide +kernel
  have hclean (kind : Primitive) (payload : Payload)
      (h : (Body.constant payload : Body Expr).HasCleanNames)
      : (placeIs kind payload).HasCleanNames := by
    have husage : (TypeUsage.ofType (.enumeration "Place" kind)).Built :=
      .ofType (.enumeration kind (by decide))
    refine hasCleanNames_node.mpr ⟨.ofType (.primitive .boolean), trivial,
      List.forall_mem_cons.mpr ⟨?_, List.forall_mem_singleton.mpr ?_⟩⟩
    · exact hasCleanNames_leaf husage trivial rfl
    · exact hasCleanNames_leaf husage h rfl
  have hfree (kind : Primitive) (payload : Payload)
      (h : payload = .geometry markedShape ∨ payload = .geography markedShape)
      : ∀ text ∈ (placeIs kind payload).freeTexts, ':' ∉ text.toList := by
    have htexts : (placeIs kind payload).freeTexts = ["p,(q)", markedShape.wkt] := by
      rcases h with rfl | rfl <;>
        simp [placeIs, Expr.compare, parameter, typedConstant, freeTexts_node, Body.children,
          Body.freeTexts]
    rw [htexts]
    decide
  have htold := generate_tells_free_texts
    (hclean .geometry (.geometry markedShape) trivial)
    (hclean .geography (.geography markedShape) trivial)
    (hfree .geometry (.geometry markedShape) (.inl rfl))
    (hfree .geography (.geography markedShape) (.inr rfl)) hplane hglobe
  exact ⟨hplane, hglobe, htold.2.2.1⟩

/-- A list of shapes of which a place is one. -/
def placeIn (texts : List String) : Expr :=
  inList (.parameter "place" (.primitive .geometry))
    (texts.map fun wkt => .constant (.geometry ⟨0, wkt⟩))

/-- A colon lets the text of one shape pass for two shapes, so keys do not tell the lists. -/
theorem generate_forgedShapes
    : let points := placeIn ["POINT (1 2)", "POINT (3 4)"]
      let forged := placeIn ["POINT (1 2):Edm.Geometry,SRID=0;POINT (3 4)"]
      let key := "[In](@place:Edm.Geometry,(SRID=0;POINT (1 2):Edm.Geometry,SRID=0;"
        ++ "POINT (3 4):Edm.Geometry))"
      points.HasCleanNames ∧ forged.HasCleanNames
        ∧ generate {} points = .ok ⟨key⟩ ∧ generate {} forged = .ok ⟨key⟩
        ∧ points.nodeCount = 4 ∧ forged.nodeCount = 3 := by
  have hclean (texts : List String) : (placeIn texts).HasCleanNames := by
    have husage : (TypeUsage.primitive .geometry).Built := .ofType (.primitive .geometry)
    exact hasCleanNames_node.mpr ⟨.ofType (.primitive .boolean), trivial,
      List.forall_mem_cons.mpr ⟨hasCleanNames_leaf husage trivial rfl,
        List.forall_mem_map.mpr fun _ _ => hasCleanNames_leaf husage trivial rfl⟩⟩
  refine ⟨hclean _, hclean _, by decide +kernel, by decide +kernel, ?_, ?_⟩ <;>
    simp [placeIn, inList, parameter, constant, nodeCount, countNodes, Expr.children, Expr.body,
      Body.children]

end QueryKey.Key
