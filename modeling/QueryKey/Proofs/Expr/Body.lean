import QueryKey.Expr.Body

/-! The children of a node, and replacing them: only the children matter, replacing twice is
replacing once, and nothing changes if every child stays as it is.
-/

namespace QueryKey.Expr

variable {ε δ γ : Type}

-----------------------------------------------------------------------------------------
-- Operands inside the parts of a node
-----------------------------------------------------------------------------------------

namespace Body

theorem mem_children_of_arm {arms : List (Arm ε)} {otherwise : ε} {a : Arm ε} (h : a ∈ arms)
    : a.condition ∈ (case arms otherwise).children ∧ a.result ∈ (case arms otherwise).children := by
  simp only [children, List.mem_append, List.mem_flatMap]
  exact ⟨.inl ⟨a, h, by simp⟩, .inl ⟨a, h, by simp⟩⟩

theorem mem_children_of_related {arguments : List ε} {related : List (RelatedRef ε)}
    {r : RelatedRef ε} (h : r ∈ related)
    : r.reference ∈ (newInstance arguments related).children :=
  List.mem_append_right _ (List.mem_map_of_mem h)

theorem mem_children_of_aggregate {input : GroupBinding ε} {keys : List ε}
    {aggregates : List (Aggregate ε)} {a : Aggregate ε} (h : a ∈ aggregates) {e : ε}
    (he : e ∈ a.operands)
    : e ∈ (groupBy input keys aggregates).children :=
  List.mem_append_right _ (List.mem_flatMap_of_mem h he)

theorem mem_children_of_skipClause {input : Binding ε} {order : List (SortClause ε)} {count : ε}
    {c : SortClause ε} (h : c ∈ order)
    : c.key ∈ (skip input order count).children :=
  List.mem_append_left _ (List.mem_cons_of_mem _ (List.mem_map_of_mem h))

theorem mem_children_of_sortClause {input : Binding ε} {order : List (SortClause ε)}
    {c : SortClause ε} (h : c ∈ order)
    : c.key ∈ (sort input order).children :=
  List.mem_cons_of_mem _ (List.mem_map_of_mem h)

end Body

-----------------------------------------------------------------------------------------
-- Replacing operands
-----------------------------------------------------------------------------------------

theorem Binding.map_congr {f g : ε → δ} {b : Binding ε} (h : f b.source = g b.source)
    : b.map f = b.map g := by
  rw [Binding.map, h, Binding.map]

theorem SortClause.map_congr {f g : ε → δ} {c : SortClause ε} (h : f c.key = g c.key)
    : c.map f = c.map g := by
  rw [SortClause.map, h, SortClause.map]

theorem RelatedRef.map_congr {f g : ε → δ} {r : RelatedRef ε} (h : f r.reference = g r.reference)
    : r.map f = r.map g := by
  rw [RelatedRef.map, h, RelatedRef.map]

theorem Arm.map_congr {f g : ε → δ} {a : Arm ε} (hc : f a.condition = g a.condition)
    (hr : f a.result = g a.result)
    : a.map f = a.map g := by
  rw [Arm.map, hc, hr, Arm.map]

theorem Aggregate.map_congr {f g : ε → δ} {a : Aggregate ε} (h : ∀ e ∈ a.operands, f e = g e)
    : a.map f = a.map g := by
  cases a with
  | function function distinct arguments =>
      have ha : arguments.map f = arguments.map g := List.map_congr_left h
      simp [Aggregate.map, ha]
  | group argument => simp [Aggregate.map, h argument (by simp [Aggregate.operands])]

namespace Body

/-- Replacements that agree on the children of a node make the same node. -/
theorem map_congr {f g : ε → δ} {b : Body ε} (h : ∀ e ∈ b.children, f e = g e)
    : b.map f = b.map g := by
  cases b with
  | like argument pattern escape =>
      cases escape <;> simp_all [children, map]
  | case arms otherwise =>
      have ha : arms.map (Arm.map f) = arms.map (Arm.map g) :=
        List.map_congr_left fun a ha =>
          Arm.map_congr (h _ (mem_children_of_arm ha).1) (h _ (mem_children_of_arm ha).2)
      simp [map, ha, h otherwise (by simp [children])]
  | newInstance arguments related =>
      have hr : related.map (RelatedRef.map f) = related.map (RelatedRef.map g) :=
        List.map_congr_left fun r hr => RelatedRef.map_congr (h _ (mem_children_of_related hr))
      have ha : arguments.map f = arguments.map g :=
        List.map_congr_left fun e he => h e (by simp [children, he])
      simp [map, ha, hr]
  | crossJoin inputs =>
      have hi : inputs.map (Binding.map f) = inputs.map (Binding.map g) :=
        List.map_congr_left fun b hb => Binding.map_congr (h _ (List.mem_map_of_mem hb))
      simp [map, hi]
  | groupBy input keys aggregates =>
      have ha : aggregates.map (Aggregate.map f) = aggregates.map (Aggregate.map g) :=
        List.map_congr_left fun a ha =>
          Aggregate.map_congr fun e he => h e (mem_children_of_aggregate ha he)
      have hk : keys.map f = keys.map g :=
        List.map_congr_left fun e he => h e (by simp [children, he])
      simp [map, GroupBinding.map, ha, hk, h input.source (by simp [children])]
  | skip input order count =>
      have ho : order.map (SortClause.map f) = order.map (SortClause.map g) :=
        List.map_congr_left fun c hc => SortClause.map_congr (h _ (mem_children_of_skipClause hc))
      simp [map, ho, Binding.map_congr (h input.source (by simp [children])),
        h count (by simp [children])]
  | sort input order =>
      have ho : order.map (SortClause.map f) = order.map (SortClause.map g) :=
        List.map_congr_left fun c hc => SortClause.map_congr (h _ (mem_children_of_sortClause hc))
      simp [map, ho, Binding.map_congr (h input.source (by simp [children]))]
  | _ => simp_all [children, map, Binding.map]

theorem map_map (f : ε → δ) (g : δ → γ) (b : Body ε) : (b.map f).map g = b.map (g ∘ f) := by
  cases b with
  | like argument pattern escape => cases escape <;> rfl
  | groupBy input keys aggregates =>
      have ha (a : Aggregate ε) : (a.map f).map g = a.map (g ∘ f) := by
        cases a <;> simp [Aggregate.map]
      simp [map, GroupBinding.map, ha]
  | _ =>
      simp [map, Binding.map, Arm.map, SortClause.map, RelatedRef.map, Function.comp_def]

theorem map_id (b : Body ε) : b.map id = b := by
  have binding : Binding.map (id : ε → ε) = id := rfl
  have groupBinding : GroupBinding.map (id : ε → ε) = id := rfl
  have arm : Arm.map (id : ε → ε) = id := rfl
  have clause : SortClause.map (id : ε → ε) = id := rfl
  have related : RelatedRef.map (id : ε → ε) = id := rfl
  have aggregate : Aggregate.map (id : ε → ε) = id := by
    funext a
    cases a <;> simp [Aggregate.map]
  cases b <;>
    simp [map, binding, groupBinding, arm, clause, related, aggregate]

/-- A replacement that leaves the children alone leaves the node alone. -/
theorem map_eq_self {f : ε → ε} {b : Body ε} (h : ∀ e ∈ b.children, f e = e) : b.map f = b := by
  rw [map_congr (g := id) h, map_id]

end Body

end QueryKey.Expr
