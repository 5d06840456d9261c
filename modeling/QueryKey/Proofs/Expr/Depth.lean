import QueryKey.Expr.Walk

/-! The depth of a tree, which a walk finds with a stack, is its height. -/

namespace QueryKey.Expr

open QueryKey.Metadata

/-- The greatest of the levels of a tree whose root has the given one. -/
def lowestLevel (p : Expr × Nat) : Nat :=
  p.2 + p.1.height - 1

theorem height_pos (e : Expr) : 0 < e.height := by
  cases e with
  | node usage body =>
      rw [height_node]
      exact Nat.succ_pos _

/-- The levels of a tree are that of its root and those of its operands, a level below. -/
theorem lowestLevel_eq (e : Expr) (level : Nat)
    : lowestLevel (e, level)
      = max level (((e.childrenBelow level).map lowestLevel).foldr max 0) := by
  have hshift (children : List Expr)
      : max level ((children.map fun c => lowestLevel (c, level + 1)).foldr max 0)
        = level + (children.map height).foldr max 0 := by
    induction children with
    | nil => simp
    | cons c rest ih =>
        have hc := height_pos c
        simp only [List.map_cons, List.foldr_cons, lowestLevel] at ih ⊢
        omega
  cases e with
  | node usage body =>
      rw [childrenBelow, List.map_map]
      simp only [Function.comp_def]
      rw [hshift, lowestLevel, height_node]
      rfl

theorem foldr_max_append (front back : List Nat)
    : (front ++ back).foldr max 0 = max (front.foldr max 0) (back.foldr max 0) := by
  induction front with
  | nil => simp
  | cons n rest ih => rw [List.cons_append, List.foldr_cons, List.foldr_cons, ih, Nat.max_assoc]

theorem foldr_max_reverse (ns : List Nat) : ns.reverse.foldr max 0 = ns.foldr max 0 := by
  induction ns with
  | nil => rfl
  | cons n rest ih =>
      rw [List.reverse_cons, foldr_max_append, ih, Nat.max_comm, List.foldr_cons, List.foldr_cons,
        List.foldr_nil, Nat.max_zero]

/-- The walk finds the greatest level in all pending trees, by induction along it. -/
theorem deepest_eq (pending : List (Expr × Nat)) (greatest : Nat)
    : deepest pending greatest = max greatest ((pending.map lowestLevel).foldr max 0) := by
  induction pending, greatest using deepest.induct with
  | case1 greatest => simp [deepest]
  | case2 greatest e level rest ih =>
      rw [deepest, ih, List.map_append, foldr_max_append, List.map_reverse, foldr_max_reverse,
        List.map_cons, List.foldr_cons, lowestLevel_eq]
      omega

theorem depth_eq_height (e : Expr) : e.depth = e.height := by
  rw [depth, deepest_eq]
  simp [lowestLevel]

end QueryKey.Expr
