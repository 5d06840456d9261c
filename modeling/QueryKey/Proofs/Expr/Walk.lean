import Mathlib.Data.List.Basic
import QueryKey.Expr.Walk
import QueryKey.Proofs.Expr.Body

/-! Walks with a stack are recursions on the tree: a visit of every node runs over the nodes in
preorder, each with the path that the recursion gives it.
-/

namespace QueryKey.Expr

open QueryKey.Metadata

/-- A pass that rebuilds the tree beside its result rebuilds the same tree, by induction on it. -/
theorem fst_fold_rebuild {α : Type} (step : TypeUsage → Body (Expr × α) → α) (e : Expr)
    : (e.fold fun usage body => (node usage (body.map Prod.fst), step usage body)).1 = e := by
  induction e using Expr.induction with
  | step usage body ih =>
      rw [fold_node, Body.map_map]
      exact congrArg (node usage) (Body.map_eq_self ih)

/-- The nodes of a tree in preorder: the tree itself, then those of its children. -/
theorem preorder_eq (e : Expr) (path : String)
    : e.preorder path
      = (e, path) :: (e.childrenWithPaths path).flatMap fun p => p.1.preorder p.2 := by
  cases e with
  | node usage body =>
      have hself : body.map (fun e => e) = body := Body.map_id body
      simp only [preorder, fold_node, Body.map_map, Function.comp_def, fst_fold_rebuild, hself,
        childrenWithPaths, children, Expr.body, Body.children_map, List.zipIdx_map,
        List.flatMap_map, Prod.map, id_eq]

/-- A visit of pending trees runs over their nodes in preorder, by induction along the walk. -/
theorem visitNodes_eq_foldl {σ : Type} (visit : σ → Expr → String → σ)
    (pending : List (Expr × String)) (state : σ)
    : visitNodes visit pending state
      = (pending.flatMap fun p => p.1.preorder p.2).foldl
          (fun state p => visit state p.1 p.2) state := by
  induction pending, state using visitNodes.induct visit with
  | case1 state => simp [visitNodes]
  | case2 state e path rest ih =>
      simp only [visitNodes, ih, List.flatMap_append, List.flatMap_cons]
      rw [preorder_eq e path]
      simp only [List.cons_append, List.foldl_cons, List.foldl_append]

theorem forEachNode_eq_foldl {σ : Type} (visit : σ → Expr → String → σ) (e : Expr) (state : σ)
    : e.forEachNode visit state
      = (e.preorder e.label).foldl (fun state p => visit state p.1 p.2) state := by
  rw [forEachNode, visitNodes_eq_foldl, List.flatMap_singleton]

/-- The walk lists the nodes in preorder, from the root's label on. -/
theorem walk_eq_preorder (e : Expr) : e.walk = e.preorder e.label := by
  rw [walk, forEachNode_eq_foldl]
  simp

/-- A longer path to a tree stands in front of the paths of all its nodes, by induction on the
tree.
-/
theorem preorder_append (e : Expr) (front path : String)
    : e.preorder (front ++ path) = (e.preorder path).map fun p => (p.1, front ++ p.2) := by
  induction e using Expr.induction generalizing path with
  | step usage body ih =>
      rw [preorder_eq, preorder_eq, List.map_cons, List.map_flatMap]
      congr 1
      simp only [childrenWithPaths, List.flatMap_map]
      apply List.flatMap_congr
      rintro ⟨c, index⟩ hc
      have hpath : childPath (front ++ path) index c = front ++ childPath path index c := by
        simp only [childPath, String.append_assoc]
      rw [hpath]
      exact ih c (List.fst_mem_of_mem_zipIdx hc) (childPath path index c)

/-- The walk over a tree visits the root and then walks over the operands one after the other,
with the root's label and the index of the operand in front of the paths.
-/
theorem walk_eq (e : Expr)
    : e.walk
      = (e, e.label) :: e.children.zipIdx.flatMap fun (c, index) =>
          c.walk.map fun p => (p.1, e.label ++ "/" ++ toString index ++ ":" ++ p.2) := by
  rw [walk_eq_preorder, preorder_eq, childrenWithPaths, List.flatMap_map]
  congr 1
  apply List.flatMap_congr
  rintro ⟨c, index⟩ _
  simp only [walk_eq_preorder]
  exact preorder_append c (e.label ++ "/" ++ toString index ++ ":") c.label

-----------------------------------------------------------------------------------------
-- Nodes
-----------------------------------------------------------------------------------------

/-- The nodes of a tree in the order of a visit. -/
def nodes (e : Expr) : List Expr :=
  e.walk.map Prod.fst

/-- Which nodes a tree has does not depend on the path to it, by induction on the tree. -/
theorem map_fst_preorder (e : Expr) (path other : String)
    : (e.preorder path).map Prod.fst = (e.preorder other).map Prod.fst := by
  induction e using Expr.induction generalizing path other with
  | step usage body ih =>
      simp only [preorder_eq (node usage body), childrenWithPaths, List.map_cons,
        List.map_flatMap, List.flatMap_map]
      congr 1
      apply List.flatMap_congr
      rintro ⟨c, index⟩ hc
      exact ih c (List.fst_mem_of_mem_zipIdx hc) _ _

/-- The nodes of a tree are the tree itself and the nodes of its children. -/
theorem nodes_eq (e : Expr) : e.nodes = e :: e.children.flatMap nodes := by
  rw [nodes, walk_eq_preorder, preorder_eq, List.map_cons, List.map_flatMap,
    ← map_fst_childrenWithPaths e e.label, List.flatMap_map]
  congr 1
  apply List.flatMap_congr
  rintro ⟨c, path⟩ _
  rw [nodes, walk_eq_preorder]
  exact map_fst_preorder c path c.label

theorem mem_nodes_self (e : Expr) : e ∈ e.nodes := by
  rw [nodes_eq]
  exact List.mem_cons_self

theorem mem_nodes_of_mem_children {c e n : Expr} (hc : c ∈ e.children) (hn : n ∈ c.nodes)
    : n ∈ e.nodes := by
  rw [nodes_eq]
  exact List.mem_cons_of_mem e (List.mem_flatMap.mpr ⟨c, hc, hn⟩)

theorem length_nodes_lt {e c : Expr} (h : c ∈ e.children) : c.nodes.length < e.nodes.length := by
  have hle : c.nodes.length ≤ (e.children.flatMap nodes).length := by
    rw [List.flatMap_def]
    exact (List.sublist_flatten_of_mem (List.mem_map_of_mem h)).length_le
  rw [nodes_eq e, List.length_cons]
  omega

/-- The count of pending trees adds their nodes, by induction along the walk. -/
theorem countNodes_eq (pending : List Expr) (count : Nat)
    : countNodes pending count = count + (pending.flatMap nodes).length := by
  induction pending, count using countNodes.induct with
  | case1 count => simp [countNodes]
  | case2 count e rest ih =>
      have hreverse : (e.children.reverse.flatMap nodes).length
          = (e.children.flatMap nodes).length :=
        (List.Perm.flatMap_right nodes (List.reverse_perm e.children)).length_eq
      rw [countNodes, ih, List.flatMap_append, List.flatMap_cons, nodes_eq e]
      simp only [List.length_append, List.length_cons, hreverse]
      omega

theorem nodeCount_eq_length (e : Expr) : e.nodeCount = e.nodes.length := by
  rw [nodeCount, countNodes_eq, List.flatMap_singleton, Nat.zero_add]

-----------------------------------------------------------------------------------------
-- Levels
-----------------------------------------------------------------------------------------

/-- The nodes of the pending trees in the order of a visit, each with its level; the levels of
the roots are given.
-/
def leveledNodes (pending : List (Expr × Nat)) : List (Expr × Nat) :=
  match pending with
  | [] => []
  | (e, level) :: rest => (e, level) :: leveledNodes (e.childrenBelow level ++ rest)
termination_by forestSize (pending.map Prod.fst)
decreasing_by
  exact forestSize_step Prod.fst rest (map_fst_childrenBelow e level)

/-- The nodes of a tree in the order of a visit, the root at level one. -/
def levels (e : Expr) : List (Expr × Nat) :=
  leveledNodes [(e, 1)]

theorem leveledNodes_append (front back : List (Expr × Nat))
    : leveledNodes (front ++ back) = leveledNodes front ++ leveledNodes back := by
  induction front using leveledNodes.induct with
  | case1 => rw [leveledNodes, List.nil_append, List.nil_append]
  | case2 e level rest ih =>
      rw [List.cons_append, leveledNodes, leveledNodes, ← List.append_assoc, ih, List.cons_append]

theorem leveledNodes_eq_flatMap (pending : List (Expr × Nat))
    : leveledNodes pending = pending.flatMap fun p => leveledNodes [p] := by
  induction pending with
  | nil => simp [leveledNodes]
  | cons p rest ih =>
      rw [List.flatMap_cons, ← ih, ← leveledNodes_append, List.singleton_append]

/-- The nodes of a tree at a level: the tree itself, then those of its children a level below. -/
theorem leveledNodes_singleton (e : Expr) (level : Nat)
    : leveledNodes [(e, level)]
      = (e, level) :: e.children.flatMap fun c => leveledNodes [(c, level + 1)] := by
  rw [leveledNodes, List.append_nil, leveledNodes_eq_flatMap, childrenBelow, List.flatMap_map]

/-- Levels are given to the nodes of the preorder, by induction on the tree. -/
theorem map_fst_leveledNodes (e : Expr) (level : Nat) (path : String)
    : (leveledNodes [(e, level)]).map Prod.fst = (e.preorder path).map Prod.fst := by
  induction e using Expr.induction generalizing level path with
  | step usage body ih =>
      rw [leveledNodes_singleton, preorder_eq, List.map_cons, List.map_cons, List.map_flatMap,
        List.map_flatMap]
      congr 1
      rw [← map_fst_childrenWithPaths (node usage body) path, List.flatMap_map]
      apply List.flatMap_congr
      rintro ⟨c, path⟩ hc
      refine ih c ?_ (level + 1) path
      have := List.mem_map_of_mem (f := Prod.fst) hc
      rwa [map_fst_childrenWithPaths] at this

/-- The nodes with levels are those of the walk, in its order. -/
theorem map_fst_levels (e : Expr) : e.levels.map Prod.fst = e.walk.map Prod.fst := by
  rw [levels, walk_eq_preorder, map_fst_leveledNodes]

end QueryKey.Expr
