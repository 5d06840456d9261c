import Mathlib.Algebra.Ring.Nat
import QueryKey.Proofs.Expr.Depth
import QueryKey.Proofs.Expr.Walk

/-! What the walks with a stack compute, as recursions on the tree. In whatever order a walk takes
up the pending nodes, it meets each of them once.
-/

namespace QueryKey.Expr

/-- The nodes of a tree with their paths: the root, then those of each operand in turn, whose paths
go on from the root's by the index and the label of the operand.
-/
theorem preorder_eq_flatMap (e : Expr) (path : String)
    : e.preorder path
      = (e, path) :: e.children.zipIdx.flatMap fun (c, index) =>
          c.preorder (path ++ "/" ++ toString index ++ ":" ++ c.label) := by
  rw [preorder_eq, childrenWithPaths, List.flatMap_map]
  rfl

theorem length_preorder (e : Expr) : (e.preorder e.label).length = e.nodeCount := by
  rw [nodeCount_eq_length, nodes, walk_eq_preorder, List.length_map]

theorem nodeCount_eq_sum (e : Expr) : e.nodeCount = 1 + (e.children.map nodeCount).sum := by
  have hchildren : e.children.map nodeCount = e.children.map fun c => c.nodes.length :=
    List.map_congr_left fun c _ => nodeCount_eq_length c
  rw [nodeCount_eq_length, nodes_eq, List.length_cons, List.length_flatMap, hchildren,
    Nat.add_comm]

theorem depth_eq_max (e : Expr) : e.depth = 1 + (e.children.map depth).foldr max 0 := by
  have hchildren : e.children.map depth = e.children.map height :=
    List.map_congr_left fun c _ => depth_eq_height c
  rw [depth_eq_height, hchildren, Nat.add_comm]
  cases e with
  | node usage body => exact height_node usage body

/-- A visit runs once over every node in preorder; the count is one for the root and the counts of
the operands, which is how many nodes are visited; and the depth is one more than the greatest depth
of the operands.
-/
theorem walks_eq_recursion (e : Expr)
    : (∀ (σ : Type) (visit : σ → Expr → String → σ) (state : σ),
          e.forEachNode visit state
            = (e.preorder e.label).foldl (fun state p => visit state p.1 p.2) state)
      ∧ (∀ path, e.preorder path
          = (e, path) :: e.children.zipIdx.flatMap fun (c, index) =>
              c.preorder (path ++ "/" ++ toString index ++ ":" ++ c.label))
      ∧ e.nodeCount = 1 + (e.children.map nodeCount).sum
      ∧ e.nodeCount = (e.preorder e.label).length
      ∧ e.depth = 1 + (e.children.map depth).foldr max 0 := by
  refine ⟨?visits, preorder_eq_flatMap e, nodeCount_eq_sum e, (length_preorder e).symm,
    depth_eq_max e⟩
  case visits =>
    intro σ visit state
    exact forEachNode_eq_foldl visit e state

end QueryKey.Expr
