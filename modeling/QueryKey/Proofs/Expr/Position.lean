import QueryKey.Expr.Basic
import QueryKey.Proofs.Expr.Indexed

/-! Positions in a tree: chains of child indices from the root. At a position stands a subtree, and
another one may be put in its place.
-/

namespace QueryKey.Expr

open QueryKey.Metadata

/-- The subtree at a position, if the tree has the position. -/
def subtreeAt? : List Nat → Expr → Option Expr
  | [], e => some e
  | index :: position, e => e.children[index]?.bind (subtreeAt? position)

/-- The tree with another subtree at the position; without the position, the tree itself. -/
def replaceAt (e : Expr) (position : List Nat) (replacement : Expr) : Expr :=
  match position, e with
  | [], _ => replacement
  | index :: position, node usage body =>
      node usage (body.modifyChild index fun c => c.replaceAt position replacement)

/-- Below the root, the operation stays and one child is changed. -/
theorem children_replaceAt_cons (e : Expr) (index : Nat) (position : List Nat)
    (replacement : Expr)
    : (e.replaceAt (index :: position) replacement).children
      = e.children.modify index fun c => c.replaceAt position replacement := by
  rcases e with ⟨usage, body⟩
  rw [replaceAt]
  exact Body.children_modifyChild body index fun c => c.replaceAt position replacement

/-- The replacement stands at its position, by induction on the position. -/
theorem subtreeAt?_replaceAt {position : List Nat} {e replaced replacement : Expr}
    (h : e.subtreeAt? position = some replaced)
    : (e.replaceAt position replacement).subtreeAt? position = some replacement := by
  induction position generalizing e with
  | nil => rfl
  | cons index position ih =>
      obtain ⟨c, hc, h⟩ := Option.bind_eq_some_iff.mp h
      simp [subtreeAt?, children_replaceAt_cons, hc, ih h]

/-- Whatever a pass computes for a tree, it computes for the tree with a subtree replaced by one of
the same result; by induction on the position.
-/
theorem fold_replaceAt {α : Type} [Inhabited α] {step : TypeUsage → Body α → α}
    {position : List Nat} {e replaced replacement : Expr}
    (hposition : e.subtreeAt? position = some replaced)
    (hsame : fold step replacement = fold step replaced)
    : fold step (e.replaceAt position replacement) = fold step e := by
  induction position generalizing e with
  | nil =>
      obtain rfl := Option.some.inj hposition
      exact hsame
  | cons index position ih =>
      rcases e with ⟨usage, body⟩
      obtain ⟨c, hc, hbelow⟩ := Option.bind_eq_some_iff.mp hposition
      have hc : body.children[index]? = some c := hc
      rw [replaceAt, fold_node, fold_node]
      congr 1
      refine Body.map_eq_map_of_shape_eq (Body.shape_modifyChild ..) ?_
      rw [Body.children_modifyChild]
      apply List.ext_getElem?
      intro i
      rw [List.getElem?_map, List.getElem?_map, List.getElem?_modify]
      by_cases hi : index = i
      · subst hi
        simp [hc, ih hbelow]
      · simp [hi]

end QueryKey.Expr
