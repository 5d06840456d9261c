import QueryKey.Expr.Basic

/-! Walks over a tree. The size and the height are defined by recursion on the tree; the walks
keep a stack of pending nodes instead, and end because every step takes a node off the trees
that are pending. Where the order does not matter, operands are pushed one after the other, so
that the last one is visited first.
-/

namespace QueryKey.Expr

open QueryKey.Metadata

/-- The number of nodes. -/
def size : Expr → Nat :=
  fold fun _ body => body.children.foldr (· + ·) 0 + 1

/-- The number of nodes in all the trees. -/
def forestSize : List Expr → Nat
  | [] => 0
  | e :: rest => e.size + forestSize rest

/-- The length of the longest path from the root to a leaf. -/
def height : Expr → Nat :=
  fold fun _ body => body.children.foldr max 0 + 1

theorem foldr_map_size (es : List Expr) : (es.map size).foldr (· + ·) 0 = forestSize es := by
  induction es with
  | nil => rfl
  | cons e rest ih => simp only [List.map_cons, List.foldr_cons, ih, forestSize]

theorem size_node (usage : TypeUsage) (body : Body Expr)
    : size (.node usage body) = forestSize body.children + 1 := by
  rw [← foldr_map_size]
  simp only [size, fold_node, Body.children_map]

theorem height_node (usage : TypeUsage) (body : Body Expr)
    : height (.node usage body) = (body.children.map height).foldr max 0 + 1 := by
  simp only [height, fold_node, Body.children_map]

theorem size_eq (e : Expr) : e.size = forestSize e.children + 1 := by
  cases e
  exact size_node ..

theorem forestSize_append (front back : List Expr)
    : forestSize (front ++ back) = forestSize front + forestSize back := by
  induction front with
  | nil => simp [forestSize]
  | cons e rest ih => simp only [List.cons_append, forestSize, ih]; omega

theorem forestSize_reverse (es : List Expr) : forestSize es.reverse = forestSize es := by
  induction es with
  | nil => rfl
  | cons e rest ih =>
      rw [List.reverse_cons, forestSize_append, ih]
      simp only [forestSize]
      omega

theorem size_le_forestSize_of_mem {c : Expr} {es : List Expr} (h : c ∈ es)
    : c.size ≤ forestSize es := by
  induction es with
  | nil => cases h
  | cons e rest ih =>
      rw [forestSize]
      cases h with
      | head => omega
      | tail _ h =>
          have := ih h
          omega

/-- An operand is smaller than its node. -/
theorem size_lt_of_mem {c e : Expr} (h : c ∈ e.children) : c.size < e.size := by
  have := size_le_forestSize_of_mem h
  rw [size_eq e]
  omega

/-- Induction over a tree, a property passing from the operands to the node. -/
theorem induction {P : Expr → Prop}
    (step : ∀ usage body, (∀ c ∈ body.children, P c) → P (.node usage body)) (e : Expr)
    : P e := by
  cases e with
  | node usage body =>
      exact step usage body fun c hc =>
        have := size_lt_of_mem (e := .node usage body) hc
        induction step c
termination_by e.size

/-- A step of a walk: the operands of a tree take its place. -/
theorem forestSize_step {α : Type} (tree : α → Expr) {a : α} {operands : List α} (rest : List α)
    (h : operands.map tree = (tree a).children)
    : forestSize ((operands ++ rest).map tree) < forestSize ((a :: rest).map tree) := by
  rw [List.map_append, h, forestSize_append, List.map_cons, forestSize, size_eq (tree a)]
  omega

/-- A step that pushes the operands one after the other. -/
theorem forestSize_step_reverse {α : Type} (tree : α → Expr) {a : α} {operands : List α}
    (rest : List α) (h : operands.map tree = (tree a).children)
    : forestSize ((operands.reverse ++ rest).map tree) < forestSize ((a :: rest).map tree) := by
  have hstep := forestSize_step tree rest h
  rw [List.map_append, forestSize_append] at hstep ⊢
  rwa [List.map_reverse, forestSize_reverse]

/-- Counts the nodes of the pending trees. -/
def countNodes (pending : List Expr) (count : Nat) : Nat :=
  match pending with
  | [] => count
  | e :: rest => countNodes (e.children.reverse ++ rest) (count + 1)
termination_by forestSize (pending.map id)
decreasing_by
  exact forestSize_step_reverse id rest (List.map_id _)

/-- The number of nodes, counted with a stack. -/
def nodeCount (e : Expr) : Nat :=
  countNodes [e] 0

/-- The operands of `e`, each one level below it. -/
def childrenBelow (e : Expr) (level : Nat) : List (Expr × Nat) :=
  e.children.map fun c => (c, level + 1)

theorem map_fst_childrenBelow (e : Expr) (level : Nat)
    : (e.childrenBelow level).map Prod.fst = e.children := by
  simp [childrenBelow, Function.comp_def]

/-- The greatest level of the nodes of the pending trees, whose roots have the given levels. -/
def deepest (pending : List (Expr × Nat)) (greatest : Nat) : Nat :=
  match pending with
  | [] => greatest
  | (e, level) :: rest => deepest ((e.childrenBelow level).reverse ++ rest) (max greatest level)
termination_by forestSize (pending.map Prod.fst)
decreasing_by
  exact forestSize_step_reverse Prod.fst rest (map_fst_childrenBelow e level)

/-- The length of the longest path from the root to a leaf, found with a stack. -/
def depth (e : Expr) : Nat :=
  deepest [(e, 1)] 0

/-- The path of the operand at `index`: the path of its node, the index and its own label. -/
def childPath (path : String) (index : Nat) (c : Expr) : String :=
  path ++ "/" ++ toString index ++ ":" ++ c.label

/-- The operands of `e` with their paths. -/
def childrenWithPaths (e : Expr) (path : String) : List (Expr × String) :=
  e.children.zipIdx.map fun (c, index) => (c, childPath path index c)

theorem map_fst_childrenWithPaths (e : Expr) (path : String)
    : (e.childrenWithPaths path).map Prod.fst = e.children := by
  simp only [childrenWithPaths, List.map_map, Function.comp_def]
  exact List.zipIdx_map_fst 0 e.children

/-- Visits the nodes of the pending trees with their paths, a node before its operands. -/
def visitNodes {σ : Type} (visit : σ → Expr → String → σ) (pending : List (Expr × String))
    (state : σ)
    : σ :=
  match pending with
  | [] => state
  | (e, path) :: rest =>
      visitNodes visit (e.childrenWithPaths path ++ rest) (visit state e path)
termination_by forestSize (pending.map Prod.fst)
decreasing_by
  exact forestSize_step Prod.fst rest (map_fst_childrenWithPaths e path)

/-- Visits every node with its path; the root's path is its label. -/
def forEachNode {σ : Type} (visit : σ → Expr → String → σ) (e : Expr) (state : σ) : σ :=
  visitNodes visit [(e, e.label)] state

/-- The nodes with their paths, in the order of the visit. -/
def walk (e : Expr) : List (Expr × String) :=
  (e.forEachNode (fun visited node path => visited.push (node, path)) #[]).toList

/-- The nodes of a tree with their paths, by recursion on the tree: the root, then the nodes of
each operand. The tree itself is rebuilt beside its list.
-/
def preorder (e : Expr) (path : String) : List (Expr × String) :=
  (e.fold fun usage (body : Body (Expr × (String → List (Expr × String)))) =>
    let self := node usage (body.map Prod.fst)
    (self, fun path =>
      (self, path) :: body.children.zipIdx.flatMap fun ((c, nodes), index) =>
        nodes (childPath path index c))).2 path

end QueryKey.Expr
