import QueryKey.Proofs.Expr.Body

/-! The children of a node with their indices. A node is its operation and its children: nothing
else of it is left if both are known.
-/

namespace QueryKey.Expr

variable {ε δ γ : Type}

-----------------------------------------------------------------------------------------
-- Indices
-----------------------------------------------------------------------------------------

/-- Items with one operand each, which is numbered like the item. -/
def indexedItems {α β : Type} (number : (ε → ε × Nat) → α → β) (start : Nat) (items : List α)
    : List β :=
  (items.zipIdx start).map fun (a, index) => number (fun e => (e, index)) a

def indexedArms (start : Nat) : List (Arm ε) → List (Arm (ε × Nat))
  | [] => []
  | arm :: rest =>
      ⟨(arm.condition, start), (arm.result, start + 1)⟩ :: indexedArms (start + 2) rest

def Aggregate.indexed (start : Nat) : Aggregate ε → Aggregate (ε × Nat)
  | function g distinct arguments => .function g distinct (arguments.zipIdx start)
  | group argument => .group (argument, start)

def indexedAggregates (start : Nat) : List (Aggregate ε) → List (Aggregate (ε × Nat))
  | [] => []
  | a :: rest => a.indexed start :: indexedAggregates (start + a.operands.length) rest

/-- The operation over its operands with their indices among the children. -/
def Body.indexed : Body ε → Body (ε × Nat)
  | constant value => .constant value
  | null => .null
  | variableRef name => .variableRef name
  | parameter name => .parameter name
  | scan target => .scan target
  | call function arguments => .call function arguments.zipIdx
  | lambda formals body arguments => .lambda formals (body, arguments.length) arguments.zipIdx
  | property subject name => .property (subject, 0) name
  | comparison op left right => .comparison op (left, 0) (right, 1)
  | like argument pattern escape => .like (argument, 0) (pattern, 1) (escape.map (·, 2))
  | arithmetic op arguments => .arithmetic op arguments.zipIdx
  | unary op argument => .unary op (argument, 0)
  | binary op left right => .binary op (left, 0) (right, 1)
  | inList item list => .inList (item, 0) (list.zipIdx 1)
  | case arms otherwise => .case (indexedArms 0 arms) (otherwise, 2 * arms.length)
  | convert op argument => .convert op (argument, 0)
  | typeTest op argument tested only => .typeTest op (argument, 0) tested only
  | newInstance arguments related =>
      .newInstance arguments.zipIdx (indexedItems RelatedRef.map arguments.length related)
  | ref set argument => .ref set (argument, 0)
  | navigate source start target => .navigate (source, 0) start target
  | limit argument count withTies => .limit (argument, 0) (count, 1) withTies
  | filter input predicate => .filter (input.map (·, 0)) (predicate, 1)
  | project input projection => .project (input.map (·, 0)) (projection, 1)
  | quantify quantifier input predicate =>
      .quantify quantifier (input.map (·, 0)) (predicate, 1)
  | crossJoin inputs => .crossJoin (indexedItems Binding.map 0 inputs)
  | join kind left right condition =>
      .join kind (left.map (·, 0)) (right.map (·, 1)) (condition, 2)
  | apply kind input applied => .apply kind (input.map (·, 0)) (applied.map (·, 1))
  | groupBy input keys aggregates =>
      .groupBy (input.map (·, 0)) (keys.zipIdx 1) (indexedAggregates (keys.length + 1) aggregates)
  | skip input order count =>
      .skip (input.map (·, 0)) (indexedItems SortClause.map 1 order) (count, order.length + 1)
  | sort input order => .sort (input.map (·, 0)) (indexedItems SortClause.map 1 order)
  | extension name arguments => .extension name arguments.zipIdx

-----------------------------------------------------------------------------------------
-- The parts of a node with indices
-----------------------------------------------------------------------------------------

theorem operands_indexedItems {α β : Type} (number : (ε → ε × Nat) → α → β) (operand : α → ε)
    (numbered : β → ε × Nat)
    (h : ∀ a index, numbered (number (fun e => (e, index)) a) = (operand a, index)) (start : Nat)
    (items : List α)
    : (indexedItems number start items).map numbered = (items.map operand).zipIdx start := by
  simp only [indexedItems, List.map_map, List.zipIdx_map, Function.comp_def, h]
  rfl

theorem operands_indexedArms (start : Nat) (arms : List (Arm ε))
    : (indexedArms start arms).flatMap (fun arm => [arm.condition, arm.result])
      = (arms.flatMap fun arm => [arm.condition, arm.result]).zipIdx start := by
  induction arms generalizing start with
  | nil => rfl
  | cons arm rest ih =>
      simp only [indexedArms, List.flatMap_cons, ih, List.cons_append, List.nil_append,
        List.zipIdx_cons]

theorem length_operands_arms (arms : List (Arm ε))
    : (arms.flatMap fun arm => [arm.condition, arm.result]).length = 2 * arms.length := by
  induction arms with
  | nil => rfl
  | cons arm rest ih =>
      simp only [List.flatMap_cons, List.length_append, ih, List.length_cons, List.length_nil]
      omega

theorem operands_indexedAggregates (start : Nat) (aggregates : List (Aggregate ε))
    : (indexedAggregates start aggregates).flatMap Aggregate.operands
      = (aggregates.flatMap Aggregate.operands).zipIdx start := by
  induction aggregates generalizing start with
  | nil => rfl
  | cons a rest ih =>
      have ha : (a.indexed start).operands = a.operands.zipIdx start := by cases a <;> rfl
      rw [indexedAggregates, List.flatMap_cons, List.flatMap_cons, ih, ha, List.zipIdx_append]

namespace Body

/-- The children of a node with indices are its children with theirs. -/
theorem children_indexed (b : Body ε) : b.indexed.children = b.children.zipIdx := by
  cases b with
  | like argument pattern escape => cases escape <;> rfl
  | lambda formals body arguments => simp [indexed, children, List.zipIdx_append]
  | case arms otherwise =>
      rw [indexed, children, children, operands_indexedArms, List.zipIdx_append,
        length_operands_arms, Nat.zero_add, List.zipIdx_singleton]
  | newInstance arguments related =>
      rw [indexed, children, children,
        operands_indexedItems _ RelatedRef.reference _ (fun _ _ => rfl), List.zipIdx_append,
        Nat.zero_add]
  | crossJoin inputs => exact operands_indexedItems _ Binding.source _ (fun _ _ => rfl) 0 inputs
  | groupBy input keys aggregates =>
      simp [indexed, children, operands_indexedAggregates, List.zipIdx_append, GroupBinding.map,
        Nat.add_comm]
  | skip input order count =>
      rw [indexed, children, children,
        operands_indexedItems _ SortClause.key _ (fun _ _ => rfl)]
      simp [List.zipIdx_append, Binding.map, Nat.add_comm]
  | sort input order =>
      rw [indexed, children, children,
        operands_indexedItems _ SortClause.key _ (fun _ _ => rfl)]
      rfl
  | _ => rfl

/-- The operation without the indices is the operation. -/
theorem map_fst_indexed (b : Body ε) : b.indexed.map Prod.fst = b := by
  have harms (start : Nat) (arms : List (Arm ε))
      : (indexedArms start arms).map (Arm.map Prod.fst) = arms := by
    induction arms generalizing start with
    | nil => rfl
    | cons arm rest ih => simp [indexedArms, Arm.map, ih]
  have haggregates (start : Nat) (aggregates : List (Aggregate ε))
      : (indexedAggregates start aggregates).map (Aggregate.map Prod.fst) = aggregates := by
    induction aggregates generalizing start with
    | nil => rfl
    | cons a rest ih => cases a <;> simp [indexedAggregates, Aggregate.indexed, Aggregate.map, ih]
  cases b with
  | like argument pattern escape => cases escape <;> rfl
  | _ =>
      simp [indexed, map, Binding.map, GroupBinding.map, RelatedRef.map, SortClause.map,
        harms, haggregates, indexedItems, Function.comp_def]

/-- Replacing operands keeps their indices. -/
theorem indexed_map (f : ε → δ) (b : Body ε)
    : (b.map f).indexed = b.indexed.map (Prod.map f id) := by
  have harms (start : Nat) (arms : List (Arm ε))
      : indexedArms start (arms.map (Arm.map f))
        = (indexedArms start arms).map (Arm.map (Prod.map f id)) := by
    induction arms generalizing start with
    | nil => rfl
    | cons arm rest ih => simp [indexedArms, Arm.map, ih]
  have haggregates (start : Nat) (aggregates : List (Aggregate ε))
      : indexedAggregates start (aggregates.map (Aggregate.map f))
        = (indexedAggregates start aggregates).map (Aggregate.map (Prod.map f id)) := by
    induction aggregates generalizing start with
    | nil => rfl
    | cons a rest ih =>
        cases a <;>
          simp [indexedAggregates, Aggregate.indexed, Aggregate.map, Aggregate.operands, ih,
            List.zipIdx_map]
  cases b with
  | like argument pattern escape => cases escape <;> rfl
  | _ =>
      simp [indexed, map, Binding.map, GroupBinding.map, RelatedRef.map, SortClause.map,
        harms, haggregates, indexedItems, Function.comp_def, List.zipIdx_map]

/-- A node with other operands is made from its operation alone, each operand being found by its
index.
-/
theorem map_eq_map_indexed [Inhabited γ] (f : ε → γ) (b : Body ε)
    : b.map f = b.shape.indexed.map fun p => ((b.children.map f)[p.2]?).getD default := by
  calc b.map f
      = b.indexed.map (f ∘ Prod.fst) := by rw [← map_map, map_fst_indexed]
    _ = b.indexed.map fun p => ((b.children.map f)[p.2]?).getD default := by
        refine map_congr ?_
        rintro ⟨e, index⟩ h
        rw [children_indexed, List.mem_zipIdx_iff_getElem?] at h
        simp [h]
    _ = _ := by
        rw [shape, indexed_map, map_map]
        rfl

/-- A node is its operation and its operands. -/
theorem map_eq_map_of_shape_eq [Inhabited γ] {f : ε → γ} {g : δ → γ} {a : Body ε} {b : Body δ}
    (hshape : a.shape = b.shape) (hchildren : a.children.map f = b.children.map g)
    : a.map f = b.map g := by
  rw [map_eq_map_indexed f, map_eq_map_indexed g, hshape, hchildren]

-----------------------------------------------------------------------------------------
-- Replacing one child
-----------------------------------------------------------------------------------------

/-- The node with the child at the index replaced. -/
def modifyChild (b : Body ε) (index : Nat) (f : ε → ε) : Body ε :=
  b.indexed.map fun p => if p.2 = index then f p.1 else p.1

theorem shape_modifyChild (b : Body ε) (index : Nat) (f : ε → ε)
    : (b.modifyChild index f).shape = b.shape := by
  rw [modifyChild, shape, map_map]
  calc b.indexed.map (fun _ => ())
      = (b.indexed.map Prod.fst).map fun _ => () := (map_map Prod.fst (fun _ => ()) _).symm
    _ = b.shape := by rw [map_fst_indexed, shape]

theorem children_modifyChild (b : Body ε) (index : Nat) (f : ε → ε)
    : (b.modifyChild index f).children = b.children.modify index f := by
  apply List.ext_getElem?
  intro i
  rw [modifyChild, children_map, children_indexed]
  simp [List.getElem?_modify, List.getElem?_zipIdx, Function.comp_def, eq_comm]

end Body

end QueryKey.Expr
