import Mathlib.Data.List.Nodup
import QueryKey.Expr.Builder
import QueryKey.Proofs.Expr.Position
import QueryKey.Proofs.Text.Digits
import QueryKey.Proofs.Validation.Findings

/-! Paths tell the nodes of a tree apart, whatever labels the nodes have. Where two positions part,
their paths go on with different indices, and the colon behind an index is no digit; what the labels
look like behind it does not matter any more.
-/

namespace QueryKey.Expr

open QueryKey.Text

-----------------------------------------------------------------------------------------
-- Paths of positions
-----------------------------------------------------------------------------------------

/-- The path of the node at a position below a tree with the given path. -/
def pathBelow? : List Nat → Expr → String → Option String
  | [], _, path => some path
  | index :: position, e, path =>
      e.children[index]?.bind fun c => pathBelow? position c (childPath path index c)

/-- The path of the node at a position, if the tree has the position. -/
def pathAt? (e : Expr) (position : List Nat) : Option String :=
  pathBelow? position e e.label

/-- Numbers in front of colons are equal if the texts are. -/
theorem eq_of_toDigits_colon {i j : Nat} {front back : List Char}
    (h : Nat.toDigits 10 i ++ ':' :: front = Nat.toDigits 10 j ++ ':' :: back)
    : i = j := by
  have htake (n : Nat) (rest : List Char)
      : (Nat.toDigits 10 n ++ ':' :: rest).takeWhile isDigit = Nat.toDigits 10 n := by
    rw [List.takeWhile_append_of_pos fun _ => isDigit_of_mem_toDigits,
      List.takeWhile_cons_of_neg (by decide), List.append_nil]
  have hdigits : Nat.toDigits 10 i = Nat.toDigits 10 j := by
    rw [← htake i front, h, htake j back]
  rw [← extend_zero_toDigits i, hdigits, extend_zero_toDigits j]

theorem toList_childPath (path : String) (index : Nat) (c : Expr)
    : (childPath path index c).toList
      = path.toList ++ '/' :: (Nat.toDigits 10 index ++ ':' :: c.label.toList) := by
  have hslash : "/".toList = ['/'] := rfl
  have hcolon : ":".toList = [':'] := rfl
  simp [childPath, hslash, hcolon]

/-- Paths that go on from different children of one node are different. -/
theorem eq_of_childPath_append {path front back : String} {i j : Nat} {c d : Expr}
    (h : childPath path i c ++ front = childPath path j d ++ back)
    : i = j := by
  have hlist := congrArg String.toList h
  simp only [String.toList_append, toList_childPath, List.append_assoc, List.cons_append] at hlist
  exact eq_of_toDigits_colon (List.cons.inj (List.append_cancel_left hlist)).2

/-- A path that goes on from a child is not that of the node. -/
theorem childPath_append_ne (path back : String) (index : Nat) (c : Expr)
    : childPath path index c ++ back ≠ path := by
  intro h
  have hlength := congrArg (List.length ∘ String.toList) h
  simp [toList_childPath] at hlength

/-- Every position of a tree has a path, by induction on the position. -/
theorem isSome_pathBelow? (position : List Nat) (e : Expr) (path : String)
    : (pathBelow? position e path).isSome = (e.subtreeAt? position).isSome := by
  induction position generalizing e path with
  | nil => rfl
  | cons index position ih =>
      rw [pathBelow?, subtreeAt?]
      cases e.children[index]? with
      | none => rfl
      | some c => exact ih c (childPath path index c)

/-- The path of a position goes on from that of the tree, by induction on the position. -/
theorem exists_eq_append_of_pathBelow? {position : List Nat} {e : Expr} {path found : String}
    (h : pathBelow? position e path = some found)
    : ∃ back, found = path ++ back := by
  induction position generalizing e path with
  | nil => exact ⟨"", by rw [← Option.some.inj h, String.append_empty]⟩
  | cons index position ih =>
      obtain ⟨c, -, hc⟩ := Option.bind_eq_some_iff.mp h
      obtain ⟨back, rfl⟩ := ih hc
      simp only [childPath, String.append_assoc]
      exact ⟨_, rfl⟩

/-- Positions of one path are the same: they can neither end nor part before one another. By
induction on the first.
-/
theorem eq_of_pathBelow? {position other : List Nat} {e : Expr} {path found : String}
    (h : pathBelow? position e path = some found) (hother : pathBelow? other e path = some found)
    : position = other := by
  induction position generalizing other e path with
  | nil =>
      cases other with
      | nil => rfl
      | cons index other =>
          obtain ⟨c, -, hc⟩ := Option.bind_eq_some_iff.mp hother
          obtain ⟨back, hback⟩ := exists_eq_append_of_pathBelow? hc
          exact absurd (hback.symm.trans (Option.some.inj h).symm)
            (childPath_append_ne path back index c)
  | cons index position ih =>
      obtain ⟨c, hc, hbelow⟩ := Option.bind_eq_some_iff.mp h
      obtain ⟨back, hback⟩ := exists_eq_append_of_pathBelow? hbelow
      cases other with
      | nil =>
          exact absurd (hback.symm.trans (Option.some.inj hother).symm)
            (childPath_append_ne path back index c)
      | cons second other =>
          obtain ⟨d, hd, hbeside⟩ := Option.bind_eq_some_iff.mp hother
          obtain ⟨more, hmore⟩ := exists_eq_append_of_pathBelow? hbeside
          obtain rfl : index = second := eq_of_childPath_append (hback.symm.trans hmore)
          obtain rfl : c = d := Option.some.inj (hc.symm.trans hd)
          rw [ih hbelow hbeside]

-----------------------------------------------------------------------------------------
-- Paths of a visit
-----------------------------------------------------------------------------------------

/-- A visit meets the nodes at the positions of the tree, each with its path; by induction on the
tree.
-/
theorem mem_preorder_iff {e : Expr} {path : String} {p : Expr × String}
    : p ∈ e.preorder path
      ↔ ∃ position, e.subtreeAt? position = some p.1
          ∧ pathBelow? position e path = some p.2 := by
  induction e using Expr.induction generalizing path with
  | step usage body ih =>
      rw [preorder_eq, childrenWithPaths, List.flatMap_map, List.mem_cons, List.mem_flatMap]
      constructor
      · rintro (rfl | ⟨⟨c, index⟩, hc, hp⟩)
        · exact ⟨[], rfl, rfl⟩
        · obtain ⟨position, hnode, hpath⟩ := (ih c (List.fst_mem_of_mem_zipIdx hc)).mp hp
          have hindex := List.mem_zipIdx_iff_getElem?.mp hc
          exact ⟨index :: position, Option.bind_eq_some_iff.mpr ⟨c, hindex, hnode⟩,
            Option.bind_eq_some_iff.mpr ⟨c, hindex, hpath⟩⟩
      · rintro ⟨position, hnode, hpath⟩
        cases position with
        | nil => exact .inl (Prod.ext (Option.some.inj hnode).symm (Option.some.inj hpath).symm)
        | cons index position =>
            obtain ⟨c, hindex, hnode⟩ := Option.bind_eq_some_iff.mp hnode
            obtain ⟨d, hsame, hpath⟩ := Option.bind_eq_some_iff.mp hpath
            obtain rfl : c = d := Option.some.inj (hindex.symm.trans hsame)
            exact .inr ⟨(c, index), List.mem_zipIdx_iff_getElem?.mpr hindex,
              (ih c (List.mem_of_getElem? hindex)).mpr ⟨position, hnode, hpath⟩⟩

theorem exists_eq_append_of_mem_preorder {e : Expr} {path found : String}
    (h : found ∈ (e.preorder path).map Prod.snd)
    : ∃ back, found = path ++ back := by
  obtain ⟨p, hp, rfl⟩ := List.mem_map.mp h
  obtain ⟨position, -, hpath⟩ := mem_preorder_iff.mp hp
  exact exists_eq_append_of_pathBelow? hpath

/-- A visit hands out every path once, by induction on the tree. -/
theorem nodup_paths (e : Expr) (path : String) : ((e.preorder path).map Prod.snd).Nodup := by
  induction e using Expr.induction generalizing path with
  | step usage body ih =>
      rw [preorder_eq, childrenWithPaths, List.flatMap_map, List.map_cons, List.map_flatMap,
        List.nodup_cons, List.nodup_flatMap]
      refine ⟨?root, ?inside, ?beside⟩
      case root =>
        intro hmem
        obtain ⟨⟨c, index⟩, -, hpath⟩ := List.mem_flatMap.mp hmem
        obtain ⟨back, hback⟩ := exists_eq_append_of_mem_preorder hpath
        exact childPath_append_ne path back index c hback.symm
      case inside =>
        rintro ⟨c, index⟩ hc
        exact ih c (List.fst_mem_of_mem_zipIdx hc) (childPath path index c)
      case beside =>
        have hindices : ((node usage body).children.zipIdx.map Prod.snd).Nodup := by
          rw [List.zipIdx_map_snd]
          exact List.nodup_range'
        refine (List.pairwise_map.mp hindices).imp ?_
        rintro ⟨c, i⟩ ⟨d, j⟩ hne found hfront hback
        obtain ⟨front, rfl⟩ := exists_eq_append_of_mem_preorder hfront
        obtain ⟨back, hback⟩ := exists_eq_append_of_mem_preorder hback
        exact hne (eq_of_childPath_append hback)

end QueryKey.Expr

namespace QueryKey.Validation

open QueryKey.Expr

/-- Paths of a walk are those of positions. -/
theorem exists_position_of_mem_walk {t e : Expr} {path : String} (h : (e, path) ∈ t.walk)
    : ∃! position, t.pathAt? position = some path := by
  rw [walk_eq_preorder] at h
  obtain ⟨position, -, hpath⟩ := mem_preorder_iff.mp h
  exact ⟨position, hpath, fun _ hother => eq_of_pathBelow? hother hpath⟩

/-- Every position of a tree has a path, which is that of no other position. A walk visits the nodes
at all positions and hands out these paths, each of them once; so a path in a report points at one
position.
-/
theorem path_points_at_one_node (t : Expr)
    : (∀ position, (t.pathAt? position).isSome = (t.subtreeAt? position).isSome)
      ∧ (∀ position other path,
          t.pathAt? position = some path → t.pathAt? other = some path → position = other)
      ∧ (∀ node path, (node, path) ∈ t.walk
          ↔ ∃ position, t.subtreeAt? position = some node ∧ t.pathAt? position = some path)
      ∧ (t.walk.map Prod.snd).Nodup
      ∧ ∀ rules : List Rule,
          (∀ found ∈ (validate rules t).errors,
            ∃! position, t.pathAt? position = some found.path)
          ∧ ∀ found ∈ (validate rules t).warnings,
              ∃! position, t.pathAt? position = some found.path := by
  refine ⟨?all, ?apart, ?visited, ?once, fun rules => ⟨?errors, ?warnings⟩⟩
  case all =>
    intro position
    exact isSome_pathBelow? position t t.label
  case apart =>
    intro position other path h hother
    exact eq_of_pathBelow? h hother
  case visited =>
    intro node path
    rw [walk_eq_preorder]
    exact mem_preorder_iff
  case once =>
    rw [walk_eq_preorder]
    exact nodup_paths t t.label
  case errors =>
    intro found hfound
    obtain ⟨rule, -, e, he, -⟩ := mem_errors_validate.mp hfound
    exact exists_position_of_mem_walk he
  case warnings =>
    intro found hfound
    obtain ⟨rule, -, e, he, -⟩ := mem_warnings_validate.mp hfound
    exact exists_position_of_mem_walk he

/-- A provider's node over two others, one of which is called as if it were the other and its
operand.
-/
def mergedPlans : Expr :=
  let step (name : String) (arguments : List Expr) := extension name .boolean arguments
  step "merge"
    [step "scan)/0:Extension(sort" [null .boolean], step "scan" [step "sort" [null .boolean]]]

/-- The node with the misleading name is warned about at a path that no other node has, although it
reads like that of an operand's operand.
-/
theorem path_of_mergedPlans
    : ⟨.extensionNode, "Provider-specific node 'scan)/0:Extension(sort' cannot be keyed",
          "Extension(merge)/0:Extension(scan)/0:Extension(sort)"⟩
        ∈ (validate [.arity] mergedPlans).warnings
      ∧ mergedPlans.pathAt? [0] = some "Extension(merge)/0:Extension(scan)/0:Extension(sort)"
      ∧ mergedPlans.pathAt? [1, 0] = some "Extension(merge)/1:Extension(scan)/0:Extension(sort)"
      ∧ ∃! position, mergedPlans.pathAt? position
          = some "Extension(merge)/0:Extension(scan)/0:Extension(sort)" := by
  have hwarning
      : ⟨.extensionNode, "Provider-specific node 'scan)/0:Extension(sort' cannot be keyed",
            "Extension(merge)/0:Extension(scan)/0:Extension(sort)"⟩
          ∈ (validate [.arity] mergedPlans).warnings := by
    decide +kernel
  obtain ⟨-, -, -, -, hreports⟩ := path_points_at_one_node mergedPlans
  exact ⟨hwarning, by decide +kernel, by decide +kernel, (hreports [.arity]).2 _ hwarning⟩

end QueryKey.Validation
