import QueryKey.Expr.Builder
import QueryKey.Proofs.Key.Readability

/-! Keys are unambiguous: two clean trees have one key if and only if they have one outline. -/

namespace QueryKey.Key

open QueryKey.Expr QueryKey.Metadata QueryKey.Text

namespace Reader

-----------------------------------------------------------------------------------------
-- Properties
-----------------------------------------------------------------------------------------

/-- What stands behind a subject of which a property is read. -/
def propertyPieces (name : String) : List (Piece Expr) :=
  [.kind .property, .raw name]

def propertyName : Fragment String :=
  .skip ("[" ++ NodeKind.property.token ++ "]") (.raw true)

/-- The outline of a property of a subject. -/
def propertyOf (subject : Outline) (name : String) : Outline :=
  .node (Layout.plain (.property () name)) [subject]

theorem propertyName_reads {name : String} (h : isClean name = true)
    : ReadsBefore Follows propertyName (propertyPieces name) name :=
  (ReadsBefore.raw (.name h) fun _ hrest => hrest.takeIdentity).skip _

theorem follows_propertyPieces (name : String) (rest : List Char)
    : Follows (spell (propertyPieces name) ++ rest) := by
  have htext : spell (propertyPieces name) ++ rest
      = '[' :: '.' :: ']' :: (name.toList ++ rest) := by
    simp [propertyPieces, Piece.kind, Piece.text, NodeKind.token, NodeKind.symbol?]
  rw [htext]
  exact .property _

/-- The expression is the root with the properties behind it; the root is no property. -/
structure Spine (e root : Expr) (names : List String) : Prop where
  text : (written e).toList = (written root).toList ++ spell (names.flatMap propertyPieces)
  outline : e.outline = names.foldl propertyOf root.outline
  nodes : ∀ n ∈ root.nodes, n ∈ e.nodes
  length : root.nodes.length ≤ e.nodes.length
  clean : ∀ name ∈ names, isClean name = true
  root : ∀ subject name, root.body ≠ .property subject name

/-- Every expression has its spine, by induction on it. -/
theorem exists_spine {e : Expr} (h : e.IsLegible) : ∃ root names, Spine e root names := by
  induction e using Expr.induction with
  | step usage body ih =>
      by_cases hproperty : ∃ subject name, body = .property subject name
      · obtain ⟨subject, name, rfl⟩ := hproperty
        have hsubject : subject ∈ (Body.property subject name).children := List.mem_singleton_self _
        obtain ⟨root, names, spine⟩ := ih subject hsubject
          fun n hn => h n (mem_nodes_of_mem_children hsubject hn)
        have hclean : isClean name = true := (h _ (mem_nodes_self _)).2
        refine ⟨root, names ++ [name], ?_, ?_, ?_, ?_, ?_, spine.root⟩
        · rw [written_node rfl, spell_eq]
          simp [spine.text, propertyPieces, Piece.text]
        · rw [outline_node, List.foldl_append, ← spine.outline]
          rfl
        · exact fun n hn => mem_nodes_of_mem_children hsubject (spine.nodes n hn)
        · exact Nat.le_of_lt (Nat.lt_of_le_of_lt spine.length (length_nodes_lt hsubject))
        · simpa [or_imp, forall_and] using ⟨spine.clean, hclean⟩
      · refine ⟨.node usage body, [], by simp, rfl, fun _ => id, Nat.le_refl _, by simp, ?_⟩
        exact fun subject name heq => hproperty ⟨subject, name, heq⟩

-----------------------------------------------------------------------------------------
-- Expressions
-----------------------------------------------------------------------------------------

/-- An expression with no more than so many nodes below one another. -/
def expression : Nat → Scan Outline
  | 0 => fun _ => none
  | depth + 1 => fun text => do
      let ((entry, operands), text) ← node (expression depth) text
      let ((names, _), text) ← Fragment.many propertyName text
      return (names.foldl propertyOf (.node entry operands), text)

/-- No expression starts with a parenthesis that closes. -/
theorem expression_parenthesis (depth : Nat) (rest : List Char)
    : expression depth (')' :: rest) = none := by
  cases depth <;> rfl

/-- Legible expressions are read back to their outlines, by induction on the depth. -/
theorem expression_reads {e : Expr} {depth : Nat} (hlegible : e.IsLegible) (hflat : e.IsFlat)
    (ht : ∀ n ∈ e.nodes, ∃ pieces, template n.usage n.body = .ok pieces)
    (hdepth : e.nodes.length ≤ depth)
    : ReadsOperand (expression depth) e := by
  induction depth generalizing e with
  | zero =>
      rw [nodes_eq] at hdepth
      cases hdepth
  | succ depth ih =>
      obtain ⟨⟨usage, body⟩, names, spine⟩ := exists_spine hlegible
      have hroot := spine.nodes _ (mem_nodes_self _)
      obtain ⟨husage, hbody⟩ := hlegible _ hroot
      obtain ⟨pieces, hpieces⟩ : ∃ pieces, template usage body = .ok pieces := ht _ hroot
      have hoperand (c) (hc : c ∈ body.children) : ReadsOperand (expression depth) c := by
        have hnodes (n) (hn : n ∈ c.nodes) : n ∈ e.nodes :=
          spine.nodes n (mem_nodes_of_mem_children hc hn)
        have hlength := length_nodes_lt (e := .node usage body) hc
        have hspine := spine.length
        exact ih (fun n hn => hlegible n (hnodes n hn)) (fun n hn => hflat n (hnodes n hn))
          (fun n hn => ht n (hnodes n hn)) (by omega)
      have hnode := node_reads hpieces husage hbody (hflat _ hroot) spine.root hoperand
        (expression_parenthesis depth)
      have hnames : ReadsBefore Closes (.many propertyName) (names.flatMap propertyPieces)
          (names.map id) :=
        .many (fun name h => propertyName_reads (spine.clean name h))
          (fun name _ rest => follows_propertyPieces name rest)
          fun rest hrest => ⟨.operand hrest, skip_eq_none (c := '[') (by decide) hrest.head?_ne.1⟩
      intro rest hrest
      have hfollows : Follows (spell (names.flatMap propertyPieces) ++ rest) := by
        cases names with
        | nil => exact .operand hrest
        | cons name more =>
            simpa using follows_propertyPieces name (spell (more.flatMap propertyPieces) ++ rest)
      have hread := hnode _ hfollows
      rw [← spell_eq, ← written_node hpieces] at hread
      rw [spine.text, List.append_assoc, spine.outline, outline_node]
      simp only [expression, hread, hnames rest hrest, Option.bind_eq_bind, Option.bind_some,
        List.map_id, outlines, operands_template hpieces]
      rfl

end Reader

open Reader

/-- Legible trees with one text have one outline. -/
theorem outline_eq_of_legible {a b : Expr} (ha : a.IsLegible) (hb : b.IsLegible)
    (hfa : a.IsFlat) (hfb : b.IsFlat)
    (hta : ∀ n ∈ a.nodes, ∃ pieces, template n.usage n.body = .ok pieces)
    (htb : ∀ n ∈ b.nodes, ∃ pieces, template n.usage n.body = .ok pieces)
    (h : written a = written b)
    : a.outline = b.outline := by
  have hreada := expression_reads ha hfa hta (Nat.le_add_right _ b.nodes.length) [] .nil
  have hreadb := expression_reads hb hfb htb (Nat.le_add_left _ a.nodes.length) [] .nil
  rw [h, hreadb] at hreada
  simpa using hreada.symm

/-- Clean trees with one text have one outline. -/
theorem outline_eq_of_written_eq {a b : Expr} (ha : a.IsClean) (hb : b.IsClean)
    (hta : ∀ n ∈ a.nodes, ∃ pieces, template n.usage n.body = .ok pieces)
    (htb : ∀ n ∈ b.nodes, ∃ pieces, template n.usage n.body = .ok pieces)
    (h : written a = written b)
    : a.outline = b.outline :=
  outline_eq_of_legible ha.isLegible hb.isLegible ha.isFlat hb.isFlat hta htb h

/-- Clean trees have one key, whatever the settings, if and only if they have one outline. -/
theorem generate_injective_on_clean {s t : Settings} {a b : Expr} {k l : CacheKey}
    (ha : a.IsClean) (hb : b.IsClean) (hk : generate s a = .ok k) (hl : generate t b = .ok l)
    : k = l ↔ a.outline = b.outline := by
  obtain ⟨hfa, rfl⟩ := generate_eq_ok_iff.mp hk
  obtain ⟨hfb, rfl⟩ := generate_eq_ok_iff.mp hl
  have hta := exists_template_of_failure? hfa
  have htb := exists_template_of_failure? hfb
  constructor
  · intro h
    exact outline_eq_of_written_eq ha hb hta htb (CacheKey.mk.inj h)
  · intro h
    rw [written_eq_of_outline_eq hta htb h]

/-- Two trees with the same operands; in one a negation is subtracted from, in the other a
difference is negated.
-/
def negations : Expr × Expr :=
  let x := Expr.parameter "x" (.primitive .int32)
  let y := Expr.parameter "y" (.primitive .int32)
  (.arithmetic (.negate x) .minus y, .negate (.arithmetic x .minus y))

/-- The mark that the two share does not make their keys one. -/
theorem generate_injective_on_negations
    : generate {} negations.1 = .ok ⟨"[-]([-](@x:Edm.Int32))(@y:Edm.Int32)"⟩
      ∧ generate {} negations.2 = .ok ⟨"[-]([-](@x:Edm.Int32)(@y:Edm.Int32))"⟩
      ∧ negations.1.outline ≠ negations.2.outline := by
  have hfirst : generate {} negations.1 = .ok ⟨"[-]([-](@x:Edm.Int32))(@y:Edm.Int32)"⟩ := by
    decide +kernel
  have hsecond : generate {} negations.2 = .ok ⟨"[-]([-](@x:Edm.Int32)(@y:Edm.Int32))"⟩ := by
    decide +kernel
  have husage : (TypeUsage.primitive .int32).Built := .ofType (.primitive .int32)
  have hparameter {name : String} (h : isClean name = true)
      : (parameter name (.primitive .int32)).IsClean :=
    isClean_node.mpr ⟨husage, h, by simp [Body.children]⟩
  have harithmetic (op : ArithmeticOp) {arguments : List Expr} (h : ∀ e ∈ arguments, e.IsClean)
      : (node (.primitive .int32) (.arithmetic op arguments)).IsClean :=
    isClean_node.mpr ⟨husage, trivial, h⟩
  have hx := hparameter (by decide : isClean "x" = true)
  have hy := hparameter (by decide : isClean "y" = true)
  have hnegated := harithmetic .unaryMinus (List.forall_mem_singleton.mpr hx)
  have hdifference := harithmetic .minus
    (List.forall_mem_cons.mpr ⟨hx, List.forall_mem_singleton.mpr hy⟩)
  have hfirstClean : negations.1.IsClean :=
    harithmetic .minus (List.forall_mem_cons.mpr ⟨hnegated, List.forall_mem_singleton.mpr hy⟩)
  have hsecondClean : negations.2.IsClean :=
    harithmetic .unaryMinus (List.forall_mem_singleton.mpr hdifference)
  have hiff := generate_injective_on_clean hfirstClean hsecondClean hfirst hsecond
  exact ⟨hfirst, hsecond, fun h => absurd (hiff.mpr h) (by decide)⟩

end QueryKey.Key
