import QueryKey.Document.TreeFile
import QueryKey.Expr.Builder
import QueryKey.Proofs.Document.TypeReadBack
import QueryKey.Proofs.Document.Versions
import QueryKey.Proofs.Expr.Walk

/-! Tree files read back: the file of a tree gives the tree again. -/

namespace QueryKey.Document

open QueryKey.Expr QueryKey.Metadata QueryKey.Text

-----------------------------------------------------------------------------------------
-- Tagged forms
-----------------------------------------------------------------------------------------

theorem NodeForm.ofWord?_word (form : NodeForm)
    : Vocabulary.ofWord? (Vocabulary.word form) = some form := by
  cases form with
  | unary op => cases op <;> decide
  | binary op => cases op <;> decide
  | convert op => cases op <;> decide
  | typeTest op => cases op <;> decide
  | _ => decide

theorem AggregateForm.ofWord?_word (form : AggregateForm)
    : Vocabulary.ofWord? (Vocabulary.word form) = some form := by
  cases form <;> decide

/-- No two members of a form have the same name. -/
theorem NodeForm.nodup_names (form : NodeForm) : (nodeTag :: form.fields.map Field.name).Nodup := by
  cases form <;> simp [NodeForm.fields, nodeTag]

theorem AggregateForm.nodup_names (form : AggregateForm)
    : (aggregateTag :: form.fields.map Field.name).Nodup := by
  cases form <;> simp [AggregateForm.fields, aggregateTag]

/-- The members of a form: its tag, and those of its fields. -/
abbrev taggedMembers {F : Type} [Vocabulary F] (tag : String) (form : F) (fields : List Field)
    (xs : Values Expr fields) : List (String × Json) :=
  (tag, .string (Vocabulary.word form)) :: membersOf fields xs

/-- A form is read from its tag and its fields. -/
theorem readTagged_taggedMembers {F : Type} [Vocabulary F] {α : Type} {tag : String}
    {fields : F → List Field} {make : (f : F) → Values Expr (fields f) → α} {form : F}
    {xs : Values Expr (fields form)}
    (hword : Vocabulary.ofWord? (Vocabulary.word form) = some form)
    (htag : tag ∉ (fields form).map Field.name)
    (hnodup : ((fields form).map Field.name).Nodup) (h : FieldsReadBack (fields form) xs)
    (nested : Bool)
    : readTagged nested tag fields make
        (levelOf (Json.object (taggedMembers tag form (fields form) xs)).arranged)
      = .ok (make form xs) := by
  have hothers : ∀ m ∈ [(tag, Json.string (Vocabulary.word form))],
      m.1 ∉ (fields form).map Field.name :=
    fun m hm => List.mem_singleton.mp hm ▸ htag
  have hmembers : readMembers true (fields form)
      (arrangedParts (taggedMembers tag form (fields form) xs)) = .ok xs :=
    readMembers_of_suppliesAll hnodup
      (suppliesAll_membersOf h hnodup true hothers fun m => by simp)
  have hlookup : (arrangedParts (taggedMembers tag form (fields form) xs)).lookup tag
      = some (partOf (.string (Vocabulary.word form))) := by
    refine lookup_arrangedParts List.mem_cons_self fun other hother => ?_
    rcases List.mem_cons.mp hother with heq | hmem
    · exact (Prod.mk.inj heq).2
    · exact absurd (name_of_mem_membersOf hmem) htag
  rw [levelOf_object, readTagged]
  simp only [hlookup, partOf, formOfTag, formOfWord_word hword, bind, Except.bind, hmembers]
  rfl

theorem isKept_taggedMembers {F : Type} [Vocabulary F] {tag : String} {form : F}
    {fields : List Field} {xs : Values Expr fields} (h : FieldsReadBack fields xs)
    : (Json.object (taggedMembers tag form fields xs)).IsKept :=
  isKept_object.mpr (List.forall_mem_cons.mpr ⟨trivial, isKept_membersOf h⟩)

/-- A node is read back if the fields of its form are. -/
theorem ReadsBack.body {b : Body Expr}
    (h : FieldsReadBack (NodeForm.split b).1.fields (NodeForm.split b).2)
    : ReadsBack .body b := by
  have hwrite : write .body ((Shape.body).map writeExpr b)
      = .object (taggedMembers nodeTag (NodeForm.split b).1 (NodeForm.split b).1.fields
          (NodeForm.split b).2) := by
    rw [Shape.map, write, NodeForm.split_map]
    rfl
  obtain ⟨htag, hnodup⟩ := List.nodup_cons.mp (NodeForm.split b).1.nodup_names
  refine ⟨?_, fun nested => ?_⟩
  · rw [hwrite]
    exact isKept_taggedMembers h
  · rw [hwrite, read_eq_readLevel, readLevel,
      readTagged_taggedMembers (NodeForm.ofWord?_word _) htag hnodup h, NodeForm.make_split]

theorem ReadsBack.aggregate {a : Aggregate Expr}
    (h : FieldsReadBack (AggregateForm.split a).1.fields (AggregateForm.split a).2)
    : ReadsBack .aggregate a := by
  have hwrite : write .aggregate ((Shape.aggregate).map writeExpr a)
      = .object (taggedMembers aggregateTag (AggregateForm.split a).1
          (AggregateForm.split a).1.fields (AggregateForm.split a).2) := by
    rw [Shape.map, write, AggregateForm.split_map]
    rfl
  obtain ⟨htag, hnodup⟩ := List.nodup_cons.mp (AggregateForm.split a).1.nodup_names
  refine ⟨?_, fun nested => ?_⟩
  · rw [hwrite]
    exact isKept_taggedMembers h
  · rw [hwrite, read_eq_readLevel, readLevel,
      readTagged_taggedMembers (AggregateForm.ofWord?_word _) htag hnodup h,
      AggregateForm.make_split]

-----------------------------------------------------------------------------------------
-- Records
-----------------------------------------------------------------------------------------

theorem function_readsBack (g : Function) : ReadsBack (.record .function) g :=
  .record ⟨text_readsBack g.name, text_readsBack g.identity, trivial⟩

theorem set_readsBack (set : EntitySet) : ReadsBack (.record .set) set :=
  .record
    ⟨text_readsBack set.container, text_readsBack set.name, type_readsBack set.elementType, trivial⟩

theorem relationEnd_readsBack (e : RelationEnd) : ReadsBack (.record .relationEnd) e :=
  .record ⟨text_readsBack e.name, text_readsBack e.association, trivial⟩

theorem member_readsBack (name : String) : ReadsBack (.record .member) name :=
  .record ⟨text_readsBack name, trivial⟩

theorem formal_readsBack (f : Formal) : ReadsBack (.record .formal) f :=
  .record ⟨text_readsBack f.name, usage_readsBack f.usage, trivial⟩

theorem binding_readsBack {b : Binding Expr} (h : ReadsBack .expr b.source)
    : ReadsBack (.record .binding) b :=
  .record ⟨text_readsBack b.name, h, trivial⟩

theorem groupBinding_readsBack {b : GroupBinding Expr} (h : ReadsBack .expr b.source)
    : ReadsBack (.record .groupBinding) b :=
  .record ⟨text_readsBack b.name, text_readsBack b.groupName, h, trivial⟩

theorem arm_readsBack {a : Arm Expr} (hc : ReadsBack .expr a.condition)
    (hr : ReadsBack .expr a.result)
    : ReadsBack (.record .arm) a :=
  .record ⟨hc, hr, trivial⟩

/-- An empty collation is not the same as none. -/
theorem clause_readsBack {c : SortClause Expr} (h : ReadsBack .expr c.key)
    : ReadsBack (.record .clause) c := by
  have hcollation : ReadsBack (.optional .text) c.collation := by
    cases c.collation with
    | none => exact .none .text
    | some name =>
        refine (text_readsBack name).some ?_
        rw [Shape.map, write]
        simp [Leaf.write, Json.arranged]
  exact .record ⟨h, flag_readsBack c.ascending, hcollation, trivial⟩

theorem related_readsBack {r : RelatedRef Expr} (h : ReadsBack .expr r.reference)
    : ReadsBack (.record .related) r :=
  .record ⟨relationEnd_readsBack r.source, relationEnd_readsBack r.target, h, trivial⟩

theorem aggregate_readsBack {a : Aggregate Expr} (h : ∀ e ∈ a.operands, ReadsBack .expr e)
    : ReadsBack .aggregate a := by
  cases a with
  | function g distinct arguments =>
      exact .aggregate ⟨function_readsBack g, flag_readsBack distinct, .list h, trivial⟩
  | group argument => exact .aggregate ⟨h argument (by simp [Aggregate.operands]), trivial⟩

-----------------------------------------------------------------------------------------
-- Nodes and trees
-----------------------------------------------------------------------------------------

theorem writeExpr_node (usage : TypeUsage) (body : Body Expr)
    : writeExpr (.node usage body) = .object (membersOf exprFields (usage, body, ())) := by
  have hmembers : membersOf exprFields (usage, body, ())
      = [("type", writeUsage usage), ("node", write .body (body.map writeExpr))] := by
    refine (membersOf_pair "type" .usage usage "node" .body body).trans ?_
    simp only [Shape.map, write]
  rw [hmembers, writeExpr, fold_node]

theorem ReadsBack.expr {usage : TypeUsage} {body : Body Expr} (h : ReadsBack .body body)
    : ReadsBack .expr (.node usage body) := by
  have hread (level : Level) (nested : Bool) : readLevel level nested .expr
      = (readFields nested exprFields level).map fun x => .node x.1 x.2.1 :=
    rfl
  have hfields : FieldsReadBack exprFields (usage, body, ()) :=
    ⟨usage_readsBack usage, h, trivial⟩
  refine ofFields hfields (by decide) ?_ hread
  rw [Shape.map, write, writeExpr_node]

/-- Expressions are written as objects, so none is taken for a missing one. -/
theorem arranged_writeExpr_ne_null (e : Expr) : (writeExpr e).arranged ≠ .null := by
  obtain ⟨usage, body⟩ := e
  rw [writeExpr_node, Json.arranged]
  exact Json.noConfusion

/-- Nodes are read back if their operands and payloads are, case by case. -/
theorem body_readsBack {b : Body Expr} (hpayload : ∀ value, b = .constant value → value.IsStorable)
    (h : ∀ e ∈ b.children, ReadsBack .expr e)
    : ReadsBack .body b := by
  refine .body ?_
  cases b with
  | constant value => exact ⟨payload_readsBack (hpayload value rfl), trivial⟩
  | null => trivial
  | variableRef name | parameter name => exact ⟨text_readsBack name, trivial⟩
  | scan set => exact ⟨set_readsBack set, trivial⟩
  | call g arguments => exact ⟨function_readsBack g, .list h, trivial⟩
  | lambda formals body arguments =>
      exact ⟨.list fun f _ => formal_readsBack f, h body (by simp [Body.children]),
        .list fun e he => h e (by simp [Body.children, he]), trivial⟩
  | property subject name =>
      exact ⟨h subject (by simp [Body.children]), member_readsBack name, trivial⟩
  | comparison op left right =>
      exact ⟨word_readsBack .comparison op, h left (by simp [Body.children]),
        h right (by simp [Body.children]), trivial⟩
  | like argument pattern escape =>
      have hescape : ReadsBack (.optional .expr) escape := by
        cases escape with
        | none => exact .none .expr
        | some e =>
            refine (h e (by simp [Body.children])).some ?_
            rw [Shape.map, write]
            exact arranged_writeExpr_ne_null e
      exact ⟨h argument (by simp [Body.children]), h pattern (by simp [Body.children]), hescape,
        trivial⟩
  | arithmetic op arguments => exact ⟨word_readsBack .arithmetic op, .list h, trivial⟩
  | unary op argument | convert op argument => exact ⟨h argument (by simp [Body.children]), trivial⟩
  | binary op left right =>
      exact ⟨h left (by simp [Body.children]), h right (by simp [Body.children]), trivial⟩
  | inList item list =>
      exact ⟨h item (by simp [Body.children]), .list fun e he => h e (by simp [Body.children, he]),
        trivial⟩
  | case arms otherwise =>
      have harm (a) (ha : a ∈ arms) :=
        arm_readsBack (h _ (Body.mem_children_of_arm ha).1) (h _ (Body.mem_children_of_arm ha).2)
      exact ⟨.list harm, h otherwise (by simp [Body.children]), trivial⟩
  | typeTest op argument tested only =>
      exact ⟨h argument (by simp [Body.children]), usage_readsBack tested, flag_readsBack only,
        trivial⟩
  | newInstance arguments related =>
      have hrelated (r) (hr : r ∈ related) :=
        related_readsBack (h r.reference (Body.mem_children_of_related hr))
      exact ⟨.list fun e he => h e (by simp [Body.children, he]), .list hrelated, trivial⟩
  | ref set argument => exact ⟨set_readsBack set, h argument (by simp [Body.children]), trivial⟩
  | navigate source start target =>
      exact ⟨h source (by simp [Body.children]), relationEnd_readsBack start,
        relationEnd_readsBack target, trivial⟩
  | limit argument count withTies =>
      exact ⟨h argument (by simp [Body.children]), h count (by simp [Body.children]),
        flag_readsBack withTies, trivial⟩
  | filter input operand | project input operand =>
      exact ⟨binding_readsBack (h input.source (by simp [Body.children])),
        h operand (by simp [Body.children]), trivial⟩
  | quantify quantifier input predicate =>
      exact ⟨word_readsBack .quantifier quantifier,
        binding_readsBack (h input.source (by simp [Body.children])),
        h predicate (by simp [Body.children]), trivial⟩
  | crossJoin inputs =>
      exact ⟨.list fun b hb => binding_readsBack (h b.source (List.mem_map_of_mem hb)), trivial⟩
  | join kind left right condition =>
      exact ⟨word_readsBack .join kind, binding_readsBack (h left.source (by simp [Body.children])),
        binding_readsBack (h right.source (by simp [Body.children])),
        h condition (by simp [Body.children]), trivial⟩
  | apply kind input applied =>
      exact ⟨word_readsBack .apply kind,
        binding_readsBack (h input.source (by simp [Body.children])),
        binding_readsBack (h applied.source (by simp [Body.children])), trivial⟩
  | groupBy input keys aggregates =>
      have haggregate (a) (ha : a ∈ aggregates) :=
        aggregate_readsBack fun e he => h e (Body.mem_children_of_aggregate ha he)
      exact ⟨groupBinding_readsBack (h input.source (by simp [Body.children])),
        .list fun e he => h e (by simp [Body.children, he]), .list haggregate, trivial⟩
  | skip input order count =>
      have hclause (c) (hc : c ∈ order) :=
        clause_readsBack (h c.key (Body.mem_children_of_skipClause hc))
      exact ⟨binding_readsBack (h input.source (by simp [Body.children])), .list hclause,
        h count (by simp [Body.children]), trivial⟩
  | sort input order =>
      have hclause (c) (hc : c ∈ order) :=
        clause_readsBack (h c.key (Body.mem_children_of_sortClause hc))
      exact ⟨binding_readsBack (h input.source (by simp [Body.children])), .list hclause, trivial⟩
  | extension name arguments => exact ⟨text_readsBack name, .list h, trivial⟩

end QueryKey.Document

namespace QueryKey.Expr

open QueryKey.Metadata

/-- All payloads in the tree are ones that a document tells exactly. -/
def IsStorable (e : Expr) : Prop :=
  ∀ n ∈ e.nodes, ∀ value, n.body = .constant value → value.IsStorable

theorem isStorable_node {usage : TypeUsage} {body : Body Expr}
    : (node usage body).IsStorable
      ↔ (∀ value, body = .constant value → value.IsStorable)
        ∧ ∀ c ∈ body.children, c.IsStorable := by
  simp only [IsStorable, nodes_eq (node usage body), List.forall_mem_cons,
    List.forall_mem_flatMap, Expr.body, Expr.children]

end QueryKey.Expr

namespace QueryKey.Document

open QueryKey.Expr

/-- Trees are read back from their documents, by induction on the tree. -/
theorem expr_readsBack {e : Expr} (h : e.IsStorable) : ReadsBack .expr e := by
  induction e using Expr.induction with
  | step usage body ih =>
      obtain ⟨hpayload, hchildren⟩ := isStorable_node.mp h
      exact .expr (body_readsBack hpayload fun c hc => ih c hc (hchildren c hc))

end QueryKey.Document

namespace QueryKey.TreeFile

open QueryKey.Document QueryKey.Expr QueryKey.Metadata

theorem isKept_toJson {tree : Expr} (h : tree.IsStorable) : (toJson tree).IsKept := by
  have hexpr := (expr_readsBack h).kept
  rw [Shape.map, write] at hexpr
  refine isKept_object.mpr (List.forall_mem_cons.mpr ⟨?_, List.forall_mem_singleton.mpr hexpr⟩)
  exact ⟨by decide, by decide⟩

theorem ofArranged_toJson {tree : Expr} (h : tree.IsStorable)
    : ofArranged (toJson tree).arranged = .ok tree := by
  have hread : readTree (writeExpr tree).arranged = .ok tree := by
    have hexpr := (expr_readsBack h).reads false
    rw [Shape.map, write] at hexpr
    rw [readTree, hexpr]
    rfl
  have hversion : toJson tree = withVersion schemaVersion (writeExpr tree) := rfl
  rw [hversion, arranged_withVersion, ofArranged_withVersion (by decide), hread]
  rfl

/-- The file of a tree gives the tree again, if a document tells its payloads exactly and the file
is not nested too deeply for the reader.
-/
theorem ofText_text {tree : Expr} (h : tree.IsStorable)
    (hdeep : (toJson tree).nesting ≤ Json.State.depthLimit)
    : ofText (text tree) = .ok tree := by
  have hparse : parse (text tree) = .ok (toJson tree).arranged := by
    rw [parse, text, Json.parse_pretty (isKept_toJson h) hdeep fun _ => Json.noConfusion]
    rfl
  rw [ofText, hparse]
  exact ofArranged_toJson h

/-- Prices below 1.50 with a quote in their name, from a leap second on. -/
def quotedBargains : Expr :=
  let start : Payload :=
    .dateTimeOffset
      ⟨⟨⟨2016, 12, 31, by decide⟩, ⟨23, 59, 59, 1000000000, by decide⟩⟩, -5400, by decide⟩
  let price := (parameter "price" (.primitive .decimal)).compare .lessThan
    (constant (.decimal ⟨false, 150, 2, by decide, by decide⟩))
  let name := (parameter "name" (.primitive .string)).like (constant (.string "%\"%")) none
  let since := (parameter "since" (.primitive .dateTimeOffset)).compare .greaterThan
    (constant start)
  (price.and name).and since

theorem ofText_text_quotedBargains
    : (toJson quotedBargains).nesting ≤ Json.State.depthLimit
      ∧ ofText (text quotedBargains) = .ok quotedBargains := by
  have hparameter (name : String) (usage : TypeUsage) : (parameter name usage).IsStorable :=
    isStorable_node.mpr (by simp [Body.children])
  have hconstant {value : Payload} (h : value.IsStorable) : (constant value).IsStorable :=
    isStorable_node.mpr (by simpa [Body.children] using h)
  have hcompare {left right : Expr} (op : ComparisonOp) (hleft : left.IsStorable)
      (hright : right.IsStorable) : (left.compare op right).IsStorable :=
    isStorable_node.mpr (by simp [Body.children, hleft, hright])
  have hlike {left right : Expr} (hleft : left.IsStorable) (hright : right.IsStorable)
      : (left.like right none).IsStorable :=
    isStorable_node.mpr (by simp [Body.children, hleft, hright])
  have hand {left right : Expr} (hleft : left.IsStorable) (hright : right.IsStorable)
      : (left.and right).IsStorable :=
    isStorable_node.mpr (by simp [Body.children, hleft, hright])
  have hstorable : quotedBargains.IsStorable := by
    refine hand (hand (hcompare _ (hparameter _ _) (hconstant ?price))
      (hlike (hparameter _ _) (hconstant trivial)))
      (hcompare _ (hparameter _ _) (hconstant ?start))
    case price => exact fun h => absurd h (by decide)
    case start => exact ⟨⟨by decide, by decide⟩, fun _ => rfl⟩
  have hdeep : (toJson quotedBargains).nesting ≤ Json.State.depthLimit := by decide +kernel
  exact ⟨hdeep, ofText_text hstorable hdeep⟩

end QueryKey.TreeFile
