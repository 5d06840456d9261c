import QueryKey.Proofs.Key.Grammar

/-! Layouts: what stands behind a node kind in brackets. Two kinds share a mark, but not the number
of their operands.
-/

namespace QueryKey.Key.Reader

open QueryKey.Expr QueryKey.Metadata QueryKey.Text

variable (operand : Scan Outline)

-----------------------------------------------------------------------------------------
-- Shapes of operands
-----------------------------------------------------------------------------------------

/-- Two operands with a comma between them. -/
def both : Fragment (Unit × Unit) :=
  .skip "(" (.pair (.operandMark operand ",") (.operandMark operand ")"))

/-- Operands with commas between them, and what closes them. -/
def list : Fragment (List Unit) :=
  .either
    ((Fragment.pair (.many (.operandMark operand ",")) (.operandMark operand ")")).map
      fun (front, last) => front ++ [last])
    ((Fragment.mark ")").map fun _ => [])

/-- An operand with the identity of a type. -/
def typed : Fragment String :=
  (Fragment.skip "(" (.pair (.operandMark operand ":") (.rawMark true ")"))).map Prod.snd

/-- An operand over a variable. -/
def bound : Fragment (Binding Unit) :=
  (Fragment.skip "(" (.pair (binding operand) (.pair (parenthesized operand) (.mark ")")))).map
    Prod.fst

def sortOrder : Fragment (List (SortClause Unit)) :=
  (Fragment.skip "SO(" (.pair (.many (clause operand)) (.mark ")"))).map Prod.fst

variable {operand}

theorem both_reads {left right : Expr} (hl : ReadsOperand operand left)
    (hr : ReadsOperand operand right)
    : Reads (both operand) (Piece.enclosed (Piece.separated [left, right])) ((), ()) :=
  ((ReadsBefore.operandMark hl closes_comma).pair
    (.operandMark hr (closes_mark (by decide)))).skip "("

/-- An operand that is not the last one of a list. -/
def withComma (e : Expr) : List (Piece Expr) :=
  [.operand e, .mark ","]

/-- Every operand but the last has a comma behind it, by induction on those in front of the last.
-/
theorem separated_append_singleton (front : List Expr) (last : Expr)
    : Piece.separated (front ++ [last]) = front.flatMap withComma ++ [.operand last] := by
  induction front with
  | nil => rfl
  | cons e rest ih =>
      cases hrest : rest ++ [last] with
      | nil => simp at hrest
      | cons d more =>
          rw [hrest] at ih
          rw [List.cons_append, hrest, Piece.separated, ih]
          · simp [withComma]
          · simp

theorem list_reads {es : List Expr} (h : ∀ e ∈ es, ReadsOperand operand e)
    (hend : ∀ rest, operand (')' :: rest) = none)
    : Reads (list operand) (Piece.separated es ++ [.mark ")"]) (es.map fun _ => ()) := by
  rcases List.eq_nil_or_concat es with rfl | ⟨front, last, hes⟩
  · refine ReadsBefore.right ((ReadsBefore.mark ")").map _) fun rest _ => map_eq_none ?_
    have hnone (w : String) : Fragment.operandMark operand w (')' :: rest) = none := by
      rw [Fragment.operandMark, hend]
      rfl
    have hmany (rounds : Nat)
        : Scan.manyUpTo (Fragment.operandMark operand ",") rounds (')' :: rest)
          = ([], ')' :: rest) := by
      cases rounds <;> simp [Scan.manyUpTo, hnone]
    simp [Fragment.pair, Fragment.many, Piece.text, hmany, hnone]
  · rw [List.concat_eq_append] at hes
    subst hes
    have hlast : ReadsOperand operand last := h last (by simp)
    have hcomma (rest : List Char)
        : Fragment.operandMark operand "," (spell [.operand last, .mark ")"] ++ rest) = none := by
      have hread := hlast _ (.parenthesis rest)
      have hword : word "," (')' :: rest) = none := rfl
      simp [Fragment.operandMark, Piece.text, hread, hword]
    have hmany : Reads (.pair (.many (.operandMark operand ",")) (.operandMark operand ")"))
        (front.flatMap withComma ++ [.operand last, .mark ")"]) (front.map fun _ => (), ()) :=
      .many_pair (P := fun _ => True)
        (fun e he => .operandMark (h e (by simp [he])) closes_comma) (fun _ _ _ => trivial)
        (.operandMark hlast (closes_mark (by decide))) (fun _ => trivial) hcomma
    exact (((hmany.map _).left _).of_eq (by simp [separated_append_singleton])).told (by simp)

/-- The identity of a type may follow an operand. -/
theorem closes_identity {identity : List Char} (h : Passes true 0 identity) (rest : List Char)
    : Closes (":".toList ++ (identity ++ ')' :: rest)) :=
  .colon h rest

theorem typed_reads {e : Expr} {identity : String} (h : ReadsOperand operand e)
    (hidentity : Passes true 0 identity.toList)
    : Reads (typed operand) (Piece.enclosed [.operand e, .mark ":", .raw identity]) identity := by
  have htype : Reads (.rawMark true ")") [.raw identity, .mark ")"] identity :=
    .rawMark hidentity (takeIdentity_mark (by decide))
  refine (((ReadsBefore.operandMark_of_closes h ":").pair_of_before htype ?_).skip "(").map _
  intro rest _
  simpa [Piece.text] using closes_identity hidentity rest

theorem bound_reads {b : Binding Expr} {e : Expr} (hb : ReadsOperand operand b.source)
    (he : ReadsOperand operand e)
    : Reads (bound operand) (Piece.enclosed (Piece.binding b ++ Piece.parenthesized e))
        (b.map fun _ => ()) := by
  have hrest := (parenthesized_reads he).closed
  exact (((binding_reads hb).pair hrest).skip "(").map _

theorem sortOrder_reads {order : List (SortClause Expr)} (hclean : ∀ c ∈ order, c.IsClean)
    (h : ∀ c ∈ order, ReadsOperand operand c.key)
    : Reads (sortOrder operand) (Piece.sortOrder order)
        ((order.map (SortClause.map fun _ => ())).map recordedClause) := by
  have hhead (c : SortClause Expr) (rest : List Char)
      : (spell (Piece.clause c) ++ rest).head? ≠ some ':' := by
    rcases c with ⟨key, ascending, collation⟩
    cases ascending <;> cases collation <;> simp [Piece.clause, Piece.text] <;> split <;>
      simp [Piece.text]
  have hclose (rest : List Char)
      : clause operand (spell [.mark ")"] ++ rest) = none :=
    either_eq_none (map_eq_none (skip_eq_none (c := 'A') (by decide) (by simp [Piece.text])))
      (map_eq_none (skip_eq_none (c := 'D') (by decide) (by simp [Piece.text])))
  have hmany := ReadsBefore.many_pair (fun c hc => clause_reads (hclean c hc) (h c hc))
    (fun c _ rest => hhead c rest) (.mark (P := fun _ => True) ")")
    (fun rest => by simp [Piece.text]) hclose
  exact ((hmany.skip "SO(").map _).told (by simp)

-----------------------------------------------------------------------------------------
-- Operators
-----------------------------------------------------------------------------------------

namespace Layout

/-- An operation whose key gives no identity. -/
def plain (operation : Body Unit) : Entry :=
  .operator operation ""

def scan : Fragment Entry :=
  (Fragment.skip "(" (.pair (.rawMark true ":") (.rawMark true ")"))).map
    fun (set, identity) => .scan set identity

variable (operand)

def comparison (op : ComparisonOp) : Fragment Entry :=
  (both operand).map fun _ => plain (.comparison op () ())

def binary (op : BinaryOp) : Fragment Entry :=
  (both operand).map fun _ => plain (.binary op () ())

def unary (op : UnaryOp) : Fragment Entry :=
  (parenthesized operand).map fun _ => plain (.unary op ())

def convert (op : Conversion) : Fragment Entry :=
  (typed operand).map fun identity => .operator (.convert op ()) identity

def typeTest (op : TypeTest) (only : Bool) : Fragment Entry :=
  (typed operand).map fun identity => plain (.typeTest op () (identified identity) only)

def like : Fragment Entry :=
  (Fragment.pair (parenthesized operand) (.pair (parenthesized operand) (.skip "("
    (.either ((Fragment.operandMark operand ")").map some)
      ((Fragment.mark ")").map fun _ => none))))).map
    fun (_, _, escape) => plain (.like () () escape)

def arithmetic (op : ArithmeticOp) : Fragment Entry :=
  (Fragment.pair (parenthesized operand) (parenthesized operand)).map
    fun _ => plain (.arithmetic op [(), ()])

/-- Subtractions and negations. -/
def minus : Fragment Entry :=
  .either (arithmetic operand .minus)
    ((parenthesized operand).map fun _ => plain (.arithmetic .unaryMinus [()]))

def inList : Fragment Entry :=
  (Fragment.skip "(" (.pair (.operandMark operand ",")
    (.skip "(" (.pair (list operand) (.mark ")"))))).map
    fun (_, items, _) => plain (.inList () items)

def case : Fragment Entry :=
  (Fragment.skip "(" (.pair (.many (arm operand))
    (.skip "ELSE:" (.pair (parenthesized operand) (.mark ")"))))).map
    fun (arms, _) => plain (.case arms ())

def newInstance : Fragment Entry :=
  (Fragment.skip ":" (.pair (.rawMark false "(")
    (.pair (.many (parenthesized operand)) (.pair (.many (related operand)) (.mark ")"))))).map
    fun (identity, arguments, related, _) => .operator (.newInstance arguments related) identity

def ref : Fragment Entry :=
  (Fragment.skip "(" (.skip "ESET" (.skip "(" (.pair (.rawMark true ")") (.skip "T" (.skip "("
    (.pair (.rawMark true ")") (.pair (parenthesized operand) (.mark ")"))))))))).map
    fun (set, identity, _) => .ref set identity

def navigate : Fragment Entry :=
  (Fragment.pair (parenthesized operand) navigation).map
    fun (_, start, target) => plain (.navigate () start target)

variable {operand}

theorem scan_reads {set : EntitySet} {identity : String} (hset : set.IsClean)
    (hidentity : Passes true 0 identity.toList)
    : Reads scan (Piece.enclosed (Piece.setName set ++ [.mark ":", .raw identity]))
        (.scan set.qualifiedName identity) := by
  have hname : Reads (.rawMark true ":") (Piece.setName set ++ [.mark ":"]) set.qualifiedName :=
    setName_reads hset (takeIdentity_mark (by decide))
  have htype : Reads (.rawMark true ")") [.raw identity, .mark ")"] identity :=
    .rawMark hidentity (takeIdentity_mark (by decide))
  exact ((hname.pair htype).skip "(").map _

theorem like_reads {argument pattern : Expr} {escape : Option Expr}
    (ha : ReadsOperand operand argument) (hp : ReadsOperand operand pattern)
    (he : ∀ e ∈ escape, ReadsOperand operand e) (hend : ∀ rest, operand (')' :: rest) = none)
    : Reads (like operand)
        (Piece.parenthesized argument ++ Piece.parenthesized pattern
          ++ Piece.enclosed (escape.toList.map .operand))
        (plain (.like () () (escape.map fun _ => ()))) := by
  have hescape : Reads
      (.either ((Fragment.operandMark operand ")").map some)
        ((Fragment.mark ")").map fun _ => none))
      (escape.toList.map .operand ++ [.mark ")"]) (escape.map fun _ => ()) := by
    cases escape with
    | some e => exact ((ReadsBefore.operandMark (he e rfl) (closes_mark (by decide))).map _).left _
    | none =>
        refine ReadsBefore.right ((ReadsBefore.mark ")").map _) fun rest _ => map_eq_none ?_
        simp [Fragment.operandMark, Piece.text, hend]
  exact ((parenthesized_reads ha).pair ((parenthesized_reads hp).pair (hescape.skip "("))).map _

theorem arithmetic_reads (op : ArithmeticOp) {left right : Expr} (hl : ReadsOperand operand left)
    (hr : ReadsOperand operand right)
    : Reads (arithmetic operand op) (Piece.eachParenthesized [left, right])
        (plain (.arithmetic op [(), ()])) :=
  ((parenthesized_reads hl).pair (parenthesized_reads hr)).map _

/-- A negation, in front of what does not look like the other operand of a subtraction. -/
theorem minus_reads {e : Expr} (h : ReadsOperand operand e)
    : ReadsBefore (fun rest => rest.head? ≠ some '(') (minus operand) (Piece.eachParenthesized [e])
        (plain (.arithmetic .unaryMinus [()])) := by
  refine ReadsBefore.right ((parenthesized_reads h).before.map _) fun rest hrest => map_eq_none ?_
  have hsecond : parenthesized operand rest = none := skip_eq_none (c := '(') (by decide) hrest
  simp [Fragment.pair, parenthesized_reads h rest trivial, hsecond]

theorem inList_reads {item : Expr} {es : List Expr} (hi : ReadsOperand operand item)
    (h : ∀ e ∈ es, ReadsOperand operand e) (hend : ∀ rest, operand (')' :: rest) = none)
    : Reads (inList operand)
        (Piece.enclosed ([.operand item, .mark ","] ++ Piece.enclosed (Piece.separated es)))
        (plain (.inList () (es.map fun _ => ()))) := by
  have hlist := (list_reads h hend).closed
  have hread := ((ReadsBefore.operandMark hi closes_comma).pair (hlist.skip "(")).skip "("
  exact (hread.map _).of_eq (by simp [Piece.enclosed])

theorem case_reads {arms : List (Arm Expr)} {otherwise : Expr}
    (hc : ∀ a ∈ arms, ReadsOperand operand a.condition)
    (hr : ∀ a ∈ arms, ReadsOperand operand a.result) (ho : ReadsOperand operand otherwise)
    : Reads (case operand)
        (Piece.enclosed (arms.flatMap Piece.arm ++ .mark "ELSE:" :: Piece.parenthesized otherwise))
        (plain (.case (arms.map (Arm.map fun _ => ())) ())) := by
  have helse := ((parenthesized_reads ho).closed).skip "ELSE:"
  have hend (rest : List Char) : arm operand (spell (.mark "ELSE:" :: (Piece.parenthesized otherwise
      ++ [.mark ")"])) ++ rest) = none :=
    map_eq_none (skip_eq_none (c := 'W') (by decide) (by simp [Piece.text]))
  have hmany := ReadsBefore.many_pair (P := fun _ => True)
    (fun a ha => arm_reads (hc a ha) (hr a ha)) (fun _ _ _ => trivial) helse (fun _ => trivial) hend
  exact ((hmany.skip "(").map _).of_eq (by simp [Piece.enclosed])

theorem newInstance_reads {identity : String} {arguments : List Expr}
    {related : List (RelatedRef Expr)} (hidentity : Passes false 0 identity.toList)
    (ha : ∀ e ∈ arguments, ReadsOperand operand e)
    (hclean : ∀ r ∈ related, r.source.IsClean ∧ r.target.IsClean)
    (hr : ∀ r ∈ related, ReadsOperand operand r.reference)
    : Reads (newInstance operand)
        ([.mark ":", .raw identity]
          ++ Piece.enclosed (Piece.eachParenthesized arguments ++ related.flatMap Piece.related))
        (.operator
          (.newInstance (arguments.map fun _ => ())
            ((related.map (RelatedRef.map fun _ => ())).map recordedRelated)) identity) := by
  have hopen (rest : List Char)
      : takeIdentity false 0 ("(".toList ++ rest) = ([], "(".toList ++ rest) := by
    simp [takeIdentity, isWordChar, isNameChar]
  have hrelated := ReadsBefore.many_close
    (fun r h => related_reads (hclean r h).1 (hclean r h).2 (hr r h))
    fun rest => map_eq_none (skip_eq_none (c := 'R') (by decide) (by simp))
  have hend (rest : List Char)
      : (spell (related.flatMap Piece.related ++ [.mark ")"]) ++ rest).head? ≠ some '(' := by
    cases related <;> simp [Piece.related, Piece.text]
  have hread := ((ReadsBefore.rawMark hidentity hopen).pair
    (arguments_reads ha hrelated hend)).skip ":"
  exact ((hread.map _).of_eq (by simp [Piece.enclosed])).told (by simp)

theorem ref_reads {set : EntitySet} {identity : String} {argument : Expr} (hset : set.IsClean)
    (hidentity : Passes true 0 identity.toList) (h : ReadsOperand operand argument)
    : Reads (ref operand)
        (Piece.enclosed
          (.mark "ESET" :: Piece.enclosed (Piece.setName set)
            ++ .mark "T" :: Piece.enclosed [.raw identity] ++ Piece.parenthesized argument))
        (.ref set.qualifiedName identity) := by
  have hname : Reads (.rawMark true ")") (Piece.setName set ++ [.mark ")"]) set.qualifiedName :=
    setName_reads hset (takeIdentity_mark (by decide))
  have htype : Reads (.rawMark true ")") [.raw identity, .mark ")"] identity :=
    .rawMark hidentity (takeIdentity_mark (by decide))
  have hargument := (parenthesized_reads h).closed
  have hread := hname.pair (((htype.pair hargument).skip "(").skip "T")
  exact (((hread.skip "(").skip "ESET").skip "(").map _

theorem navigate_reads {source : Expr} {start target : RelationEnd}
    (h : ReadsOperand operand source) (hs : start.IsClean) (ht : target.IsClean)
    : Reads (navigate operand) (Piece.parenthesized source ++ Piece.navigation start target)
        (plain (.navigate () start (recordedTarget target))) :=
  ((parenthesized_reads h).pair (navigation_reads hs ht)).map _

-----------------------------------------------------------------------------------------
-- Collections
-----------------------------------------------------------------------------------------

variable (operand)

def limit : Fragment Entry :=
  (Fragment.pair (.either ((Fragment.mark "WithTies").map fun _ => true) (.nothing false))
    (.pair (parenthesized operand) (parenthesized operand))).map
    fun (withTies, _) => plain (.limit () () withTies)

def crossJoin : Fragment Entry :=
  (Fragment.skip "(" (.pair (.many (binding operand)) (.mark ")"))).map
    fun (inputs, _) => plain (.crossJoin inputs)

def join (kind : JoinKind) : Fragment Entry :=
  (Fragment.skip "(" (.pair (binding operand) (.pair (binding operand)
    (.pair (parenthesized operand) (.mark ")"))))).map
    fun (left, right, _) => plain (.join kind left right ())

def apply (kind : ApplyKind) : Fragment Entry :=
  (Fragment.skip "(" (.pair (binding operand) (.pair (binding operand) (.mark ")")))).map
    fun (input, applied, _) => plain (.apply kind input applied)

def groupBy : Fragment Entry :=
  (Fragment.skip "(" (.pair (groupBinding operand)
    (.pair (.many (groupKey operand)) (.pair (.many (aggregate operand)) (.mark ")"))))).map
    fun (input, keys, aggregates, _) => plain (.groupBy input keys aggregates)

def skip : Fragment Entry :=
  (Fragment.skip "(" (.pair (binding operand) (.pair (sortOrder operand)
    (.pair (parenthesized operand) (.mark ")"))))).map
    fun (input, order, _) => plain (.skip input order ())

def sort : Fragment Entry :=
  (Fragment.skip "(" (.pair (binding operand) (.pair (sortOrder operand) (.mark ")")))).map
    fun (input, order, _) => plain (.sort input order)

variable {operand}

theorem limit_reads {argument count : Expr} (withTies : Bool) (ha : ReadsOperand operand argument)
    (hc : ReadsOperand operand count)
    : Reads (limit operand)
        ((if withTies then [.mark "WithTies"] else []) ++ Piece.parenthesized argument
          ++ Piece.parenthesized count)
        (plain (.limit () () withTies)) := by
  have hboth := (parenthesized_reads ha).pair ((parenthesized_reads hc).before (P := fun _ => True))
  cases withTies with
  | true =>
      have hties :=
        (((ReadsBefore.mark "WithTies").map fun _ => true).left (.nothing false)).pair hboth
      exact (hties.map _).of_eq (by simp)
  | false =>
      have hnone : ReadsBefore (fun rest => rest.head? ≠ some 'W')
          (.either ((Fragment.mark "WithTies").map fun _ => true) (.nothing false)) [] false := by
        refine ReadsBefore.right (.nothing false) fun rest hrest => map_eq_none ?_
        exact skip_eq_none (s := .nothing ()) (c := 'W') (by decide) hrest
      have hread := hnone.pair_of_before hboth fun rest _ => by
        simp [Piece.parenthesized, Piece.text]
      exact (hread.map _).of_eq (by simp)

theorem crossJoin_reads {inputs : List (Binding Expr)}
    (h : ∀ b ∈ inputs, ReadsOperand operand b.source)
    : Reads (crossJoin operand) (Piece.enclosed (inputs.flatMap Piece.binding))
        (plain (.crossJoin (inputs.map (Binding.map fun _ => ())))) := by
  have hmany := ReadsBefore.many_close (fun b hb => binding_reads (h b hb))
    fun rest => map_eq_none (skip_eq_none (c := 'B') (by decide) (by simp))
  exact (hmany.skip "(").map _

theorem join_reads (kind : JoinKind) {left right : Binding Expr} {condition : Expr}
    (hl : ReadsOperand operand left.source) (hr : ReadsOperand operand right.source)
    (hc : ReadsOperand operand condition)
    : Reads (join operand kind)
        (Piece.enclosed
          (Piece.binding left ++ Piece.binding right ++ Piece.parenthesized condition))
        (plain (.join kind (left.map fun _ => ()) (right.map fun _ => ()) ())) := by
  have hcondition := (parenthesized_reads hc).closed
  exact (((binding_reads hl).pair ((binding_reads hr).pair hcondition)).skip "(").map _

theorem apply_reads (kind : ApplyKind) {input applied : Binding Expr}
    (hi : ReadsOperand operand input.source) (ha : ReadsOperand operand applied.source)
    : Reads (apply operand kind)
        (Piece.enclosed (Piece.binding input ++ Piece.binding applied))
        (plain (.apply kind (input.map fun _ => ()) (applied.map fun _ => ()))) := by
  have happlied := (binding_reads ha).closed
  exact (((binding_reads hi).pair happlied).skip "(").map _

theorem groupBy_reads {input : GroupBinding Expr} {keys : List Expr}
    {aggregates : List (Aggregate Expr)} (hi : ReadsOperand operand input.source)
    (hk : ∀ e ∈ keys, ReadsOperand operand e) (hclean : ∀ a ∈ aggregates, a.IsClean)
    (ha : ∀ a ∈ aggregates, ∀ e ∈ a.operands, ReadsOperand operand e)
    : Reads (groupBy operand)
        (Piece.enclosed
          (Piece.groupBinding input ++ keys.flatMap Piece.groupKey
            ++ aggregates.flatMap Piece.aggregate))
        (plain (.groupBy (input.map fun _ => ()) (keys.map fun _ => ())
          ((aggregates.map (Aggregate.map fun _ => ())).map recordedAggregate))) := by
  have haggregates := ReadsBefore.many_close (fun a h => aggregate_reads (hclean a h) (ha a h))
    fun rest => either_eq_none (map_eq_none (skip_eq_none (c := 'G') (by decide) (by simp)))
      (skip_eq_none (c := 'A') (by decide) (by simp))
  have hend (rest : List Char) : groupKey operand
      (spell (aggregates.flatMap Piece.aggregate ++ [.mark ")"]) ++ rest) = none := by
    refine skip_eq_none (c := 'K') (by decide) ?_
    cases aggregates with
    | nil => simp [Piece.text]
    | cons a more => cases a <;> simp [Piece.aggregate, Piece.text]
  have hkeys := ReadsBefore.many_pair (P := fun _ => True) (fun e he => groupKey_reads (hk e he))
    (fun _ _ _ => trivial) haggregates (fun _ => trivial) hend
  have hread := ((groupBinding_reads hi).pair hkeys).skip "("
  exact ((hread.map _).of_eq (by simp [Piece.enclosed])).told (by simp [Function.comp_def])

theorem skip_reads {input : Binding Expr} {order : List (SortClause Expr)} {count : Expr}
    (hi : ReadsOperand operand input.source) (hclean : ∀ c ∈ order, c.IsClean)
    (ho : ∀ c ∈ order, ReadsOperand operand c.key) (hc : ReadsOperand operand count)
    : Reads (skip operand)
        (Piece.enclosed (Piece.binding input ++ Piece.sortOrder order ++ Piece.parenthesized count))
        (plain (.skip (input.map fun _ => ())
          ((order.map (SortClause.map fun _ => ())).map recordedClause) ())) := by
  have hcount := (parenthesized_reads hc).closed
  have hread := ((binding_reads hi).pair ((sortOrder_reads hclean ho).pair hcount)).skip "("
  exact (hread.map _).of_eq (by simp [Piece.enclosed])

theorem sort_reads {input : Binding Expr} {order : List (SortClause Expr)}
    (hi : ReadsOperand operand input.source) (hclean : ∀ c ∈ order, c.IsClean)
    (ho : ∀ c ∈ order, ReadsOperand operand c.key)
    : Reads (sort operand) (Piece.enclosed (Piece.binding input ++ Piece.sortOrder order))
        (plain (.sort (input.map fun _ => ())
          ((order.map (SortClause.map fun _ => ())).map recordedClause))) := by
  have horder := (sortOrder_reads hclean ho).closed
  exact ((((binding_reads hi).pair horder).skip "(").map _).of_eq (by simp [Piece.enclosed])

end Layout

end QueryKey.Key.Reader
