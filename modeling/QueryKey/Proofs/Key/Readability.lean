import QueryKey.Proofs.Key.Layouts

/-! Keys can be read: a reader that knows nothing but the notation gives back the outline of a
legible tree from its key. Properties stand behind their subjects, so the reader takes them in a
row.
-/

namespace QueryKey.Key.Reader

open QueryKey.Expr QueryKey.Metadata QueryKey.Number QueryKey.Calendar QueryKey.Text

variable (operand : Scan Outline)

-----------------------------------------------------------------------------------------
-- Nodes whose kind stands in brackets
-----------------------------------------------------------------------------------------

/-- The kind that a mark is taken for. -/
def shown : NodeKind → NodeKind
  | .unaryMinus => .minus
  | k => k

/-- The kind in brackets; of the two that share a mark, the one with two operands. -/
def kind : Scan NodeKind := fun text => do
  let (_, text) ← word "[" text
  let token := text.takeWhile (· != ']')
  let (_, text) ← word "]" (text.dropWhile (· != ']'))
  let found ← NodeKind.table.find? fun k => k.token.toList == token
  return (found, text)

/-- What stands behind a kind. -/
def layout : NodeKind → Fragment Entry
  | .scan => Layout.scan
  | .equals => Layout.comparison operand .equals
  | .notEquals => Layout.comparison operand .notEquals
  | .lessThan => Layout.comparison operand .lessThan
  | .lessThanOrEquals => Layout.comparison operand .lessThanOrEquals
  | .greaterThan => Layout.comparison operand .greaterThan
  | .greaterThanOrEquals => Layout.comparison operand .greaterThanOrEquals
  | .like => Layout.like operand
  | .plus => Layout.arithmetic operand .plus
  | .minus => Layout.minus operand
  | .multiply => Layout.arithmetic operand .multiply
  | .divide => Layout.arithmetic operand .divide
  | .modulo => Layout.arithmetic operand .modulo
  | .isNull => Layout.unary operand .isNull
  | .not => Layout.unary operand .not
  | .deref => Layout.unary operand .deref
  | .refKey => Layout.unary operand .refKey
  | .entityRef => Layout.unary operand .entityRef
  | .distinct => Layout.unary operand .distinct
  | .element => Layout.unary operand .element
  | .isEmpty => Layout.unary operand .isEmpty
  | .and => Layout.binary operand .and
  | .or => Layout.binary operand .or
  | .unionAll => Layout.binary operand .unionAll
  | .intersect => Layout.binary operand .intersect
  | .except => Layout.binary operand .except
  | .inList => Layout.inList operand
  | .case => Layout.case operand
  | .treat => Layout.convert operand .treat
  | .cast => Layout.convert operand .cast
  | .isOf => Layout.typeTest operand .isOf false
  | .isOfOnly => Layout.typeTest operand .isOf true
  | .ofType => Layout.typeTest operand .ofType false
  | .ofTypeOnly => Layout.typeTest operand .ofType true
  | .newInstance => Layout.newInstance operand
  | .ref => Layout.ref operand
  | .relationshipNavigation => Layout.navigate operand
  | .limit => Layout.limit operand
  | .filter => (bound operand).map fun input => Layout.plain (.filter input ())
  | .project => (bound operand).map fun input => Layout.plain (.project input ())
  | .any => (bound operand).map fun input => Layout.plain (.quantify .any input ())
  | .all => (bound operand).map fun input => Layout.plain (.quantify .all input ())
  | .crossJoin => Layout.crossJoin operand
  | .innerJoin => Layout.join operand .inner
  | .leftOuterJoin => Layout.join operand .leftOuter
  | .fullOuterJoin => Layout.join operand .fullOuter
  | .crossApply => Layout.apply operand .cross
  | .outerApply => Layout.apply operand .outer
  | .groupBy => Layout.groupBy operand
  | .skip => Layout.skip operand
  | .sort => Layout.sort operand
  | _ => fun _ => none

def bracketed : Fragment Entry := fun text => do
  let (found, text) ← kind text
  layout operand found text

/-- Kinds are told by their marks, but for negations. -/
theorem kind_mark (k : NodeKind) (rest : List Char)
    : kind (("[" ++ k.token ++ "]").toList ++ rest)
      = some (shown k, rest) := by
  have hbracket : "]".toList = [']'] := rfl
  have htoken : ']' ∉ k.token.toList := by
    cases k <;> decide
  have hfound : NodeKind.table.find? (fun other => other.token.toList == k.token.toList)
      = some (shown k) := by
    cases k <;> decide
  have htake : (k.token.toList ++ ']' :: rest).takeWhile (· != ']') = k.token.toList :=
    takeWhile_append_mark htoken rest
  have hdrop : (k.token.toList ++ ']' :: rest).dropWhile (· != ']') = "]".toList ++ rest :=
    dropWhile_append_mark htoken rest
  simp only [String.toList_append, List.append_assoc, kind, word_toList, hbracket,
    List.cons_append, List.nil_append, Option.bind_eq_bind, Option.bind_some, htake, hfound]
  simp only [hdrop, word_toList, Option.bind_some, Option.pure_def]

variable {operand}

theorem bracketed_reads {P : List Char → Prop} (k : NodeKind) {pieces : List (Piece Expr)}
    {e : Entry} (h : ReadsBefore P (layout operand (shown k)) pieces e)
    : ReadsBefore P (bracketed operand) (Piece.kind k :: pieces) e := by
  intro rest hrest
  have hkind := kind_mark k (spell pieces ++ rest)
  simp only [bracketed, Piece.kind, spell_cons, Piece.text, List.append_assoc, hkind,
    Option.bind_eq_bind, Option.bind_some, h rest hrest]
  rfl

-----------------------------------------------------------------------------------------
-- Nodes
-----------------------------------------------------------------------------------------

variable (operand)

def null : Fragment Entry :=
  (Fragment.skip "NULL:" (.raw true)).map fun identity => .operator .null identity

def variableRef : Fragment Entry :=
  (Fragment.skip "Var(" (.nameMark ")")).map fun name => Layout.plain (.variableRef name)

def parameter : Fragment Entry :=
  (Fragment.skip "@" (.pair (.freeMark ':') (.raw true))).map
    fun (name, identity) => .operator (.parameter name) identity

def callEntry : Fragment Entry :=
  (call operand).map fun (g, arguments) => Layout.plain (.call g arguments)

def lambda : Fragment Entry :=
  (Fragment.skip "Lambda(" (.pair (.many formal) (.skip "="
    (.pair (.many (parenthesized operand)) (.skip ")Body(" (.operandMark operand ")")))))).map
    fun (formals, arguments, _) => Layout.plain (.lambda formals () arguments)

def constant : Fragment Entry := fun text => do
  let (value, text) ← literal text
  (Fragment.skip ":" (.raw true)).map (.literal value) text

/-- The nodes whose keys start with the character; with most characters only literals do. -/
def nodeOf (c : Char) : Fragment Entry :=
  if c = 'N' then null
  else if c = 'V' then variableRef
  else if c = '@' then parameter
  else if c = 'L' then lambda operand
  else if c = '[' then bracketed operand
  else if c = ')' then fun _ => none
  else .either constant (callEntry operand)

/-- Any node but a property. -/
def node : Fragment Entry := fun text =>
  match text with
  | [] => none
  | c :: _ => nodeOf operand c text

variable {operand}

/-- The first character tells how to go on. -/
theorem node_reads_of_head {P : List Char → Prop} {c : Char} {pieces : List (Piece Expr)}
    {e : Entry} (h : ReadsBefore P (nodeOf operand c) pieces e)
    (hc : ∃ more, spell pieces = c :: more)
    : ReadsBefore P (node operand) pieces e := by
  intro rest hrest
  have hread := h rest hrest
  obtain ⟨more, hmore⟩ := hc
  rw [hmore, List.cons_append] at hread ⊢
  exact hread

theorem null_reads {identity : String} (h : Passes true 0 identity.toList)
    : ReadsBefore Follows null [.mark "NULL:", .raw identity] (.operator .null identity) :=
  ((ReadsBefore.raw h fun _ hrest => hrest.takeIdentity).skip "NULL:").map _

theorem variableRef_reads (name : String)
    : Reads variableRef [.mark "Var(", .boundName name, .mark ")"]
        (Layout.plain (.variableRef name)) :=
  ((ReadsBefore.nameMark name (by decide) (by decide)).skip "Var(").map _

/-- Parameters are read back up to the first colon. -/
theorem parameter_reads {name identity : String} (hname : ':' ∉ name.toList)
    (h : Passes true 0 identity.toList)
    : ReadsBefore Follows parameter [.mark "@", .raw name, .mark ":", .raw identity]
        (.operator (.parameter name) identity) :=
  (((ReadsBefore.freeMark rfl hname).pair
    (.raw h fun _ hrest => hrest.takeIdentity)).skip "@").map _

theorem lambda_reads {formals : List Formal} {body : Expr} {arguments : List Expr}
    (hformals : ∀ f ∈ formals, f.usage.Built) (hb : ReadsOperand operand body)
    (h : ∀ e ∈ arguments, ReadsOperand operand e)
    : Reads (lambda operand)
        (.mark "Lambda(" :: formals.flatMap Piece.formal ++ .mark "="
          :: Piece.eachParenthesized arguments ++ [.mark ")Body(", .operand body, .mark ")"])
        (Layout.plain
          (.lambda (formals.map recordedFormal) () (arguments.map fun _ => ()))) := by
  have hbody : Reads (.operandMark operand ")") [.operand body, .mark ")"] () :=
    .operandMark hb (closes_mark (by decide))
  have harguments :=
    (arguments_reads h (hbody.skip ")Body(") fun rest => by simp [Piece.text]).skip "="
  have hread := ReadsBefore.many_pair (P := fun _ => True)
    (fun f hf => formal_reads (hformals f hf))
    (fun _ _ _ => trivial) harguments (fun _ => trivial)
    fun rest => map_eq_none (skip_eq_none (c := '(') (by decide) (by simp [Piece.text]))
  exact ((hread.skip "Lambda(").map _).of_eq (by simp)

-----------------------------------------------------------------------------------------
-- Constants
-----------------------------------------------------------------------------------------

/-- The characters with which a literal may start, among others. -/
def startsLiteral (c : Char) : Bool :=
  c != 'N' && c != 'V' && c != '@' && c != 'L' && c != '[' && c != ')'

theorem startsLiteral_of_isDigit {c : Char} (h : isDigit c = true) : startsLiteral c = true := by
  simp only [startsLiteral, Bool.and_eq_true, bne_iff_ne]
  refine ⟨⟨⟨⟨⟨?_, ?_⟩, ?_⟩, ?_⟩, ?_⟩, ?_⟩ <;> exact ne_of_isDigit h rfl

theorem exists_cons_numberText (negative : Bool) (coefficient scale : Nat)
    : ∃ c more, Recorded.numberText negative coefficient scale = c :: more
        ∧ startsLiteral c = true := by
  obtain ⟨c, more, hcons, hc⟩ := Decimal.exists_cons_unsigned coefficient scale
  cases negative with
  | true => exact ⟨'-', _, rfl, by decide⟩
  | false => exact ⟨c, more, by simp [Recorded.numberText, hcons], startsLiteral_of_isDigit hc⟩

theorem exists_cons_dateText (d : Date) (rest : List Char)
    : ∃ c more, d.text.toList ++ rest = c :: more ∧ startsLiteral c = true := by
  have hne : d.text.toList ≠ [] := by
    simp [Date.text]
  obtain ⟨c, more, hcons⟩ := List.exists_cons_of_ne_nil hne
  refine ⟨c, more ++ rest, by rw [hcons, List.cons_append], ?_⟩
  rcases mem_dateText (hcons ▸ List.mem_cons_self : c ∈ d.text.toList) with hc | rfl | rfl
  · exact startsLiteral_of_isDigit hc
  · decide
  · decide

theorem exists_cons_guidText (g : Guid)
    : ∃ c more, g.text.toList = c :: more ∧ startsLiteral c = true := by
  have hne : g.text.toList ≠ [] :=
    List.length_pos_iff.mp (by rw [g.length_text]; decide)
  have all : ∀ d < 16, startsLiteral (Nat.digitChar d) = true := by decide
  obtain ⟨c, more, hcons⟩ := List.exists_cons_of_ne_nil hne
  refine ⟨c, more, hcons, ?_⟩
  rcases mem_guidText (hcons ▸ List.mem_cons_self : c ∈ g.text.toList) with rfl | ⟨d, hd, rfl⟩
  · decide
  · exact all d hd

/-- No literal starts like a node of another kind that is told by its first character. -/
theorem exists_cons_recorded {payload : Payload} {primitive : Primitive} {text : String}
    (h : Literal.payloadText? primitive payload = some text) (hlegible : payload.IsLegible)
    (hflat : payload.IsFlat)
    : ∃ c more, (Recorded.ofPayload payload).text = c :: more ∧ startsLiteral c = true := by
  have hquote (text : String) : ∃ c more, (quote text).toList = c :: more
      ∧ startsLiteral c = true :=
    ⟨Quoted.mark, _, String.toList_ofList, by decide⟩
  cases payload with
  | binary bytes | string text => exact hquote _
  | byte n | sbyte n | int16 n | int32 n | int64 n | decimal d =>
      exact exists_cons_numberText _ _ _
  | boolean b =>
      cases b with
      | true => exact ⟨'T', "rue".toList, rfl, by decide⟩
      | false => exact ⟨'F', "alse".toList, rfl, by decide⟩
  | guid g => exact exists_cons_guidText g
  | time t =>
      obtain ⟨c, more, hcons, hc⟩ := exists_cons_paddedDigits 2 t.hour
      rw [text_time, Time.toList_text, hcons]
      exact ⟨c, _, rfl, startsLiteral_of_isDigit hc⟩
  | dateTime t =>
      rw [text_dateTime, DateTime.toList_text]
      exact exists_cons_dateText t.date _
  | dateTimeOffset t =>
      simp only [Recorded.ofPayload, Recorded.text, DateTime.toList_text, List.append_assoc]
      exact exists_cons_dateText t.localTime.carried.date _
  | geometry s =>
      rw [toList_shapeText]
      exact ⟨'S', _, rfl, by decide⟩
  | geography s => cases hflat
  | hierarchyId path => cases primitive <;> cases h
  | single value | double value => cases hlegible

theorem nodeOf_of_startsLiteral {c : Char} (h : startsLiteral c = true)
    : nodeOf operand c = .either constant (callEntry operand) := by
  simp only [startsLiteral, Bool.and_eq_true, bne_iff_ne] at h
  obtain ⟨⟨⟨⟨⟨hN, hV⟩, hat⟩, hL⟩, hbracket⟩, hparenthesis⟩ := h
  simp only [nodeOf, if_neg hN, if_neg hV, if_neg hat, if_neg hL, if_neg hbracket,
    if_neg hparenthesis]

/-- Constants are told by their literals. -/
theorem constant_reads {value : Payload} {usage : TypeUsage} {text : String}
    (h : Literal.text value usage = .ok text) (hlegible : value.IsLegible) (hflat : value.IsFlat)
    (husage : Passes true 0 usage.identity.toList)
    : ReadsBefore Follows (node operand) [.literal text, .mark ":", .raw usage.identity]
        (.literal (.ofPayload value) usage.identity) := by
  obtain ⟨primitive, -, hpayload⟩ := exists_payloadText? h
  obtain ⟨c, more, hcons, hc⟩ := exists_cons_recorded hpayload hlegible hflat
  have htext := toList_literal h
  have hconstant : ReadsBefore Follows constant [.literal text, .mark ":", .raw usage.identity]
      (.literal (.ofPayload value) usage.identity) := by
    intro rest hrest
    have hliteral := literal_text hpayload hlegible hflat husage hrest
    have hidentity := ((ReadsBefore.raw husage fun _ hrest => hrest.takeIdentity).skip ":").map
      (Entry.literal (.ofPayload value)) rest hrest
    have hspell : spell [.literal text, .mark ":", .raw usage.identity] ++ rest
        = (Recorded.ofPayload value).text ++ ':' :: (usage.identity.toList ++ rest) := by
      simp [Piece.text, htext]
    have hbehind : spell [.mark ":", .raw usage.identity] ++ rest
        = ':' :: (usage.identity.toList ++ rest) := by
      simp [Piece.text]
    rw [hbehind] at hidentity
    simp only [constant, hspell, hliteral, Option.bind_eq_bind, Option.bind_some, hidentity]
    rfl
  refine node_reads_of_head (c := c) ?_ ⟨more ++ spell [.mark ":", .raw usage.identity], ?_⟩
  · rw [nodeOf_of_startsLiteral hc]
    exact hconstant.left _
  · rw [spell_cons, Piece.text, htext, hcons, List.cons_append]

/-- No literal starts like a call. -/
theorem callEntry_reads {g : Function} {arguments : List Expr} (hg : g.Built)
    (h : ∀ e ∈ arguments, ReadsOperand operand e)
    : Reads (.either constant (callEntry operand)) (Piece.call g arguments)
        (Layout.plain (.call (recordedFunction g) (arguments.map fun _ => ()))) := by
  refine ReadsBefore.right ((call_reads hg h).map _) fun rest _ => ?_
  have hF : 'F' ≠ Quoted.mark := by decide
  simp [constant, literal, Piece.call, Piece.text, hF, Scan.word, Scan.literal]

-----------------------------------------------------------------------------------------
-- Any node
-----------------------------------------------------------------------------------------

theorem node_reads_of_mark {P : List Char → Prop} {w : String} {pieces : List (Piece Expr)}
    {e : Entry} (c : Char) (hw : w.toList.head? = some c)
    (h : ReadsBefore P (nodeOf operand c) (.mark w :: pieces) e)
    : ReadsBefore P (node operand) (.mark w :: pieces) e := by
  obtain ⟨more, hmore⟩ := List.head?_eq_some_iff.mp hw
  exact node_reads_of_head h ⟨more ++ spell pieces, by rw [spell_cons, Piece.text, hmore]; rfl⟩

theorem node_reads_of_kind {k : NodeKind} {P : List Char → Prop} {pieces : List (Piece Expr)}
    {e : Entry} (h : ReadsBefore P (layout operand (shown k)) pieces e)
    : ReadsBefore P (node operand) (Piece.kind k :: pieces) e := by
  refine node_reads_of_mark '[' ?_ (bracketed_reads k h)
  simp

theorem constantNode_reads {value : Payload} {usage : TypeUsage} {pieces : List (Piece Expr)}
    (ht : template usage (.constant value) = .ok pieces) (hlegible : value.IsLegible)
    (hflat : value.IsFlat) (husage : Passes true 0 usage.identity.toList)
    : ReadsBefore Follows (node operand) pieces (entry usage (.constant value)) := by
  obtain ⟨text, hl, rfl⟩ := exists_literal ht
  exact constant_reads hl hlegible hflat husage

/-- Operators have pieces only with as many operands as they need, one or two. -/
theorem arithmeticNode_reads {usage : TypeUsage} {op : ArithmeticOp} {arguments : List Expr}
    {pieces : List (Piece Expr)} (ht : template usage (.arithmetic op arguments) = .ok pieces)
    (h : ∀ e ∈ arguments, ReadsOperand operand e)
    : ReadsBefore Follows (node operand) pieces
        (entry usage (Body.arithmetic op arguments).shape) := by
  simp only [template] at ht
  split at ht
  · next harity =>
      cases ht
      refine node_reads_of_kind ?_
      cases op with
      | unaryMinus =>
          obtain ⟨e, rfl⟩ := List.length_eq_one_iff.mp harity
          have hminus := Layout.minus_reads (h e (by simp))
          exact hminus.mono fun _ hrest => hrest.head?_ne
      | minus =>
          obtain ⟨left, right, rfl⟩ := List.length_eq_two.mp harity
          have hboth := Layout.arithmetic_reads .minus (h left (by simp)) (h right (by simp))
          exact (hboth.left _).before
      | _ =>
          obtain ⟨left, right, rfl⟩ := List.length_eq_two.mp harity
          exact (Layout.arithmetic_reads _ (h left (by simp)) (h right (by simp))).before
  · cases ht

/-- Every node but a property is read in front of what may follow an expression, if its operands
are.
-/
theorem node_reads {usage : TypeUsage} {body : Body Expr} {pieces : List (Piece Expr)}
    (ht : template usage body = .ok pieces) (hu : usage.Built) (hb : body.IsLegible)
    (hflat : body.IsFlat) (hproperty : ∀ subject name, body ≠ .property subject name)
    (h : ∀ e ∈ body.children, ReadsOperand operand e) (hend : ∀ rest, operand (')' :: rest) = none)
    : ReadsBefore Follows (node operand) pieces (entry usage body.shape) := by
  have husage := hu.identity.passes
  have htype := hu.type.identity.passes
  cases body with
  | property subject name => exact absurd rfl (hproperty subject name)
  | extension name arguments => cases ht
  | constant value => exact constantNode_reads ht hb (hflat value rfl) husage
  | null =>
      cases ht
      exact node_reads_of_mark 'N' (by decide) (null_reads husage)
  | variableRef name =>
      cases ht
      exact node_reads_of_mark 'V' (by decide) (variableRef_reads name).before
  | parameter name =>
      cases ht
      exact node_reads_of_mark '@' (by decide) (parameter_reads hb husage)
  | scan set =>
      cases ht
      exact node_reads_of_kind (Layout.scan_reads hb (htype true)).before
  | call g arguments =>
      cases ht
      exact node_reads_of_mark 'F' (by decide) (callEntry_reads hb h).before
  | lambda formals body arguments =>
      cases ht
      refine node_reads_of_mark 'L' (by decide) (ReadsBefore.before ?_)
      exact lambda_reads hb (h body (by simp [Body.children])) fun e he =>
        h e (by simp [Body.children, he])
  | comparison op left right =>
      cases ht
      have hboth := both_reads (h left (by simp [Body.children]))
        (h right (by simp [Body.children]))
      refine node_reads_of_kind (ReadsBefore.before ?_)
      cases op <;> exact hboth.map _
  | binary op left right =>
      cases ht
      have hboth := both_reads (h left (by simp [Body.children]))
        (h right (by simp [Body.children]))
      refine node_reads_of_kind (ReadsBefore.before ?_)
      cases op <;> exact hboth.map _
  | unary op argument =>
      cases ht
      have hargument := parenthesized_reads (h argument (by simp [Body.children]))
      refine node_reads_of_kind (ReadsBefore.before ?_)
      cases op <;> exact hargument.map _
  | convert op argument =>
      cases ht
      have htyped := typed_reads (h argument (by simp [Body.children])) husage
      refine node_reads_of_kind (ReadsBefore.before ?_)
      cases op <;> exact htyped.map _
  | typeTest op argument tested only =>
      cases ht
      have htested := hb.type.identity.passes true
      have htyped := typed_reads (h argument (by simp [Body.children])) htested
      refine node_reads_of_kind (ReadsBefore.before ?_)
      cases op <;> cases only <;> exact htyped.map _
  | like argument pattern escape =>
      cases ht
      refine node_reads_of_kind (ReadsBefore.before ?_)
      exact Layout.like_reads (h argument (by simp [Body.children]))
        (h pattern (by simp [Body.children]))
        (fun e he => h e (by simp [Body.children, Option.mem_def.mp he])) hend
  | arithmetic op arguments => exact arithmeticNode_reads ht h
  | inList item list =>
      cases ht
      refine node_reads_of_kind (ReadsBefore.before ?_)
      exact Layout.inList_reads (h item (by simp [Body.children]))
        (fun e he => h e (by simp [Body.children, he])) hend
  | case arms otherwise =>
      cases ht
      refine node_reads_of_kind (ReadsBefore.before ?_)
      exact Layout.case_reads (fun a ha => h _ (Body.mem_children_of_arm ha).1)
        (fun a ha => h _ (Body.mem_children_of_arm ha).2) (h otherwise (by simp [Body.children]))
  | newInstance arguments related =>
      cases ht
      refine node_reads_of_kind (ReadsBefore.before ?_)
      exact Layout.newInstance_reads (htype false)
        (fun e he => h e (by simp [Body.children, he])) hb
        fun r hr => h r.reference (Body.mem_children_of_related hr)
  | ref set argument =>
      simp only [template] at ht
      split at ht
      · next element helement =>
          cases ht
          have hread := Layout.ref_reads hb ((hu.type.referenced helement).identity.passes true)
            (h argument (by simp [Body.children]))
          refine node_reads_of_kind (ReadsBefore.before (hread.told ?_))
          simp [entry, Body.shape, Body.map, helement]
      · cases ht
  | navigate source start target =>
      cases ht
      refine node_reads_of_kind (ReadsBefore.before ?_)
      exact Layout.navigate_reads (h source (by simp [Body.children])) hb.1 hb.2
  | limit argument count withTies =>
      cases ht
      refine node_reads_of_kind (ReadsBefore.before ?_)
      exact Layout.limit_reads withTies (h argument (by simp [Body.children]))
        (h count (by simp [Body.children]))
  | filter input predicate | project input projection =>
      cases ht
      refine node_reads_of_kind (ReadsBefore.before ?_)
      exact (bound_reads (h input.source (by simp [Body.children]))
        (h _ (by simp [Body.children]))).map _
  | quantify quantifier input predicate =>
      cases ht
      have hbound := bound_reads (h input.source (by simp [Body.children]))
        (h predicate (by simp [Body.children]))
      refine node_reads_of_kind (ReadsBefore.before ?_)
      cases quantifier <;> exact hbound.map _
  | crossJoin inputs =>
      cases ht
      refine node_reads_of_kind (ReadsBefore.before ?_)
      exact Layout.crossJoin_reads fun b hb => h b.source (List.mem_map_of_mem hb)
  | join kind left right condition =>
      cases ht
      have hread (kind) := Layout.join_reads kind (h left.source (by simp [Body.children]))
        (h right.source (by simp [Body.children])) (h condition (by simp [Body.children]))
      refine node_reads_of_kind (ReadsBefore.before ?_)
      cases kind <;> exact hread _
  | apply kind input applied =>
      cases ht
      have hread (kind) := Layout.apply_reads kind (h input.source (by simp [Body.children]))
        (h applied.source (by simp [Body.children]))
      refine node_reads_of_kind (ReadsBefore.before ?_)
      cases kind <;> exact hread _
  | groupBy input keys aggregates =>
      cases ht
      refine node_reads_of_kind (ReadsBefore.before ?_)
      exact Layout.groupBy_reads (h input.source (by simp [Body.children]))
        (fun e he => h e (by simp [Body.children, he])) hb
        fun a ha e he => h e (Body.mem_children_of_aggregate ha he)
  | skip input order count =>
      cases ht
      have hkey (c) (hc : c ∈ order) := h c.key (Body.mem_children_of_skipClause hc)
      refine node_reads_of_kind (ReadsBefore.before ?_)
      exact Layout.skip_reads (h input.source (by simp [Body.children])) hb hkey
        (h count (by simp [Body.children]))
  | sort input order =>
      cases ht
      have hkey (c) (hc : c ∈ order) := h c.key (Body.mem_children_of_sortClause hc)
      refine node_reads_of_kind (ReadsBefore.before ?_)
      exact Layout.sort_reads (h input.source (by simp [Body.children])) hb hkey

end QueryKey.Key.Reader
