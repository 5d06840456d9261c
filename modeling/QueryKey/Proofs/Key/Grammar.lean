import QueryKey.Proofs.Key.CleanTree
import QueryKey.Proofs.Key.Fragments

/-! The grammar of keys: a reader for every notation of a template, and what it reads. Operands
are left to a reader of their own.
-/

namespace QueryKey.Key.Reader

open QueryKey.Expr QueryKey.Metadata QueryKey.Text

variable (operand : Scan Outline)

-----------------------------------------------------------------------------------------
-- Marks
-----------------------------------------------------------------------------------------

theorem closes_mark {w : String} (h : w.toList.head? = some ')') (rest : List Char)
    : Closes (w.toList ++ rest) := by
  obtain ⟨more, hw⟩ := List.head?_eq_some_iff.mp h
  rw [hw]
  exact .parenthesis _

theorem closes_comma (rest : List Char) : Closes (",".toList ++ rest) :=
  .comma rest

/-- Identities end in front of a mark that starts neither like a word nor with a bracket. -/
theorem takeIdentity_mark {facets : Bool} {w : String}
    (h : w.toList.head?.any (fun c => !isWordChar c && c != '[' && c != '(') = true)
    (rest : List Char)
    : takeIdentity facets 0 (w.toList ++ rest) = ([], w.toList ++ rest) := by
  refine takeIdentity_of_head fun c hc => ?_
  cases hw : w.toList with
  | nil => simp [hw] at h
  | cons d more =>
      obtain rfl : d = c := by simpa [hw] using hc
      simpa [hw, and_assoc] using h

/-- A part behind a mark is not read in front of a text that starts otherwise. -/
theorem skip_eq_none {α : Type} {s : Fragment α} {w : String} {c : Char} {text : List Char}
    (h : w.toList.head? = some c) (ht : text.head? ≠ some c)
    : Fragment.skip w s text = none := by
  obtain ⟨more, hw⟩ := List.head?_eq_some_iff.mp h
  have hword : word w text = none := by
    rw [word, hw]
    cases text with
    | nil => rfl
    | cons d rest =>
        have hd : d ≠ c := by simpa using ht
        simp [Scan.word, Scan.literal, hd]
  rw [Fragment.skip, hword]
  rfl

theorem map_eq_none {α β : Type} {s : Fragment α} {f : α → β} {text : List Char}
    (h : s text = none)
    : s.map f text = none := by
  rw [Fragment.map, Scan.map, h]
  rfl

theorem either_eq_none {α : Type} {s t : Fragment α} {text : List Char} (hs : s text = none)
    (ht : t text = none)
    : Fragment.either s t text = none := by
  rw [Fragment.either, hs, ht]
  rfl

-----------------------------------------------------------------------------------------
-- Parts
-----------------------------------------------------------------------------------------

def parenthesized : Fragment Unit :=
  .skip "(" (.operandMark operand ")")

def binding : Fragment (Binding Unit) :=
  (Fragment.skip "BV" (.pair (.nameMark "=(") (.operandMark operand ")"))).map
    fun (name, source) => ⟨name, source⟩

def groupBinding : Fragment (GroupBinding Unit) :=
  (Fragment.skip "GBVV"
    (.pair (.nameMark ",") (.pair (.nameMark "=(") (.operandMark operand ")")))).map
    fun (name, groupName, source) => ⟨name, groupName, source⟩

def call : Fragment (Function × List Unit) :=
  (Fragment.skip "FUNC<"
    (.pair (.rawMark true ">:ARGS(") (.pair (.many (parenthesized operand)) (.mark ")")))).map
    fun (identity, arguments, _) => (⟨"", identity⟩, arguments)

def formal : Fragment Formal :=
  (Fragment.skip "(V" (.pair (.nameMark ":") (.rawMark true ")"))).map
    fun (name, identity) => ⟨name, identified identity⟩

def navigation : Fragment (RelationEnd × RelationEnd) :=
  (Fragment.skip "A("
    (.pair (.rawMark true ")(") (.pair (.rawMark true "->") (.rawMark true ")")))).map
    fun (association, start, target) => (⟨start, association⟩, ⟨target, ""⟩)

def collation : Fragment (Option String) :=
  .either ((Fragment.skip ":(" (.rawMark true ")")).map some) (.nothing none)

def clause : Fragment (SortClause Unit) :=
  .either
    ((Fragment.skip "ASC(" (.pair (.operandMark operand ")") collation)).map
      fun (key, collation) => ⟨key, true, collation⟩)
    ((Fragment.skip "DESC(" (.pair (.operandMark operand ")") collation)).map
      fun (key, collation) => ⟨key, false, collation⟩)

def arm : Fragment (Arm Unit) :=
  (Fragment.skip "WHEN:(" (.pair (.operandMark operand ")THEN:(") (.operandMark operand ")"))).map
    fun (condition, result) => ⟨condition, result⟩

def related : Fragment (RelatedRef Unit) :=
  (Fragment.skip "RE(" (.pair navigation (.pair (parenthesized operand) (.mark ")")))).map
    fun ((source, target), reference, _) => ⟨source, target, reference⟩

def aggregate : Fragment (Aggregate Unit) :=
  .either ((Fragment.skip "GA" (parenthesized operand)).map .group)
    (.skip "A:"
      (.either
        ((Fragment.skip "D:" (call operand)).map fun (g, arguments) => .function g true arguments)
        ((call operand).map fun (g, arguments) => .function g false arguments)))

def groupKey : Fragment Unit :=
  .skip "K" (parenthesized operand)

variable {operand}

theorem parenthesized_reads {e : Expr} (h : ReadsOperand operand e)
    : Reads (parenthesized operand) (Piece.parenthesized e) () :=
  (ReadsBefore.operandMark h (closes_mark (by decide))).skip "("

theorem binding_reads {b : Binding Expr} (h : ReadsOperand operand b.source)
    : Reads (binding operand) (Piece.binding b) (b.map fun _ => ()) :=
  (((ReadsBefore.nameMark b.name (by decide) (by decide)).pair
    (.operandMark h (closes_mark (by decide)))).skip "BV").map _

theorem groupBinding_reads {b : GroupBinding Expr} (h : ReadsOperand operand b.source)
    : Reads (groupBinding operand) (Piece.groupBinding b) (b.map fun _ => ()) :=
  (((ReadsBefore.nameMark b.name (by decide) (by decide)).pair
    ((ReadsBefore.nameMark b.groupName (by decide) (by decide)).pair
      (.operandMark h (closes_mark (by decide))))).skip "GBVV").map _

/-- The container and the name of an entity set, which a key joins with a dot. -/
theorem setName_reads {set : EntitySet} (h : set.IsClean) {facets : Bool} {w : String}
    (hw : ∀ rest, takeIdentity facets 0 (w.toList ++ rest) = ([], w.toList ++ rest))
    : Reads (.rawMark facets w) (Piece.setName set ++ [.mark w]) set.qualifiedName := by
  have hdot : Passes facets 0 ['.'] := .word (List.forall_mem_singleton.mpr rfl)
  have hname : Passes facets 0 set.qualifiedName.toList := by
    simpa [EntitySet.qualifiedName] using (Passes.name h.1).append (hdot.append (.name h.2))
  refine (ReadsBefore.rawMark hname hw).of_spell ?_ rfl
  simp [Piece.setName, Piece.text, EntitySet.qualifiedName]

theorem formal_reads {f : Formal} (h : f.usage.Built)
    : Reads formal (Piece.formal f) (recordedFormal f) :=
  (((ReadsBefore.nameMark f.name (by decide) (by decide)).pair
    (.rawMark h.identity.passes (takeIdentity_mark (by decide)))).skip "(V").map _

theorem navigation_reads {start target : RelationEnd} (hs : start.IsClean) (ht : target.IsClean)
    : Reads navigation (Piece.navigation start target) (start, recordedTarget target) :=
  (((ReadsBefore.rawMark (.name hs.2) (takeIdentity_mark (by decide))).pair
    ((ReadsBefore.rawMark (.name hs.1) (takeIdentity_mark (by decide))).pair
      (.rawMark (.name ht.1) (takeIdentity_mark (by decide))))).skip "A(").map _

theorem arm_reads {a : Arm Expr} (hc : ReadsOperand operand a.condition)
    (hr : ReadsOperand operand a.result)
    : Reads (arm operand) (Piece.arm a) (a.map fun _ => ()) :=
  (((ReadsBefore.operandMark hc (closes_mark (by decide))).pair
    (.operandMark hr (closes_mark (by decide)))).skip "WHEN:(").map _

theorem related_reads {r : RelatedRef Expr} (hs : r.source.IsClean) (ht : r.target.IsClean)
    (h : ReadsOperand operand r.reference)
    : Reads (related operand) (Piece.related r) (recordedRelated (r.map fun _ => ())) := by
  have hread := (parenthesized_reads h).closed
  exact ((((navigation_reads hs ht).pair hread).skip "RE(").map _).of_eq (by simp [Piece.related])

theorem groupKey_reads {e : Expr} (h : ReadsOperand operand e)
    : Reads (groupKey operand) (Piece.groupKey e) () :=
  (parenthesized_reads h).skip "K"

-----------------------------------------------------------------------------------------
-- Lists of parts
-----------------------------------------------------------------------------------------

/-- Arguments in their parentheses, in front of what does not start with one. -/
theorem arguments_reads {β : Type} {arguments : List Expr}
    (h : ∀ e ∈ arguments, ReadsOperand operand e) {t : Fragment β} {others : List (Piece Expr)}
    {b : β} (ht : Reads t others b) (hend : ∀ rest, (spell others ++ rest).head? ≠ some '(')
    : Reads (.pair (.many (parenthesized operand)) t) (Piece.eachParenthesized arguments ++ others)
        (arguments.map fun _ => (), b) :=
  .many_pair (fun e he => parenthesized_reads (h e he)) (fun _ _ _ => trivial) ht
    (fun _ => trivial) fun rest => skip_eq_none (c := '(') (by decide) (hend rest)

theorem call_reads {g : Function} {arguments : List Expr} (hg : g.Built)
    (h : ∀ e ∈ arguments, ReadsOperand operand e)
    : Reads (call operand) (Piece.call g arguments)
        (recordedFunction g, arguments.map fun _ => ()) := by
  refine ReadsBefore.of_eq (((ReadsBefore.rawMark hg.identity (takeIdentity_mark (by decide))).pair
    (arguments_reads h (.mark ")") fun rest => ?_)).skip "FUNC<" |>.map _) (by simp [Piece.call])
  simp [Piece.text]

/-- What is read as no collation after a sort key. -/
theorem collation_reads_none
    : ReadsBefore (fun rest => rest.head? ≠ some ':') collation [] none := by
  intro rest hrest
  rw [collation, Fragment.either, spell_nil, List.nil_append,
    map_eq_none (skip_eq_none (c := ':') (by decide) hrest)]
  rfl

theorem collation_reads_some {name : String} (h : isClean name = true)
    : Reads collation [.mark ":(", .raw name, .mark ")"] (some name) :=
  (((ReadsBefore.rawMark (.name h) (takeIdentity_mark (by decide))).skip ":(").map some).left _

/-- A sort key with what is read of its collation. -/
theorem clause_reads_collation {key : Expr} (h : ReadsOperand operand key) (ascending : Bool)
    {P : List Char → Prop} {pieces : List (Piece Expr)} {name : Option String}
    (hname : ReadsBefore P collation pieces name)
    : ReadsBefore P (clause operand)
        ([.mark (if ascending then "ASC(" else "DESC("), .operand key, .mark ")"] ++ pieces)
        ⟨(), ascending, name⟩ := by
  have hkey : Reads (.operandMark operand ")") [.operand key, .mark ")"] () :=
    .operandMark h (closes_mark (by decide))
  cases ascending with
  | true => exact (((hkey.pair hname).skip "ASC(").map _).left _
  | false =>
      refine ReadsBefore.right (((hkey.pair hname).skip "DESC(").map _) fun rest _ => ?_
      exact map_eq_none (skip_eq_none (c := 'A') (by decide) (by simp [Piece.text]))

/-- A sort key, in front of what does not look like a collation. -/
theorem clause_reads {c : SortClause Expr} (hc : c.IsClean) (h : ReadsOperand operand c.key)
    : ReadsBefore (fun rest => rest.head? ≠ some ':') (clause operand) (Piece.clause c)
        (recordedClause (c.map fun _ => ())) := by
  rcases c with ⟨key, ascending, collation?⟩
  cases collation? with
  | none => exact clause_reads_collation h ascending collation_reads_none
  | some name =>
      by_cases hempty : name.isEmpty = true
      · have hread := clause_reads_collation h ascending collation_reads_none
        simpa [Piece.clause, recordedClause, SortClause.map, Option.filter, hempty] using hread
      · have hclean := (hc name rfl).resolve_left hempty
        have hread := clause_reads_collation h ascending (collation_reads_some hclean)
        simpa [Piece.clause, recordedClause, SortClause.map, Option.filter, hempty]
          using hread.before

theorem aggregate_reads {a : Aggregate Expr} (ha : a.IsClean)
    (h : ∀ e ∈ a.operands, ReadsOperand operand e)
    : Reads (aggregate operand) (Piece.aggregate a) (recordedAggregate (a.map fun _ => ())) := by
  cases a with
  | group argument =>
      exact (((parenthesized_reads (h argument (by simp [Aggregate.operands]))).skip "GA").map
        Aggregate.group).left _
  | function g distinct arguments =>
      have hcall := call_reads ha h
      refine ReadsBefore.right ?_ fun rest _ =>
        map_eq_none (skip_eq_none (c := 'G') (by decide) (by simp [Piece.aggregate, Piece.text]))
      cases distinct with
      | true => exact (((hcall.skip "D:").map _).left _).skip "A:"
      | false =>
          refine (ReadsBefore.right (hcall.map _) fun rest _ => ?_).skip "A:"
          exact map_eq_none (skip_eq_none (c := 'D') (by decide) (by simp [Piece.call, Piece.text]))

end QueryKey.Key.Reader
