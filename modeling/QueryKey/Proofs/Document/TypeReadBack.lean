import QueryKey.Proofs.Document.LeafReadBack

/-! Types and their usages read back, by induction on how they are put together. -/

namespace QueryKey.Document

open QueryKey.Expr QueryKey.Metadata QueryKey.Text

theorem KindForm.ofWord?_word (form : KindForm)
    : Vocabulary.ofWord? (Vocabulary.word form) = some form := by
  cases form <;> decide

-----------------------------------------------------------------------------------------
-- Type kinds
-----------------------------------------------------------------------------------------

/-- A kind with content is read back if its content is. -/
theorem ReadsBack.typeKind (form : KindForm) {x : form.content.Carrier Expr} {kind : TypeKind}
    {json : Json} (hkind : form.make x = kind)
    (hwrite : writeTypeKind kind = .object [(Vocabulary.word form, json)]) (hkept : json.IsKept)
    (hread : ∀ nested, readContent nested form.content (.some (partOf json.arranged)) = .ok x)
    : ReadsBack .typeKind kind where
  kept := by
    rw [Shape.map, write, hwrite, isKept_object]
    exact fun m hm => List.mem_singleton.mp hm ▸ hkept
  reads nested := by
    have hcontent := hread nested
    rw [partOf] at hcontent
    rw [Shape.map, write, hwrite, read_eq_readLevel, readLevel]
    simp only [Json.arranged, Json.arrangedMembers, Json.insertMember, levelOf, partsOfMembers,
      readWord, bind, Except.bind, formOfWord_word form.ofWord?_word, hcontent]
    rw [Except.map, hkind]

/-- A kind without content is read back. -/
theorem ReadsBack.typeWord (form : KindForm) {kind : TypeKind}
    (hread : ∀ nested,
      (readContent nested form.content .none).map (form.make (ε := Expr)) = .ok kind)
    (hwrite : writeTypeKind kind = .string (Vocabulary.word form))
    : ReadsBack .typeKind kind where
  kept := by
    rw [Shape.map, write, hwrite]
    trivial
  reads nested := by
    rw [Shape.map, write, hwrite, read_eq_readLevel, readLevel]
    simp only [Json.arranged, levelOf, readWord, bind, Except.bind,
      formOfWord_word form.ofWord?_word]
    exact hread nested

/-- The fields that stand inside a kind. -/
theorem readContent_fields {r : Record} {x : r.Carrier Expr} (h : ReadsBack (.record r) x)
    (nested : Bool)
    : readContent nested (.fields r)
        (.some (partOf (write (.record r) ((Shape.record r).map writeExpr x)).arranged))
      = .ok x := by
  have hread := h.reads nested
  rw [write] at hread ⊢
  exact hread

-----------------------------------------------------------------------------------------
-- Types and usages
-----------------------------------------------------------------------------------------

theorem ReadsBack.type {identity : String} {kind : TypeKind} (h : ReadsBack .typeKind kind)
    : ReadsBack .type (.mk identity kind) := by
  have hfields : FieldsReadBack typeFields (identity, kind, ()) :=
    ⟨text_readsBack identity, h, trivial⟩
  have hread (level : Level) (nested : Bool) : readLevel level nested .type
      = (readFields nested typeFields level).map fun x => .mk x.1 x.2.1 :=
    rfl
  have hmembers : membersOf typeFields (identity, kind, ())
      = [("identity", .string identity), ("kind", writeTypeKind kind)] := by
    refine (membersOf_pair "identity" .text identity "kind" .typeKind kind).trans ?_
    simp only [Shape.map, write, Leaf.write]
  exact ofFields hfields (by decide) (by rw [hmembers, Shape.map, write, writeType]) hread

theorem ReadsBack.usage {identity : String} {type : ModelType} (h : ReadsBack .type type)
    : ReadsBack .usage (.mk identity type) := by
  have hfields : FieldsReadBack usageFields (identity, type, ()) :=
    ⟨text_readsBack identity, h, trivial⟩
  have hread (level : Level) (nested : Bool) : readLevel level nested .usage
      = (readFields nested usageFields level).map fun x => .mk x.1 x.2.1 :=
    rfl
  have hmembers : membersOf usageFields (identity, type, ())
      = [("identity", .string identity), ("edm_type", writeType type)] := by
    refine (membersOf_pair "identity" .text identity "edm_type" .type type).trans ?_
    simp only [Shape.map, write, Leaf.write]
  exact ofFields hfields (by decide) (by rw [hmembers, Shape.map, write, writeUsage]) hread

theorem enumeration_readsBack (underlying : Primitive)
    : ReadsBack .typeKind (.enumeration underlying) := by
  have hrecord : ReadsBack (.record .enumeration) underlying :=
    .record ⟨word_readsBack .primitive underlying, trivial⟩
  have hmembers : membersOf Record.enumeration.fields (Record.enumeration.values underlying)
      = [("underlying", .string underlying.name)] := by
    refine (membersOf_singleton "underlying" (.word .primitive) underlying).trans ?_
    rw [Shape.map, write]
    rfl
  refine .typeKind .enumeration rfl ?_ hrecord.kept (readContent_fields hrecord)
  rw [write_record, hmembers, writeTypeKind]
  rfl

theorem collection_readsBack {element : TypeUsage} (h : ReadsBack .usage element)
    : ReadsBack .typeKind (.collection element) := by
  have hrecord : ReadsBack (.record .collection) element :=
    .record ⟨h, trivial⟩
  have hmembers : membersOf Record.collection.fields (Record.collection.values element)
      = [("element", writeUsage element)] := by
    refine (membersOf_singleton "element" .usage element).trans ?_
    rw [Shape.map, write]
  refine .typeKind .collection rfl ?_ hrecord.kept (readContent_fields hrecord)
  rw [write_record, hmembers, writeTypeKind]
  rfl

theorem reference_readsBack {element : ModelType} (h : ReadsBack .type element)
    : ReadsBack .typeKind (.reference element) := by
  have hrecord : ReadsBack (.record .reference) element :=
    .record ⟨h, trivial⟩
  have hmembers : membersOf Record.reference.fields (Record.reference.values element)
      = [("element", writeType element)] := by
    refine (membersOf_singleton "element" .type element).trans ?_
    rw [Shape.map, write]
  refine .typeKind .reference rfl ?_ hrecord.kept (readContent_fields hrecord)
  rw [write_record, hmembers, writeTypeKind]
  rfl

theorem primitive_readsBack (kind : Primitive) : ReadsBack .typeKind (.primitive kind) := by
  have hword := word_readsBack .primitive kind
  have hwrite : writeTypeKind (.primitive kind)
      = .object [(Vocabulary.word KindForm.primitive,
          write (.word .primitive) ((Shape.word .primitive).map writeExpr kind))] := by
    rw [writeTypeKind, Shape.map, write]
    rfl
  exact .typeKind .primitive rfl hwrite hword.kept hword.reads

mutual
theorem type_readsBack : (type : ModelType) → ReadsBack .type type
  | .mk _ kind => .type (typeKind_readsBack kind)

/-- Type kinds are read back, by induction on them. -/
theorem typeKind_readsBack : (kind : TypeKind) → ReadsBack .typeKind kind
  | .primitive kind => primitive_readsBack kind
  | .enumeration underlying => enumeration_readsBack underlying
  | .entity => .typeWord .entity (fun _ => rfl) rfl
  | .complex => .typeWord .complex (fun _ => rfl) rfl
  | .row => .typeWord .row (fun _ => rfl) rfl
  | .collection element => collection_readsBack (usage_readsBack element)
  | .reference element => reference_readsBack (type_readsBack element)

theorem usage_readsBack : (usage : TypeUsage) → ReadsBack .usage usage
  | .mk _ type => .usage (type_readsBack type)
end

end QueryKey.Document
