import Mathlib.Data.List.Forall2
import Mathlib.Data.List.Nodup
import QueryKey.Proofs.Document.TreeReadBack
import QueryKey.Proofs.Json.Arrangement

/-! Readings that agree. A part of a document may be replaced by another one that is read alike:
whatever is read of the document remains the same, wherever the part stands in it.
-/

namespace QueryKey.Document

open QueryKey.Expr QueryKey.Text
open QueryKey.Json (SameKeys)

-----------------------------------------------------------------------------------------
-- Readings that agree
-----------------------------------------------------------------------------------------

/-- What the one reading gives, the other gives as well. -/
def Implies {φ α : Type} (r r' : Except φ α) : Prop :=
  ∀ x, r = .ok x → r' = .ok x

section Implies

variable {φ ψ α β : Type} {r r' : Except φ α}

theorem Implies.refl (r : Except φ α) : Implies r r :=
  fun _ h => h

theorem Implies.map (h : Implies r r') (f : α → β) : Implies (r.map f) (r'.map f) := by
  intro y hy
  cases r with
  | error fault => cases hy
  | ok x => rwa [h x rfl]

theorem Implies.mapError (h : Implies r r') (f : φ → ψ)
    : Implies (r.mapError f) (r'.mapError f) := by
  intro y hy
  cases r with
  | error fault => cases hy
  | ok x => rwa [h x rfl]

theorem Implies.bind {f g : α → Except φ β} (h : Implies r r')
    (hnext : ∀ x, r = .ok x → Implies (f x) (g x))
    : Implies (r >>= f) (r' >>= g) := by
  intro y hy
  cases r with
  | error fault => cases hy
  | ok x =>
      rw [h x rfl]
      exact hnext x rfl y hy

end Implies

-----------------------------------------------------------------------------------------
-- Fields
-----------------------------------------------------------------------------------------

section Fields

variable {nested : Bool} {fields : List Field}

theorem implies_fill {key : String} {part other : Part}
    (h : ∀ f ∈ fields, f.name = key
      → Implies (part.read nested f.shape) (other.read nested f.shape))
    (slots : Slots Expr fields)
    : Implies (fill nested key part fields slots) (fill nested key other fields slots) := by
  induction fields with
  | nil => exact .refl _
  | cons f rest ih =>
      obtain ⟨slot, slots⟩ := slots
      obtain ⟨hfirst, hrest⟩ := List.forall_mem_cons.mp h
      rw [fill, fill]
      split
      · next hname => exact (hfirst hname).map _
      · exact (ih hrest slots).map _

/-- The part of a member may be replaced by another one that is read alike as the field it is. -/
abbrev Replaceable (nested : Bool) (fields : List Field) (m n : String × Part) : Prop :=
  m.1 = n.1 ∧ ∀ f ∈ fields, f.name = m.1
    → Implies (m.2.read nested f.shape) (n.2.read nested f.shape)

theorem implies_readMembers {members others : List (String × Part)}
    (h : List.Forall₂ (Replaceable nested fields) members others)
    : Implies (readMembers nested fields members) (readMembers nested fields others) := by
  have hfill (slots : Slots Expr fields)
      : Implies (fillAll nested fields members slots) (fillAll nested fields others slots) := by
    induction h generalizing slots with
    | nil => exact .refl _
    | @cons m n _ _ hmember _ ih =>
        obtain ⟨key, part⟩ := m
        obtain ⟨key', other⟩ := n
        obtain ⟨rfl, hread⟩ := hmember
        exact (implies_fill hread slots).bind fun filled _ => ih filled
  exact (hfill _).bind fun slots _ => .refl _

/-- Members that are no field might as well not be there. -/
theorem readMembers_filter {key : String} (hkey : key ∉ fields.map Field.name)
    (members : List (String × Part))
    : readMembers nested fields (members.filter (·.1 ≠ key))
      = readMembers nested fields members := by
  have hfill (slots : Slots Expr fields)
      : fillAll nested fields (members.filter (·.1 ≠ key)) slots
        = fillAll nested fields members slots := by
    induction members generalizing slots with
    | nil => rfl
    | cons member rest ih =>
        obtain ⟨name, part⟩ := member
        by_cases hname : name = key
        · subst hname
          rw [List.filter_cons_of_neg (by simp), ih, fillAll, fill_of_not_mem hkey]
          rfl
        · rw [List.filter_cons_of_pos (by simpa using hname), fillAll, fillAll]
          simp only [ih]
  rw [readMembers, hfill, readMembers]

/-- One of the items may be replaced by another one that is read alike as the field it is. -/
theorem implies_readItems {front back : List Part} {part other : Part}
    (h : ∀ f, fields[front.length]? = some f
      → Implies (part.read nested f.shape) (other.read nested f.shape))
    : Implies (readItems nested fields (front ++ part :: back))
        (readItems nested fields (front ++ other :: back)) := by
  induction front generalizing fields with
  | nil =>
      cases fields with
      | nil => exact .refl _
      | cons f rest => exact (h f rfl).bind fun value _ => .refl _
  | cons item front ih =>
      cases fields with
      | nil => exact .refl _
      | cons f rest =>
          refine (Implies.refl _).bind fun value _ => Implies.bind ?_ fun values _ => .refl _
          exact ih fun g hg => h g hg

end Fields

theorem implies_readAll {α : Type} {read : Part → Read α} {part other : Part}
    (h : Implies (read part) (read other)) (front back : List Part)
    : Implies (readAll read (front ++ part :: back)) (readAll read (front ++ other :: back)) := by
  induction front with
  | nil => exact h.bind fun value _ => .refl _
  | cons item front ih =>
      exact (Implies.refl _).bind fun value _ => ih.bind fun values _ => .refl _

-----------------------------------------------------------------------------------------
-- Forms
-----------------------------------------------------------------------------------------

/-- A member of an arranged object is the part that the reader finds. -/
theorem lookup_arrangedParts_eq (tag : String) (members : List (String × Json))
    : (arrangedParts members).lookup tag
      = (Json.find? tag (Json.arrangedMembers members)).map partOf := by
  rw [arrangedParts, partsOfMembers_eq_map]
  induction Json.arrangedMembers members with
  | nil => rfl
  | cons member rest ih =>
      obtain ⟨key, value⟩ := member
      rw [List.map_cons, Prod.map, List.lookup_cons, Json.find?, ih]
      by_cases hkey : key = tag
      · simp [hkey]
      · simp [hkey, beq_false_of_ne (Ne.symm hkey)]

section Forms

variable {F : Type} [Vocabulary F] {nested : Bool}

/-- A tag that is read at all is read in the same way further inside. -/
theorem formOfTag_nested {json : Json} {form : F} (h : formOfTag nested json = .ok form)
    : formOfTag true json = .ok form := by
  cases nested with
  | true => exact h
  | false =>
      cases json with
      | string word => exact h
      | number value => cases value <;> simp [formOfTag, mismatch] at h
      | null | bool value | array items | object members => cases h

/-- Tags are left alone when documents are arranged. -/
theorem formOfTag_arranged (json : Json)
    : (formOfTag nested json.arranged : Read F) = formOfTag nested json := by
  cases json <;> rfl

/-- The fields of the form that a tag names, if it names one. -/
def fieldsOfTag? (fieldsOf : F → List Field) (tag : Json) : Option (List Field) :=
  (formOfTag true tag).toOption.map fieldsOf

variable {fieldsOf : F → List Field} {fields : List Field} {tag : String} {α : Type}
  {make : (form : F) → Values Expr (fieldsOf form) → α}

theorem fieldsOf_eq {json : Json} {form : F} (hfields : fieldsOfTag? fieldsOf json = some fields)
    (hform : formOfTag nested json = .ok form)
    : fieldsOf form = fields := by
  rw [fieldsOfTag?, formOfTag_nested hform] at hfields
  exact Option.some.inj hfields

/-- Of objects with the same tag the form is read alike if its fields are. -/
theorem implies_readTagged_object {members others : List (String × Json)}
    (hfields : (Json.find? tag (Json.arrangedMembers members)).bind (fieldsOfTag? fieldsOf)
      = some fields)
    (htag : Json.find? tag (Json.arrangedMembers others)
      = Json.find? tag (Json.arrangedMembers members))
    (h : Implies (readMembers true fields (arrangedParts members))
      (readMembers true fields (arrangedParts others)))
    : Implies (readTagged nested tag fieldsOf make (.object (arrangedParts members)))
        (readTagged nested tag fieldsOf make (.object (arrangedParts others))) := by
  rw [readTagged, readTagged, lookup_arrangedParts_eq, lookup_arrangedParts_eq, htag]
  obtain ⟨json, hjson, hform⟩ := Option.bind_eq_some_iff.mp hfields
  rw [hjson]
  -- Both objects are read in the form of the one tag; its fields are those that the tag names.
  refine (Implies.refl _).bind fun form hread => ?_
  obtain rfl := fieldsOf_eq hform hread
  exact h.map _

/-- Of arrays with the same tag the form is read alike if its fields are. -/
theorem implies_readTagged_array {json : Json} {items others : List Part}
    (hfields : fieldsOfTag? fieldsOf json = some fields)
    (h : Implies (readItems true fields items) (readItems true fields others))
    : Implies (readTagged nested tag fieldsOf make (.array (partOf json.arranged :: items)))
        (readTagged nested tag fieldsOf make (.array (partOf json.arranged :: others))) := by
  refine (Implies.refl _).bind fun form hread => ?_
  obtain rfl := fieldsOf_eq hfields ((formOfTag_arranged json).symm.trans hread)
  exact h.map _

end Forms

-----------------------------------------------------------------------------------------
-- Shapes with fields
-----------------------------------------------------------------------------------------

/-- The shape of what stands beside the word of a form, unless it is nothing. -/
def Content.shape? : Content → Option Shape
  | nothing => none
  | value s => some s
  | fields r => some (.record r)

namespace Shape

/-- The member that names the form, in shapes that have forms with fields of their own. -/
def tag? : Shape → Option String
  | body => some nodeTag
  | aggregate => some aggregateTag
  | _ => none

/-- The fields by which a document is read in the shape, given its tag if it has one. -/
def fields? (tag : Option Json) : Shape → Option (List Field)
  | record r => some r.fields
  | usage => some usageFields
  | type => some typeFields
  | expr => some exprFields
  | body => tag.bind (fieldsOfTag? NodeForm.fields)
  | aggregate => tag.bind (fieldsOfTag? AggregateForm.fields)
  | _ => none

/-- The tag among the members of an object; if it is repeated, the last one. -/
def tagAmong? (s : Shape) (members : List (String × Json)) : Option Json :=
  s.tag?.bind fun tag => Json.find? tag (Json.arrangedMembers members)

/-- The names that an object of these fields defines. -/
def definedNames (s : Shape) (fields : List Field) : List String :=
  s.tag?.toList ++ fields.map Field.name

/-- The shape of what stands beside a word, in shapes whose forms are named that way. -/
def content? (word : String) : Shape → Option Shape
  | payload => (Vocabulary.ofWord? word).map PayloadForm.shape
  | typeKind => (Vocabulary.ofWord? word).bind fun form : KindForm => form.content.shape?
  | _ => none

end Shape

variable {s : Shape} {fields : List Field} {j k : Json} {nested : Bool}

/-- No two names of a shape are the same. -/
theorem nodup_definedNames {tag : Option Json} (h : s.fields? tag = some fields)
    : (s.definedNames fields).Nodup := by
  cases s with
  | record r =>
      cases h
      cases r <;> decide
  | usage | type | expr =>
      cases h
      decide
  | body =>
      obtain ⟨json, -, hform⟩ := Option.bind_eq_some_iff.mp h
      obtain ⟨form, -, rfl⟩ := Option.map_eq_some_iff.mp hform
      exact form.nodup_names
  | aggregate =>
      obtain ⟨json, -, hform⟩ := Option.bind_eq_some_iff.mp h
      obtain ⟨form, -, rfl⟩ := Option.map_eq_some_iff.mp hform
      exact form.nodup_names
  | leaf l | word w | list s | optional s | payload | typeKind => cases h

/-- Objects with the same tag are read alike if their fields are. -/
theorem implies_read_object {members others : List (String × Json)}
    (hfields : s.fields? (s.tagAmong? members) = some fields)
    (htag : s.tagAmong? others = s.tagAmong? members)
    (h : ∀ nested, Implies (readMembers nested fields (arrangedParts members))
      (readMembers nested fields (arrangedParts others)))
    (nested : Bool)
    : Implies (read (Json.object members).arranged nested s)
        (read (Json.object others).arranged nested s) := by
  rw [read_eq_readLevel, read_eq_readLevel, levelOf_object, levelOf_object]
  cases s with
  | record r | usage | type | expr =>
      cases hfields
      exact (h nested).map _
  | body | aggregate => exact implies_readTagged_object hfields htag (h true)
  | leaf l | word w | list s | optional s | payload | typeKind => cases hfields

-----------------------------------------------------------------------------------------
-- Members
-----------------------------------------------------------------------------------------

/-- Values of one key that are the same, unless they are read as one of the fields; then they are
read alike.
-/
structure Agree (fields : List Field) (key : String) (v w : Json) : Prop where
  eq : key ∉ fields.map Field.name → v = w
  implies : ∀ nested, ∀ f ∈ fields, f.name = key → Implies (read v nested f.shape)
    (read w nested f.shape)

theorem Agree.refl (fields : List Field) (key : String) (v : Json) : Agree fields key v v :=
  ⟨fun _ => rfl, fun _ _ _ _ => .refl _⟩

/-- Values that are read alike as one field agree as that field. -/
theorem Agree.of_implies {fields : List Field} (hnodup : (fields.map Field.name).Nodup) {f : Field}
    (hf : f ∈ fields) (h : ∀ nested, Implies (read j nested f.shape) (read k nested f.shape))
    : Agree fields f.name j k := by
  refine ⟨fun hkey => absurd (List.mem_map_of_mem hf) hkey, fun nested g hg hname => ?_⟩
  obtain rfl := List.inj_on_of_nodup_map hnodup hg hf hname
  exact h nested

/-- Arranged members agree if one of them is replaced by another one that is read alike. -/
theorem agree_replace {fields : List Field} (hnodup : (fields.map Field.name).Nodup) {f : Field}
    (hf : f ∈ fields)
    (h : ∀ nested, Implies (read j.arranged nested f.shape) (read k.arranged nested f.shape))
    (front back : List (String × Json))
    : SameKeys (Agree fields) (Json.arrangedMembers (front ++ (f.name, j) :: back))
        (Json.arrangedMembers (front ++ (f.name, k) :: back)) := by
  have hmembers : SameKeys (fun key v w => Agree fields key v.arranged w.arranged)
      (front ++ (f.name, j) :: back) (front ++ (f.name, k) :: back) :=
    Json.sameKeys_replace (fun key v => .refl fields key v.arranged) f.name
      (.of_implies hnodup hf h) front back
  exact hmembers.arrangedMembers

/-- Members that agree are replaceable. -/
theorem replaceable_of_agree {fields : List Field} {members others : List (String × Json)}
    (h : SameKeys (Agree fields) members others) (nested : Bool)
    : List.Forall₂ (Replaceable nested fields) (partsOfMembers members)
        (partsOfMembers others) := by
  rw [partsOfMembers_eq_map, partsOfMembers_eq_map, List.forall₂_map_left_iff,
    List.forall₂_map_right_iff]
  exact h.imp fun m n hm => ⟨hm.1, fun f hf hname => hm.2.implies nested f hf hname⟩

/-- Values that agree in members are found alike. -/
theorem find?_eq_of_agree {fields : List Field} {members others : List (String × Json)}
    (h : SameKeys (Agree fields) members others) {key : String}
    (hkey : key ∉ fields.map Field.name)
    : Json.find? key others = Json.find? key members := by
  have hfound := h.find? key
  generalize Json.find? key members = v, Json.find? key others = w at hfound ⊢
  cases hfound with
  | none => rfl
  | some hagree => rw [hagree.eq hkey]

/-- A tag is no field. -/
theorem tag_not_mem {fields : List Field} {tag : Option Json} (h : s.fields? tag = some fields)
    {name : String} (hname : s.tag? = some name)
    : name ∉ fields.map Field.name := by
  have hnodup := nodup_definedNames h
  rw [Shape.definedNames, hname] at hnodup
  exact (List.nodup_cons.mp hnodup).1

theorem nodup_names {fields : List Field} {tag : Option Json} (h : s.fields? tag = some fields)
    : (fields.map Field.name).Nodup :=
  (List.nodup_append.mp (nodup_definedNames h)).2.1

/-- A member that is read alike as a field may be replaced. -/
theorem implies_field {fields : List Field} {front back : List (String × Json)} {f : Field}
    (hfields : s.fields? (s.tagAmong? (front ++ (f.name, j) :: back)) = some fields)
    (hf : f ∈ fields)
    (h : ∀ nested, Implies (read j.arranged nested f.shape) (read k.arranged nested f.shape))
    : Implies (read (Json.object (front ++ (f.name, j) :: back)).arranged nested s)
        (read (Json.object (front ++ (f.name, k) :: back)).arranged nested s) := by
  have hsame := agree_replace (nodup_names hfields) hf h front back
  refine implies_read_object hfields ?_ (fun nested => ?_) nested
  · cases hs : s.tag? with
    | none => simp [Shape.tagAmong?, hs]
    | some tag =>
        have hfound := find?_eq_of_agree hsame (tag_not_mem hfields hs)
        simp [Shape.tagAmong?, hs, hfound]
  · exact implies_readMembers (replaceable_of_agree hsame nested)

-----------------------------------------------------------------------------------------
-- Items
-----------------------------------------------------------------------------------------

/-- The parts of an arranged array. -/
def itemParts (items : List Json) : List Part :=
  items.map fun item => partOf item.arranged

theorem itemParts_append (front back : List Json) (j : Json)
    : itemParts (front ++ j :: back)
      = itemParts front ++ partOf j.arranged :: itemParts back := by
  simp [itemParts]

theorem levelOf_array (items : List Json)
    : levelOf (Json.array items).arranged = .array (itemParts items) := by
  have hparts : partsOfItems (Json.arrangedItems items) = itemParts items := by
    induction items with
    | nil => rfl
    | cons item rest ih => exact congrArg (partOf item.arranged :: ·) ih
  exact congrArg Level.array hparts

/-- Of fields that are given by position one may be replaced that is read alike. -/
theorem implies_readItems_itemParts {f : Field} {front : List Json}
    (hf : fields[front.length]? = some f)
    (h : Implies (read j.arranged nested f.shape) (read k.arranged nested f.shape))
    (back : List Json)
    : Implies (readItems nested fields (itemParts (front ++ j :: back)))
        (readItems nested fields (itemParts (front ++ k :: back))) := by
  rw [itemParts_append, itemParts_append]
  refine implies_readItems fun g hg => ?_
  rw [itemParts, List.length_map, hf] at hg
  cases hg
  exact h

/-- An item that is read alike as a field may be replaced in an array without a tag. -/
theorem implies_place {f : Field} {front back : List Json} (htag : s.tag? = none)
    (hfields : s.fields? none = some fields) (hf : fields[front.length]? = some f)
    (h : ∀ nested, Implies (read j.arranged nested f.shape) (read k.arranged nested f.shape))
    : Implies (read (Json.array (front ++ j :: back)).arranged nested s)
        (read (Json.array (front ++ k :: back)).arranged nested s) := by
  rw [read_eq_readLevel, read_eq_readLevel, levelOf_array, levelOf_array]
  cases s with
  | record r | usage | type | expr =>
      cases hfields
      exact (implies_readItems_itemParts hf (h nested) back).map _
  | body | aggregate => cases htag
  | leaf l | word w | list s | optional s | payload | typeKind => cases hfields

/-- An item that is read alike as a field may be replaced behind the tag of an array. -/
theorem implies_taggedPlace {f : Field} {tag : Json} {front back : List Json}
    (htag : s.tag?.isSome) (hfields : s.fields? (some tag) = some fields)
    (hf : fields[front.length]? = some f)
    (h : Implies (read j.arranged true f.shape) (read k.arranged true f.shape))
    : Implies (read (Json.array (tag :: (front ++ j :: back))).arranged nested s)
        (read (Json.array (tag :: (front ++ k :: back))).arranged nested s) := by
  rw [read_eq_readLevel, read_eq_readLevel, levelOf_array, levelOf_array]
  have hitems := implies_readItems_itemParts hf h back
  cases s with
  | body | aggregate => exact implies_readTagged_array hfields hitems
  | leaf l | word w | list s | optional s | record r | payload | usage | type | typeKind | expr =>
      cases htag

/-- An item of a list may be replaced that is read alike. -/
theorem implies_item {front back : List Json}
    (h : Implies (read j.arranged nested s) (read k.arranged nested s))
    : Implies (read (Json.array (front ++ j :: back)).arranged nested (.list s))
        (read (Json.array (front ++ k :: back)).arranged nested (.list s)) := by
  rw [read_eq_readLevel, read_eq_readLevel, levelOf_array, levelOf_array, itemParts_append,
    itemParts_append]
  exact implies_readAll h _ _

-----------------------------------------------------------------------------------------
-- Other shapes
-----------------------------------------------------------------------------------------

/-- Both are arrays, or both are objects. -/
inductive SameSort : Json → Json → Prop where
  | array (items others : List Json) : SameSort (.array items) (.array others)
  | object (members others : List (String × Json)) : SameSort (.object members) (.object others)

/-- A part that is not null may be replaced. -/
theorem implies_optional (hsort : SameSort j k)
    (h : Implies (read j.arranged nested s) (read k.arranged nested s))
    : Implies (read j.arranged nested (.optional s)) (read k.arranged nested (.optional s)) := by
  cases hsort with
  | array items others => exact h.map some
  | object members others => exact h.map some

theorem implies_readContent {c : Shape} {content : Content} (hshape : content.shape? = some c)
    (hsort : SameSort j k)
    (h : ∀ nested, Implies (read j.arranged nested c) (read k.arranged nested c))
    : Implies (readContent nested content (some (partOf j.arranged)))
        (readContent nested content (some (partOf k.arranged))) := by
  cases content with
  | nothing => cases hshape
  | value s =>
      cases hshape
      exact h nested
  | fields r =>
      cases hshape
      cases hsort with
      | object members others => exact h nested
      | array items others =>
          cases nested with
          | false => exact .refl _
          | true => exact h true

/-- What stands beside a word may be replaced if it is read alike. -/
theorem implies_content {c : Shape} {word : String} (hcontent : s.content? word = some c)
    (hsort : SameSort j k)
    (h : ∀ nested, Implies (read j.arranged nested c) (read k.arranged nested c))
    : Implies (read (Json.object [(word, j)]).arranged nested s)
        (read (Json.object [(word, k)]).arranged nested s) := by
  cases s with
  | payload =>
      obtain ⟨form, hword, rfl⟩ := Option.map_eq_some_iff.mp hcontent
      have hread (json : Json) : read (Json.object [(word, json)]).arranged nested .payload
          = (formOfWord word).bind fun form : PayloadForm =>
              (read json.arranged nested form.shape).map form.make := rfl
      rw [hread, hread, formOfWord, hword]
      exact (h nested).map _
  | typeKind =>
      obtain ⟨form, hword, hshape⟩ := Option.bind_eq_some_iff.mp hcontent
      have hread (json : Json) : read (Json.object [(word, json)]).arranged nested .typeKind
          = (formOfWord word).bind fun form : KindForm =>
              (readContent nested form.content (some (partOf json.arranged))).map form.make := rfl
      rw [hread, hread, formOfWord, hword]
      exact (implies_readContent hshape hsort h).map _
  | leaf l | word w | list s | optional s | record r | usage | type | expr | body | aggregate =>
      cases hcontent

end QueryKey.Document
