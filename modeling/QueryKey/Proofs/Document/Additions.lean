import QueryKey.Proofs.Document.Replacement
import QueryKey.Proofs.Json.Acceptance

/-! Documents with additional members. Wherever an object is read by its fields, members that no
field is named for may be added: what is read of the document remains the same.
-/

namespace QueryKey.Document

variable {s : Shape} {j k : Json} {nested : Bool}

/-- One member is added to an object that is read by its fields. No field and no tag has its name;
its value is any document that has a text. In a document that is read in the shape, the object is
the document itself or is reached through fields by name or by position, items of lists, parts that
may be null, and what stands beside a word.
-/
inductive Adds : Shape → Json → Json → Prop where
  | here {s : Shape} {fields : List Field} (front back : List (String × Json)) {key : String}
      {value : Json} (hfields : s.fields? (s.tagAmong? (front ++ back)) = some fields)
      (hkey : key ∉ s.definedNames fields) (hvalue : value.HasText)
      : Adds s (.object (front ++ back)) (.object (front ++ (key, value) :: back))
  | field {s : Shape} {fields : List Field} (front back : List (String × Json)) (f : Field)
      {j k : Json} (hfields : s.fields? (s.tagAmong? (front ++ (f.name, j) :: back)) = some fields)
      (hf : f ∈ fields) (h : Adds f.shape j k)
      : Adds s (.object (front ++ (f.name, j) :: back)) (.object (front ++ (f.name, k) :: back))
  | place {s : Shape} {fields : List Field} (front back : List Json) {f : Field} {j k : Json}
      (htag : s.tag? = none) (hfields : s.fields? none = some fields)
      (hf : fields[front.length]? = some f) (h : Adds f.shape j k)
      : Adds s (.array (front ++ j :: back)) (.array (front ++ k :: back))
  | taggedPlace {s : Shape} {fields : List Field} (tag : Json) (front back : List Json) {f : Field}
      {j k : Json} (htag : s.tag?.isSome) (hfields : s.fields? (some tag) = some fields)
      (hf : fields[front.length]? = some f) (h : Adds f.shape j k)
      : Adds s (.array (tag :: (front ++ j :: back))) (.array (tag :: (front ++ k :: back)))
  | item {s : Shape} (front back : List Json) {j k : Json} (h : Adds s j k)
      : Adds (.list s) (.array (front ++ j :: back)) (.array (front ++ k :: back))
  | optional {s : Shape} {j k : Json} (h : Adds s j k) : Adds (.optional s) j k
  | content {s c : Shape} (word : String) {j k : Json} (hcontent : s.content? word = some c)
      (h : Adds c j k)
      : Adds s (.object [(word, j)]) (.object [(word, k)])

theorem Adds.sameSort (h : Adds s j k) : SameSort j k := by
  induction h with
  | here | field | content => exact .object _ _
  | place | taggedPlace | item => exact .array _ _
  | optional _ ih => exact ih

/-- An additional member is not read. -/
theorem implies_here {fields : List Field} {front back : List (String × Json)} {key : String}
    (hfields : s.fields? (s.tagAmong? (front ++ back)) = some fields)
    (hkey : key ∉ s.definedNames fields) (value : Json)
    : Implies (read (Json.object (front ++ back)).arranged nested s)
        (read (Json.object (front ++ (key, value) :: back)).arranged nested s) := by
  obtain ⟨htag, hname⟩ := not_or.mp (mt List.mem_append.mpr hkey)
  refine implies_read_object hfields ?_ (fun nested => ?_) nested
  · cases hs : s.tag? with
    | none => simp [Shape.tagAmong?, hs]
    | some tag =>
        have hne : tag ≠ key := by
          rintro rfl
          simp [hs] at htag
        simp [Shape.tagAmong?, hs, Json.find?_arrangedMembers_insert hne]
  · have hparts (members : List (String × Json))
        : (partsOfMembers members).filter (·.1 ≠ key)
          = partsOfMembers (members.filter (·.1 ≠ key)) := by
      rw [partsOfMembers_eq_map, partsOfMembers_eq_map, List.filter_map]
      rfl
    rw [← readMembers_filter hname, ← readMembers_filter hname (arrangedParts _), arrangedParts,
      arrangedParts, hparts, hparts, Json.filter_arrangedMembers_insert]
    exact .refl _

/-- What is read of a document is read of it with an additional member as well, by induction on the
place of the member.
-/
theorem Adds.implies (h : Adds s j k) (nested : Bool)
    : Implies (read j.arranged nested s) (read k.arranged nested s) := by
  induction h generalizing nested with
  | here front back hfields hkey hvalue => exact implies_here hfields hkey _
  | field front back f hfields hf h ih => exact implies_field hfields hf ih
  | place front back htag hfields hf h ih => exact implies_place htag hfields hf ih
  | taggedPlace tag front back htag hfields hf h ih =>
      exact implies_taggedPlace htag hfields hf (ih true)
  | item front back h ih => exact implies_item (ih nested)
  | optional h ih => exact implies_optional h.sameSort (ih nested)
  | content word hcontent h ih => exact implies_content hcontent h.sameSort ih

/-- Additional members are legible, so that the document remains so; by induction on the place of
the member.
-/
theorem Adds.isLegible (h : Adds s j k) (hj : j.IsLegible) : k.IsLegible := by
  induction h with
  | here _ _ _ _ hvalue => exact hj.insertMember hvalue.isLegible
  | field _ _ _ _ _ _ ih => exact hj.replaceMember ih
  | place _ _ _ _ _ _ ih => exact hj.replaceItem ih
  | taggedPlace tag front _ _ _ _ _ ih =>
      rw [← List.cons_append] at hj ⊢
      exact hj.replaceItem ih
  | item _ _ _ ih => exact hj.replaceItem ih
  | optional _ ih => exact ih hj
  | content word _ _ ih =>
      rw [← List.nil_append [(word, _)]] at hj ⊢
      exact hj.replaceMember ih

end QueryKey.Document
