import QueryKey.Document.Reader
import QueryKey.Document.Writer

/-! Reading fields from members. It does not matter in which order the members stand, as long as
the members that have the name of a field say what the field is.
-/

namespace QueryKey.Json

-----------------------------------------------------------------------------------------
-- Arranged members
-----------------------------------------------------------------------------------------

theorem mem_insertMember {key : String} {value : Json} {members : List (String × Json)}
    {m : String × Json} (h : m ∈ insertMember key value members)
    : m = (key, value) ∨ m ∈ members := by
  induction members with
  | nil => exact .inl (List.mem_singleton.mp h)
  | cons member rest ih =>
      obtain ⟨other, present⟩ := member
      rw [insertMember] at h
      split at h
      · exact List.mem_cons.mp h
      split at h
      · exact .inr h
      · rcases List.mem_cons.mp h with rfl | h
        · exact .inr List.mem_cons_self
        · exact (ih h).imp_right (List.mem_cons_of_mem _)

theorem mem_keys_insertMember {key name : String} {value : Json} {members : List (String × Json)}
    : name ∈ (insertMember key value members).map Prod.fst
      ↔ name = key ∨ name ∈ members.map Prod.fst := by
  induction members with
  | nil => simp [insertMember]
  | cons member rest ih =>
      obtain ⟨other, present⟩ := member
      rw [insertMember]
      split
      · simp
      split
      · next heq => simp [heq]
      · simp only [List.map_cons, List.mem_cons, ih]
        exact or_left_comm

/-- Arranged members are members that have been arranged, by induction on the members. -/
theorem mem_arrangedMembers {members : List (String × Json)} {m : String × Json}
    (h : m ∈ arrangedMembers members)
    : ∃ value, (m.1, value) ∈ members ∧ m.2 = value.arranged := by
  induction members with
  | nil => cases h
  | cons member rest ih =>
      obtain ⟨key, value⟩ := member
      rcases mem_insertMember h with rfl | h
      · exact ⟨value, List.mem_cons_self, rfl⟩
      · obtain ⟨value, hvalue, heq⟩ := ih h
        exact ⟨value, List.mem_cons_of_mem _ hvalue, heq⟩

/-- Arranging members keeps their keys, by induction on the members. -/
theorem mem_keys_arrangedMembers {members : List (String × Json)} {name : String}
    : name ∈ (arrangedMembers members).map Prod.fst ↔ name ∈ members.map Prod.fst := by
  induction members with
  | nil => rfl
  | cons member rest ih =>
      obtain ⟨key, value⟩ := member
      rw [arrangedMembers, mem_keys_insertMember, ih, List.map_cons, List.mem_cons]

/-- No member is found under a key that no member has. -/
theorem find?_eq_none {members : List (String × Json)} {name : String}
    (h : name ∉ members.map Prod.fst)
    : find? name members = none := by
  induction members with
  | nil => rfl
  | cons member rest ih =>
      obtain ⟨key, value⟩ := member
      obtain ⟨hkey, hrest⟩ := not_or.mp (mt List.mem_cons.mpr h)
      rw [find?, if_neg (Ne.symm hkey), ih hrest]

theorem arrangedItems_eq_map (items : List Json) : arrangedItems items = items.map arranged := by
  induction items with
  | nil => rfl
  | cons item rest ih => rw [arrangedItems, ih, List.map_cons]

end QueryKey.Json

namespace QueryKey.Document

open QueryKey.Expr QueryKey.Metadata

-----------------------------------------------------------------------------------------
-- Parts
-----------------------------------------------------------------------------------------

/-- A document as a part of another one. -/
def partOf (json : Json) : Part :=
  ⟨json, fun nested s => read json nested s⟩

theorem partsOfMembers_eq_map (members : List (String × Json))
    : partsOfMembers members = members.map (Prod.map id partOf) := by
  induction members with
  | nil => rfl
  | cons member rest ih =>
      obtain ⟨key, value⟩ := member
      rw [partsOfMembers, ih, List.map_cons]
      rfl

/-- The parts of arranged members. -/
def arrangedParts (members : List (String × Json)) : List (String × Part) :=
  partsOfMembers (Json.arrangedMembers members)

theorem mem_keys_arrangedParts {members : List (String × Json)} {name : String}
    : name ∈ (arrangedParts members).map Prod.fst ↔ name ∈ members.map Prod.fst := by
  rw [arrangedParts, partsOfMembers_eq_map, List.map_map, ← Json.mem_keys_arrangedMembers]
  rfl

theorem mem_arrangedParts {members : List (String × Json)} {name : String} {part : Part}
    (h : (name, part) ∈ arrangedParts members)
    : ∃ value, (name, value) ∈ members ∧ part = partOf value.arranged := by
  rw [arrangedParts, partsOfMembers_eq_map] at h
  obtain ⟨m, hm, heq⟩ := List.mem_map.mp h
  obtain ⟨rfl, rfl⟩ := Prod.mk.inj heq
  obtain ⟨value, hvalue, harranged⟩ := Json.mem_arrangedMembers hm
  exact ⟨value, hvalue, by rw [harranged]⟩

/-- A member that has its name for itself is found. -/
theorem lookup_arrangedParts {members : List (String × Json)} {name : String} {value : Json}
    (hmem : (name, value) ∈ members) (hunique : ∀ other, (name, other) ∈ members → other = value)
    : (arrangedParts members).lookup name = some (partOf value.arranged) := by
  cases hlookup : (arrangedParts members).lookup name with
  | none =>
      have hkey : name ∈ (arrangedParts members).map Prod.fst :=
        mem_keys_arrangedParts.mpr (List.mem_map_of_mem hmem)
      obtain ⟨m, hm, hname⟩ := List.mem_map.mp hkey
      have hne := List.lookup_eq_none_iff.mp hlookup m hm
      simp [hname] at hne
  | some part =>
      obtain ⟨front, back, heq, -⟩ := List.lookup_eq_some_iff.mp hlookup
      have hpart : (name, part) ∈ arrangedParts members := by
        simp [heq]
      obtain ⟨other, hother, rfl⟩ := mem_arrangedParts hpart
      rw [hunique other hother]

-----------------------------------------------------------------------------------------
-- Fields
-----------------------------------------------------------------------------------------

variable {nested : Bool}

/-- The members say that the field has the value, or leave out a field with the value that this
means.
-/
def Supplies (nested : Bool) (f : Field) (x : f.shape.Carrier Expr) (members : List (String × Part))
    : Prop :=
  f.name ∈ members.map Prod.fst
      ∧ (∀ part, (f.name, part) ∈ members → part.read nested f.shape = .ok x)
    ∨ f.name ∉ members.map Prod.fst ∧ f.absent? = some x

def SuppliesAll (nested : Bool)
    : (fields : List Field) → Values Expr fields → List (String × Part) → Prop
  | [], (), _ => True
  | f :: rest, (x, xs), members => Supplies nested f x members ∧ SuppliesAll nested rest xs members

/-- Members that are no field are passed over. -/
theorem fill_of_not_mem {key : String} {part : Part} {fields : List Field}
    (h : key ∉ fields.map Field.name) (slots : Slots Expr fields)
    : fill nested key part fields slots = .ok slots := by
  induction fields with
  | nil => rfl
  | cons f rest ih =>
      obtain ⟨slot, slots⟩ := slots
      simp only [List.map_cons, List.mem_cons, not_or] at h
      rw [fill, if_neg (Ne.symm h.1), ih h.2]
      rfl

/-- The slot of a field is filled by the members with its name, the others by the other members;
by induction on the members.
-/
theorem fillAll_cons {f : Field} {rest : List Field} (hname : f.name ∉ rest.map Field.name)
    {members : List (String × Part)} {x : f.shape.Carrier Expr}
    (hread : ∀ part, (f.name, part) ∈ members → part.read nested f.shape = .ok x)
    {slot : Option (f.shape.Carrier Expr)} {slots filled : Slots Expr rest}
    (hrest : fillAll nested rest members slots = .ok filled)
    : fillAll nested (f :: rest) members (slot, slots)
      = .ok (if f.name ∈ members.map Prod.fst then some x else slot, filled) := by
  induction members generalizing slot slots with
  | nil =>
      cases hrest
      rfl
  | cons member members ih =>
      obtain ⟨key, part⟩ := member
      have hread' (part) (h : (f.name, part) ∈ members) : part.read nested f.shape = .ok x :=
        hread part (List.mem_cons_of_mem _ h)
      obtain ⟨next, hnext, hrest⟩ : ∃ next, fill nested key part rest slots = .ok next
          ∧ fillAll nested rest members next = .ok filled := by
        rw [fillAll] at hrest
        cases hfill : fill nested key part rest slots with
        | error fault =>
            rw [hfill] at hrest
            cases hrest
        | ok next =>
            rw [hfill] at hrest
            exact ⟨next, rfl, hrest⟩
      by_cases hkey : f.name = key
      · subst hkey
        rw [fill_of_not_mem hname] at hnext
        cases hnext
        have hfill : fill nested f.name part (f :: rest) (slot, slots) = .ok (some x, slots) := by
          rw [fill, if_pos rfl, hread part List.mem_cons_self]
          rfl
        have hmore : fillAll nested (f :: rest) members (some x, slots) = .ok (some x, filled) := by
          rw [ih hread' hrest, ite_self]
        rw [fillAll, hfill, if_pos (by simp)]
        exact hmore
      · have hfill : fill nested key part (f :: rest) (slot, slots) = .ok (slot, next) := by
          rw [fill, if_neg hkey, hnext]
          rfl
        rw [fillAll, hfill]
        simp only [List.map_cons, List.mem_cons, hkey, false_or]
        exact ih hread' hrest

/-- Fields are read from members that supply them, by induction on the fields. -/
theorem readMembers_of_suppliesAll {fields : List Field} {xs : Values Expr fields}
    {members : List (String × Part)} (hnodup : (fields.map Field.name).Nodup)
    (h : SuppliesAll nested fields xs members)
    : readMembers nested fields members = .ok xs := by
  have hslots : ∃ slots, fillAll nested fields members (.empty fields) = .ok slots
      ∧ complete fields slots = .ok xs := by
    induction fields with
    | nil =>
        refine ⟨(), ?_, rfl⟩
        induction members with
        | nil => rfl
        | cons member members ih => exact ih trivial
    | cons f rest ih =>
        obtain ⟨x, xs⟩ := xs
        obtain ⟨hx, hxs⟩ := h
        obtain ⟨hname, hrest⟩ := List.nodup_cons.mp hnodup
        obtain ⟨slots, hfill, hcomplete⟩ := ih hrest hxs
        have hread (part) (hpart : (f.name, part) ∈ members)
            : part.read nested f.shape = .ok x := by
          rcases hx with ⟨-, hread⟩ | ⟨hnone, -⟩
          · exact hread part hpart
          · exact absurd (List.mem_map_of_mem hpart) hnone
        refine ⟨_, fillAll_cons hname hread hfill, ?_⟩
        have hslot : (if f.name ∈ members.map Prod.fst then some x else none).or f.absent?
            = some x := by
          rcases hx with ⟨hmem, -⟩ | ⟨hnone, habsent⟩
          · rw [if_pos hmem, Option.some_or]
          · rw [if_neg hnone, Option.none_or, habsent]
        rw [complete, hslot]
        simp [hcomplete, Except.map]
  obtain ⟨slots, hfill, hcomplete⟩ := hslots
  rw [readMembers, hfill]
  exact hcomplete

end QueryKey.Document
