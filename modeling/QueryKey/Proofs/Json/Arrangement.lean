import Mathlib.Data.List.Forall2
import Mathlib.Data.String.Basic
import QueryKey.Proofs.Document.Members

/-! The order of members. Arranged members are sorted by key, and what has been arranged no longer
depends on the order in which members of different keys stood in the text.
-/

namespace QueryKey.Json

/-- The members are sorted by key, and no two have the same key. -/
def IsSorted (members : List (String × Json)) : Prop :=
  members.Pairwise fun m n => m.1 < n.1

-----------------------------------------------------------------------------------------
-- Insertion
-----------------------------------------------------------------------------------------

variable {key name : String} {value : Json} {members others : List (String × Json)}

/-- A member goes in front of those with greater keys. -/
theorem insertMember_of_forall_lt (h : ∀ m ∈ members, key < m.1)
    : insertMember key value members = (key, value) :: members := by
  cases members with
  | nil => rfl
  | cons member rest => rw [insertMember, if_pos (h member List.mem_cons_self)]

/-- Members stay sorted, by induction on the members. -/
theorem isSorted_insertMember (key : String) (value : Json) (h : IsSorted members)
    : IsSorted (insertMember key value members) := by
  induction members with
  | nil => exact List.pairwise_singleton ..
  | cons member rest ih =>
      obtain ⟨other, present⟩ := member
      obtain ⟨hbelow, hrest⟩ := List.pairwise_cons.mp h
      rw [insertMember]
      split
      · next hless =>
          refine List.pairwise_cons.mpr ⟨List.forall_mem_cons.mpr ⟨hless, fun m hm => ?_⟩, h⟩
          exact hless.trans (hbelow m hm)
      split
      · exact h
      · next hless hne =>
          refine List.pairwise_cons.mpr ⟨fun m hm => ?_, ih hrest⟩
          rcases mem_insertMember hm with rfl | hm
          · exact lt_of_le_of_ne (not_lt.mp hless) (Ne.symm hne)
          · exact hbelow m hm

/-- A member with a key of its own is added to the others. -/
theorem insertMember_perm (h : key ∉ members.map Prod.fst)
    : (insertMember key value members).Perm ((key, value) :: members) := by
  induction members with
  | nil => exact .refl _
  | cons member rest ih =>
      obtain ⟨other, present⟩ := member
      obtain ⟨hkey, hrest⟩ := not_or.mp (mt List.mem_cons.mpr h)
      rw [insertMember]
      split
      · exact .refl _
      · exact ((ih hrest).cons _).trans (.swap ..)

/-- A member that is left out need not have been put in. -/
theorem filter_insertMember_self
    : (insertMember name value members).filter (·.1 ≠ name)
      = members.filter (·.1 ≠ name) := by
  induction members with
  | nil => simp [insertMember]
  | cons member rest ih =>
      obtain ⟨other, present⟩ := member
      rw [insertMember]
      split
      · simp
      split
      · rfl
      · rw [List.filter_cons, List.filter_cons, ih]

/-- A member may be put in before others are left out, or after that. -/
theorem filter_insertMember (hkey : key ≠ name) (h : IsSorted members)
    : (insertMember key value members).filter (·.1 ≠ name)
      = insertMember key value (members.filter (·.1 ≠ name)) := by
  induction members with
  | nil => simp [insertMember, hkey]
  | cons member rest ih =>
      obtain ⟨other, present⟩ := member
      obtain ⟨hbelow, hrest⟩ := List.pairwise_cons.mp h
      rw [insertMember]
      split
      · next hless =>
          -- The first of the others may be left out; those behind it have greater keys still.
          have hfront : ∀ m ∈ ((other, present) :: rest).filter (·.1 ≠ name), key < m.1 := by
            intro m hm
            rcases List.mem_cons.mp (List.mem_of_mem_filter hm) with rfl | hm
            · exact hless
            · exact hless.trans (hbelow m hm)
          rw [List.filter_cons_of_pos (by simpa using hkey), insertMember_of_forall_lt hfront]
      split
      · next hless heq =>
          subst heq
          rw [List.filter_cons_of_pos (by simpa using hkey), insertMember, if_neg hless, if_pos rfl]
      · next hless hne =>
          by_cases hother : other = name
          · rw [List.filter_cons_of_neg (by simpa using hother), ih hrest,
              List.filter_cons_of_neg (by simpa using hother)]
          · rw [List.filter_cons_of_pos (by simpa using hother), ih hrest,
              List.filter_cons_of_pos (by simpa using hother), insertMember, if_neg hless,
              if_neg hne]

-----------------------------------------------------------------------------------------
-- Arranged members
-----------------------------------------------------------------------------------------

theorem isSorted_arrangedMembers (members : List (String × Json))
    : IsSorted (arrangedMembers members) := by
  induction members with
  | nil => exact .nil
  | cons member rest ih => exact isSorted_insertMember _ _ ih

/-- If no key is repeated, all members are kept. -/
theorem arrangedMembers_perm (h : (members.map Prod.fst).Nodup)
    : (arrangedMembers members).Perm (members.map (Prod.map id arranged)) := by
  induction members with
  | nil => exact .refl _
  | cons member rest ih =>
      obtain ⟨key, value⟩ := member
      obtain ⟨hkey, hrest⟩ := List.nodup_cons.mp h
      rw [← mem_keys_arrangedMembers] at hkey
      exact (insertMember_perm hkey).trans ((ih hrest).cons _)

/-- Members that are sorted by different keys can be put in one order only. -/
theorem IsSorted.eq_of_perm (hmembers : IsSorted members) (hothers : IsSorted others)
    (h : members.Perm others)
    : members = others :=
  h.eq_of_pairwise (fun _ _ _ _ hless hgreater => absurd hgreater hless.asymm) hmembers hothers

/-- If no key is repeated, the order of the members does not matter. -/
theorem arrangedMembers_eq_of_perm (hkeys : (members.map Prod.fst).Nodup)
    (h : members.Perm others)
    : arrangedMembers members = arrangedMembers others := by
  have hothers : (others.map Prod.fst).Nodup := (h.map Prod.fst).nodup hkeys
  refine (isSorted_arrangedMembers _).eq_of_perm (isSorted_arrangedMembers _) ?_
  exact ((arrangedMembers_perm hkeys).trans (h.map _)).trans (arrangedMembers_perm hothers).symm

/-- Members are arranged as if those of one key had not been there, apart from these. -/
theorem filter_arrangedMembers (name : String) (members : List (String × Json))
    : (arrangedMembers members).filter (·.1 ≠ name)
      = arrangedMembers (members.filter (·.1 ≠ name)) := by
  induction members with
  | nil => rfl
  | cons member rest ih =>
      obtain ⟨key, value⟩ := member
      rw [arrangedMembers]
      by_cases hkey : key = name
      · subst hkey
        rw [filter_insertMember_self, ih, List.filter_cons_of_neg (by simp)]
      · rw [filter_insertMember hkey (isSorted_arrangedMembers rest), ih,
          List.filter_cons_of_pos (by simpa using hkey), arrangedMembers]

/-- Apart from an additional member, all is arranged as before. -/
theorem filter_arrangedMembers_insert (name : String) (value : Json)
    (front back : List (String × Json))
    : (arrangedMembers (front ++ (name, value) :: back)).filter (·.1 ≠ name)
      = (arrangedMembers (front ++ back)).filter (·.1 ≠ name) := by
  rw [filter_arrangedMembers, filter_arrangedMembers]
  simp

theorem exists_find? (h : name ∈ members.map Prod.fst)
    : ∃ value, find? name members = some value := by
  induction members with
  | nil => cases h
  | cons member rest ih =>
      obtain ⟨key, value⟩ := member
      rw [find?]
      split
      · exact ⟨value, rfl⟩
      · next hne => exact ih (List.mem_of_ne_of_mem (Ne.symm hne) h)

/-- What is found does not depend on the members of other keys. -/
theorem find?_filter (hkey : key ≠ name) (members : List (String × Json))
    : find? key (members.filter (·.1 ≠ name)) = find? key members := by
  induction members with
  | nil => rfl
  | cons member rest ih =>
      obtain ⟨other, value⟩ := member
      by_cases hother : other = name
      · subst hother
        rw [List.filter_cons_of_neg (by simp), ih, find?, if_neg (Ne.symm hkey)]
      · rw [List.filter_cons_of_pos (by simpa using hother), find?, find?, ih]

/-- What is found does not depend on an additional member of another key. -/
theorem find?_arrangedMembers_insert (hkey : key ≠ name) (value : Json)
    (front back : List (String × Json))
    : find? key (arrangedMembers (front ++ (name, value) :: back))
      = find? key (arrangedMembers (front ++ back)) := by
  rw [← find?_filter hkey, filter_arrangedMembers_insert, find?_filter hkey]

-----------------------------------------------------------------------------------------
-- Members related key by key
-----------------------------------------------------------------------------------------

/-- The same keys in the same order, with related values. -/
def SameKeys (R : String → Json → Json → Prop) (members others : List (String × Json)) : Prop :=
  List.Forall₂ (fun m n => m.1 = n.1 ∧ R m.1 m.2 n.2) members others

section Related

variable {R : String → Json → Json → Prop}

theorem SameKeys.insertMember {v w : Json} (hvalue : R key v w) (h : SameKeys R members others)
    : SameKeys R (insertMember key v members) (insertMember key w others) := by
  induction h with
  | nil => exact .cons ⟨rfl, hvalue⟩ .nil
  | @cons m n _ _ hmember hrest ih =>
      obtain ⟨other, v'⟩ := m
      obtain ⟨other', w'⟩ := n
      obtain ⟨rfl, hR⟩ : other = other' ∧ R other v' w' := hmember
      rw [Json.insertMember, Json.insertMember]
      split
      · exact .cons ⟨rfl, hvalue⟩ (.cons ⟨rfl, hR⟩ hrest)
      split
      · exact .cons ⟨rfl, hR⟩ hrest
      · exact .cons ⟨rfl, hR⟩ ih

/-- Members stay related when they are arranged. -/
theorem SameKeys.arrangedMembers
    (h : SameKeys (fun key v w => R key v.arranged w.arranged) members others)
    : SameKeys R (arrangedMembers members) (arrangedMembers others) := by
  induction h with
  | nil => exact .nil
  | @cons m n _ _ hmember _ ih =>
      obtain ⟨key, v⟩ := m
      obtain ⟨key', w⟩ := n
      obtain ⟨rfl, hR⟩ : key = key' ∧ R key v.arranged w.arranged := hmember
      exact ih.insertMember hR

/-- What is found under one key is related. -/
theorem SameKeys.find? (h : SameKeys R members others) (key : String)
    : Option.Rel (R key) (find? key members) (find? key others) := by
  induction h with
  | nil => exact .none
  | @cons m n _ _ hmember _ ih =>
      obtain ⟨other, v⟩ := m
      obtain ⟨other', w⟩ := n
      obtain ⟨rfl, hR⟩ : other = other' ∧ R other v w := hmember
      rw [Json.find?, Json.find?]
      split
      · next heq => exact .some (heq ▸ hR)
      · exact ih

theorem SameKeys.eq (h : SameKeys (fun _ v w => v = w) members others) : members = others := by
  have hequal : List.Forall₂ Eq members others := h.imp fun _ _ hm => Prod.ext hm.1 hm.2
  rwa [List.forall₂_eq_eq_eq] at hequal

/-- One value has been replaced. -/
theorem sameKeys_replace (hrefl : ∀ key v, R key v v) (name : String) {v w : Json}
    (hvalue : R name v w) (front back : List (String × Json))
    : SameKeys R (front ++ (name, v) :: back) (front ++ (name, w) :: back) := by
  have hsame (members : List (String × Json)) : SameKeys R members members :=
    List.forall₂_same.mpr fun m _ => ⟨rfl, hrefl m.1 m.2⟩
  exact List.rel_append (hsame front) (.cons ⟨rfl, hvalue⟩ (hsame back))

end Related

-----------------------------------------------------------------------------------------
-- Reordering
-----------------------------------------------------------------------------------------

/-- No object repeats a key. -/
inductive HasDistinctKeys : Json → Prop where
  | null : HasDistinctKeys .null
  | bool (value : Bool) : HasDistinctKeys (.bool value)
  | number (value : Number) : HasDistinctKeys (.number value)
  | string (value : String) : HasDistinctKeys (.string value)
  | array {items : List Json} (h : ∀ item ∈ items, HasDistinctKeys item)
      : HasDistinctKeys (.array items)
  | object {members : List (String × Json)} (hkeys : (members.map Prod.fst).Nodup)
      (h : ∀ m ∈ members, HasDistinctKeys m.2)
      : HasDistinctKeys (.object members)

theorem hasDistinctKeys_array {items : List Json}
    : (array items).HasDistinctKeys ↔ ∀ item ∈ items, item.HasDistinctKeys := by
  refine ⟨fun h => ?_, .array⟩
  cases h with
  | array hitems => exact hitems

theorem hasDistinctKeys_object {members : List (String × Json)}
    : (object members).HasDistinctKeys
      ↔ (members.map Prod.fst).Nodup ∧ ∀ m ∈ members, m.2.HasDistinctKeys := by
  refine ⟨fun h => ?_, fun h => .object h.1 h.2⟩
  cases h with
  | object hkeys hvalues => exact ⟨hkeys, hvalues⟩

/-- The members of one object, at any place of the document, are put in another order. -/
inductive Reorders : Json → Json → Prop where
  | here {members others : List (String × Json)} (h : members.Perm others)
      : Reorders (.object members) (.object others)
  | item (front back : List Json) {j k : Json} (h : Reorders j k)
      : Reorders (.array (front ++ j :: back)) (.array (front ++ k :: back))
  | member (front back : List (String × Json)) (key : String) {j k : Json} (h : Reorders j k)
      : Reorders (.object (front ++ (key, j) :: back)) (.object (front ++ (key, k) :: back))

/-- Reordering repeats no key, and is undone by arranging; by induction on the place. -/
theorem Reorders.arranged_eq {j k : Json} (h : Reorders j k) (hj : j.HasDistinctKeys)
    : k.HasDistinctKeys ∧ j.arranged = k.arranged := by
  induction h with
  | here hperm =>
      obtain ⟨hkeys, hvalues⟩ := hasDistinctKeys_object.mp hj
      have hothers := fun m hm => hvalues m (hperm.mem_iff.mpr hm)
      refine ⟨.object ((hperm.map _).nodup hkeys) hothers, ?_⟩
      rw [arranged, arranged, arrangedMembers_eq_of_perm hkeys hperm]
  | item front back h ih =>
      rw [hasDistinctKeys_array, List.forall_mem_append, List.forall_mem_cons] at hj ⊢
      obtain ⟨hfront, hitem, hback⟩ := hj
      obtain ⟨hdistinct, heq⟩ := ih hitem
      exact ⟨⟨hfront, hdistinct, hback⟩, by simp [arranged, arrangedItems_eq_map, heq]⟩
  | member front back key h ih =>
      rw [hasDistinctKeys_object, List.forall_mem_append, List.forall_mem_cons] at hj ⊢
      obtain ⟨hkeys, hfront, hvalue, hback⟩ := hj
      obtain ⟨hdistinct, heq⟩ := ih hvalue
      have hsame := sameKeys_replace (R := fun _ v w => v.arranged = w.arranged)
        (fun _ _ => rfl) key heq front back
      refine ⟨⟨by simpa using hkeys, hfront, hdistinct, hback⟩, ?_⟩
      rw [arranged, arranged, hsame.arrangedMembers.eq]

end QueryKey.Json
