import QueryKey.Proofs.Metadata.Identity

/-! Lists of identities. No identity has a comma outside its brackets, so that an item of a list
ends in front of the next comma, and a list tells whatever its items tell.
-/

namespace QueryKey.Metadata

-----------------------------------------------------------------------------------------
-- Items
-----------------------------------------------------------------------------------------

/-- Splits an identity off the front of a text, or two with an equals sign between them. -/
def takeItem (text : List Char) : List Char × List Char :=
  match takeIdentity true 0 text with
  | (name, '=' :: rest) =>
      let (value, rest) := takeIdentity true 0 rest
      (name ++ '=' :: value, rest)
  | split => split

/-- The end of a list of texts, or the comma in front of the next one. -/
def EndsItem (rest : List Char) : Prop :=
  rest.head? = none ∨ rest.head? = some ','

/-- The text can be an item of a list: it is not empty and found in front of the next item. -/
structure IsItem (text : List Char) : Prop where
  ne_nil : text ≠ []
  taken : ∀ {rest}, EndsItem rest → takeItem (text ++ rest) = (text, rest)

theorem takeIdentity_of_endsItem {facets : Bool} {rest : List Char} (h : EndsItem rest)
    : takeIdentity facets 0 rest = ([], rest) := by
  refine takeIdentity_of_head fun c hc => ?_
  rcases h with h | h
  · rw [h] at hc
    cases hc
  · rw [h] at hc
    cases hc
    decide

theorem takeIdentity_equals (facets : Bool) (rest : List Char)
    : takeIdentity facets 0 ('=' :: rest) = ([], '=' :: rest) := by
  refine takeIdentity_of_head fun c hc => ?_
  cases hc
  decide

/-- A name and an identity with an equals sign between them. -/
def assignment (name identity : String) : String :=
  name ++ "=" ++ identity

theorem toList_assignment (name identity : String)
    : (assignment name identity).toList = name.toList ++ '=' :: identity.toList := by
  simp [assignment]

/-- An assignment tells its name and its identity. -/
theorem assignment_injective {name other identity value : String} (hname : isClean name = true)
    (hother : isClean other = true) (h : assignment name identity = assignment other value)
    : name = other ∧ identity = value := by
  have htake {name : String} (h : isClean name = true) (identity : String)
      : takeIdentity true 0 (assignment name identity).toList
        = (name.toList, '=' :: identity.toList) := by
    rw [toList_assignment, takeIdentity_append (.name h) (takeIdentity_equals true _)]
  have hsplit := htake hname identity
  rw [h, htake hother] at hsplit
  obtain ⟨hnames, hrest⟩ := Prod.mk.inj hsplit
  exact ⟨String.toList_injective hnames.symm, String.toList_injective (List.cons.inj hrest).2.symm⟩

namespace IsItem

theorem usage {identity : String} (h : IsUsageText identity.toList) : IsItem identity.toList where
  ne_nil hnil := by
    obtain ⟨c, more, heq, -⟩ := h.starts
    simp [hnil] at heq
  taken {rest} hrest := by
    rw [takeItem, takeIdentity_append h.passes (takeIdentity_of_endsItem hrest)]
    cases rest with
    | nil => rfl
    | cons c more =>
        obtain rfl : c = ',' := by simpa [EndsItem] using hrest
        rfl

theorem assignment {name identity : String} (hname : isClean name = true)
    (hidentity : Passes true 0 identity.toList)
    : IsItem (assignment name identity).toList where
  ne_nil := by simp [toList_assignment]
  taken {rest} hrest := by
    rw [toList_assignment, List.append_assoc, List.cons_append, takeItem,
      takeIdentity_append (.name hname) (takeIdentity_equals true _)]
    simp only [takeIdentity_append hidentity (takeIdentity_of_endsItem hrest)]

end IsItem

-----------------------------------------------------------------------------------------
-- Lists
-----------------------------------------------------------------------------------------

/-- The items of a list behind its first one, each with the comma in front of it. -/
def laterItems : List String → List Char
  | [] => []
  | t :: rest => ',' :: (t.toList ++ laterItems rest)

theorem endsItem_laterItems (texts : List String) : EndsItem (laterItems texts) := by
  cases texts with
  | nil => exact .inl rfl
  | cons t rest => exact .inr rfl

theorem toList_commaSeparated_cons (t : String) (rest : List String)
    : (commaSeparated (t :: rest)).toList = t.toList ++ laterItems rest := by
  induction rest generalizing t with
  | nil => simp [commaSeparated, laterItems]
  | cons u rest ih =>
      have hcons : (commaSeparated (t :: u :: rest)).toList
          = t.toList ++ ',' :: (commaSeparated (u :: rest)).toList := by
        simp [commaSeparated, String.intercalate_cons_cons]
      rw [hcons, ih, laterItems]

section Lists

variable {α β : Type} {text : α → String} {part : α → β} {front back : List α}

/-- Items tell whatever each of them tells by itself, by induction on both lists. -/
theorem map_eq_of_laterItems_eq (hfront : ∀ a ∈ front, IsItem (text a).toList)
    (hback : ∀ b ∈ back, IsItem (text b).toList)
    (hpart : ∀ a ∈ front, ∀ b ∈ back, text a = text b → part a = part b)
    (h : laterItems (front.map text) = laterItems (back.map text))
    : front.map part = back.map part := by
  induction front generalizing back with
  | nil =>
      cases back with
      | nil => rfl
      | cons b back => cases h
  | cons a front ih =>
      cases back with
      | nil => cases h
      | cons b back =>
          simp only [List.map_cons, laterItems, List.cons.injEq, true_and] at h
          have hsplit := (hfront a List.mem_cons_self).taken
            (endsItem_laterItems (front.map text))
          rw [h, (hback b List.mem_cons_self).taken (endsItem_laterItems (back.map text))] at hsplit
          obtain ⟨hhead, htail⟩ := Prod.mk.inj hsplit
          have hrest := ih (fun a ha => hfront a (List.mem_cons_of_mem _ ha))
            (fun b hb => hback b (List.mem_cons_of_mem _ hb))
            (fun a ha b hb => hpart a (List.mem_cons_of_mem _ ha) b (List.mem_cons_of_mem _ hb))
            htail.symm
          rw [List.map_cons, List.map_cons, hrest, hpart a List.mem_cons_self b List.mem_cons_self
            (String.toList_injective hhead.symm)]

/-- A list with commas between its items tells whatever each item tells by itself. -/
theorem map_eq_of_commaSeparated_eq (hfront : ∀ a ∈ front, IsItem (text a).toList)
    (hback : ∀ b ∈ back, IsItem (text b).toList)
    (hpart : ∀ a ∈ front, ∀ b ∈ back, text a = text b → part a = part b)
    (h : commaSeparated (front.map text) = commaSeparated (back.map text))
    : front.map part = back.map part := by
  have hlists := congrArg String.toList h
  have hnil {a : α} {rest : List α} (ha : IsItem (text a).toList)
      : (commaSeparated ((a :: rest).map text)).toList ≠ [] := by
    rw [List.map_cons, toList_commaSeparated_cons]
    exact List.append_ne_nil_of_left_ne_nil ha.ne_nil _
  cases front with
  | nil =>
      cases back with
      | nil => rfl
      | cons b back => exact absurd hlists.symm (hnil (hback b List.mem_cons_self))
  | cons a front =>
      cases back with
      | nil => exact absurd hlists (hnil (hfront a List.mem_cons_self))
      | cons b back =>
          refine map_eq_of_laterItems_eq hfront hback hpart ?_
          rw [List.map_cons, List.map_cons, toList_commaSeparated_cons,
            toList_commaSeparated_cons] at hlists
          simp only [List.map_cons, laterItems, hlists]

end Lists

end QueryKey.Metadata
