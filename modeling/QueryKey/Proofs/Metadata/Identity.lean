import QueryKey.Proofs.Metadata.CleanName

/-! Where an identity ends. Identities hold commas, brackets and parentheses, but only between
brackets, so a scan that counts brackets finds their end in a longer text.
-/

namespace QueryKey.Metadata

/-- A character in front of the first of two texts. -/
def push (c : Char) (split : List Char × List Char) : List Char × List Char :=
  (c :: split.1, split.2)

/-- Splits an identity off the front of a text, inside so many open brackets. Outside of brackets
it ends in front of a bracket with a dot behind it, which no identity has, and in front of the
parenthesis of facets unless they belong to it.
-/
def takeIdentity (facets : Bool) (depth : Nat) : List Char → List Char × List Char
  | [] => ([], [])
  | c :: rest =>
      if isWordChar c then
        push c (takeIdentity facets depth rest)
      else if c = '[' ∨ c = '(' then
        if depth = 0 ∧ (rest.head? = some '.' ∨ c = '(' ∧ facets = false) then ([], c :: rest)
        else push c (takeIdentity facets (depth + 1) rest)
      else if depth = 0 then ([], c :: rest)
      else if c = ']' ∨ c = ')' then push c (takeIdentity facets (depth - 1) rest)
      else push c (takeIdentity facets depth rest)

/-- The scan passes over the text inside at least so many brackets, whatever follows it. -/
def Passes (facets : Bool) (outer : Nat) (text : List Char) : Prop :=
  ∀ depth rest, outer ≤ depth
    → takeIdentity facets depth (text ++ rest)
        = (text ++ (takeIdentity facets depth rest).1, (takeIdentity facets depth rest).2)

/-- The text starts like a name, so there is no dot in front. -/
def Starts (text : List Char) : Prop :=
  ∃ c more, text = c :: more ∧ isNameChar c = true

-----------------------------------------------------------------------------------------
-- Texts over which the scan passes
-----------------------------------------------------------------------------------------

namespace Passes

variable {facets : Bool} {outer : Nat} {front back text : List Char}

theorem nil : Passes facets outer [] := by
  intro depth rest _
  simp

theorem append (hf : Passes facets outer front) (hb : Passes facets outer back)
    : Passes facets outer (front ++ back) := by
  intro depth rest hd
  rw [List.append_assoc, hf depth (back ++ rest) hd, hb depth rest hd, List.append_assoc]

theorem mono {inner : Nat} (h : Passes facets outer text) (hle : outer ≤ inner)
    : Passes facets inner text :=
  fun depth rest hd => h depth rest (Nat.le_trans hle hd)

/-- Words, by induction on their characters. -/
theorem word (h : ∀ c ∈ text, isWordChar c = true) : Passes facets 0 text := by
  induction text with
  | nil => exact nil
  | cons c more ih =>
      intro depth rest hd
      rw [List.cons_append, takeIdentity, if_pos (h c (by simp)),
        ih (fun d hd => h d (by simp [hd])) depth rest hd]
      rfl

theorem name {name : String} (h : isClean name = true) : Passes facets 0 name.toList :=
  word (isWordChar_of_isClean h)

/-- Separators, which stand between brackets only. -/
theorem separator {c : Char} (h : c = ',' ∨ c = '=') : Passes facets 1 [c] := by
  intro depth rest hd
  have hdepth : depth ≠ 0 := by omega
  rcases h with rfl | rfl <;> simp [takeIdentity, isWordChar, isNameChar, hdepth, push]

/-- Brackets around what passes inside of them. -/
theorem bracketed (h : Passes facets 1 text) (hdot : text.head? ≠ some '.')
    : Passes facets 0 ('[' :: (text ++ [']'])) := by
  intro depth rest _
  have hhead : (text ++ ']' :: rest).head? ≠ some '.' := by
    cases text with
    | nil => simp
    | cons c more => simpa using hdot
  have hclose : takeIdentity facets (depth + 1) (']' :: rest)
      = push ']' (takeIdentity facets depth rest) := by
    simp [takeIdentity, isWordChar, isNameChar]
  have hopen : ¬(depth = 0 ∧ ((text ++ ']' :: rest).head? = some '.'
      ∨ '[' = '(' ∧ facets = false)) := by
    rintro ⟨-, hdot | ⟨hc, -⟩⟩
    · exact hhead hdot
    · exact absurd hc (by decide)
  simp only [List.cons_append, List.append_assoc, List.nil_append]
  rw [takeIdentity, if_neg (by decide), if_pos (.inl rfl), if_neg hopen,
    h (depth + 1) _ (by omega), hclose]
  simp [push]

/-- Parentheses around what passes inside of them, if they can belong to an identity. -/
theorem parenthesized (h : Passes facets 1 text) (hdot : text.head? ≠ some '.')
    (hfacets : facets = true ∨ 0 < outer)
    : Passes facets outer ('(' :: (text ++ [')'])) := by
  intro depth rest hd
  have hhead : (text ++ ')' :: rest).head? ≠ some '.' := by
    cases text with
    | nil => simp
    | cons c more => simpa using hdot
  have hclose : takeIdentity facets (depth + 1) (')' :: rest)
      = push ')' (takeIdentity facets depth rest) := by
    simp [takeIdentity, isWordChar, isNameChar]
  have hopen : ¬(depth = 0 ∧ ((text ++ ')' :: rest).head? = some '.'
      ∨ '(' = '(' ∧ facets = false)) := by
    rintro ⟨rfl, hdot | ⟨-, hf⟩⟩
    · exact hhead hdot
    · rcases hfacets with h | h
      · simp [h] at hf
      · omega
  simp only [List.cons_append, List.append_assoc, List.nil_append]
  rw [takeIdentity, if_neg (by decide), if_pos (.inr rfl), if_neg hopen,
    h (depth + 1) _ (by omega), hclose]
  simp [push]

/-- Lists with commas between them, which stand between brackets only; by induction on the list.
-/
theorem commaList {texts : List String} (h : ∀ t ∈ texts, Passes facets 1 t.toList)
    : Passes facets 1 (commaSeparated texts).toList := by
  induction texts with
  | nil => exact nil
  | cons t rest ih =>
      cases rest with
      | nil => simpa [commaSeparated] using h t (by simp)
      | cons u rest =>
          have hcons : (commaSeparated (t :: u :: rest)).toList
              = t.toList ++ ([','] ++ (commaSeparated (u :: rest)).toList) := by
            simp [commaSeparated, String.intercalate_cons_cons]
          rw [hcons]
          exact (h t (by simp)).append
            ((separator (.inl rfl)).append (ih fun v hv => h v (List.mem_cons_of_mem t hv)))

end Passes

namespace Starts

variable {text : List Char}

theorem of_isClean {name : String} (h : isClean name = true) : Starts name.toList :=
  exists_cons_of_isClean h

theorem append (h : Starts text) (more : List Char) : Starts (text ++ more) := by
  obtain ⟨c, rest, rfl, hc⟩ := h
  exact ⟨c, rest ++ more, rfl, hc⟩

theorem head?_ne (h : Starts text) : text.head? ≠ some '.' := by
  obtain ⟨c, rest, rfl, hc⟩ := h
  rintro heq
  simp only [List.head?_cons, Option.some.injEq] at heq
  subst heq
  exact absurd hc (by decide)

/-- Lists with commas between them start as their first text does. -/
theorem commaSeparated_head? {texts : List String} (h : ∀ t ∈ texts, Starts t.toList)
    : (commaSeparated texts).toList.head? ≠ some '.' := by
  cases texts with
  | nil => simp [commaSeparated]
  | cons t rest =>
      cases rest with
      | nil => simpa [commaSeparated] using (h t (by simp)).head?_ne
      | cons u rest =>
          simp only [commaSeparated, String.intercalate_cons_cons, String.toList_append,
            List.append_assoc]
          exact ((h t (by simp)).append _).head?_ne

end Starts

-----------------------------------------------------------------------------------------
-- Where scans end
-----------------------------------------------------------------------------------------

/-- An identity is split off in front of a text at which the scan ends. -/
theorem takeIdentity_append {facets : Bool} {text rest : List Char} (h : Passes facets 0 text)
    (hrest : takeIdentity facets 0 rest = ([], rest))
    : takeIdentity facets 0 (text ++ rest) = (text, rest) := by
  rw [h 0 rest (Nat.le_refl 0), hrest, List.append_nil]

/-- Scans end in front of what is neither in a name nor opens a bracket. -/
theorem takeIdentity_of_head {facets : Bool} {rest : List Char}
    (h : ∀ c ∈ rest.head?, isWordChar c = false ∧ c ≠ '[' ∧ c ≠ '(')
    : takeIdentity facets 0 rest = ([], rest) := by
  cases rest with
  | nil => rfl
  | cons c more =>
      obtain ⟨hword, hbracket, hparenthesis⟩ := h c rfl
      simp [takeIdentity, hword, hbracket, hparenthesis]

-----------------------------------------------------------------------------------------
-- Built identities
-----------------------------------------------------------------------------------------

/-- Facets in their parentheses. -/
theorem Passes.facets {facets : Bool} {outer : Nat} {list : List Facet}
    (hclean : ∀ f ∈ list, isClean f.name = true ∧ isClean f.value = true)
    (hfacets : facets = true ∨ 0 < outer)
    : Passes facets outer
        ('(' :: ((commaSeparated (list.map fun f => f.name ++ "=" ++ f.value)).toList
          ++ [')'])) := by
  refine .parenthesized (Passes.commaList ?_) (Starts.commaSeparated_head? ?_) hfacets
  · intro t ht
    obtain ⟨f, hf, rfl⟩ := List.mem_map.mp ht
    obtain ⟨hn, hv⟩ := hclean f hf
    simp only [String.toList_append]
    exact (((Passes.name hn).mono (by omega)).append (.separator (.inr rfl))).append
      ((Passes.name hv).mono (by omega))
  · intro t ht
    obtain ⟨f, hf, rfl⟩ := List.mem_map.mp ht
    simp only [String.toList_append, List.append_assoc]
    exact (Starts.of_isClean (hclean f hf).1).append _

/-- The text can be the identity of a type: it starts like a name, and scans pass over it anywhere.
-/
structure IsTypeText (text : List Char) : Prop where
  starts : Starts text
  passes : ∀ facets, Passes facets 0 text

/-- The text can be the identity of a usage: it starts like a name, scans for usages pass over it
anywhere, and all others inside of brackets.
-/
structure IsUsageText (text : List Char) : Prop where
  starts : Starts text
  passes : Passes true 0 text
  passesInside : ∀ facets, Passes facets 1 text

namespace IsTypeText

theorem name {name : String} (h : isClean name = true) : IsTypeText name.toList where
  starts := .of_isClean h
  passes _ := .name h

theorem primitive (kind : Primitive) : IsTypeText (ModelType.primitive kind).identity.toList :=
  name (isClean_primitive kind)

/-- A word in front of brackets. -/
theorem bracketed {stem text : List Char} (hstem : isDotted false stem = true)
    (htext : ∀ facets, Passes facets 1 text) (hdot : text.head? ≠ some '.')
    : IsTypeText (stem ++ '[' :: (text ++ [']'])) where
  starts := by
    have hclean : isClean (String.ofList stem) = true := by rwa [isClean, String.toList_ofList]
    simpa using (Starts.of_isClean hclean).append ('[' :: (text ++ [']']))
  passes facets := (Passes.word (isWordChar_of_mem_isDotted hstem)).append
    (.bracketed (htext facets) hdot)

theorem row {columns : List (String × TypeUsage)} (hclean : ∀ c ∈ columns, isClean c.1 = true)
    (husage : ∀ c ∈ columns, IsUsageText c.2.identity.toList)
    : IsTypeText (ModelType.row columns).identity.toList := by
  have htext : (ModelType.row columns).identity.toList
      = "row".toList ++ '[' :: ((commaSeparated
          (columns.map fun c => c.1 ++ "=" ++ c.2.identity)).toList ++ [']']) := by
    simp [ModelType.row, ModelType.identity]
  rw [htext]
  refine bracketed (by decide) (fun facets => .commaList ?_) (Starts.commaSeparated_head? ?_)
  · intro t ht
    obtain ⟨c, hc, rfl⟩ := List.mem_map.mp ht
    simp only [String.toList_append]
    exact (((Passes.name (hclean c hc)).mono (by omega)).append (.separator (.inr rfl))).append
      ((husage c hc).passesInside facets)
  · intro t ht
    obtain ⟨c, hc, rfl⟩ := List.mem_map.mp ht
    simp only [String.toList_append, List.append_assoc]
    exact (Starts.of_isClean (hclean c hc)).append _

theorem collection {element : TypeUsage} (h : IsUsageText element.identity.toList)
    : IsTypeText (ModelType.collection element).identity.toList := by
  have htext : (ModelType.collection element).identity.toList
      = "collection".toList ++ '[' :: (element.identity.toList ++ [']']) := by
    simp [ModelType.collection, ModelType.identity]
  rw [htext]
  exact bracketed (by decide) h.passesInside h.starts.head?_ne

theorem reference {element : ModelType} (h : IsTypeText element.identity.toList)
    : IsTypeText (ModelType.reference element).identity.toList := by
  have htext : (ModelType.reference element).identity.toList
      = "reference".toList ++ '[' :: (element.identity.toList ++ [']']) := by
    simp [ModelType.reference, ModelType.identity]
  rw [htext]
  exact bracketed (by decide) (fun facets => (h.passes facets).mono (by omega)) h.starts.head?_ne

end IsTypeText

namespace IsUsageText

theorem ofType {type : ModelType} (h : IsTypeText type.identity.toList)
    : IsUsageText (TypeUsage.ofType type).identity.toList where
  starts := h.starts
  passes := h.passes true
  passesInside facets := (h.passes facets).mono (by omega)

theorem withFacets {type : ModelType} {facets : List Facet}
    (h : IsTypeText type.identity.toList)
    (hclean : ∀ f ∈ facets, isClean f.name = true ∧ isClean f.value = true)
    : IsUsageText (TypeUsage.withFacets type facets).identity.toList := by
  cases facets with
  | nil => exact ofType h
  | cons f rest =>
      have htext : (TypeUsage.withFacets type (f :: rest)).identity.toList
          = type.identity.toList ++ '(' :: ((commaSeparated
              ((f :: rest).map fun f => f.name ++ "=" ++ f.value)).toList ++ [')']) := by
        simp [TypeUsage.withFacets, TypeUsage.identity]
      rw [htext]
      exact {
        starts := h.starts.append _
        passes := (h.passes true).append (.facets hclean (.inl rfl))
        passesInside := fun facets => ((h.passes facets).mono (by omega)).append
          (.facets hclean (.inr (by omega)))
      }

end IsUsageText

/-- The identity of a type, by induction on how it was built. -/
theorem ModelType.Built.identity {type : ModelType} (h : type.Built)
    : IsTypeText type.identity.toList :=
  @ModelType.Built.rec (fun type _ => IsTypeText type.identity.toList)
    (fun usage _ => IsUsageText usage.identity.toList)
    .primitive (fun _ clean => .name clean) .name .name
    (fun clean _ husage => .row clean husage)
    (fun _ husage => .collection husage) (fun _ htype => .reference htype)
    (fun _ htype => .ofType htype) (fun _ clean htype => .withFacets htype clean) type h

/-- The identity of a usage, which is that of its type with any facets behind it. -/
theorem TypeUsage.Built.identity {usage : TypeUsage} (h : usage.Built)
    : IsUsageText usage.identity.toList := by
  cases h with
  | ofType built => exact .ofType built.identity
  | withFacets built clean => exact .withFacets built.identity clean

/-- The identity of a function is a name with the identities of usages in parentheses. -/
theorem Function.Built.identity {function : Function} (h : function.Built)
    : Passes true 0 function.identity.toList := by
  cases h with
  | @ofSignature space name parameters cleanSpace cleanName built =>
      have htext : (Function.ofSignature space name parameters).identity.toList
          = space.toList ++ ('.' :: name.toList) ++ '(' :: ((commaSeparated
              (parameters.map TypeUsage.identity)).toList ++ [')']) := by
        simp [Function.ofSignature]
      have hdot : Passes true 0 ('.' :: name.toList) := by
        refine .word fun c hc => ?_
        rcases List.mem_cons.mp hc with rfl | hc
        · decide
        · exact isWordChar_of_isClean cleanName c hc
      rw [htext]
      refine ((Passes.name cleanSpace).append hdot).append
        (.parenthesized (Passes.commaList ?_) (Starts.commaSeparated_head? ?_) (.inl rfl))
      · intro t ht
        obtain ⟨p, hp, rfl⟩ := List.mem_map.mp ht
        exact (built p hp).identity.passesInside true
      · intro t ht
        obtain ⟨p, hp, rfl⟩ := List.mem_map.mp ht
        exact (built p hp).identity.starts

end QueryKey.Metadata
