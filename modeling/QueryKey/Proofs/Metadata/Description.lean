import QueryKey.Proofs.Metadata.IdentityList

/-! What identities tell. A description of a type says how it is put together from named types; it
is decided by the identity alone, and so are the name and the parameters of a function.
-/

namespace QueryKey.Metadata

-----------------------------------------------------------------------------------------
-- Descriptions
-----------------------------------------------------------------------------------------

mutual
/-- How a type is put together. Of a named type, whatever its kind, there is only the name. -/
inductive TypeDescription where
  | named (name : String)
  | row (columns : List (String × UsageDescription))
  | collection (element : UsageDescription)
  | reference (element : TypeDescription)

/-- A described type with facets in their order. -/
inductive UsageDescription where
  | mk (type : TypeDescription) (facets : List Facet)
end

/-- The qualified name of a function with its parameters in their order. -/
structure FunctionDescription where
  name : String
  parameters : List UsageDescription

mutual
/-- A type that was built from clean names as the description says. -/
inductive ModelType.IsDescribed : ModelType → TypeDescription → Prop
  | primitive (kind : Primitive)
    : ModelType.IsDescribed (.primitive kind) (.named (ModelType.primitive kind).identity)
  | enumeration {name : String} (underlying : Primitive) (clean : isClean name = true)
    : ModelType.IsDescribed (.enumeration name underlying) (.named name)
  | entity {name : String} (clean : isClean name = true)
    : ModelType.IsDescribed (.entity name) (.named name)
  | complex {name : String} (clean : isClean name = true)
    : ModelType.IsDescribed (.complex name) (.named name)
  | row {columns : List (String × TypeUsage × UsageDescription)}
    (clean : ∀ c ∈ columns, isClean c.1 = true)
    (described : ∀ c ∈ columns, TypeUsage.IsDescribed c.2.1 c.2.2)
    : ModelType.IsDescribed (.row (columns.map fun c => (c.1, c.2.1)))
        (.row (columns.map fun c => (c.1, c.2.2)))
  | collection {element : TypeUsage} {d : UsageDescription}
    (described : TypeUsage.IsDescribed element d)
    : ModelType.IsDescribed (.collection element) (.collection d)
  | reference {element : ModelType} {d : TypeDescription}
    (described : ModelType.IsDescribed element d)
    : ModelType.IsDescribed (.reference element) (.reference d)

/-- A usage that was built from clean names as the description says. -/
inductive TypeUsage.IsDescribed : TypeUsage → UsageDescription → Prop
  | ofType {type : ModelType} {d : TypeDescription} (described : ModelType.IsDescribed type d)
    : TypeUsage.IsDescribed (.ofType type) (.mk d [])
  | withFacets {type : ModelType} {d : TypeDescription} {facets : List Facet}
    (described : ModelType.IsDescribed type d)
    (clean : ∀ f ∈ facets, isClean f.name = true ∧ isClean f.value = true)
    : TypeUsage.IsDescribed (.withFacets type facets) (.mk d facets)
end

/-- A function that was built from clean names as the description says. -/
inductive Function.IsDescribed : Function → FunctionDescription → Prop
  | ofSignature {space name : String} {parameters : List (TypeUsage × UsageDescription)}
    (cleanSpace : isClean space = true) (cleanName : isClean name = true)
    (described : ∀ p ∈ parameters, p.1.IsDescribed p.2)
    : Function.IsDescribed (.ofSignature space name (parameters.map Prod.fst))
        ⟨space ++ "." ++ name, parameters.map Prod.snd⟩

mutual
/-- What is described is built from clean names, by induction on how it was built. -/
theorem ModelType.IsDescribed.built {type : ModelType} {d : TypeDescription}
    : type.IsDescribed d → type.Built
  | .primitive kind => .primitive kind
  | .enumeration underlying clean => .enumeration underlying clean
  | .entity clean => .entity clean
  | .complex clean => .complex clean
  | .row clean described =>
      .row (List.forall_mem_map.mpr clean)
        (List.forall_mem_map.mpr fun c hc => (described c hc).built)
  | .collection described => .collection described.built
  | .reference described => .reference described.built

theorem TypeUsage.IsDescribed.built {usage : TypeUsage} {d : UsageDescription}
    : usage.IsDescribed d → usage.Built
  | .ofType described => .ofType described.built
  | .withFacets described clean => .withFacets described.built clean
end

-----------------------------------------------------------------------------------------
-- Types and usages
-----------------------------------------------------------------------------------------

/-- A text in brackets with a word in front of them. -/
def bracketed (stem text : String) : String :=
  stem ++ "[" ++ text ++ "]"

/-- The columns of a row as its identity lists them. -/
theorem identity_row (columns : List (String × TypeUsage × UsageDescription))
    : (ModelType.row (columns.map fun c => (c.1, c.2.1))).identity
      = bracketed "row" (commaSeparated (columns.map fun c => assignment c.1 c.2.1.identity)) := by
  have hopen : "row[" = "row" ++ "[" := rfl
  simp [ModelType.row, ModelType.identity, bracketed, assignment, Function.comp_def, hopen]

theorem identity_collection (element : TypeUsage)
    : (ModelType.collection element).identity = bracketed "collection" element.identity :=
  rfl

theorem identity_reference (element : ModelType)
    : (ModelType.reference element).identity = bracketed "reference" element.identity :=
  rfl

/-- The facets of a usage as its identity lists them behind its type. -/
def facetText (facets : List Facet) : String :=
  if facets.isEmpty then ""
  else "(" ++ commaSeparated (facets.map fun f => assignment f.name f.value) ++ ")"

theorem identity_withFacets (type : ModelType) (facets : List Facet)
    : (TypeUsage.withFacets type facets).identity = type.identity ++ facetText facets := by
  cases facets with
  | nil => simp [TypeUsage.withFacets, TypeUsage.ofType, TypeUsage.identity, facetText]
  | cons f rest =>
      simp [TypeUsage.withFacets, TypeUsage.identity, facetText, assignment, String.append_assoc]

/-- Facets tell their names and values. -/
theorem facetText_injective {front back : List Facet}
    (hfront : ∀ f ∈ front, isClean f.name = true ∧ isClean f.value = true)
    (hback : ∀ f ∈ back, isClean f.name = true ∧ isClean f.value = true)
    (h : facetText front = facetText back)
    : front = back := by
  have hitem {f : Facet} (h : isClean f.name = true ∧ isClean f.value = true)
      : IsItem (assignment f.name f.value).toList :=
    .assignment h.1 (.name h.2)
  have hne (f : Facet) (rest : List Facet) : facetText (f :: rest) ≠ facetText [] := by
    intro h
    have hlists := congrArg String.toList h
    simp [facetText] at hlists
  cases front with
  | nil =>
      cases back with
      | nil => rfl
      | cons f back => exact absurd h.symm (hne f back)
  | cons f₀ front =>
      cases back with
      | nil => exact absurd h (hne f₀ front)
      | cons g₀ back =>
          have hlist : commaSeparated ((f₀ :: front).map fun f => assignment f.name f.value)
              = commaSeparated ((g₀ :: back).map fun f => assignment f.name f.value) := by
            have hlists := congrArg String.toList h
            simp only [facetText, List.isEmpty_cons, Bool.false_eq_true, if_false,
              String.toList_append, List.append_cancel_left_eq, List.append_cancel_right_eq]
              at hlists
            exact String.toList_injective hlists
          have hfacet (f) (hf : f ∈ f₀ :: front) (g) (hg : g ∈ g₀ :: back)
              (h : assignment f.name f.value = assignment g.name g.value) : id f = id g := by
            obtain ⟨hname, hvalue⟩ := assignment_injective (hfront f hf).1 (hback g hg).1 h
            cases f
            cases g
            simp_all
          have hfacets := map_eq_of_commaSeparated_eq (fun f hf => hitem (hfront f hf))
            (fun f hf => hitem (hback f hf)) hfacet hlist
          simpa using hfacets

/-- Words end in front of the first other character. -/
theorem word_append_cancel {front back rest more : List Char} {c d : Char}
    (hfront : ∀ x ∈ front, isWordChar x = true) (hback : ∀ x ∈ back, isWordChar x = true)
    (hc : isWordChar c = false) (hd : isWordChar d = false)
    (h : front ++ c :: rest = back ++ d :: more)
    : front = back ∧ c :: rest = d :: more := by
  have htake {word : List Char} {c : Char} (hword : ∀ x ∈ word, isWordChar x = true)
      (hc : isWordChar c = false) (rest : List Char)
      : (word ++ c :: rest).takeWhile isWordChar = word := by
    rw [List.takeWhile_append_of_pos hword, List.takeWhile_cons_of_neg (by simp [hc]),
      List.append_nil]
  have hword : front = back := by
    rw [← htake hfront hc rest, h, htake hback hd]
  subst hword
  exact ⟨rfl, List.append_cancel_left h⟩

/-- The identity of a usage tells that of its type and the facets. -/
theorem facets_append_cancel {s t : ModelType} {front back : List Facet} (hs : s.Built)
    (ht : t.Built) (hfront : ∀ f ∈ front, isClean f.name = true ∧ isClean f.value = true)
    (hback : ∀ f ∈ back, isClean f.name = true ∧ isClean f.value = true)
    (h : s.identity ++ facetText front = t.identity ++ facetText back)
    : s.identity = t.identity ∧ front = back := by
  have hends (facets : List Facet)
      : takeIdentity false 0 (facetText facets).toList = ([], (facetText facets).toList) := by
    cases facets with
    | nil => rfl
    | cons f rest => simp [facetText, takeIdentity, isWordChar, isNameChar]
  have htake {type : ModelType} (h : type.Built) (facets : List Facet)
      : takeIdentity false 0 (type.identity ++ facetText facets).toList
        = (type.identity.toList, (facetText facets).toList) := by
    rw [String.toList_append, takeIdentity_append (h.identity.passes false) (hends facets)]
  have hsplit := htake hs front
  rw [h, htake ht back] at hsplit
  obtain ⟨hidentity, hfacets⟩ := Prod.mk.inj hsplit
  exact ⟨String.toList_injective hidentity.symm,
    facetText_injective hfront hback (String.toList_injective hfacets.symm)⟩

/-- A type is named or has a word in front of brackets, and both are told. -/
theorem bracketed_injective {stem other text inner : String} (hstem : isClean stem = true)
    (hother : isClean other = true)
    (h : bracketed stem text = bracketed other inner)
    : stem = other ∧ text = inner := by
  have hlists := congrArg String.toList h
  have hopen : "[".toList = ['['] := rfl
  simp only [bracketed, String.toList_append, List.append_assoc, hopen, List.singleton_append]
    at hlists
  obtain ⟨hword, hrest⟩ := word_append_cancel (isWordChar_of_isClean hstem)
    (isWordChar_of_isClean hother) (by decide) (by decide) hlists
  refine ⟨String.toList_injective hword, String.toList_injective ?_⟩
  exact List.append_cancel_right (List.cons.inj hrest).2

theorem ne_bracketed_of_isClean {name stem text : String} (h : isClean name = true)
    : name ≠ bracketed stem text := by
  rintro rfl
  have hopen := isWordChar_of_isClean h '[' (by simp [bracketed])
  exact absurd hopen (by decide)

/-- A type whose identity ends in brackets is told by the word in front of them. -/
theorem cases_of_bracketed {stem text : String} {t : ModelType} {e : TypeDescription}
    (hstem : isClean stem = true) (ht : t.IsDescribed e) (h : bracketed stem text = t.identity)
    : (∃ columns : List (String × TypeUsage × UsageDescription),
          stem = "row" ∧ text = commaSeparated (columns.map fun c => assignment c.1 c.2.1.identity)
          ∧ (∀ c ∈ columns, isClean c.1 = true ∧ c.2.1.IsDescribed c.2.2)
          ∧ e = .row (columns.map fun c => (c.1, c.2.2)))
      ∨ (∃ (element : TypeUsage) (d : UsageDescription),
          stem = "collection" ∧ text = element.identity ∧ element.IsDescribed d
          ∧ e = .collection d)
      ∨ ∃ (element : ModelType) (d : TypeDescription),
          stem = "reference" ∧ text = element.identity ∧ element.IsDescribed d
          ∧ e = .reference d := by
  cases ht with
  | primitive kind => exact absurd h.symm (ne_bracketed_of_isClean (isClean_primitive kind))
  | enumeration underlying clean | entity clean | complex clean =>
      exact absurd h.symm (ne_bracketed_of_isClean clean)
  | @row columns clean described =>
      rw [identity_row] at h
      obtain ⟨hword, htext⟩ := bracketed_injective hstem (by decide) h
      exact .inl ⟨columns, hword, htext, fun c hc => ⟨clean c hc, described c hc⟩, rfl⟩
  | @collection element d described =>
      rw [identity_collection] at h
      obtain ⟨hword, htext⟩ := bracketed_injective hstem (by decide) h
      exact .inr (.inl ⟨element, d, hword, htext, described, rfl⟩)
  | @reference element d described =>
      rw [identity_reference] at h
      obtain ⟨hword, htext⟩ := bracketed_injective hstem (by decide) h
      exact .inr (.inr ⟨element, d, hword, htext, described, rfl⟩)

/-- A usage is a described type with its facets. -/
theorem TypeUsage.IsDescribed.exists_type {usage : TypeUsage} {d : UsageDescription}
    (h : usage.IsDescribed d)
    : ∃ (type : ModelType) (e : TypeDescription) (facets : List Facet), type.IsDescribed e
        ∧ (∀ f ∈ facets, isClean f.name = true ∧ isClean f.value = true)
        ∧ usage.identity = type.identity ++ facetText facets ∧ d = .mk e facets := by
  cases h with
  | @ofType type e described =>
      exact ⟨type, e, [], described, by simp, identity_withFacets type [], rfl⟩
  | @withFacets type e facets described clean =>
      exact ⟨type, e, facets, described, clean, identity_withFacets type facets, rfl⟩

/-- The identity of the type tells the description, whatever type it is compared with. -/
structure ModelType.Tells (s : ModelType) (d : TypeDescription) : Prop where
  eq_of_identity {t : ModelType} {e : TypeDescription} (ht : t.IsDescribed e)
    (h : s.identity = t.identity)
    : d = e

/-- The identity of the usage tells the description, whatever usage it is compared with. -/
structure TypeUsage.Tells (u : TypeUsage) (d : UsageDescription) : Prop where
  eq_of_identity {v : TypeUsage} {e : UsageDescription} (hv : v.IsDescribed e)
    (h : u.identity = v.identity)
    : d = e

namespace ModelType.Tells

theorem named {s : ModelType} (hclean : isClean s.identity = true) : s.Tells (.named s.identity)
    := by
  refine ⟨fun {t e} ht h => ?_⟩
  cases ht with
  | primitive kind | enumeration underlying clean | entity clean | complex clean =>
      exact congrArg TypeDescription.named h
  | row clean described =>
      rw [identity_row] at h
      exact absurd h (ne_bracketed_of_isClean hclean)
  | collection described =>
      rw [identity_collection] at h
      exact absurd h (ne_bracketed_of_isClean hclean)
  | reference described =>
      rw [identity_reference] at h
      exact absurd h (ne_bracketed_of_isClean hclean)

theorem row {columns : List (String × TypeUsage × UsageDescription)}
    (clean : ∀ c ∈ columns, isClean c.1 = true)
    (described : ∀ c ∈ columns, c.2.1.IsDescribed c.2.2) (tells : ∀ c ∈ columns, c.2.1.Tells c.2.2)
    : (ModelType.row (columns.map fun c => (c.1, c.2.1))).Tells
        (.row (columns.map fun c => (c.1, c.2.2))) := by
  refine ⟨fun {t e} ht h => ?_⟩
  rw [identity_row] at h
  rcases cases_of_bracketed (by decide) ht h with ⟨others, -, hlist, hothers, rfl⟩
    | ⟨element, d, hstem, -⟩ | ⟨element, d, hstem, -⟩
  · have hitem {c : String × TypeUsage × UsageDescription} (hclean : isClean c.1 = true)
        (h : c.2.1.IsDescribed c.2.2) : IsItem (assignment c.1 c.2.1.identity).toList :=
      .assignment hclean h.built.identity.passes
    have hcolumn (c) (hc : c ∈ columns) (o) (ho : o ∈ others)
        (h : assignment c.1 c.2.1.identity = assignment o.1 o.2.1.identity)
        : (c.1, c.2.2) = (o.1, o.2.2) := by
      obtain ⟨hname, hidentity⟩ := assignment_injective (clean c hc) (hothers o ho).1 h
      rw [hname, (tells c hc).eq_of_identity (hothers o ho).2 hidentity]
    rw [map_eq_of_commaSeparated_eq (fun c hc => hitem (clean c hc) (described c hc))
      (fun o ho => hitem (hothers o ho).1 (hothers o ho).2) hcolumn hlist]
  · exact absurd hstem (by decide)
  · exact absurd hstem (by decide)

theorem collection {element : TypeUsage} {d : UsageDescription} (tells : element.Tells d)
    : (ModelType.collection element).Tells (.collection d) := by
  refine ⟨fun {t e} ht h => ?_⟩
  rw [identity_collection] at h
  rcases cases_of_bracketed (by decide) ht h with ⟨columns, hstem, -⟩
    | ⟨other, e, -, hidentity, hother, rfl⟩ | ⟨other, e, hstem, -⟩
  · exact absurd hstem (by decide)
  · rw [tells.eq_of_identity hother hidentity]
  · exact absurd hstem (by decide)

theorem reference {element : ModelType} {d : TypeDescription} (tells : element.Tells d)
    : (ModelType.reference element).Tells (.reference d) := by
  refine ⟨fun {t e} ht h => ?_⟩
  rw [identity_reference] at h
  rcases cases_of_bracketed (by decide) ht h with ⟨columns, hstem, -⟩ | ⟨other, e, hstem, -⟩
    | ⟨other, e, -, hidentity, hother, rfl⟩
  · exact absurd hstem (by decide)
  · exact absurd hstem (by decide)
  · rw [tells.eq_of_identity hother hidentity]

end ModelType.Tells

namespace TypeUsage.Tells

theorem withFacets {s : ModelType} {d : TypeDescription} {facets : List Facet}
    (hs : s.Built) (clean : ∀ f ∈ facets, isClean f.name = true ∧ isClean f.value = true)
    (tells : s.Tells d)
    : (TypeUsage.withFacets s facets).Tells (.mk d facets) := by
  refine ⟨fun {v e} hv h => ?_⟩
  obtain ⟨t, e, others, ht, hothers, hidentity, rfl⟩ := hv.exists_type
  rw [identity_withFacets, hidentity] at h
  obtain ⟨htype, rfl⟩ := facets_append_cancel hs ht.built clean hothers h
  rw [tells.eq_of_identity ht htype]

theorem ofType {s : ModelType} {d : TypeDescription} (hs : s.Built) (tells : s.Tells d)
    : (TypeUsage.ofType s).Tells (.mk d []) :=
  @withFacets s d [] hs (by simp) tells

end TypeUsage.Tells

mutual
/-- The identity of a type tells its description, by induction on how the type was built. -/
theorem ModelType.IsDescribed.tells {s : ModelType} {d : TypeDescription}
    : s.IsDescribed d → s.Tells d
  | .primitive kind => .named (isClean_primitive kind)
  | .enumeration _ clean | .entity clean | .complex clean => .named clean
  | .row clean described => .row clean described fun c hc => (described c hc).tells
  | .collection described => .collection described.tells
  | .reference described => .reference described.tells

theorem TypeUsage.IsDescribed.tells {u : TypeUsage} {d : UsageDescription}
    : u.IsDescribed d → u.Tells d
  | .ofType described => .ofType described.built described.tells
  | .withFacets described clean => .withFacets described.built clean described.tells
end

-----------------------------------------------------------------------------------------
-- Functions
-----------------------------------------------------------------------------------------

/-- The qualified name of a function consists of word characters. -/
theorem isWordChar_of_mem_qualifiedName {space name : String} (hspace : isClean space = true)
    (hname : isClean name = true)
    : ∀ c ∈ (space ++ "." ++ name).toList, isWordChar c = true := by
  intro c hc
  simp only [String.toList_append, List.mem_append] at hc
  rcases hc with (hc | hc) | hc
  · exact isWordChar_of_isClean hspace c hc
  · obtain rfl : c = '.' := by simpa using hc
    decide
  · exact isWordChar_of_isClean hname c hc

theorem toList_identity_ofSignature (space name : String)
    (parameters : List (TypeUsage × UsageDescription))
    : (Function.ofSignature space name (parameters.map Prod.fst)).identity.toList
      = (space ++ "." ++ name).toList
        ++ '(' :: ((commaSeparated (parameters.map fun p => p.1.identity)).toList ++ [')']) := by
  simp [Function.ofSignature, Function.comp_def]

/-- The identity of a function tells its qualified name and its parameters. -/
theorem Function.IsDescribed.eq_of_identity {f g : Function} {d e : FunctionDescription}
    (hf : f.IsDescribed d) (hg : g.IsDescribed e) (h : f.identity = g.identity)
    : d = e := by
  cases hf with
  | @ofSignature space name parameters hspace hname hparameters =>
      cases hg with
      | @ofSignature otherSpace otherName others hotherSpace hotherName hothers =>
          have hlists := congrArg String.toList h
          rw [toList_identity_ofSignature, toList_identity_ofSignature] at hlists
          obtain ⟨hqualified, hrest⟩ := word_append_cancel
            (isWordChar_of_mem_qualifiedName hspace hname)
            (isWordChar_of_mem_qualifiedName hotherSpace hotherName) (by decide) (by decide) hlists
          have hlist : commaSeparated (parameters.map fun p => p.1.identity)
              = commaSeparated (others.map fun p => p.1.identity) :=
            String.toList_injective (List.append_cancel_right (List.cons.inj hrest).2)
          have hparameter (p) (hp : p ∈ parameters) (q) (hq : q ∈ others)
              (h : p.1.identity = q.1.identity) : p.2 = q.2 :=
            (hparameters p hp).tells.eq_of_identity (hothers q hq) h
          rw [String.toList_injective hqualified, map_eq_of_commaSeparated_eq
            (fun p hp => .usage (hparameters p hp).built.identity)
            (fun q hq => .usage (hothers q hq).built.identity) hparameter hlist]

/-- An identity tells how what has it is put together: types and usages with the same identity have
the same description, and functions with the same identity the same qualified name and parameters.
-/
theorem identity_tells_description
    : (∀ (s t : ModelType) (d e : TypeDescription), s.IsDescribed d → t.IsDescribed e
          → s.identity = t.identity → d = e)
      ∧ (∀ (u v : TypeUsage) (d e : UsageDescription), u.IsDescribed d → v.IsDescribed e
          → u.identity = v.identity → d = e)
      ∧ ∀ (f g : Function) (d e : FunctionDescription), f.IsDescribed d → g.IsDescribed e
          → f.identity = g.identity → d = e :=
  ⟨fun _ _ _ _ hs ht h => hs.tells.eq_of_identity ht h,
    fun _ _ _ _ hu hv h => hu.tells.eq_of_identity hv h,
    fun _ _ _ _ hf hg h => hf.eq_of_identity hg h⟩

/-- The prices of an order line, with two places each. -/
def prices : TypeUsage :=
  .collection (.withFacets (.primitive .decimal) [⟨"Scale", "2"⟩])

def pricesDescription : UsageDescription :=
  .mk (.collection (.mk (.named "Edm.Decimal") [⟨"Scale", "2"⟩])) []

/-- An order line: what it is for and its prices. -/
def orderLine : ModelType :=
  .row [("item", .entity "Shop.Item"), ("prices", prices)]

def orderLineDescription : TypeDescription :=
  .row [("item", .mk (.named "Shop.Item") []), ("prices", pricesDescription)]

theorem prices_isDescribed : prices.IsDescribed pricesDescription :=
  .ofType (.collection (.withFacets (.primitive .decimal) (by decide)))

theorem orderLine_isDescribed : orderLine.IsDescribed orderLineDescription := by
  refine @ModelType.IsDescribed.row
    [("item", .entity "Shop.Item", .mk (.named "Shop.Item") []),
      ("prices", prices, pricesDescription)]
    (by decide) fun c hc => ?_
  simp only [List.mem_cons, List.not_mem_nil, or_false] at hc
  rcases hc with rfl | rfl
  · exact .ofType (.entity (by decide))
  · exact prices_isDescribed

/-- A function of an order line and its prices. -/
def total (space name : String) : Function :=
  .ofSignature space name [.ofType orderLine, prices]

theorem total_isDescribed {space name : String} (hspace : isClean space = true)
    (hname : isClean name = true)
    : (total space name).IsDescribed
        ⟨space ++ "." ++ name, [.mk orderLineDescription [], pricesDescription]⟩ := by
  refine @Function.IsDescribed.ofSignature space name
    [(.ofType orderLine, .mk orderLineDescription []), (prices, pricesDescription)] hspace hname
    fun p hp => ?_
  simp only [List.mem_cons, List.not_mem_nil, or_false] at hp
  rcases hp with rfl | rfl
  · exact .ofType orderLine_isDescribed
  · exact prices_isDescribed

/-- The kind of a named type is not told, nor where the namespace of a function ends; all else of a
signature is.
-/
theorem identity_tells_signature
    : (ModelType.primitive .int32).identity = (ModelType.entity "Edm.Int32").identity
      ∧ TypeDescription.named (ModelType.primitive .int32).identity = .named "Edm.Int32"
      ∧ prices.identity = "collection[Edm.Decimal(Scale=2)]"
      ∧ pricesDescription
        = .mk (.collection (.mk (.named (ModelType.primitive .decimal).identity) [⟨"Scale", "2"⟩])) []
      ∧ (total "Shop.Tools" "Total").identity = (total "Shop" "Tools.Total").identity
      ∧ FunctionDescription.mk ("Shop.Tools" ++ "." ++ "Total")
          [.mk orderLineDescription [], pricesDescription]
        = ⟨"Shop" ++ "." ++ "Tools.Total", [.mk orderLineDescription [], pricesDescription]⟩ := by
  obtain ⟨htypes, husages, hfunctions⟩ := identity_tells_description
  have hnumber : (ModelType.primitive .int32).identity = (ModelType.entity "Edm.Int32").identity :=
    rfl
  have htotal : (total "Shop.Tools" "Total").identity = (total "Shop" "Tools.Total").identity := by
    decide +kernel
  refine ⟨hnumber, ?_, by decide +kernel, ?_, htotal, ?_⟩
  · exact htypes _ _ _ _ (.primitive .int32) (.entity (by decide)) hnumber
  · exact husages prices prices _ _ prices_isDescribed
      (.ofType (.collection (.withFacets (.primitive .decimal) (by decide)))) rfl
  · exact hfunctions _ _ _ _ (total_isDescribed (by decide) (by decide))
      (total_isDescribed (by decide) (by decide)) htotal

end QueryKey.Metadata
