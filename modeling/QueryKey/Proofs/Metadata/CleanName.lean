import QueryKey.Metadata.Item

/-! Clean names, and metadata that is built from them by the constructors of types, usages and
functions. An identity that was built in another way may hold any text.
-/

namespace QueryKey.Metadata

/-- The characters of names: letters and digits of ASCII and the underscore. -/
def isNameChar (c : Char) : Bool :=
  c.isAlphanum || c == '_'

/-- The characters of names and the dots between them. -/
def isWordChar (c : Char) : Bool :=
  isNameChar c || c == '.'

/-- One or more runs of name characters with single dots between them; `started` tells whether the
text goes on a run.
-/
def isDotted (started : Bool) : List Char → Bool
  | [] => started
  | c :: rest =>
      if isNameChar c then isDotted true rest
      else c == '.' && started && isDotted false rest

def isClean (name : String) : Bool :=
  isDotted false name.toList

theorem isClean_primitive (kind : Primitive)
    : isClean (ModelType.primitive kind).identity = true := by
  cases kind <;> decide

mutual
/-- A type that was built from clean names. -/
inductive ModelType.Built : ModelType → Prop
  | primitive (kind : Primitive) : ModelType.Built (.primitive kind)
  | enumeration {name : String} (underlying : Primitive) (clean : isClean name = true)
    : ModelType.Built (.enumeration name underlying)
  | entity {name : String} (clean : isClean name = true) : ModelType.Built (.entity name)
  | complex {name : String} (clean : isClean name = true) : ModelType.Built (.complex name)
  | row {columns : List (String × TypeUsage)} (clean : ∀ c ∈ columns, isClean c.1 = true)
    (built : ∀ c ∈ columns, TypeUsage.Built c.2)
    : ModelType.Built (.row columns)
  | collection {element : TypeUsage} (built : TypeUsage.Built element)
    : ModelType.Built (.collection element)
  | reference {element : ModelType} (built : ModelType.Built element)
    : ModelType.Built (.reference element)

/-- A usage that was built from clean names. -/
inductive TypeUsage.Built : TypeUsage → Prop
  | ofType {type : ModelType} (built : ModelType.Built type) : TypeUsage.Built (.ofType type)
  | withFacets {type : ModelType} {facets : List Facet} (built : ModelType.Built type)
    (clean : ∀ f ∈ facets, isClean f.name = true ∧ isClean f.value = true)
    : TypeUsage.Built (.withFacets type facets)
end

/-- A function that was built from clean names. -/
inductive Function.Built : Function → Prop
  | ofSignature {space name : String} {parameters : List TypeUsage}
    (cleanSpace : isClean space = true) (cleanName : isClean name = true)
    (built : ∀ p ∈ parameters, p.Built)
    : Function.Built (.ofSignature space name parameters)

-----------------------------------------------------------------------------------------
-- The characters of clean names
-----------------------------------------------------------------------------------------

theorem isWordChar_of_isNameChar {c : Char} (h : isNameChar c = true) : isWordChar c = true := by
  simp [isWordChar, h]

/-- Dotted runs consist of word characters, by induction on the text. -/
theorem isWordChar_of_mem_isDotted {started : Bool} {text : List Char}
    (h : isDotted started text = true)
    : ∀ c ∈ text, isWordChar c = true := by
  induction text generalizing started with
  | nil => simp
  | cons c rest ih =>
      intro d hd
      rw [isDotted] at h
      split at h
      · next hc =>
          rcases List.mem_cons.mp hd with rfl | hd
          · exact isWordChar_of_isNameChar hc
          · exact ih h d hd
      · simp only [Bool.and_eq_true, beq_iff_eq] at h
        rcases List.mem_cons.mp hd with rfl | hd
        · simp [isWordChar, h.1.1]
        · exact ih h.2 d hd

theorem isWordChar_of_isClean {name : String} (h : isClean name = true)
    : ∀ c ∈ name.toList, isWordChar c = true :=
  isWordChar_of_mem_isDotted h

/-- A clean name starts with a name character, so it is not empty. -/
theorem exists_cons_of_isClean {name : String} (h : isClean name = true)
    : ∃ c more, name.toList = c :: more ∧ isNameChar c = true := by
  rw [isClean] at h
  cases hn : name.toList with
  | nil =>
      rw [hn] at h
      cases h
  | cons c more =>
      rw [hn, isDotted] at h
      split at h
      · next hc => exact ⟨c, more, rfl, hc⟩
      · simp at h

end QueryKey.Metadata
