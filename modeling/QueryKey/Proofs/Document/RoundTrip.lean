import QueryKey.Proofs.Document.Members
import QueryKey.Proofs.Json.ReadBack

/-! Parts of documents read back. Shapes that are put together from others read back if those do,
so that a tree reads back once its leaves do.
-/

namespace QueryKey.Document

open QueryKey.Expr QueryKey.Metadata QueryKey.Text

variable {ε δ : Type}

-----------------------------------------------------------------------------------------
-- Replacing expressions
-----------------------------------------------------------------------------------------

/-- A record with other expressions in it. -/
def Record.map (f : ε → δ) : (r : Record) → r.Carrier ε → r.Carrier δ
  | binding, x => x.map f
  | groupBinding, x => x.map f
  | arm, x => x.map f
  | clause, x => x.map f
  | related, x => x.map f
  | function, x => x
  | set, x => x
  | relationEnd, x => x
  | member, x => x
  | spatial, x => x
  | formal, x => x
  | enumeration, x => x
  | collection, x => x
  | reference, x => x

/-- What a shape stands for with other expressions in it. -/
def Shape.map (f : ε → δ) : (s : Shape) → s.Carrier ε → s.Carrier δ
  | leaf _, x => x
  | word _, x => x
  | list s, xs => xs.map (s.map f)
  | optional s, x => Option.map (s.map f) x
  | record r, x => r.map f x
  | payload, x => x
  | usage, x => x
  | type, x => x
  | typeKind, x => x
  | expr, x => f x
  | body, x => x.map f
  | aggregate, x => x.map f

def Values.map (f : ε → δ) : (fields : List Field) → Values ε fields → Values δ fields
  | [], () => ()
  | field :: rest, (x, xs) => (field.shape.map f x, map f rest xs)

theorem Record.values_map (f : ε → δ) (r : Record) (x : r.Carrier ε)
    : r.values (r.map f x) = Values.map f r.fields (r.values x) := by
  cases r with
  | clause =>
      obtain ⟨key, ascending, collation⟩ := x
      cases collation <;> rfl
  | _ => rfl

theorem NodeForm.split_map (f : ε → δ) (b : Body ε)
    : split (b.map f) = ⟨(split b).1, Values.map f _ (split b).2⟩ := by
  cases b with
  | lambda formals body arguments =>
      have hformals : formals.map ((Shape.record .formal).map f) = formals :=
        (List.map_congr_left fun _ _ => rfl).trans (List.map_id formals)
      simp only [Body.map, split, Values.map, Shape.map, NodeForm.fields] at hformals ⊢
      rw [hformals]
  | _ => rfl

theorem AggregateForm.split_map (f : ε → δ) (a : Aggregate ε)
    : split (a.map f) = ⟨(split a).1, Values.map f _ (split a).2⟩ := by
  cases a <;> rfl

theorem Shape.isEmpty_map (f : ε → δ) (s : Shape) (x : s.Carrier ε)
    : s.isEmpty (s.map f x) = s.isEmpty x := by
  cases s with
  | list s => exact List.isEmpty_map
  | optional s => cases x <;> rfl
  | _ => rfl

/-- Nothing is lost by leaving out an empty part. -/
theorem Shape.absent?_of_isEmpty {s : Shape} {x : s.Carrier ε} (h : s.isEmpty x = true)
    : s.absent? = some x := by
  cases s with
  | list s =>
      obtain rfl := List.isEmpty_iff.mp h
      rfl
  | optional s =>
      obtain rfl := Option.isNone_iff_eq_none.mp h
      rfl
  | _ => cases h

-----------------------------------------------------------------------------------------
-- Reading back
-----------------------------------------------------------------------------------------

/-- The part is read back from what is written for it, nested or not, and all numbers in that are
kept.
-/
structure ReadsBack (s : Shape) (x : s.Carrier Expr) : Prop where
  kept : (write s (s.map writeExpr x)).IsKept
  reads : ∀ nested, read (write s (s.map writeExpr x)).arranged nested s = .ok x

def FieldsReadBack : (fields : List Field) → Values Expr fields → Prop
  | [], () => True
  | f :: rest, (x, xs) => ReadsBack f.shape x ∧ FieldsReadBack rest xs

theorem isKept_object {members : List (String × Json)}
    : (Json.object members).IsKept ↔ ∀ m ∈ members, m.2.IsKept := by
  rw [Json.IsKept]
  induction members with
  | nil => simp [Json.areKeptMembers]
  | cons member rest ih =>
      obtain ⟨key, value⟩ := member
      rw [Json.areKeptMembers, ih, List.forall_mem_cons]

theorem isKept_array {items : List Json}
    : (Json.array items).IsKept ↔ ∀ item ∈ items, item.IsKept := by
  rw [Json.IsKept]
  induction items with
  | nil => simp [Json.areKeptItems]
  | cons item rest ih => rw [Json.areKeptItems, ih, List.forall_mem_cons]

/-- The members for the fields. -/
abbrev membersOf (fields : List Field) (xs : Values Expr fields) : List (String × Json) :=
  writeFields fields (Values.map writeExpr fields xs)

theorem membersOf_required {name : String} {s : Shape} {rest : List Field} (x : s.Carrier Expr)
    (xs : Values Expr rest)
    : membersOf (field name s :: rest) (x, xs)
      = (name, write s (s.map writeExpr x)) :: membersOf rest xs := by
  have hwritten : (field name s).isWritten (s.map writeExpr x) = true := rfl
  rw [membersOf, Values.map, writeFields, if_pos hwritten]

theorem membersOf_nil : membersOf [] () = [] := by
  rw [membersOf, Values.map, writeFields]

theorem membersOf_singleton (name : String) (s : Shape) (x : s.Carrier Expr)
    : membersOf [field name s] (x, ()) = [(name, write s (s.map writeExpr x))] := by
  rw [membersOf_required, membersOf_nil]

theorem membersOf_pair (name : String) (s : Shape) (x : s.Carrier Expr) (other : String)
    (t : Shape) (y : t.Carrier Expr)
    : membersOf [field name s, field other t] (x, y, ())
      = [(name, write s (s.map writeExpr x)), (other, write t (t.map writeExpr y))] := by
  rw [membersOf_required, membersOf_singleton]

theorem mem_membersOf_cons {f : Field} {rest : List Field} {x : f.shape.Carrier Expr}
    {xs : Values Expr rest} {m : String × Json}
    : m ∈ membersOf (f :: rest) (x, xs)
      ↔ (f.isWritten x = true ∧ m = (f.name, write f.shape (f.shape.map writeExpr x)))
        ∨ m ∈ membersOf rest xs := by
  have hwritten : f.isWritten (f.shape.map writeExpr x) = f.isWritten x := by
    simp only [Field.isWritten, Shape.isEmpty_map]
  rw [membersOf, Values.map, writeFields, hwritten]
  split <;> simp_all

theorem name_of_mem_membersOf {fields : List Field} {xs : Values Expr fields} {m : String × Json}
    (h : m ∈ membersOf fields xs)
    : m.1 ∈ fields.map Field.name := by
  induction fields with
  | nil =>
      rw [membersOf_nil] at h
      cases h
  | cons f rest ih =>
      obtain ⟨x, xs⟩ := xs
      rcases mem_membersOf_cons.mp h with ⟨-, rfl⟩ | h
      · exact List.mem_cons_self
      · exact List.mem_cons_of_mem _ (ih h)

/-- A field that is left out means its value. -/
theorem absent?_of_isWritten {f : Field} {x : f.shape.Carrier Expr} (h : f.isWritten x = false)
    : f.absent? = some x := by
  simp only [Field.isWritten, Bool.not_eq_false', Bool.and_eq_true, beq_iff_eq] at h
  rw [Field.absent?, h.1]
  exact Shape.absent?_of_isEmpty h.2

/-- A written field is supplied by members among which no other has its name. -/
theorem supplies_of_unique {f : Field} {x : f.shape.Carrier Expr} (h : ReadsBack f.shape x)
    (nested : Bool) {members : List (String × Json)}
    (hunique : ∀ value, (f.name, value) ∈ members
      ↔ f.isWritten x = true ∧ value = write f.shape (f.shape.map writeExpr x))
    : Supplies nested f x (arrangedParts members) := by
  cases hwritten : f.isWritten x with
  | true =>
      refine .inl ⟨?_, fun part hpart => ?_⟩
      · rw [mem_keys_arrangedParts]
        exact List.mem_map_of_mem ((hunique _).mpr ⟨hwritten, rfl⟩)
      · obtain ⟨value, hvalue, rfl⟩ := mem_arrangedParts hpart
        rw [((hunique value).mp hvalue).2]
        exact h.reads nested
  | false =>
      refine .inr ⟨fun hname => ?_, absent?_of_isWritten hwritten⟩
      obtain ⟨m, hm, hkey⟩ := List.mem_map.mp (mem_keys_arrangedParts.mp hname)
      have hm : (f.name, m.2) ∈ members := hkey ▸ hm
      exact absurd ((hunique m.2).mp hm).1 (by simp [hwritten])

/-- The written members supply their fields, also beside others, by induction on the fields. -/
theorem suppliesAll_membersOf {fields : List Field} {xs : Values Expr fields}
    (h : FieldsReadBack fields xs) (hnodup : (fields.map Field.name).Nodup) (nested : Bool)
    {members others : List (String × Json)}
    (hothers : ∀ m ∈ others, m.1 ∉ fields.map Field.name)
    (hmembers : ∀ m, m ∈ members ↔ m ∈ others ∨ m ∈ membersOf fields xs)
    : SuppliesAll nested fields xs (arrangedParts members) := by
  induction fields generalizing others with
  | nil => trivial
  | cons f rest ih =>
      obtain ⟨x, xs⟩ := xs
      obtain ⟨hx, hxs⟩ := h
      obtain ⟨hname, hrest⟩ := List.nodup_cons.mp hnodup
      have hunique (value : Json) : (f.name, value) ∈ members
          ↔ f.isWritten x = true ∧ value = write f.shape (f.shape.map writeExpr x) := by
        rw [hmembers, mem_membersOf_cons]
        constructor
        · rintro (hm | ⟨hwritten, heq⟩ | hm)
          · exact absurd List.mem_cons_self (hothers _ hm)
          · exact ⟨hwritten, (Prod.mk.inj heq).2⟩
          · exact absurd (name_of_mem_membersOf hm) hname
        · rintro ⟨hwritten, rfl⟩
          exact .inr (.inl ⟨hwritten, rfl⟩)
      have hbeside : ∀ m ∈ others ++ (if f.isWritten x then
          [(f.name, write f.shape (f.shape.map writeExpr x))] else []),
          m.1 ∉ rest.map Field.name := by
        intro m hm
        rcases List.mem_append.mp hm with hm | hm
        · exact fun hmem => hothers m hm (List.mem_cons_of_mem _ hmem)
        · split at hm
          · obtain rfl := List.mem_singleton.mp hm
            exact hname
          · cases hm
      refine ⟨supplies_of_unique hx nested hunique, ih hxs hrest hbeside fun m => ?_⟩
      rw [hmembers, mem_membersOf_cons, List.mem_append]
      split <;> simp_all [or_assoc]

theorem isKept_membersOf {fields : List Field} {xs : Values Expr fields}
    (h : FieldsReadBack fields xs)
    : ∀ m ∈ membersOf fields xs, m.2.IsKept := by
  induction fields with
  | nil =>
      rw [membersOf_nil]
      exact List.forall_mem_nil _
  | cons f rest ih =>
      obtain ⟨x, xs⟩ := xs
      intro m hm
      rcases mem_membersOf_cons.mp hm with ⟨-, rfl⟩ | hm
      · exact h.1.kept
      · exact ih h.2 m hm

theorem levelOf_object (members : List (String × Json))
    : levelOf (Json.object members).arranged = .object (arrangedParts members) :=
  rfl

/-- Fields are read from their members. -/
theorem readFields_membersOf {fields : List Field} {xs : Values Expr fields}
    (h : FieldsReadBack fields xs) (hnodup : (fields.map Field.name).Nodup) (nested : Bool)
    : readFields nested fields (levelOf (Json.object (membersOf fields xs)).arranged) = .ok xs :=
  readMembers_of_suppliesAll hnodup
    (suppliesAll_membersOf h hnodup nested (List.forall_mem_nil _) fun _ => by simp)

theorem write_record {r : Record} (x : r.Carrier Expr)
    : write (.record r) ((Shape.record r).map writeExpr x)
      = .object (membersOf r.fields (r.values x)) := by
  rw [Shape.map, write, Record.values_map]

-----------------------------------------------------------------------------------------
-- Shapes that are put together
-----------------------------------------------------------------------------------------

namespace ReadsBack

theorem list {s : Shape} {xs : List (s.Carrier Expr)} (h : ∀ x ∈ xs, ReadsBack s x)
    : ReadsBack (.list s) xs where
  kept := by
    rw [Shape.map, write, isKept_array]
    simp only [List.map_map, List.mem_map]
    rintro item ⟨x, hx, rfl⟩
    exact (h x hx).kept
  reads nested := by
    have hall : readAll (fun part => part.read nested s)
        (partsOfItems (xs.map fun x => (write s (s.map writeExpr x)).arranged)) = .ok xs := by
      induction xs with
      | nil => rfl
      | cons x rest ih =>
          have hx : read (write s (s.map writeExpr x)).arranged nested s = .ok x :=
            (h x List.mem_cons_self).reads nested
          have hrest := ih fun x hx => h x (List.mem_cons_of_mem _ hx)
          rw [List.map_cons, partsOfItems, readAll, hrest]
          simp only [hx]
          rfl
    rw [Shape.map, write, Json.arranged, Json.arrangedItems_eq_map, List.map_map, List.map_map,
      read]
    exact hall

theorem none (s : Shape) : ReadsBack (.optional s) none where
  kept := by
    rw [Shape.map, Option.map_none, write]
    trivial
  reads nested := by
    rw [Shape.map, Option.map_none, write]
    rfl

/-- Parts that may be missing read back if they are not written like a missing one. -/
theorem some {s : Shape} {x : s.Carrier Expr} (h : ReadsBack s x)
    (hnull : (write s (s.map writeExpr x)).arranged ≠ .null)
    : ReadsBack (.optional s) (some x) where
  kept := by
    rw [Shape.map, Option.map_some, write]
    exact h.kept
  reads nested := by
    have hread := h.reads nested
    have hscalar : levelOf (write s (s.map writeExpr x)).arranged ≠ .scalar .null := by
      intro hlevel
      cases hj : (write s (s.map writeExpr x)).arranged with
      | null => exact hnull hj
      | _ =>
          rw [hj] at hlevel
          cases hlevel
    rw [read_eq_readLevel] at hread
    rw [Shape.map, Option.map_some, write, read_eq_readLevel, readLevel, hread]
    · rfl
    · exact hscalar

/-- A part that is made of fields is read back if they are. -/
theorem ofFields {s : Shape} {fields : List Field} {make : Values Expr fields → s.Carrier Expr}
    {xs : Values Expr fields} (h : FieldsReadBack fields xs)
    (hnodup : (fields.map Field.name).Nodup)
    (hwrite : write s (s.map writeExpr (make xs)) = .object (membersOf fields xs))
    (hread : ∀ level nested, readLevel level nested s = (readFields nested fields level).map make)
    : ReadsBack s (make xs) where
  kept := by
    rw [hwrite, isKept_object]
    exact isKept_membersOf h
  reads nested := by
    rw [hwrite, read_eq_readLevel, hread, readFields_membersOf h hnodup]
    rfl

theorem record {r : Record} {x : r.Carrier Expr} (h : FieldsReadBack r.fields (r.values x))
    : ReadsBack (.record r) x := by
  have hnodup : (r.fields.map Field.name).Nodup := by
    cases r <;> decide
  have hwrite : write (.record r) ((Shape.record r).map writeExpr (r.make (r.values x)))
      = .object (membersOf r.fields (r.values x)) := by
    rw [Record.make_values, write_record]
  have hread : ReadsBack (.record r) (r.make (r.values x)) :=
    ofFields h hnodup hwrite fun _ _ => rfl
  rwa [Record.make_values] at hread

end ReadsBack

end QueryKey.Document
