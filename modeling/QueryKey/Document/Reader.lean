import QueryKey.Document.Form
import QueryKey.Expr.Basic
import QueryKey.Failure

/-! Reading trees from documents. One level of a document is read with the readers of its parts,
so that reading is a recursion on the document; of several faults the first one in the order of
the members is reported, and a missing field only if there is no other fault.
-/

namespace QueryKey.Document

open QueryKey.Expr QueryKey.Metadata QueryKey.Text

abbrev Read (α : Type) := Except DocumentFault α

/-- A part of a document: as it stands, and as it reads in any shape. Parts that are `nested` in
a node are read more leniently than the outermost type and tag.
-/
structure Part where
  json : Json
  read : (nested : Bool) → (s : Shape) → Read (s.Carrier Expr)

/-- One level of a document. -/
inductive Level where
  | scalar (json : Json)
  | array (parts : List Part)
  | object (members : List (String × Part))

def mismatch {α : Type} : Read α :=
  .error .mismatch

def orMismatch {α : Type} : Option α → Read α
  | some value => .ok value
  | none => mismatch

/-- Reads every part in turn. -/
def readAll {α : Type} (read : Part → Read α) : List Part → Read (List α)
  | [] => .ok []
  | part :: rest => do
      let value ← read part
      let values ← readAll read rest
      return value :: values

section Fields

variable (nested : Bool)

/-- Reads a member into its slot. Members that are no field are passed over. -/
def fill (key : String) (part : Part) : (fields : List Field) → Slots Expr fields
    → Read (Slots Expr fields)
  | [], () => .ok ()
  | f :: rest, (slot, slots) =>
      if f.name = key then
        (part.read nested f.shape).map fun value => (some value, slots)
      else
        (fill key part rest slots).map fun filled => (slot, filled)

/-- Reads members in their order. -/
def fillAll (fields : List Field) : List (String × Part) → Slots Expr fields
    → Read (Slots Expr fields)
  | [], slots => .ok slots
  | (key, part) :: rest, slots => do
      let filled ← fill nested key part fields slots
      fillAll fields rest filled

/-- The values of the slots; the first required one that is empty is missing. -/
def complete : (fields : List Field) → Slots Expr fields → Read (Values Expr fields)
  | [], () => .ok ()
  | f :: rest, (slot, slots) =>
      match slot.or f.absent? with
      | some value => (complete rest slots).map fun values => (value, values)
      | none => .error (.missingField f.name)

def readMembers (fields : List Field) (members : List (String × Part))
    : Read (Values Expr fields) := do
  let slots ← fillAll nested fields members (.empty fields)
  complete fields slots

/-- Reads fields by position. The last ones may be missing if they need not be there, and no
item may be left over.
-/
def readItems : (fields : List Field) → List Part → Read (Values Expr fields)
  | [], [] => .ok ()
  | [], _ :: _ => mismatch
  | f :: rest, part :: parts => do
      let value ← part.read nested f.shape
      let values ← readItems rest parts
      return (value, values)
  | f :: rest, [] => do
      let value ← orMismatch f.absent?
      let values ← readItems rest []
      return (value, values)

/-- Reads the fields of a record, named in an object or by position in an array. -/
def readFields (fields : List Field) : Level → Read (Values Expr fields)
  | .object members => readMembers nested fields members
  | .array parts => readItems nested fields parts
  | .scalar _ => mismatch

end Fields

section Forms

variable {F : Type} [Vocabulary F] (nested : Bool)

def formOfWord (word : String) : Read F :=
  match Vocabulary.ofWord? word with
  | some form => .ok form
  | none => .error (.unknownVariant word (Vocabulary.words F))

/-- The form that a tag names. A nested tag may give its number instead. -/
def formOfTag (tag : Json) : Read F :=
  match tag with
  | .string word => formOfWord word
  | .number (.integer n) =>
      if nested ∧ 0 ≤ n then orMismatch (Vocabulary.all : List F)[n.toNat]? else mismatch
  | _ => mismatch

/-- Reads a form whose tag stands among its members or as its first item. -/
def readTagged {α : Type} (tag : String) (fields : F → List Field)
    (make : (f : F) → Values Expr (fields f) → α)
    : Level → Read α
  | .object members =>
      match members.lookup tag with
      | none => .error (.missingField tag)
      | some part => do
          let form : F ← formOfTag nested part.json
          (readMembers true (fields form) members).map (make form)
  | .array [] => .error (.missingField tag)
  | .array (part :: parts) => do
      let form : F ← formOfTag nested part.json
      (readItems true (fields form) parts).map (make form)
  | .scalar _ => mismatch

/-- The word of a form and what stands beside it: a word by itself, or the only key of an
object.
-/
def readWord : Level → Read (String × Option Part)
  | .scalar (.string word) => .ok (word, none)
  | .object [(word, part)] => .ok (word, some part)
  | _ => mismatch

/-- A form without content has nothing beside its word, or null. -/
def readNothing : Option Part → Read Unit
  | none => .ok ()
  | some part =>
      match part.json with
      | .null => .ok ()
      | .object [] => if nested then .ok () else mismatch
      | _ => mismatch

/-- Reads a word of a closed vocabulary. -/
def readEnumeration (level : Level) : Read F := do
  let (word, part) ← readWord level
  let form : F ← formOfWord word
  (readNothing nested part).map fun () => form

/-- The content of a form. The fields of a record that is no value of its own are given by
position only if nested.
-/
def readContent : (c : Content) → Option Part → Read (c.Carrier Expr)
  | .nothing, part => readNothing nested part
  | .value s, some part => part.read nested s
  | .fields r, some part =>
      match part.json with
      | .array _ => if nested then part.read nested (.record r) else mismatch
      | _ => part.read nested (.record r)
  | _, none => mismatch

end Forms

/-- Reads one level of a document in a shape. -/
def readLevel (level : Level) (nested : Bool) : (s : Shape) → Read (s.Carrier Expr)
  | .leaf l =>
      match level with
      | .scalar json => orMismatch (l.read? json)
      | _ => mismatch
  | .word _ => readEnumeration nested level
  | .list s =>
      match level with
      | .array parts => readAll (fun part => part.read nested s) parts
      | _ => mismatch
  | .optional s =>
      match level with
      | .scalar .null => .ok none
      | _ => (readLevel level nested s).map some
  | .record r => (readFields nested r.fields level).map r.make
  | .payload => do
      let (word, part) ← readWord level
      let form : PayloadForm ← formOfWord word
      (readContent nested (.value form.shape) part).map form.make
  | .usage =>
      (readFields nested usageFields level).map fun (identity, type, ()) => .mk identity type
  | .type =>
      (readFields nested typeFields level).map fun (identity, kind, ()) => .mk identity kind
  | .typeKind => do
      let (word, part) ← readWord level
      let form : KindForm ← formOfWord word
      (readContent nested form.content part).map (form.make (ε := Expr))
  | .expr =>
      (readFields nested exprFields level).map fun (usage, body, ()) => .node usage body
  | .body => readTagged nested nodeTag NodeForm.fields NodeForm.make level
  | .aggregate => readTagged nested aggregateTag AggregateForm.fields AggregateForm.make level

mutual
/-- Reads an arranged document in a shape. -/
def read (json : Json) (nested : Bool) (s : Shape) : Read (s.Carrier Expr) :=
  match json with
  | .array items => readLevel (.array (partsOfItems items)) nested s
  | .object members => readLevel (.object (partsOfMembers members)) nested s
  | other => readLevel (.scalar other) nested s

def partsOfItems : List Json → List Part
  | [] => []
  | item :: rest => ⟨item, fun nested s => read item nested s⟩ :: partsOfItems rest

def partsOfMembers : List (String × Json) → List (String × Part)
  | [] => []
  | (key, value) :: rest =>
      (key, ⟨value, fun nested s => read value nested s⟩) :: partsOfMembers rest
end

/-- The outermost level of a document. -/
def levelOf : Json → Level
  | .array items => .array (partsOfItems items)
  | .object members => .object (partsOfMembers members)
  | other => .scalar other

theorem read_eq_readLevel (json : Json) (nested : Bool) (s : Shape)
    : read json nested s = readLevel (levelOf json) nested s := by
  cases json <;> rfl

/-- Reads a word of any vocabulary. -/
def readWordOf (F : Type) [Vocabulary F] (json : Json) : Read F :=
  readEnumeration false (levelOf json)

end QueryKey.Document
