import QueryKey.Document.Form
import QueryKey.Expr.Basic

/-! Writing trees as documents, field by field in the order of declaration. -/

namespace QueryKey.Document

open QueryKey.Expr QueryKey.Metadata QueryKey.Text

mutual
def writeType : ModelType → Json
  | .mk identity kind =>
      .object [("identity", .string identity), ("kind", writeTypeKind kind)]

def writeTypeKind : TypeKind → Json
  | .primitive kind => .object [(KindForm.primitive.word, .string kind.name)]
  | .enumeration underlying =>
      .object
        [(KindForm.enumeration.word, .object [("underlying", .string underlying.name)])]
  | .entity => .string KindForm.entity.word
  | .complex => .string KindForm.complex.word
  | .row => .string KindForm.row.word
  | .collection element =>
      .object [(KindForm.collection.word, .object [("element", writeUsage element)])]
  | .reference element =>
      .object [(KindForm.reference.word, .object [("element", writeType element)])]

def writeUsage : TypeUsage → Json
  | .mk identity type =>
      .object [("identity", .string identity), ("edm_type", writeType type)]
end

/-- How many levels a shape may have below it, counted generously. -/
def Shape.weight : Shape → Nat
  | .list s | .optional s => s.weight + 1
  | .record .related => 20
  | .record _ => 6
  | .payload | .aggregate => 20
  | .body => 60
  | _ => 0

def fieldsWeight : List Field → Nat
  | [] => 0
  | f :: rest => f.shape.weight + 1 + fieldsWeight rest

theorem Record.fieldsWeight_lt (r : Record)
    : fieldsWeight r.fields < (Shape.record r).weight := by
  cases r <;> decide

theorem PayloadForm.weight_lt (f : PayloadForm) : f.shape.weight < Shape.payload.weight := by
  cases f <;> decide

theorem AggregateForm.fieldsWeight_lt (f : AggregateForm)
    : fieldsWeight f.fields < Shape.aggregate.weight := by
  cases f <;> decide

theorem NodeForm.fieldsWeight_lt (f : NodeForm)
    : fieldsWeight f.fields < Shape.body.weight := by
  cases f <;> simp [fieldsWeight, NodeForm.fields, Shape.weight]

/-- Whether a field is written. -/
def Field.isWritten {ε : Type} (f : Field) (value : f.shape.Carrier ε) : Bool :=
  !(f.presence == .omittedWhenEmpty && f.shape.isEmpty value)

mutual
/-- Writes a part in a shape, its expressions having been written already. -/
def write : (s : Shape) → s.Carrier Json → Json
  | .leaf l, value => l.write value
  | .word _, value => .string (Vocabulary.word value)
  | .list s, items => .array (items.map fun item => write s item)
  | .optional _, none => .null
  | .optional s, some value => write s value
  | .record r, value => .object (writeFields r.fields (r.values value))
  | .payload, value =>
      match PayloadForm.split value with
      | ⟨form, content⟩ => .object [(form.word, write form.shape content)]
  | .usage, usage => writeUsage usage
  | .type, type => writeType type
  | .typeKind, kind => writeTypeKind kind
  | .expr, json => json
  | .body, body =>
      match NodeForm.split body with
      | ⟨form, values⟩ =>
          .object ((nodeTag, .string form.word) :: writeFields form.fields values)
  | .aggregate, aggregate =>
      match AggregateForm.split aggregate with
      | ⟨form, values⟩ =>
          .object ((aggregateTag, .string form.word) :: writeFields form.fields values)
termination_by s => s.weight
decreasing_by
  · simp [Shape.weight]
  · simp [Shape.weight]
  · exact Record.fieldsWeight_lt r
  · exact PayloadForm.weight_lt form
  · exact NodeForm.fieldsWeight_lt form
  · exact AggregateForm.fieldsWeight_lt form

/-- The members for the fields, without those that say nothing. -/
def writeFields : (fields : List Field) → Values Json fields → List (String × Json)
  | [], () => []
  | f :: rest, (value, values) =>
      if f.isWritten value then
        (f.name, write f.shape value) :: writeFields rest values
      else
        writeFields rest values
termination_by fields => fieldsWeight fields
decreasing_by
  all_goals simp only [fieldsWeight]; omega
end

/-- The document of a tree. -/
def writeExpr : Expr → Json :=
  fold fun usage body =>
    .object [("type", writeUsage usage), ("node", write .body body)]

end QueryKey.Document
