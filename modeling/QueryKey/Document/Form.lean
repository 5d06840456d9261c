import QueryKey.Document.Shape

/-! The fields of each part of a document, in the order in which they are declared, and the
translation between the values of the fields and the part they describe.
-/

namespace QueryKey.Document

open QueryKey.Expr QueryKey.Metadata QueryKey.Text

abbrev field (name : String) (shape : Shape) : Field := ⟨name, shape, .required⟩

/-- A field that may be missing and is always written. -/
abbrev defaulted (name : String) (shape : Shape) : Field := ⟨name, shape, .defaulted⟩

/-- A field that is left out if it says nothing. -/
abbrev omittable (name : String) (shape : Shape) : Field := ⟨name, shape, .omittedWhenEmpty⟩

variable {ε : Type}

namespace Record

def fields : Record → List Field
  | function => [field "name" .text, field "identity" .text]
  | set => [field "container" .text, field "name" .text, field "element_type" .type]
  | relationEnd => [field "name" .text, field "declaring_type" .text]
  | member => [field "name" .text]
  | spatial => [field "srid" (.leaf .int32), field "wkt" .text]
  | formal => [field "name" .text, field "type" .usage]
  | binding => [field "variable" .text, field "expression" .expr]
  | groupBinding =>
      [field "variable" .text, field "group_variable" .text, field "expression" .expr]
  | arm => [field "when" .expr, field "then" .expr]
  | clause =>
      [
        field "expression" .expr, field "ascending" .flag,
        omittable "collation" (.optional .text)
      ]
  | related =>
      [
        field "source_end" (.record .relationEnd), field "target_end" (.record .relationEnd),
        field "target_entity_ref" .expr
      ]
  | enumeration => [field "underlying" (.word .primitive)]
  | collection => [field "element" .usage]
  | reference => [field "element" .type]

def make : (r : Record) → Values ε r.fields → r.Carrier ε
  | function, (name, identity, ()) => ⟨name, identity⟩
  | set, (container, name, elementType, ()) => ⟨container, name, elementType⟩
  | relationEnd, (name, association, ()) => ⟨name, association⟩
  | member, (name, ()) => name
  | spatial, (srid, wkt, ()) => ⟨srid, wkt⟩
  | formal, (name, usage, ()) => ⟨name, usage⟩
  | binding, (name, source, ()) => ⟨name, source⟩
  | groupBinding, (name, groupName, source, ()) => ⟨name, groupName, source⟩
  | arm, (condition, result, ()) => ⟨condition, result⟩
  | clause, (key, ascending, collation, ()) => ⟨key, ascending, collation⟩
  | related, (source, target, referred, ()) => ⟨source, target, referred⟩
  | enumeration, (underlying, ()) => underlying
  | collection, (element, ()) => element
  | reference, (element, ()) => element

def values : (r : Record) → r.Carrier ε → Values ε r.fields
  | function, x => (x.name, x.identity, ())
  | set, x => (x.container, x.name, x.elementType, ())
  | relationEnd, x => (x.name, x.association, ())
  | member, x => (x, ())
  | spatial, x => (x.srid, x.wkt, ())
  | formal, x => (x.name, x.usage, ())
  | binding, x => (x.name, x.source, ())
  | groupBinding, x => (x.name, x.groupName, x.source, ())
  | arm, x => (x.condition, x.result, ())
  | clause, x => (x.key, x.ascending, x.collation, ())
  | related, x => (x.source, x.target, x.reference, ())
  | enumeration, x => (x, ())
  | collection, x => (x, ())
  | reference, x => (x, ())

theorem make_values (r : Record) (x : r.Carrier ε) : r.make (r.values x) = x := by
  cases r <;> rfl

end Record

/-- The forms of constant payloads, each named for the kind it holds. -/
inductive PayloadForm where
  | binary | boolean | byte | sbyte | int16 | int32 | int64 | single | double | decimal | guid
  | string | dateTime | dateTimeOffset | time | geometry | geography | hierarchyId
deriving DecidableEq

namespace PayloadForm

def all : List PayloadForm :=
  [
    .binary, .boolean, .byte, .sbyte, .int16, .int32, .int64, .single, .double, .decimal, .guid,
    .string, .dateTime, .dateTimeOffset, .time, .geometry, .geography, .hierarchyId
  ]

def shape : PayloadForm → Shape
  | binary => .list (.leaf .byte)
  | boolean => .flag
  | byte => .leaf .byte
  | sbyte => .leaf .sbyte
  | int16 => .leaf .int16
  | int32 => .leaf .int32
  | int64 => .leaf .int64
  | single => .leaf .single
  | double => .leaf .double
  | decimal => .leaf .decimal
  | guid => .leaf .guid
  | string => .text
  | dateTime => .leaf .dateTime
  | dateTimeOffset => .leaf .dateTimeOffset
  | time => .leaf .time
  | geometry | geography => .record .spatial
  | hierarchyId => .text

def make : (f : PayloadForm) → f.shape.Carrier ε → Payload
  | binary, x => .binary x
  | boolean, x => .boolean x
  | byte, x => .byte x
  | sbyte, x => .sbyte x
  | int16, x => .int16 x
  | int32, x => .int32 x
  | int64, x => .int64 x
  | single, x => .single x
  | double, x => .double x
  | decimal, x => .decimal x
  | guid, x => .guid x
  | string, x => .string x
  | dateTime, x => .dateTime x
  | dateTimeOffset, x => .dateTimeOffset x
  | time, x => .time x
  | geometry, x => .geometry x
  | geography, x => .geography x
  | hierarchyId, x => .hierarchyId x

/-- The form of a payload with what it holds. -/
def split : Payload → (f : PayloadForm) × f.shape.Carrier ε
  | .binary x => ⟨binary, x⟩
  | .boolean x => ⟨boolean, x⟩
  | .byte x => ⟨byte, x⟩
  | .sbyte x => ⟨sbyte, x⟩
  | .int16 x => ⟨int16, x⟩
  | .int32 x => ⟨int32, x⟩
  | .int64 x => ⟨int64, x⟩
  | .single x => ⟨single, x⟩
  | .double x => ⟨double, x⟩
  | .decimal x => ⟨decimal, x⟩
  | .guid x => ⟨guid, x⟩
  | .string x => ⟨string, x⟩
  | .dateTime x => ⟨dateTime, x⟩
  | .dateTimeOffset x => ⟨dateTimeOffset, x⟩
  | .time x => ⟨time, x⟩
  | .geometry x => ⟨geometry, x⟩
  | .geography x => ⟨geography, x⟩
  | .hierarchyId x => ⟨hierarchyId, x⟩

def word (f : PayloadForm) : String :=
  match f with
  | binary => Primitive.binary.name
  | boolean => Primitive.boolean.name
  | byte => Primitive.byte.name
  | sbyte => Primitive.sbyte.name
  | int16 => Primitive.int16.name
  | int32 => Primitive.int32.name
  | int64 => Primitive.int64.name
  | single => Primitive.single.name
  | double => Primitive.double.name
  | decimal => Primitive.decimal.name
  | guid => Primitive.guid.name
  | string => Primitive.string.name
  | dateTime => Primitive.dateTime.name
  | dateTimeOffset => Primitive.dateTimeOffset.name
  | time => Primitive.time.name
  | geometry => Primitive.geometry.name
  | geography => Primitive.geography.name
  | hierarchyId => Primitive.hierarchyId.name

instance : Vocabulary PayloadForm := ⟨all, word⟩

theorem make_split (x : Payload) : (split x).1.make (ε := ε) (split x).2 = x := by
  cases x <;> rfl

end PayloadForm

/-- What stands beside the word of an externally tagged form: nothing, a value, or the fields of
a record.
-/
inductive Content where
  | nothing
  | value (s : Shape)
  | fields (r : Record)
deriving DecidableEq

abbrev Content.Carrier (ε : Type) : Content → Type
  | nothing => Unit
  | value s => s.Carrier ε
  | fields r => r.Carrier ε

/-- The forms of type kinds. -/
inductive KindForm where
  | primitive | enumeration | entity | complex | row | collection | reference
deriving DecidableEq

namespace KindForm

def all : List KindForm :=
  [.primitive, .enumeration, .entity, .complex, .row, .collection, .reference]

def word : KindForm → String
  | primitive => "Primitive"
  | enumeration => "Enum"
  | entity => "Entity"
  | complex => "Complex"
  | row => "Row"
  | collection => "Collection"
  | reference => "Ref"

instance : Vocabulary KindForm := ⟨all, word⟩

def content : KindForm → Content
  | primitive => .value (.word .primitive)
  | enumeration => .fields .enumeration
  | entity | complex | row => .nothing
  | collection => .fields .collection
  | reference => .fields .reference

def make : (f : KindForm) → f.content.Carrier ε → TypeKind
  | primitive, kind => .primitive kind
  | enumeration, underlying => .enumeration underlying
  | entity, () => .entity
  | complex, () => .complex
  | row, () => .row
  | collection, element => .collection element
  | reference, element => .reference element

end KindForm

/-- The forms of aggregates. -/
inductive AggregateForm where
  | function | group
deriving DecidableEq

namespace AggregateForm

def all : List AggregateForm := [.function, .group]

def word : AggregateForm → String
  | function => "Function"
  | group => "Group"

instance : Vocabulary AggregateForm := ⟨all, word⟩

def fields : AggregateForm → List Field
  | function =>
      [
        field "function" (.record .function), defaulted "distinct" .flag,
        field "arguments" (.list .expr)
      ]
  | group => [field "argument" .expr]

def make : (f : AggregateForm) → Values ε f.fields → Aggregate ε
  | function, (g, distinct, arguments, ()) => .function g distinct arguments
  | group, (argument, ()) => .group argument

def split : Aggregate ε → (f : AggregateForm) × Values ε f.fields
  | .function g distinct arguments => ⟨function, (g, distinct, arguments, ())⟩
  | .group argument => ⟨group, (argument, ())⟩

theorem make_split (a : Aggregate ε) : (split a).1.make (split a).2 = a := by
  cases a <;> rfl

end AggregateForm

/-- The forms of nodes. -/
inductive NodeForm where
  | constant | null | variableRef | parameter | scan | call | lambda | property | comparison
  | like | arithmetic | inList | case | newInstance | ref | navigate | limit | filter | project
  | crossJoin | join | apply | groupBy | skip | sort | quantify | extension
  | unary (op : UnaryOp)
  | binary (op : BinaryOp)
  | convert (op : Conversion)
  | typeTest (op : TypeTest)
deriving DecidableEq

namespace NodeForm

/-- Every form, in declaration order. -/
def all : List NodeForm :=
  [
    .constant, .null, .variableRef, .parameter, .scan, .call, .lambda, .property, .comparison,
    .like, .unary .isNull, .arithmetic, .binary .and, .binary .or, .unary .not, .inList, .case,
    .convert .treat, .convert .cast, .typeTest .isOf, .typeTest .ofType, .newInstance, .ref,
    .navigate, .unary .deref, .unary .refKey, .unary .entityRef, .unary .distinct,
    .unary .element, .unary .isEmpty, .binary .unionAll, .binary .intersect, .binary .except,
    .limit, .filter, .project, .crossJoin, .join, .apply, .groupBy, .skip, .sort, .quantify,
    .extension
  ]

def word : NodeForm → String
  | constant => NodeKind.constant.name
  | null => NodeKind.null.name
  | variableRef => NodeKind.variableReference.name
  | parameter => NodeKind.parameterReference.name
  | scan => NodeKind.scan.name
  | call => NodeKind.function.name
  | lambda => NodeKind.lambda.name
  | property => NodeKind.property.name
  | comparison => "Comparison"
  | like => NodeKind.like.name
  | arithmetic => "Arithmetic"
  | inList => NodeKind.inList.name
  | case => NodeKind.case.name
  | newInstance => NodeKind.newInstance.name
  | ref => NodeKind.ref.name
  | navigate => NodeKind.relationshipNavigation.name
  | limit => NodeKind.limit.name
  | filter => NodeKind.filter.name
  | project => NodeKind.project.name
  | crossJoin => NodeKind.crossJoin.name
  | join => "Join"
  | apply => "Apply"
  | groupBy => NodeKind.groupBy.name
  | skip => NodeKind.skip.name
  | sort => NodeKind.sort.name
  | quantify => "Quantifier"
  | extension => "Extension"
  | unary op => op.kind.name
  | binary op => op.kind.name
  | convert op => op.kind.name
  | typeTest op => (op.kind false).name

instance : Vocabulary NodeForm := ⟨all, word⟩

def fields : NodeForm → List Field
  | constant => [field "value" .payload]
  | null => []
  | variableRef | parameter => [field "name" .text]
  | scan => [field "target" (.record .set)]
  | call => [field "function" (.record .function), field "arguments" (.list .expr)]
  | lambda =>
      [
        field "variables" (.list (.record .formal)), field "body" .expr,
        field "arguments" (.list .expr)
      ]
  | property => [field "instance" .expr, field "property" (.record .member)]
  | comparison =>
      [field "op" (.word .comparison), field "left" .expr, field "right" .expr]
  | like =>
      [field "argument" .expr, field "pattern" .expr, omittable "escape" (.optional .expr)]
  | arithmetic => [field "op" (.word .arithmetic), field "arguments" (.list .expr)]
  | inList => [field "item" .expr, field "list" (.list .expr)]
  | case => [field "arms" (.list (.record .arm)), field "otherwise" .expr]
  | newInstance =>
      [
        field "arguments" (.list .expr),
        omittable "related" (.list (.record .related))
      ]
  | ref => [field "entity_set" (.record .set), field "argument" .expr]
  | navigate =>
      [
        field "source" .expr, field "from" (.record .relationEnd),
        field "to" (.record .relationEnd)
      ]
  | limit => [field "argument" .expr, field "limit" .expr, defaulted "with_ties" .flag]
  | filter => [field "input" (.record .binding), field "predicate" .expr]
  | project => [field "input" (.record .binding), field "projection" .expr]
  | crossJoin => [field "inputs" (.list (.record .binding))]
  | join =>
      [
        field "join" (.word .join), field "left" (.record .binding),
        field "right" (.record .binding), field "condition" .expr
      ]
  | apply =>
      [
        field "apply_kind" (.word .apply), field "input" (.record .binding),
        field "apply" (.record .binding)
      ]
  | groupBy =>
      [
        field "input" (.record .groupBinding), field "keys" (.list .expr),
        field "aggregates" (.list .aggregate)
      ]
  | skip =>
      [
        field "input" (.record .binding), field "sort_order" (.list (.record .clause)),
        field "count" .expr
      ]
  | sort => [field "input" (.record .binding), field "sort_order" (.list (.record .clause))]
  | quantify =>
      [
        field "quantifier" (.word .quantifier), field "input" (.record .binding),
        field "predicate" .expr
      ]
  | extension => [field "name" .text, defaulted "arguments" (.list .expr)]
  | unary _ | convert _ => [field "argument" .expr]
  | binary _ => [field "left" .expr, field "right" .expr]
  | typeTest _ => [field "argument" .expr, field "of_type" .usage, defaulted "only" .flag]

def make : (f : NodeForm) → Values ε f.fields → Body ε
  | constant, (value, ()) => .constant value
  | null, () => .null
  | variableRef, (name, ()) => .variableRef name
  | parameter, (name, ()) => .parameter name
  | scan, (target, ()) => .scan target
  | call, (function, arguments, ()) => .call function arguments
  | lambda, (formals, body, arguments, ()) => .lambda formals body arguments
  | property, (subject, name, ()) => .property subject name
  | comparison, (op, left, right, ()) => .comparison op left right
  | like, (argument, pattern, escape, ()) => .like argument pattern escape
  | arithmetic, (op, arguments, ()) => .arithmetic op arguments
  | inList, (item, list, ()) => .inList item list
  | case, (arms, otherwise, ()) => .case arms otherwise
  | newInstance, (arguments, related, ()) => .newInstance arguments related
  | ref, (set, argument, ()) => .ref set argument
  | navigate, (source, start, target, ()) => .navigate source start target
  | limit, (argument, count, withTies, ()) => .limit argument count withTies
  | filter, (input, predicate, ()) => .filter input predicate
  | project, (input, projection, ()) => .project input projection
  | crossJoin, (inputs, ()) => .crossJoin inputs
  | join, (kind, left, right, condition, ()) => .join kind left right condition
  | apply, (kind, input, applied, ()) => .apply kind input applied
  | groupBy, (input, keys, aggregates, ()) => .groupBy input keys aggregates
  | skip, (input, order, count, ()) => .skip input order count
  | sort, (input, order, ()) => .sort input order
  | quantify, (quantifier, input, predicate, ()) => .quantify quantifier input predicate
  | extension, (name, arguments, ()) => .extension name arguments
  | unary op, (argument, ()) => .unary op argument
  | binary op, (left, right, ()) => .binary op left right
  | convert op, (argument, ()) => .convert op argument
  | typeTest op, (argument, tested, only, ()) => .typeTest op argument tested only

/-- The form of a node with the values of its fields. -/
def split : Body ε → (f : NodeForm) × Values ε f.fields
  | .constant value => ⟨constant, (value, ())⟩
  | .null => ⟨null, ()⟩
  | .variableRef name => ⟨variableRef, (name, ())⟩
  | .parameter name => ⟨parameter, (name, ())⟩
  | .scan target => ⟨scan, (target, ())⟩
  | .call function arguments => ⟨call, (function, arguments, ())⟩
  | .lambda formals body arguments => ⟨lambda, (formals, body, arguments, ())⟩
  | .property subject name => ⟨property, (subject, name, ())⟩
  | .comparison op left right => ⟨comparison, (op, left, right, ())⟩
  | .like argument pattern escape => ⟨like, (argument, pattern, escape, ())⟩
  | .arithmetic op arguments => ⟨arithmetic, (op, arguments, ())⟩
  | .inList item list => ⟨inList, (item, list, ())⟩
  | .case arms otherwise => ⟨case, (arms, otherwise, ())⟩
  | .newInstance arguments related => ⟨newInstance, (arguments, related, ())⟩
  | .ref set argument => ⟨ref, (set, argument, ())⟩
  | .navigate source start target => ⟨navigate, (source, start, target, ())⟩
  | .limit argument count withTies => ⟨limit, (argument, count, withTies, ())⟩
  | .filter input predicate => ⟨filter, (input, predicate, ())⟩
  | .project input projection => ⟨project, (input, projection, ())⟩
  | .crossJoin inputs => ⟨crossJoin, (inputs, ())⟩
  | .join kind left right condition => ⟨join, (kind, left, right, condition, ())⟩
  | .apply kind input applied => ⟨apply, (kind, input, applied, ())⟩
  | .groupBy input keys aggregates => ⟨groupBy, (input, keys, aggregates, ())⟩
  | .skip input order count => ⟨skip, (input, order, count, ())⟩
  | .sort input order => ⟨sort, (input, order, ())⟩
  | .quantify quantifier input predicate => ⟨quantify, (quantifier, input, predicate, ())⟩
  | .extension name arguments => ⟨extension, (name, arguments, ())⟩
  | .unary op argument => ⟨unary op, (argument, ())⟩
  | .binary op left right => ⟨binary op, (left, right, ())⟩
  | .convert op argument => ⟨convert op, (argument, ())⟩
  | .typeTest op argument tested only => ⟨typeTest op, (argument, tested, only, ())⟩

theorem make_split (b : Body ε) : (split b).1.make (split b).2 = b := by
  cases b <;> rfl

end NodeForm

/-- The fields of a type usage, a type and an expression. -/
def usageFields : List Field :=
  [field "identity" .text, field "edm_type" .type]

def typeFields : List Field :=
  [field "identity" .text, field "kind" .typeKind]

def exprFields : List Field :=
  [field "type" .usage, field "node" .body]

/-- The member that names the form of a node, and that of an aggregate. -/
def nodeTag : String := "kind"

def aggregateTag : String := "aggregate"

end QueryKey.Document
