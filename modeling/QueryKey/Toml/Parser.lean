import QueryKey.Toml.Scalar

/-! Reading TOML documents: values with values inside them, keys, and the lines of a document. -/

namespace QueryKey.Toml

open QueryKey.Text QueryKey.Text.Scan

/-- How many keys a dotted key may have, and how deep values may be nested. -/
def nestingLimit : Nat := 79

def isBare (c : Char) : Bool :=
  isDigit c ∨ ('a' ≤ c ∧ c ≤ 'z') ∨ ('A' ≤ c ∧ c ≤ 'Z') ∨ c = '-' ∨ c = '_'

/-- A key without dots, bare or quoted. -/
def simpleKey : Scan String :=
  basicString.or <| literalString.or <| fun text =>
    match text.takeWhile isBare with
    | [] => none
    | cs => some (String.ofList cs, text.drop cs.length)

/-- Simple keys with dots between them: the path of a key and the key itself. -/
def key : Scan (List String × String) :=
  ((white.andThen simpleKey).followedBy white).separated (literal '.') |>.check fun keys =>
    if keys.length ≤ nestingLimit then keys.getLast?.map fun last => (keys.dropLast, last)
    else none

def comment : Scan Unit :=
  (literal '#').andThen fun text => some ((), text.dropWhile isPrintable)

/-- White space, line ends and comments between the items of an array. -/
def gap : Scan Unit :=
  (many
    ((((one isWhite).map fun _ => ()).or lineEnd).or (comment.followedBy lineEnd))).map
      fun _ => ()

/-- The items of an array and its closing bracket; a comma may stand behind the last one. -/
def arrayItems (item : Scan Value) : Scan (List Value) := fun text => do
  let (items, text) ←
    optional (((gap.andThen item).followedBy gap).separated (literal ',')) text
  let (_, text) ← if items.isSome then optional (literal ',') text else some (none, text)
  let (_, text) ← gap text
  let (_, text) ← literal ']' text
  return (items.getD [], text)

/-- A key and its value. -/
def definition (value : Scan Value) : Scan (List String × String × Value) := fun text => do
  let ((path, last), text) ← key text
  let (_, text) ← literal '=' text
  let (_, text) ← white text
  let (v, text) ← value text
  let (_, text) ← white text
  return ((path, last, v), text)

/-- The definitions of an inline table and its closing bracket. -/
def inlineTable (value : Scan Value) : Scan Table := fun text => do
  let (definitions, text) ← optional ((definition value).separated (literal ',')) text
  let (_, text) ← white text
  let (_, text) ← literal '\x7d' text
  let table ←
    (definitions.getD []).foldlM (fun t (path, last, v) => Table.assign path last v t) .empty
  return (table, text)

/-- A value with others nested inside it at most `depth` deep. -/
def value : (depth : Nat) → Scan Value
  | 0 => scalar
  | depth + 1 => fun text =>
      match text with
      | '[' :: rest => (arrayItems (value depth) rest).map fun (items, rest) => (.array items, rest)
      | '\x7b' :: rest =>
          (inlineTable (value depth) rest).map fun (table, rest) => (.inline table, rest)
      | _ => scalar text

/-- The end of a statement: a comment if need be, and the end of the line or of the text. -/
def statementEnd : Scan Unit := fun text => do
  let (_, text) ← white text
  let (_, text) ← optional comment text
  if text.isEmpty then some ((), text) else lineEnd text

def tableHeader : Scan Statement :=
  (((literal '[').andThen key).followedBy (literal ']')).map fun (path, last) =>
    .table path last

def nextHeader : Scan Statement :=
  (((word ['[', '[']).andThen key).followedBy (word [']', ']'])).map fun (path, last) =>
    .next path last

def assignment : Scan Statement :=
  (definition (value nestingLimit)).map fun (path, last, v) => .assign path last v

/-- A line with a statement, or none if it is empty or holds a comment. -/
def line : Scan (Option Statement) :=
  (((nextHeader.or (tableHeader.or assignment)).followedBy statementEnd).map some).or <|
    ((comment.followedBy statementEnd).or lineEnd).map fun () => none

/-- A mark at the front of the text that tells its encoding. -/
def byteOrderMark : Char := '\ufeff'

/-- The root table of a text. -/
def Table.ofText? (text : String) : Option Table := do
  let (_, rest) ← optional (literal byteOrderMark) text.toList
  let (_, rest) ← white rest
  let (statements, rest) ← many (line.followedBy white) rest
  if rest.isEmpty then ofStatements? (statements.filterMap id) else none

end QueryKey.Toml
