import QueryKey.Document.Reader
import QueryKey.Document.Writer
import QueryKey.Json.Parser
import QueryKey.Json.Printer

/-! Tree files: a tree beside the version of its encoding. Reading also takes a bare tree, which
is any document without a version.
-/

namespace QueryKey

open QueryKey.Document

namespace TreeFile

/-- The version that is written, and the newest that is read. -/
def schemaVersion : Nat := 1

def versionKey : String := "schema_version"

def treeKey : String := "tree"

/-- The version of a document, a number of 32 bits. -/
def readVersion (version : Json) : Read Nat :=
  orMismatch ((integer? 0 (Number.twoTo 32 - 1) version).map Int.toNat)

/-- The fault of a document as a failure. -/
def failing {α : Type} (r : Read α) : Except Failure α :=
  r.mapError .document

def readTree (json : Json) : Except Failure Expr :=
  failing (read json false .expr)

/-- Reads an arranged document. A version that is too new is refused before the tree is read. -/
def ofArranged (json : Json) : Except Failure Expr :=
  match json.get? versionKey with
  | none => readTree json
  | some version => do
      let found ← failing (readVersion version)
      if schemaVersion < found then
        .error (.schemaVersionMismatch schemaVersion found)
      else
        match json.get? treeKey with
        | some tree => readTree tree
        | none => .error (.document (.missingField treeKey))

/-- The fault of a text that is no document. -/
def faultOf : Json.ParseError → DocumentFault
  | .malformed => .malformed
  | .endsEarly => .endsEarly

/-- The arranged document of a text. -/
def parse (text : String) : Except Failure Json :=
  failing (((Json.parse text).map Json.arranged).mapError faultOf)

/-- Reads a tree from a text. -/
def ofText (text : String) : Except Failure Expr := do
  ofArranged (← parse text)

/-- The document of a tree with its version. -/
def toJson (tree : Expr) : Json :=
  .object [(versionKey, .number (.integer schemaVersion)), (treeKey, writeExpr tree)]

/-- Writes a tree on indented lines. -/
def text (tree : Expr) : String :=
  (toJson tree).pretty

end TreeFile

end QueryKey
