import QueryKey.CommandLine.Arguments
import QueryKey.Expr.Walk
import QueryKey.Files
import QueryKey.Key.Generator
import QueryKey.Validation.Rule

/-! The commands: print the key of a tree, compare the keys of two trees, validate a tree, list
the node kinds. A command reads files through a function and yields the text that it prints.
-/

namespace QueryKey.CommandLine

open QueryKey.Expr QueryKey.Key QueryKey.Validation

/-- How a command ends that ran to its end. -/
inductive Verdict where
  | success
  | negative
deriving DecidableEq

def Verdict.exitCode : Verdict → Nat
  | success => 0
  | negative => 2

/-- What a command that ran to its end has printed. -/
structure Outcome where
  verdict : Verdict
  output : String
deriving DecidableEq

/-- The colors of the words that say how a command went. -/
inductive Color where
  | red | green | yellow
deriving DecidableEq

def Color.code : Color → String
  | red => "31"
  | green => "32"
  | yellow => "33"

/-- What a command works with: its files, and whether it may use colors. -/
structure Surroundings where
  read : String → Source
  color : Bool

namespace Surroundings

def paint (s : Surroundings) (c : Color) (text : String) : String :=
  if s.color then "\x1b[" ++ c.code ++ "m" ++ text ++ "\x1b[0m" else text

/-- Loads the tree of an argument. -/
def loadTree (s : Surroundings) (path : String) : Except Failure Expr :=
  (TreeFile.load s.read path).mapError (Failure.addContext ("reading tree " ++ path))

def loadSettings (s : Surroundings) (path : String) : Except Failure Settings :=
  (Settings.load s.read path).mapError (Failure.addContext ("loading config " ++ path))

end Surroundings

/-- The settings of a file, if one is given, with what the options say instead. -/
def settingsOf (s : Surroundings) (g : Given) : Except Failure Settings := do
  let settings ←
    match g.config with
    | some path => s.loadSettings path
    | none => .ok {}
  let settings :=
    match g.maxDepth with
    | some depth => settings.withMaxDepth depth
    | none => settings
  let settings := if g.has .noDepthLimit then settings.withoutDepthLimit else settings
  let settings := if g.has .strictAliases then settings.strictAliases else settings
  return if g.has .allowGeneratedAliases then settings.allowGeneratedAliases else settings

/-- The key of a tree, or why it is merely not cacheable. -/
inductive Keyed where
  | key (k : CacheKey)
  | notCacheable (reason : Failure)
deriving DecidableEq

def keyTree (settings : Settings) (tree : Expr) : Except Failure Keyed :=
  match generate settings tree with
  | .ok k => .ok (.key k)
  | .error failure =>
      if failure.isUnsupported then .ok (.notCacheable failure) else .error failure

def lines (texts : List String) : String :=
  String.join (texts.map fun text => text ++ "\n")

def notCacheableWord (s : Surroundings) : String :=
  s.paint .yellow "not cacheable:"

/-- The report on a key as a document. -/
def keyReport (path : String) (tree : Expr) (keyed : Keyed) : Json :=
  let found :=
    match keyed with
    | .key k => [("cacheable", .bool true), ("key", .string k.text)]
    | .notCacheable reason => [("cacheable", .bool false), ("reason", .string reason.message)]
  .object
    ([("file", .string path)] ++ found
      ++ [
        ("nodes", .number (.integer tree.nodeCount)),
        ("depth", .number (.integer tree.depth))
      ])

def Keyed.verdict : Keyed → Verdict
  | key _ => .success
  | notCacheable _ => .negative

/-- Prints the key of a tree. -/
def runKey (s : Surroundings) (settings : Settings) (path : String) (json : Bool)
    : Except Failure Outcome := do
  let tree ← s.loadTree path
  let keyed ← keyTree settings tree
  let text :=
    if json then (keyReport path tree keyed).pretty
    else
      match keyed with
      | .key k => k.text
      | .notCacheable reason => notCacheableWord s ++ " " ++ reason.message
  return ⟨keyed.verdict, lines [text]⟩

/-- Says of one of two trees why it is not cacheable. -/
def notCacheableLine (s : Surroundings) (path : String) : Keyed → List String
  | .key _ => []
  | .notCacheable reason => [notCacheableWord s ++ " " ++ path ++ ": " ++ reason.message]

/-- Compares the keys of two trees. -/
def runCompare (s : Surroundings) (settings : Settings) (left right : String)
    : Except Failure Outcome := do
  let leftKey ← keyTree settings (← s.loadTree left)
  let rightKey ← keyTree settings (← s.loadTree right)
  match leftKey, rightKey with
  | .key a, .key b =>
      if a = b then
        return ⟨.success, lines [s.paint .green "equivalent" ++ " " ++ a.text]⟩
      else
        return ⟨
          .negative,
          lines
            [
              s.paint .red "different",
              "  " ++ left ++ ": " ++ a.text,
              "  " ++ right ++ ": " ++ b.text
            ]
        ⟩
  | _, _ =>
      return ⟨
        .negative,
        lines (notCacheableLine s left leftKey ++ notCacheableLine s right rightKey)
      ⟩

/-- Prints what validation finds in a tree. -/
def runValidate (s : Surroundings) (path : String) : Except Failure Outcome := do
  let tree ← s.loadTree path
  let report := validate Rule.all tree
  let findings :=
    report.errors.map (fun e => s.paint .red "error:" ++ " " ++ e.text)
      ++ report.warnings.map fun w => s.paint .yellow "warning:" ++ " " ++ w.text
  if report.valid then
    let counts :=
      "(" ++ toString tree.nodeCount ++ " nodes, " ++ toString report.warnings.length
        ++ " warning(s))"
    return ⟨
      .success,
      lines (findings ++ [s.paint .green "valid" ++ " " ++ path ++ " " ++ counts])
    ⟩
  else
    let counts := "(" ++ toString report.errors.length ++ " error(s))"
    return ⟨
      .negative,
      lines (findings ++ [s.paint .red "invalid" ++ " " ++ path ++ " " ++ counts])
    ⟩

/-- A text with blanks in front of it, or behind it, up to a width. -/
def padLeft (width : Nat) (text : String) : String :=
  String.ofList (List.replicate (width - text.length) ' ') ++ text

def padRight (width : Nat) (text : String) : String :=
  text ++ String.ofList (List.replicate (width - text.length) ' ')

/-- A line of the table of node kinds. -/
def kindLine (k : NodeKind) : String :=
  padLeft 2 (toString k.index) ++ "  " ++ padRight 24 k.name ++ k.token

def runKinds : Outcome :=
  ⟨.success, lines (NodeKind.table.map kindLine)⟩

/-- Runs a command. The settings are loaded even if the command does not need them. -/
def run (s : Surroundings) (i : Invocation) : Except Failure Outcome := do
  let s := { s with color := s.color && !i.options.has .noColor }
  let settings ← settingsOf s i.options
  match i.command with
  | .key file json => runKey s settings file json
  | .compare left right => runCompare s settings left right
  | .validate file => runValidate s file
  | .kinds => return runKinds

/-- What is printed about a failure. -/
def errorLine (failure : Failure) : String :=
  "Error: " ++ failure.message

/-- The exit code of a command that failed. -/
def failureCode : Nat := 1

/-- The exit code of the program, whether the command ran to its end or failed. -/
def exitCode : Except Failure Outcome → Nat
  | .ok outcome => outcome.verdict.exitCode
  | .error _ => failureCode

end QueryKey.CommandLine
