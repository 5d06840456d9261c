import QueryKey.Document.TreeFile
import QueryKey.Key.SettingsFile

/-! Files: a directory with everything below it, the paths that lead to it, and the trees and
settings kept in files.
-/

namespace QueryKey

/-- What a path yields to a reader. -/
inductive Source where
  | absent
  | unreadable
  | text (content : String)
deriving DecidableEq

/-- Loads a tree. Faults of its document are faults of the file. -/
def TreeFile.load (read : String → Source) (path : String) : Except Failure Expr :=
  match read path with
  | .absent => .error (.treeNotFound path)
  | .unreadable => .error (.fileRead path none)
  | .text content =>
      (TreeFile.ofText content).mapError fun failure =>
        match failure with
        | .document fault => .fileRead path (some fault)
        | other => other

/-- Loads settings. -/
def Key.Settings.load (read : String → Source) (path : String)
    : Except Failure Key.Settings :=
  match read path with
  | .text content => ofText content
  | _ => .error (.fileRead path none)

inductive Entry where
  | directory
  | file (content : ByteArray)

/-- The entries below a directory by the names that lead to them. -/
structure Files where
  entries : List (List String × Entry) := []

namespace Files

/-- Where a path leads: below the directory, or to one of the directories above it. -/
inductive Place where
  | below (names : List String)
  | above
deriving DecidableEq

def entry? (files : Files) : Place → Option Entry
  | .above => some .directory
  | .below [] => some .directory
  | .below names => files.entries.lookup names

def put (files : Files) (names : List String) (entry : Entry) : Files :=
  ⟨(names, entry) :: files.entries.filter fun (other, _) => other != names⟩

def isDirectory (files : Files) (place : Place) : Bool :=
  match files.entry? place with
  | some .directory => true
  | _ => false

/-- The longest name in bytes. -/
def nameLimit : Nat := 255

/-- The longest path in bytes. -/
def pathLimit : Nat := 4095

/-- A path is not empty and not too long and holds no zero character. -/
def isPath (path : String) : Bool :=
  !path.isEmpty && path.utf8ByteSize ≤ pathLimit && !path.contains '\x00'

/-- The name of a path beside it: one level down or up, or nowhere. What is above the directory
is not known.
-/
def step (files : Files) (place : Place) (name : String) : Option Place :=
  if !files.isDirectory place then
    none
  else if name = "" ∨ name = "." then
    some place
  else if name = ".." then
    match place with
    | .below (first :: rest) => some (.below (first :: rest).dropLast)
    | _ => some .above
  else
    match place with
    | .below names =>
        if name.utf8ByteSize ≤ nameLimit then some (.below (names ++ [name])) else none
    | .above => none

/-- Where a path begins. -/
def start (path : String) : Place :=
  if path.startsWith "/" then .above else .below []

def names (path : String) : List String :=
  path.splitOn "/"

/-- Where a path leads, if it is one and everything before its last name is a directory. -/
def locate (files : Files) (path : String) : Option Place :=
  if isPath path then (names path).foldlM files.step (start path) else none

/-- What a path names. -/
def find? (files : Files) (path : String) : Option Entry :=
  (files.locate path).bind files.entry?

/-- Files are read as text. -/
def read (files : Files) (path : String) : Source :=
  match files.find? path with
  | none => .absent
  | some .directory => .unreadable
  | some (.file content) =>
      match String.fromUTF8? content with
      | some text => .text text
      | none => .unreadable

/-- Writes a file whose directory exists. -/
def write? (files : Files) (path : String) (content : ByteArray) : Option Files := do
  let place ← files.locate path
  match place, files.entry? place with
  | .below names, none => some (files.put names (.file content))
  | .below names, some (.file _) => some (files.put names (.file content))
  | _, _ => none

/-- Makes the directories that names lead through, as far as it can; whether it could make them
all.
-/
def makeDirectories (files : Files) (place : Place) : List String → Files × Bool
  | [] => (files, files.isDirectory place)
  | name :: rest =>
      match files.step place name with
      | none => (files, false)
      | some next =>
          match next, files.entry? next with
          | .below names, none => makeDirectories (files.put names .directory) next rest
          | _, _ => makeDirectories files next rest

/-- Drops slashes and single dots from the end of a path. -/
def trimEnd (path : List String) : List String :=
  (path.reverse.dropWhile fun name => name = "" ∨ name = ".").reverse

/-- The path of the directory that holds what a path names, empty if it is the current one. -/
def parent (path : String) : String :=
  let (front, body) :=
    match path.toList with
    | '/' :: rest => ("/", String.ofList rest)
    | ['.'] => ("", "")
    | '.' :: '/' :: rest => (".", String.ofList ('/' :: rest))
    | _ => ("", path)
  match trimEnd (names body) with
  | [] => ""
  | held => front ++ String.intercalate "/" (trimEnd held.dropLast)

/-- Saves a tree, making the directories on the way. -/
def saveTree (files : Files) (path : String) (tree : Expr) : Files × Option Failure :=
  let directory := parent path
  let (made, isMade) :=
    if directory.isEmpty || (files.find? directory).isSome then (files, true)
    else if isPath directory then files.makeDirectories (start directory) (names directory)
    else (files, false)
  if isMade then
    match made.write? path (TreeFile.text tree).toUTF8 with
    | some written => (written, none)
    | none => (made, some (.fileWrite path))
  else
    (made, some (.fileWrite directory))

end Files

end QueryKey
