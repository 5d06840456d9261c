import QueryKey.Number.Power
import QueryKey.Text.Digits

/-! Command lines: options that every command takes, before the command or behind it, and the
arguments of the commands. What is given behind the command counts more than what is given
before it; conflicts are looked for on either side by itself.
-/

namespace QueryKey.CommandLine

open QueryKey.Text

/-- Why a command line runs no command: it is wrong, or it asks for information only. -/
inductive Stop where
  | badUsage
  | information
deriving DecidableEq

/-- The options without a value. -/
inductive Switch where
  | noDepthLimit | strictAliases | allowGeneratedAliases | noColor | json
deriving DecidableEq

/-- The options with a value. -/
inductive Setting where
  | config | maxDepth
deriving DecidableEq

/-- The commands by name. -/
inductive Verb where
  | key | compare | validate | kinds
deriving DecidableEq

namespace Verb

def ofName? : String → Option Verb
  | "key" => some key
  | "compare" => some compare
  | "validate" => some validate
  | "kinds" => some kinds
  | _ => none

/-- How many files the command takes. -/
def fileCount : Verb → Nat
  | key => 1
  | compare => 2
  | validate => 1
  | kinds => 0

end Verb

/-- What is given on one side of the command. -/
structure Given where
  config : Option String := none
  maxDepth : Option Nat := none
  switches : List Switch := []
  files : List String := []
deriving DecidableEq

namespace Given

def has (g : Given) (s : Switch) : Bool :=
  g.switches.contains s

/-- A switch may be given once. -/
def setSwitch (g : Given) (s : Switch) : Except Stop Given :=
  if g.has s then .error .badUsage else .ok { g with switches := s :: g.switches }

/-- A whole number below 2 ^ 64, with a plus sign if need be. -/
def number? (text : String) : Option Nat :=
  let digits :=
    match text.toList with
    | '+' :: rest => rest
    | rest => rest
  match takeAllDigits digits with
  | (d :: ds, []) =>
      let n := ofDigits 10 (d :: ds)
      if n < Number.twoTo 64 then some n else none
  | _ => none

/-- A value may be given once and must be one: the name of a file is not empty. -/
def setValue (g : Given) (s : Setting) (value : String) : Except Stop Given :=
  match s with
  | .config =>
      if g.config.isSome || value.isEmpty then .error .badUsage
      else .ok { g with config := some value }
  | .maxDepth =>
      match g.maxDepth, number? value with
      | none, some n => .ok { g with maxDepth := some n }
      | _, _ => .error .badUsage

/-- One more file, of at most `most`. -/
def addFile (g : Given) (most : Nat) (file : String) : Except Stop Given :=
  if file.isEmpty || most ≤ g.files.length then .error .badUsage
  else .ok { g with files := g.files ++ [file] }

/-- Options that contradict each other. -/
def conflicts (g : Given) : Bool :=
  (g.maxDepth.isSome && g.has .noDepthLimit)
    || (g.has .strictAliases && g.has .allowGeneratedAliases)

/-- What is given before the command and behind it together. -/
def merge (before behind : Given) : Given :=
  {
    config := behind.config.or before.config
    maxDepth := behind.maxDepth.or before.maxDepth
    switches := behind.switches ++ before.switches
    files := before.files ++ behind.files
  }

end Given

/-- What one argument that begins with a hyphen says. -/
inductive OptionWord where
  | switch (s : Switch)
  | setting (s : Setting) (value : Option String)
  | information
deriving DecidableEq

namespace OptionWord

/-- A hyphen by itself is no option. -/
def isOption (argument : String) : Bool :=
  argument.startsWith "-" && argument != "-"

/-- Long options, with the value behind an equals sign if there is one. -/
def ofLong? (withJson : Bool) (name : String) (value : Option String) : Option OptionWord :=
  match name, value with
  | "config", value => some (setting .config value)
  | "max-depth", value => some (setting .maxDepth value)
  | "no-depth-limit", none => some (switch .noDepthLimit)
  | "strict-aliases", none => some (switch .strictAliases)
  | "allow-generated-aliases", none => some (switch .allowGeneratedAliases)
  | "no-color", none => some (switch .noColor)
  | "json", none => if withJson then some (switch .json) else none
  | "help", none => some information
  | "version", none => some information
  | _, _ => none

/-- Short options; the rest of the argument is the value of the one that takes a value. -/
def ofShort? : List Char → Option OptionWord
  | 'c' :: rest =>
      match rest with
      | [] => some (setting .config none)
      | '=' :: value => some (setting .config (some (String.ofList value)))
      | value => some (setting .config (some (String.ofList value)))
  | 'h' :: _ => some information
  | 'V' :: _ => some information
  | _ => none

/-- The text before the first equals sign and the text behind it. -/
def splitValue (text : List Char) : String × Option String :=
  let name := text.takeWhile (· != '=')
  match text.drop name.length with
  | [] => (String.ofList name, none)
  | _ :: value => (String.ofList name, some (String.ofList value))

/-- What an option says. Only one command knows `--json`. -/
def ofArgument? (withJson : Bool) (argument : String) : Option OptionWord :=
  match argument.toList with
  | '-' :: '-' :: rest =>
      let (name, value) := splitValue rest
      ofLong? withJson name value
  | '-' :: rest => ofShort? rest
  | _ => none

end OptionWord

/-- How far one side of the command has been read. A value that stands in an argument of its
own is pending until the next option, and only then checked.
-/
structure Progress where
  given : Given := {}
  pending : Option (Setting × String) := none
  awaited : Option Setting := none
deriving DecidableEq

namespace Progress

/-- Checks the pending value. -/
def settle (p : Progress) : Except Stop Progress :=
  match p.pending with
  | none => .ok p
  | some (s, value) => (p.given.setValue s value).map fun given => { p with given, pending := none }

/-- Takes in an option. -/
def takeOption (p : Progress) (withJson : Bool) (argument : String) : Except Stop Progress := do
  match OptionWord.ofArgument? withJson argument with
  | none => .error .badUsage
  | some word =>
      let p ← p.settle
      match word with
      | .information => .error .information
      | .switch s => return { p with given := ← p.given.setSwitch s }
      | .setting s (some value) => return { p with given := ← p.given.setValue s value }
      | .setting s none => return { p with awaited := some s }

/-- Takes in the argument that an option awaits. -/
def takeValue (p : Progress) (s : Setting) (argument : String) : Except Stop Progress :=
  if OptionWord.isOption argument then .error .badUsage
  else .ok { p with awaited := none, pending := some (s, argument) }

/-- What is given on this side, once it has ended. -/
def finish (p : Progress) : Except Stop Given := do
  if p.awaited.isSome then
    .error .badUsage
  else
    let p ← p.settle
    if p.given.conflicts then .error .badUsage else .ok p.given

end Progress

/-- What ends the text of options: every argument behind it is a file. -/
def separator : String := "--"

/-- The files behind the separator. -/
def takeFiles (most : Nat) (p : Progress) : List String → Except Stop Progress
  | [] => .ok p
  | file :: rest => do
      takeFiles most { p with given := ← p.given.addFile most file } rest

/-- Reads what is behind the command. -/
def readBehind (verb : Verb) (p : Progress) : List String → Except Stop Progress
  | [] => .ok p
  | argument :: rest =>
      match p.awaited with
      | some s => do readBehind verb (← p.takeValue s argument) rest
      | none =>
          if argument = separator then
            takeFiles verb.fileCount p rest
          else if OptionWord.isOption argument then do
            readBehind verb (← p.takeOption (verb == .key) argument) rest
          else do
            let given ← p.given.addFile verb.fileCount argument
            readBehind verb { p with given } rest

/-- A command with its arguments. -/
inductive Command where
  | key (file : String) (json : Bool)
  | compare (left right : String)
  | validate (file : String)
  | kinds
deriving DecidableEq

/-- A command must be given exactly as many files as it takes. -/
def Command.ofGiven (verb : Verb) (g : Given) : Except Stop Command :=
  match verb, g.files with
  | .key, [file] => .ok (.key file (g.has .json))
  | .compare, [left, right] => .ok (.compare left right)
  | .validate, [file] => .ok (.validate file)
  | .kinds, [] => .ok .kinds
  | _, _ => .error .badUsage

/-- Help on a command, or on nothing in particular. -/
def helpOn : List String → Stop
  | [] => .information
  | [name] =>
      if name = "help" ∨ (Verb.ofName? name).isSome then .information else .badUsage
  | _ => .badUsage

/-- A command with the options on both sides of it. -/
structure Invocation where
  command : Command
  options : Given
deriving DecidableEq

/-- Reads what is before the command, then the command and what is behind it. A value that
stands right before the command is checked last.
-/
def readBefore (p : Progress) : List String → Except Stop Invocation
  | [] => .error .badUsage
  | argument :: rest =>
      match p.awaited with
      | some s => do readBefore (← p.takeValue s argument) rest
      | none =>
          if argument = "help" then
            .error (helpOn rest)
          else
            match Verb.ofName? argument with
            | some verb => do
                let behind ← (← readBehind verb {} rest).finish
                let command ← Command.ofGiven verb behind
                let before ← p.finish
                return ⟨command, before.merge behind⟩
            | none =>
                if OptionWord.isOption argument && argument != separator then do
                  readBefore (← p.takeOption false argument) rest
                else
                  .error .badUsage

/-- Reads a command line. -/
def parse (arguments : List String) : Except Stop Invocation :=
  readBefore {} arguments

end QueryKey.CommandLine
