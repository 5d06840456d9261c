import QueryKey.CommandLine.Execution

/-! The program: reads the files that the command line names, runs the command and prints what
it yields.
-/

namespace QueryKey.CommandLine

def usageText : String :=
  String.intercalate "\n"
    [
      "Canonical cache keys for query command trees",
      "",
      "usage: [options] key <file> [--json]",
      "       [options] compare <left> <right>",
      "       [options] validate <file>",
      "       [options] kinds",
      "",
      "options:",
      "  -c, --config <file>          TOML file with key-generation settings",
      "      --max-depth <number>     deepest tree that will be keyed",
      "      --no-depth-limit         key trees of any depth",
      "      --strict-aliases         fail on generated variable names",
      "      --allow-generated-aliases",
      "                               accept generated variable names",
      "      --no-color               print without colors"
    ]

/-- The files that a command line names. -/
def filesOf (i : Invocation) : List String :=
  i.options.config.toList ++ i.options.files

def readSource (path : String) : IO Source := do
  match ← (IO.FS.readBinFile path).toBaseIO with
  | .ok content =>
      match String.fromUTF8? content with
      | some text => return .text text
      | none => return .unreadable
  | .error (.noFileOrDirectory _ _ _) => return .absent
  | .error _ => return .unreadable

/-- Colors are used on a terminal, unless the user objects. -/
def wantsColor : IO Bool := do
  let isTerminal ← (← IO.getStdout).isTty
  return isTerminal && (← IO.getEnv "NO_COLOR").isNone

def runInvocation (i : Invocation) : IO UInt32 := do
  let sources ← (filesOf i).mapM fun path => do return (path, ← readSource path)
  let read := fun path => (sources.lookup path).getD .absent
  let result := run ⟨read, ← wantsColor⟩ i
  match result with
  | .ok outcome => IO.print outcome.output
  | .error failure => IO.eprintln (errorLine failure)
  return UInt32.ofNat (exitCode result)

end QueryKey.CommandLine

open QueryKey.CommandLine in
def main (arguments : List String) : IO UInt32 :=
  match parse arguments with
  | .ok i => runInvocation i
  | .error .information => do
      IO.println usageText
      return 0
  | .error .badUsage => do
      IO.eprintln usageText
      return 2
