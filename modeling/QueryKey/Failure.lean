/-! Why an operation on trees, documents, settings or files fails. A failure names its cause;
its wording is in `Failure.message`.
-/

namespace QueryKey

/-- What is wrong with a text that should hold a document. -/
inductive DocumentFault where
  | malformed
  | endsEarly
  | missingField (name : String)
  | unknownVariant (word : String) (expected : List String)
  | mismatch
deriving DecidableEq

namespace DocumentFault

/-- Words in code quotes. -/
def ticked (word : String) : String :=
  "\x60" ++ word ++ "\x60"

/-- The words that would have been accepted. -/
def expectedText : List String → String
  | [] => "there are no variants"
  | [only] => "expected " ++ ticked only
  | [first, second] => "expected " ++ ticked first ++ " or " ++ ticked second
  | words => "expected one of " ++ String.intercalate ", " (words.map ticked)

/-- The wording of the faults that have a fixed one. -/
def detail? : DocumentFault → Option String
  | missingField name => some ("missing field " ++ ticked name)
  | unknownVariant word expected =>
      some ("unknown variant " ++ ticked word ++ ", " ++ expectedText expected)
  | _ => none

end DocumentFault

inductive Failure where
  | unsupportedExpression (label : String)
  | unsupportedConstant (kind reason : String)
  | depthLimitExceeded (limit : Nat)
  | contractViolation (node message : String)
  | reservedVariableName (name : String)
  | invalidTree (message : String)
  | io (message : String)
  | fileRead (path : String) (fault : Option DocumentFault)
  | fileWrite (path : String)
  | treeNotFound (path : String)
  | document (fault : DocumentFault)
  | invalidConfiguration
  | schemaVersionMismatch (expected found : Nat)
  | withContext (context message : String)
deriving DecidableEq

namespace Failure

/-- A cause with its wording, where it has a fixed one. -/
def withDetail (cause : String) (fault : DocumentFault) : String :=
  match fault.detail? with
  | some detail => cause ++ " " ++ detail
  | none => cause

def message : Failure → String
  | unsupportedExpression label => "Unsupported expression kind: " ++ label
  | unsupportedConstant kind reason =>
      "Unsupported constant of kind '" ++ kind ++ "': " ++ reason
  | depthLimitExceeded limit =>
      "Expression tree exceeds the maximum depth of " ++ toString limit
  | contractViolation node message => "Contract violation in " ++ node ++ ": " ++ message
  | reservedVariableName name =>
      "Variable name '" ++ name ++ "' comes from the default alias generator and is not stable"
  | invalidTree message => "Validation error: " ++ message
  | io message => "IO error: " ++ message
  | fileRead path none => "Failed to read file '" ++ path ++ "':"
  | fileRead path (some fault) =>
      withDetail ("Failed to read file '" ++ path ++ "': Invalid tree file format:") fault
  | fileWrite path => "Failed to write file '" ++ path ++ "':"
  | treeNotFound path => "Tree file not found at path: " ++ path
  | document fault => withDetail "JSON serialization error:" fault
  | invalidConfiguration => "Invalid configuration:"
  | schemaVersionMismatch expected found =>
      "Schema version mismatch: expected at most " ++ toString expected ++ ", found "
        ++ toString found
  | withContext context message => context ++ ": " ++ message

/-- Failures after which a query simply goes without a cached plan. -/
def isUnsupported : Failure → Bool
  | unsupportedExpression _ | unsupportedConstant _ _ | depthLimitExceeded _ => true
  | _ => false

/-- Failures for which the tree's producer is to blame. -/
def isContractViolation : Failure → Bool
  | contractViolation _ _ | reservedVariableName _ => true
  | _ => false

/-- Failures of the file system. -/
def isIo : Failure → Bool
  | io _ | fileRead _ _ | fileWrite _ | treeNotFound _ => true
  | _ => false

/-- Says what was being done when the failure arose. -/
def addContext (context : String) (failure : Failure) : Failure :=
  withContext context failure.message

end Failure

end QueryKey
