import QueryKey.Failure

/-! Reports of validation: errors and warnings, each with the path of the node it is about. The
verdict is stored beside the errors and kept in step with them.
-/

namespace QueryKey.Validation

inductive ErrorCode where
  | emptyVariableName | emptyParameterName | emptyMemberName | emptyIdentity | arityMismatch
  | emptyList | nonScalarConstant
deriving DecidableEq

def ErrorCode.name : ErrorCode → String
  | emptyVariableName => "EmptyVariableName"
  | emptyParameterName => "EmptyParameterName"
  | emptyMemberName => "EmptyMemberName"
  | emptyIdentity => "EmptyIdentity"
  | arityMismatch => "ArityMismatch"
  | emptyList => "EmptyList"
  | nonScalarConstant => "NonScalarConstant"

inductive WarningCode where
  | constantTypeMismatch | generatedAlias | extensionNode
deriving DecidableEq

def WarningCode.name : WarningCode → String
  | constantTypeMismatch => "ConstantTypeMismatch"
  | generatedAlias => "GeneratedAlias"
  | extensionNode => "ExtensionNode"

structure ErrorFinding where
  code : ErrorCode
  message : String
  path : String
deriving DecidableEq

def ErrorFinding.text (e : ErrorFinding) : String :=
  "[" ++ e.path ++ "] " ++ e.message

structure WarningFinding where
  code : WarningCode
  message : String
  path : String
deriving DecidableEq

def WarningFinding.text (w : WarningFinding) : String :=
  "[" ++ w.path ++ "] Warning: " ++ w.message

/-- What validation found, in the order in which it was found. -/
structure Report where
  valid : Bool := true
  errors : List ErrorFinding := []
  warnings : List WarningFinding := []
deriving DecidableEq

namespace Report

/-- The report without findings. -/
def ok : Report := {}

def addError (r : Report) (e : ErrorFinding) : Report :=
  { r with valid := false, errors := r.errors ++ [e] }

def addWarning (r : Report) (w : WarningFinding) : Report :=
  { r with warnings := r.warnings ++ [w] }

/-- The findings of both, the first report's before the second's. -/
def merge (r other : Report) : Report :=
  {
    valid := r.valid && other.valid
    errors := r.errors ++ other.errors
    warnings := r.warnings ++ other.warnings
  }

def hasErrors (r : Report) : Bool :=
  !r.errors.isEmpty

def hasWarnings (r : Report) : Bool :=
  !r.warnings.isEmpty

/-- The texts of the errors. -/
def messages (r : Report) : List String :=
  r.errors.map ErrorFinding.text

/-- A report without errors passes; otherwise the failure lists them all. -/
def toResult (r : Report) : Except Failure Unit :=
  if r.valid then .ok ()
  else .error (.invalidTree (String.intercalate "; " r.messages))

end Report

end QueryKey.Validation
