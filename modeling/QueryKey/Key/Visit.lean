import QueryKey.Expr.Basic
import QueryKey.Key.Alias
import QueryKey.Key.Settings
import QueryKey.Key.Template

/-! Writing the key of a tree. A visit appends to the key that is being written and counts the
nodes that are open; it may stop with a failure at any point.
-/

namespace QueryKey.Key

open QueryKey.Expr QueryKey.Metadata QueryKey.Text

/-- A key in the making and the number of open nodes. -/
structure Progress where
  text : String := ""
  depth : Nat := 0
deriving DecidableEq

/-- What a visit does, and the failure with which it stopped, if it did. -/
abbrev Visit := Progress → Progress × Option Failure

namespace Visit

def done : Visit := fun p => (p, none)

def fail (failure : Failure) : Visit := fun p => (p, some failure)

def write (text : String) : Visit := fun p => ({ p with text := p.text ++ text }, none)

/-- The second visit follows if the first did not fail. -/
def andThen (first second : Visit) : Visit := fun p =>
  match first p with
  | (p, none) => second p
  | stopped => stopped

/-- Keeps a node open during a visit, whether it fails or not. -/
def opened (visit : Visit) : Visit := fun p =>
  match visit { p with depth := p.depth + 1 } with
  | (q, outcome) => ({ q with depth := q.depth - 1 }, outcome)

/-- A node below the depth limit fails; that is found out before anything else. -/
def limited (limit : Option Nat) (visit : Visit) : Visit := fun p =>
  match limit with
  | some most => if most ≤ p.depth then fail (.depthLimitExceeded most) p else visit p
  | none => visit p

end Visit

open Visit

/-- Writes a piece; operands have been made visits. -/
def visitPiece (s : Settings) : Piece Visit → Visit
  | .mark text => write text
  | .raw text => write text
  | .literal text => write text
  | .operand visit => visit
  | .boundName name =>
      if s.rejectGeneratedAliases && isGeneratedAlias name then
        fail (.reservedVariableName name)
      else
        write (quote name)

def visitPieces (s : Settings) : List (Piece Visit) → Visit
  | [] => done
  | piece :: rest => andThen (visitPiece s piece) (visitPieces s rest)

/-- The visit of a node whose operands have been made visits. -/
def visitNode (s : Settings) (usage : TypeUsage) (body : Body Visit) : Visit :=
  limited s.maxDepth <| opened <|
    match template usage body with
    | .ok pieces => visitPieces s pieces
    | .error failure => fail failure

/-- Appends the key of a tree. -/
def visit (s : Settings) : Expr → Visit :=
  fold (visitNode s)

end QueryKey.Key
