import QueryKey.Text.Digits

/-! Scans: readers of the front of a text. A scan that fails leaves the choice to others; one
that succeeds hands over the text behind what it read.
-/

namespace QueryKey.Text

/-- What was read, and what is left. -/
abbrev Scan (α : Type) := List Char → Option (α × List Char)

namespace Scan

variable {α β : Type}

/-- One character of a class. -/
def one (p : Char → Bool) : Scan Char
  | c :: rest => if p c then some (c, rest) else none
  | [] => none

def literal (c : Char) : Scan Unit
  | d :: rest => if d = c then some ((), rest) else none
  | [] => none

/-- The characters of a word, one after the other. -/
def word : List Char → Scan Unit
  | [], text => some ((), text)
  | c :: more, text =>
      match literal c text with
      | some ((), rest) => word more rest
      | none => none

def map (f : α → β) (s : Scan α) : Scan β := fun text =>
  (s text).map fun (a, rest) => (f a, rest)

/-- The first scan that succeeds. -/
def or (first second : Scan α) : Scan α := fun text =>
  (first text).or (second text)

/-- The two scans in turn, keeping what the second reads. -/
def andThen (first : Scan α) (second : Scan β) : Scan β := fun text =>
  (first text).bind fun (_, rest) => second rest

/-- The two scans in turn, keeping what the first reads. -/
def followedBy (first : Scan α) (second : Scan β) : Scan α := fun text =>
  (first text).bind fun (a, rest) => (second rest).map fun (_, rest) => (a, rest)

/-- Always succeeds, with nothing if the scan fails. -/
def optional (s : Scan α) : Scan (Option α) := fun text =>
  match s text with
  | some (a, rest) => some (some a, rest)
  | none => some (none, text)

/-- Succeeds only if what is read passes a test. -/
def check (f : α → Option β) (s : Scan α) : Scan β := fun text =>
  (s text).bind fun (a, rest) => (f a).map fun b => (b, rest)

/-- At most `rounds` successes in a row. -/
def manyUpTo (s : Scan α) : (rounds : Nat) → List Char → List α × List Char
  | 0, text => ([], text)
  | rounds + 1, text =>
      match s text with
      | some (a, rest) =>
          let (more, rest) := manyUpTo s rounds rest
          (a :: more, rest)
      | none => ([], text)

/-- Every success in a row; a scan that reads at least one character ends with the text. -/
def many (s : Scan α) : Scan (List α) := fun text =>
  some (manyUpTo s text.length text)

/-- One or more readings with separators between them. -/
def separated (s : Scan α) (separator : Scan Unit) : Scan (List α) := fun text => do
  let (first, text) ← s text
  let (more, text) ← many (separator.andThen s) text
  return (first :: more, text)

/-- A number of at least one and at most `most` digits. -/
def digits (most : Nat) : Scan Nat := fun text =>
  match takeDigits most text with
  | ([], _) => none
  | (ds, rest) => some (ofDigits 10 ds, rest)

/-- A number of exactly `count` digits. -/
def exactDigits (count : Nat) : Scan Nat := fun text =>
  let (ds, rest) := takeDigits count text
  if ds.length = count then some (ofDigits 10 ds, rest) else none

end Scan

end QueryKey.Text
