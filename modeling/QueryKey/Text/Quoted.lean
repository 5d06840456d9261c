/-! Quoted text: single quotes around it, and each quote inside it written twice. -/

namespace QueryKey.Text.Quoted

/-- The single quote. -/
def mark : Char := '\x27'

/-- Writes every quote twice and all else once. -/
def encode : List Char → List Char
  | [] => []
  | c :: rest => if c = mark then mark :: mark :: encode rest else c :: encode rest

/-- Refuses a quote that stands alone. -/
def decode : List Char → Option (List Char)
  | [] => some []
  | c :: rest =>
      if c = mark then
        match rest with
        | d :: more => if d = mark then (decode more).map (mark :: ·) else none
        | [] => none
      else
        (decode rest).map (c :: ·)

end Quoted

open Quoted in
/-- The text between two quotes, with its own quotes doubled. -/
def quote (text : String) : String :=
  String.ofList (mark :: encode text.toList ++ [mark])

end QueryKey.Text
