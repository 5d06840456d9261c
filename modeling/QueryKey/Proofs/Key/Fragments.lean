import QueryKey.Proofs.Key.LiteralReader
import QueryKey.Proofs.Key.Outline

/-! Readers of parts of a key. A reader of a part gives what is recorded of the part and the
outlines of the operands in it; the readers of whole nodes are put together from such readers.
-/

namespace QueryKey.Key.Reader

open QueryKey.Expr QueryKey.Metadata QueryKey.Text

/-- A reader of a part: what is recorded of it, and the outlines of its operands in order. -/
abbrev Fragment (α : Type) := Scan (α × List Outline)

variable {α β : Type}

def word (w : String) : Scan Unit :=
  Scan.word w.toList

/-- The identity in front, which may have facets unless they are excluded. -/
def identity (facets : Bool) : Scan String := fun text =>
  some (String.ofList (takeIdentity facets 0 text).1, (takeIdentity facets 0 text).2)

namespace Fragment

/-- A part that is read as it is; it tells something else. -/
def map (f : α → β) (s : Fragment α) : Fragment β :=
  Scan.map (Prod.map f id) s

/-- Nothing is read. -/
def nothing (a : α) : Fragment α := fun text =>
  some ((a, []), text)

/-- A mark with nothing behind it. -/
def mark (w : String) : Fragment Unit := fun text => do
  let (_, text) ← word w text
  return (((), []), text)

/-- A mark in front of a part. -/
def skip (w : String) (s : Fragment α) : Fragment α := fun text => do
  let (_, text) ← word w text
  s text

/-- An operand in front of a mark. -/
def operandMark (operand : Scan Outline) (w : String) : Fragment Unit := fun text => do
  let (outline, text) ← operand text
  let (_, text) ← word w text
  return (((), [outline]), text)

/-- The name of a variable in front of a mark. -/
def nameMark (w : String) : Fragment String := fun text => do
  let (name, text) ← quoted text
  let (_, text) ← word w text
  return ((String.ofList name, []), text)

/-- A name or an identity. -/
def raw (facets : Bool) : Fragment String := fun text => do
  let (name, text) ← identity facets text
  return ((name, []), text)

/-- A name or an identity in front of a mark. -/
def rawMark (facets : Bool) (w : String) : Fragment String := fun text => do
  let (name, text) ← identity facets text
  let (_, text) ← word w text
  return ((name, []), text)

/-- Any text up to the first of a mark. -/
def freeMark (mark : Char) : Fragment String := fun text =>
  match text.dropWhile (· != mark) with
  | [] => none
  | _ :: rest => some ((String.ofList (text.takeWhile (· != mark)), []), rest)

/-- Two parts in turn. -/
def pair (s : Fragment α) (t : Fragment β) : Fragment (α × β) := fun text => do
  let ((a, operands), text) ← s text
  let ((b, others), text) ← t text
  return (((a, b), operands ++ others), text)

/-- The first of two parts that can be read. -/
def either (s t : Fragment α) : Fragment α := fun text =>
  (s text).or (t text)

/-- As many parts as can be read. -/
def many (s : Fragment α) : Fragment (List α) := fun text =>
  let (items, rest) := Scan.manyUpTo s text.length text
  some ((items.map Prod.fst, items.flatMap Prod.snd), rest)

end Fragment

-----------------------------------------------------------------------------------------
-- Reading what pieces spell
-----------------------------------------------------------------------------------------

/-- The characters of pieces. -/
def spell (pieces : List (Piece Expr)) : List Char :=
  pieces.flatMap fun piece => (piece.text written).toList

@[simp] theorem spell_nil : spell [] = [] := rfl

@[simp] theorem spell_cons (piece : Piece Expr) (rest : List (Piece Expr))
    : spell (piece :: rest) = (piece.text written).toList ++ spell rest :=
  List.flatMap_cons

@[simp] theorem spell_append (front back : List (Piece Expr))
    : spell (front ++ back) = spell front ++ spell back :=
  List.flatMap_append

theorem spell_eq (pieces : List (Piece Expr))
    : (Piece.texts written pieces).toList = spell pieces := by
  induction pieces with
  | nil => rfl
  | cons piece rest ih => rw [Piece.texts, String.toList_append, ih, spell_cons]

/-- The outlines of the operands among pieces. -/
def outlines (pieces : List (Piece Expr)) : List Outline :=
  (Piece.operands pieces).map outline

/-- The reader reads the pieces in front of texts with the property. -/
def ReadsBefore (P : List Char → Prop) (s : Fragment α) (pieces : List (Piece Expr)) (a : α)
    : Prop :=
  ∀ rest, P rest → s (spell pieces ++ rest) = some ((a, outlines pieces), rest)

/-- The reader reads the pieces whatever follows them. -/
abbrev Reads (s : Fragment α) (pieces : List (Piece Expr)) (a : α) : Prop :=
  ReadsBefore (fun _ => True) s pieces a

/-- The reader reads the operand in front of whatever may follow an operand. -/
def ReadsOperand (operand : Scan Outline) (e : Expr) : Prop :=
  ∀ rest, Closes rest → operand ((written e).toList ++ rest) = some (e.outline, rest)

theorem word_toList (w : String) (rest : List Char) : word w (w.toList ++ rest) = some ((), rest) :=
  word_append w.toList rest

namespace ReadsBefore

variable {P : List Char → Prop} {s : Fragment α} {t : Fragment β}
  {pieces others : List (Piece Expr)} {a : α} {b : β} {operand : Scan Outline}

/-- Pieces that are spelled in the same way and have the same operands are read in the same way.
-/
theorem of_spell (h : ReadsBefore P s pieces a) (hs : spell others = spell pieces)
    (ho : outlines others = outlines pieces)
    : ReadsBefore P s others a := by
  intro rest hrest
  rw [hs, ho]
  exact h rest hrest

theorem of_eq (h : ReadsBefore P s pieces a) (heq : others = pieces) : ReadsBefore P s others a :=
  heq ▸ h

theorem map (h : ReadsBefore P s pieces a) (f : α → β) : ReadsBefore P (s.map f) pieces (f a) := by
  intro rest hrest
  simp [Fragment.map, Scan.map, h rest hrest]

theorem skip (h : ReadsBefore P s pieces a) (w : String)
    : ReadsBefore P (.skip w s) (.mark w :: pieces) a := by
  intro rest hrest
  simp [Fragment.skip, Piece.text, word_toList, h rest hrest, outlines]

/-- What is told may be given in another form. -/
theorem told {c : α} (h : ReadsBefore P s pieces a) (heq : a = c) : ReadsBefore P s pieces c :=
  heq ▸ h

/-- Parts in turn, if the first one can be read in front of the second. -/
theorem pair_of_before {Q : List Char → Prop} (hs : ReadsBefore Q s pieces a)
    (ht : ReadsBefore P t others b) (hQ : ∀ rest, P rest → Q (spell others ++ rest))
    : ReadsBefore P (.pair s t) (pieces ++ others) (a, b) := by
  intro rest hrest
  simp [Fragment.pair, hs _ (hQ rest hrest), ht rest hrest, outlines]

/-- Parts in turn, if the first one can be read in front of anything. -/
theorem pair (hs : Reads s pieces a) (ht : ReadsBefore P t others b)
    : ReadsBefore P (.pair s t) (pieces ++ others) (a, b) :=
  hs.pair_of_before ht fun _ _ => trivial

theorem left (h : ReadsBefore P s pieces a) (other : Fragment α)
    : ReadsBefore P (.either s other) pieces a := by
  intro rest hrest
  simp [Fragment.either, h rest hrest]

theorem right (h : ReadsBefore P s pieces a) {other : Fragment α}
    (hnone : ∀ rest, P rest → other (spell pieces ++ rest) = none)
    : ReadsBefore P (.either other s) pieces a := by
  intro rest hrest
  simp [Fragment.either, hnone rest hrest, h rest hrest]

theorem mono {Q : List Char → Prop} (h : ReadsBefore Q s pieces a)
    (hle : ∀ rest, P rest → Q rest)
    : ReadsBefore P s pieces a :=
  fun rest hrest => h rest (hle rest hrest)

theorem before (h : Reads s pieces a) : ReadsBefore P s pieces a :=
  h.mono fun _ _ => trivial

theorem nothing (a : α) : ReadsBefore P (.nothing a) [] a :=
  fun _ _ => rfl

theorem mark (w : String) : ReadsBefore P (.mark w) [.mark w] () := by
  intro rest _
  simp [Fragment.mark, Piece.text, word_toList, outlines]

/-- A part in front of the parenthesis that closes it. -/
theorem closed (h : Reads s pieces a)
    : Reads (.pair s (.mark ")")) (pieces ++ [.mark ")"]) (a, ()) :=
  h.pair (mark ")")

/-- Operands in front of a mark and a text that may follow them. -/
theorem operandMark_of_closes {e : Expr} (h : ReadsOperand operand e) (w : String)
    : ReadsBefore (fun rest => Closes (w.toList ++ rest)) (.operandMark operand w)
        [.operand e, .mark w] () := by
  intro rest hrest
  simp [Fragment.operandMark, Piece.text, h _ hrest, word_toList, outlines]

/-- Operands in front of a mark that may follow them. -/
theorem operandMark {e : Expr} (h : ReadsOperand operand e) {w : String}
    (hw : ∀ rest, Closes (w.toList ++ rest))
    : ReadsBefore P (.operandMark operand w) [.operand e, .mark w] () :=
  fun rest _ => operandMark_of_closes h w rest (hw rest)

/-- The identity at the end of a part. -/
theorem raw {facets : Bool} {text : String} (h : Passes facets 0 text.toList)
    (hP : ∀ rest, P rest → takeIdentity facets 0 rest = ([], rest))
    : ReadsBefore P (.raw facets) [.raw text] text := by
  intro rest hrest
  have hi := takeIdentity_append h (hP rest hrest)
  simp [Fragment.raw, identity, Piece.text, hi, outlines]

theorem nameMark (name : String) {w : String} (hw : w.toList.head? ≠ some Quoted.mark)
    (hne : w.toList ≠ [])
    : ReadsBefore P (.nameMark w) [.boundName name, .mark w] name := by
  intro rest _
  have hhead : (w.toList ++ rest).head? ≠ some Quoted.mark := by
    rwa [List.head?_append_of_ne_nil _ hne]
  have hq := quoted_quote name.toList hhead
  rw [String.ofList_toList] at hq
  simp [Fragment.nameMark, Piece.text, hq, word_toList, outlines]

/-- Names and identities in front of a mark at which they end. -/
theorem rawMark {facets : Bool} {text w : String} (h : Passes facets 0 text.toList)
    (hw : ∀ rest, takeIdentity facets 0 (w.toList ++ rest) = ([], w.toList ++ rest))
    : ReadsBefore P (.rawMark facets w) [.raw text, .mark w] text := by
  intro rest _
  have hi := takeIdentity_append h (hw rest)
  simp [Fragment.rawMark, identity, Piece.text, hi, word_toList, outlines]

/-- Any text in front of a mark that is not in it. -/
theorem freeMark {name w : String} {mark : Char} (hw : w.toList = [mark]) (h : mark ∉ name.toList)
    : ReadsBefore P (.freeMark mark) [.raw name, .mark w] name := by
  intro rest _
  simp [Fragment.freeMark, Piece.text, hw, takeWhile_append_mark h rest,
    dropWhile_append_mark h rest, outlines]

end ReadsBefore

/-- Items are read one after the other up to a text that is no item; by induction on them. -/
theorem manyUpTo_flatMap {γ : Type} {s : Fragment α} {fragment : γ → List (Piece Expr)}
    {told : γ → α} {P : List Char → Prop} {items : List γ}
    (hitem : ∀ x ∈ items, ReadsBefore P s (fragment x) (told x))
    (hnext : ∀ x ∈ items, ∀ rest, P (spell (fragment x) ++ rest))
    {rest : List Char} (hrest : P rest) (hend : s rest = none) {rounds : Nat}
    (hrounds : items.length ≤ rounds)
    : Scan.manyUpTo s rounds (spell (items.flatMap fragment) ++ rest)
      = (items.map fun x => (told x, outlines (fragment x)), rest) := by
  induction items generalizing rounds with
  | nil => cases rounds <;> simp [Scan.manyUpTo, hend]
  | cons x more ih =>
      cases rounds with
      | zero => simp at hrounds
      | succ rounds =>
          have hafter : P (spell (more.flatMap fragment) ++ rest) := by
            cases more with
            | nil => exact hrest
            | cons y more =>
                simpa using hnext y (by simp) (spell (more.flatMap fragment) ++ rest)
          have hx := hitem x (by simp) _ hafter
          have hmore := ih (fun y hy => hitem y (by simp [hy])) (fun y hy => hnext y (by simp [hy]))
            (by simpa using hrounds)
          simp [Scan.manyUpTo, hx, hmore]

theorem length_le_length_spell {γ : Type} {fragment : γ → List (Piece Expr)} {items : List γ}
    (h : ∀ x ∈ items, spell (fragment x) ≠ [])
    : items.length ≤ (spell (items.flatMap fragment)).length := by
  induction items with
  | nil => exact Nat.zero_le _
  | cons x more ih =>
      have hx := List.length_pos_iff.mpr (h x (by simp))
      have hmore := ih fun y hy => h y (by simp [hy])
      rw [List.flatMap_cons, spell_append, List.length_append, List.length_cons]
      omega

theorem outlines_flatMap {γ : Type} (fragment : γ → List (Piece Expr)) (items : List γ)
    : outlines (items.flatMap fragment) = items.flatMap fun x => outlines (fragment x) := by
  simp only [outlines, Piece.operands_flatMap, List.map_flatMap]

/-- Items up to a text that is no item. -/
theorem ReadsBefore.many {γ : Type} {s : Fragment α} {fragment : γ → List (Piece Expr)}
    {told : γ → α} {P Q : List Char → Prop} {items : List γ}
    (hitem : ∀ x ∈ items, ReadsBefore P s (fragment x) (told x))
    (hnext : ∀ x ∈ items, ∀ rest, P (spell (fragment x) ++ rest))
    (hrest : ∀ rest, Q rest → P rest ∧ s rest = none)
    : ReadsBefore Q (.many s) (items.flatMap fragment) (items.map told) := by
  intro rest hQ
  obtain ⟨hP, hend⟩ := hrest rest hQ
  have hne (x) (hx : x ∈ items) : spell (fragment x) ≠ [] := by
    intro hnil
    have hread := hitem x hx rest hP
    rw [hnil, List.nil_append, hend] at hread
    cases hread
  have hlength : items.length ≤ (spell (items.flatMap fragment) ++ rest).length := by
    rw [List.length_append]
    exact Nat.le_add_right_of_le (length_le_length_spell hne)
  simp only [Fragment.many, manyUpTo_flatMap hitem hnext hP hend hlength, outlines_flatMap,
    List.map_map, List.flatMap_map, Function.comp_def]

/-- Items and what follows them, if that is no item. -/
theorem ReadsBefore.many_pair {γ : Type} {s : Fragment α} {t : Fragment β}
    {fragment : γ → List (Piece Expr)} {told : γ → α} {P Q : List Char → Prop} {items : List γ}
    {others : List (Piece Expr)} {b : β}
    (hitem : ∀ x ∈ items, ReadsBefore P s (fragment x) (told x))
    (hnext : ∀ x ∈ items, ∀ rest, P (spell (fragment x) ++ rest))
    (ht : ReadsBefore Q t others b) (hP : ∀ rest, P (spell others ++ rest))
    (hend : ∀ rest, s (spell others ++ rest) = none)
    : ReadsBefore Q (.pair (.many s) t) (items.flatMap fragment ++ others)
        (items.map told, b) :=
  (many (Q := fun rest => P rest ∧ s rest = none) hitem hnext fun _ hrest => hrest).pair_of_before
    ht fun rest _ => ⟨hP rest, hend rest⟩

/-- Items up to a parenthesis. -/
theorem ReadsBefore.many_close {γ : Type} {s : Fragment α} {fragment : γ → List (Piece Expr)}
    {told : γ → α} {items : List γ} (hitem : ∀ x ∈ items, Reads s (fragment x) (told x))
    (hend : ∀ rest, s (')' :: rest) = none)
    : Reads (.pair (.many s) (.mark ")")) (items.flatMap fragment ++ [.mark ")"])
        (items.map told, ()) :=
  .many_pair (P := fun _ => True) hitem (fun _ _ _ => trivial) (.mark ")") (fun _ => trivial) hend

end QueryKey.Key.Reader
