import QueryKey.Json.Numeral

/-! Reading document texts. The reader is a machine that takes one character at a time and keeps
the open arrays and objects on a stack; it accepts strict notation only.
-/

namespace QueryKey.Json

open QueryKey.Text (hexDigit?)

/-- Why a text is no document. -/
inductive ParseError where
  | malformed
  | endsEarly
deriving DecidableEq, Repr

abbrev Members := List (String × Json)

/-- An open array or object; what has been read of it is in reverse order. -/
inductive Frame where
  | array (items : List Json)
  | object (members : Members) (key : String)

/-- Where in a string the machine is. Hexadecimal escapes count the bytes of what follows them,
right or wrong; `high` is the first half of a surrogate pair.
-/
inductive Escape where
  | none
  | opened
  | hex (high : Option Nat) (bytes value : Nat) (bad : Bool)
  | pair (high : Nat)
  | pairOpened (high : Nat)
deriving DecidableEq

/-- What the machine reads next. A value that may be missing closes an empty array, a key that
may be missing closes an empty object.
-/
inductive Mode where
  | value (mayClose : Bool)
  | key (members : Members) (mayClose : Bool)
  | colon (members : Members) (key : String)
  | done (value : Json)
  | string (keyOf : Option Members) (reversed : List Char) (escape : Escape)
  | number (numeral : Numeral)
  | word (rest : List Char) (value : Json)

structure State where
  stack : List Frame
  mode : Mode

namespace State

def start : State :=
  ⟨[], .value false⟩

def isSpace (c : Char) : Bool :=
  c = ' ' ∨ c = '\t' ∨ c = '\n' ∨ c = '\r'

/-- How deep arrays and objects may be nested. -/
def depthLimit : Nat := 127

def malformed {α : Type} : Except ParseError α :=
  .error .malformed

/-- After a value comes a comma or the end of what is open. -/
def afterValue (stack : List Frame) (value : Json) (c : Char) : Except ParseError State :=
  if isSpace c then
    .ok ⟨stack, .done value⟩
  else
    match stack with
    | .array items :: rest =>
        if c = ',' then .ok ⟨.array (value :: items) :: rest, .value false⟩
        else if c = ']' then .ok ⟨rest, .done (.array (value :: items).reverse)⟩
        else malformed
    | .object members key :: rest =>
        if c = ',' then .ok ⟨rest, .key ((key, value) :: members) false⟩
        else if c = '\x7d' then .ok ⟨rest, .done (.object ((key, value) :: members).reverse)⟩
        else malformed
    | [] => malformed

/-- The first character of a value. -/
def beginValue (stack : List Frame) (mayClose : Bool) (c : Char) : Except ParseError State :=
  if isSpace c then
    .ok ⟨stack, .value mayClose⟩
  else if c = '"' then
    .ok ⟨stack, .string none [] .none⟩
  else if c = '[' then
    if stack.length < depthLimit then .ok ⟨.array [] :: stack, .value true⟩ else malformed
  else if c = '\x7b' then
    if stack.length < depthLimit then .ok ⟨stack, .key [] true⟩ else malformed
  else if c = ']' ∧ mayClose then
    .ok ⟨stack.tail, .done (.array [])⟩
  else if c = 'n' then
    .ok ⟨stack, .word ['u', 'l', 'l'] .null⟩
  else if c = 't' then
    .ok ⟨stack, .word ['r', 'u', 'e'] (.bool true)⟩
  else if c = 'f' then
    .ok ⟨stack, .word ['a', 'l', 's', 'e'] (.bool false)⟩
  else
    match Numeral.begin? c with
    | some numeral => .ok ⟨stack, .number numeral⟩
    | none => malformed

def beginKey (stack : List Frame) (members : Members) (mayClose : Bool) (c : Char)
    : Except ParseError State :=
  if isSpace c then .ok ⟨stack, .key members mayClose⟩
  else if c = '"' then .ok ⟨stack, .string (some members) [] .none⟩
  else if c = '\x7d' ∧ mayClose then .ok ⟨stack, .done (.object members)⟩
  else malformed

def afterKey (stack : List Frame) (members : Members) (key : String) (c : Char)
    : Except ParseError State :=
  if isSpace c then .ok ⟨stack, .colon members key⟩
  else if c = ':' then .ok ⟨.object members key :: stack, .value false⟩
  else malformed

/-- A closing quote makes a value or a key. -/
def endString (stack : List Frame) (keyOf : Option Members) (reversed : List Char) : State :=
  let text := String.ofList reversed.reverse
  match keyOf with
  | none => ⟨stack, .done (.string text)⟩
  | some members => ⟨stack, .colon members text⟩

/-- The escapes of one letter. -/
def unescape? (c : Char) : Option Char :=
  if c = '"' ∨ c = '\\' ∨ c = '/' then some c
  else if c = 'b' then some '\x08'
  else if c = 'f' then some '\x0c'
  else if c = 'n' then some '\n'
  else if c = 'r' then some '\r'
  else if c = 't' then some '\t'
  else none

/-- Ends a hexadecimal escape. Surrogates come in pairs, the high one first. -/
def endHex (high : Option Nat) (value : Nat) (reversed : List Char)
    : Except ParseError (List Char × Escape) :=
  match high with
  | none =>
      if value < 0xD800 ∨ 0xDFFF < value then .ok (Char.ofNat value :: reversed, .none)
      else if value < 0xDC00 then .ok (reversed, .pair value)
      else malformed
  | some first =>
      if 0xDC00 ≤ value ∧ value ≤ 0xDFFF then
        let code := (first - 0xD800) * 0x400 + (value - 0xDC00) + 0x10000
        .ok (Char.ofNat code :: reversed, .none)
      else
        malformed

/-- One more character inside a string. -/
def inString (reversed : List Char) (escape : Escape) (c : Char)
    : Except ParseError (List Char × Escape) :=
  match escape with
  | .none =>
      if c = '\\' then .ok (reversed, .opened)
      else if c.toNat < 0x20 then malformed
      else .ok (c :: reversed, .none)
  | .opened =>
      if c = 'u' then
        .ok (reversed, .hex none 0 0 false)
      else
        match unescape? c with
        | some d => .ok (d :: reversed, .none)
        | none => malformed
  | .hex high bytes value bad =>
      let bytes := bytes + c.utf8Size
      let bad := bad || (hexDigit? c).isNone
      let value := value * 16 + (hexDigit? c).getD 0
      if bytes < 4 then .ok (reversed, .hex high bytes value bad)
      else if bad then malformed
      else endHex high value reversed
  | .pair high => if c = '\\' then .ok (reversed, .pairOpened high) else malformed
  | .pairOpened high => if c = 'u' then .ok (reversed, .hex (some high) 0 0 false) else malformed

/-- Takes in one character. -/
def step (s : State) (c : Char) : Except ParseError State :=
  match s.mode with
  | .value mayClose => beginValue s.stack mayClose c
  | .key members mayClose => beginKey s.stack members mayClose c
  | .colon members key => afterKey s.stack members key c
  | .done value => afterValue s.stack value c
  | .string keyOf reversed escape =>
      if c = '"' ∧ escape = .none then
        .ok (endString s.stack keyOf reversed)
      else do
        let (reversed, escape) ← inString reversed escape c
        return ⟨s.stack, .string keyOf reversed escape⟩
  | .number numeral =>
      match numeral.push? c with
      | some longer => .ok ⟨s.stack, .number longer⟩
      | none =>
          match numeral.value? with
          | some value => afterValue s.stack (.number value) c
          | none => malformed
  | .word [] value => afterValue s.stack value c
  | .word (d :: rest) value =>
      if c ≠ d then malformed
      else if rest.isEmpty then .ok ⟨s.stack, .done value⟩
      else .ok ⟨s.stack, .word rest value⟩

/-- The document, if the text may end here. -/
def finish (s : State) : Except ParseError Json :=
  match s.stack, s.mode with
  | [], .done value => .ok value
  | stack, .number numeral =>
      match numeral.value? with
      | some value => if stack.isEmpty then .ok (.number value) else .error .endsEarly
      | none => if numeral.isComplete then malformed else .error .endsEarly
  | _, _ => .error .endsEarly

/-- Takes in characters up to the first that does not fit. -/
def run (s : State) : List Char → Except ParseError State
  | [] => .ok s
  | c :: rest =>
      match s.step c with
      | .ok next => run next rest
      | .error e => .error e

end State

/-- The document that a text holds, its members in the order of the text. -/
def parse (text : String) : Except ParseError Json := do
  let s ← State.start.run text.toList
  s.finish

end QueryKey.Json
