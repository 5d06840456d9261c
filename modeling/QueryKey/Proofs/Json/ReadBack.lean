import QueryKey.Json.Parser
import QueryKey.Json.Printer
import QueryKey.Proofs.Text.Digits

/-! Documents read back: the text of a document makes the document again if it is not nested too
deeply and its numbers are integers of 64 bits.
-/

namespace QueryKey.Json

open QueryKey.Number (twoTo)
open QueryKey.Text

/-- Whether a number is an integer of 64 bits, with sign or without. -/
def Number.IsKept : Number → Prop
  | integer n => -(twoTo 63 : Int) ≤ n ∧ n < twoTo 64
  | _ => False

mutual
/-- How deep arrays and objects are nested. -/
def nesting : Json → Nat
  | array items => nestingItems items + 1
  | object members => nestingMembers members + 1
  | _ => 0

def nestingItems : List Json → Nat
  | [] => 0
  | item :: rest => max item.nesting (nestingItems rest)

def nestingMembers : List (String × Json) → Nat
  | [] => 0
  | (_, value) :: rest => max value.nesting (nestingMembers rest)
end

mutual
/-- Whether all numbers are integers of 64 bits. -/
def IsKept : Json → Prop
  | number value => value.IsKept
  | array items => areKeptItems items
  | object members => areKeptMembers members
  | _ => True

def areKeptItems : List Json → Prop
  | [] => True
  | item :: rest => item.IsKept ∧ areKeptItems rest

def areKeptMembers : List (String × Json) → Prop
  | [] => True
  | (_, value) :: rest => value.IsKept ∧ areKeptMembers rest
end

mutual
def decidableIsKept : (j : Json) → Decidable j.IsKept
  | null | bool _ | string _ => .isTrue trivial
  | number (.integer n) => inferInstanceAs (Decidable (-(twoTo 63 : Int) ≤ n ∧ n < twoTo 64))
  | number (.double _) | number (.single _) => .isFalse id
  | array items => decidableAreKeptItems items
  | object members => decidableAreKeptMembers members

def decidableAreKeptItems : (items : List Json) → Decidable (areKeptItems items)
  | [] => .isTrue trivial
  | item :: rest =>
      match decidableIsKept item, decidableAreKeptItems rest with
      | .isTrue hitem, .isTrue hrest => .isTrue ⟨hitem, hrest⟩
      | .isFalse hitem, _ => .isFalse fun h => hitem h.1
      | _, .isFalse hrest => .isFalse fun h => hrest h.2

def decidableAreKeptMembers
    : (members : List (String × Json)) → Decidable (areKeptMembers members)
  | [] => .isTrue trivial
  | (_, value) :: rest =>
      match decidableIsKept value, decidableAreKeptMembers rest with
      | .isTrue hvalue, .isTrue hrest => .isTrue ⟨hvalue, hrest⟩
      | .isFalse hvalue, _ => .isFalse fun h => hvalue h.1
      | _, .isFalse hrest => .isFalse fun h => hrest h.2
end

instance (j : Json) : Decidable j.IsKept :=
  decidableIsKept j

namespace State

theorem run_cons_of_step {s next : State} {c : Char} (h : s.step c = .ok next) (rest : List Char)
    : s.run (c :: rest) = next.run rest := by
  rw [run, h]

-----------------------------------------------------------------------------------------
-- Blanks
-----------------------------------------------------------------------------------------

/-- Blanks change nothing in a state that skips them. -/
theorem run_lineBreak {s : State} (h : ∀ c, isSpace c = true → s.step c = .ok s) (style : Style)
    (rest : List Char)
    : s.run (style.lineBreak rest) = s.run rest := by
  have hblanks (n : Nat) : s.run (List.replicate n ' ' ++ rest) = s.run rest := by
    induction n with
    | zero => rfl
    | succ n ih => rw [List.replicate_succ, List.cons_append, run_cons_of_step (h ' ' rfl), ih]
  cases style with
  | compact => rfl
  | indented level => rw [Style.lineBreak, run_cons_of_step (h '\n' rfl), hblanks]

theorem run_value_lineBreak (stack : List Frame) (mayClose : Bool) (style : Style)
    (rest : List Char)
    : run ⟨stack, .value mayClose⟩ (style.lineBreak rest) = run ⟨stack, .value mayClose⟩ rest :=
  run_lineBreak (fun c hc => by simp [step, beginValue, hc]) style rest

theorem run_key_lineBreak (stack : List Frame) (members : Members) (mayClose : Bool)
    (style : Style) (rest : List Char)
    : run ⟨stack, .key members mayClose⟩ (style.lineBreak rest)
      = run ⟨stack, .key members mayClose⟩ rest :=
  run_lineBreak (fun c hc => by simp [step, beginKey, hc]) style rest

theorem run_done_lineBreak (stack : List Frame) (value : Json) (style : Style) (rest : List Char)
    : run ⟨stack, .done value⟩ (style.lineBreak rest) = run ⟨stack, .done value⟩ rest :=
  run_lineBreak (fun c hc => by simp [step, afterValue, hc]) style rest

-----------------------------------------------------------------------------------------
-- Numbers
-----------------------------------------------------------------------------------------

/-- Digits for which there is room are taken into the number, by induction on the digits. -/
theorem run_whole {stack : List Frame} {s : Significand} {digits : List Char}
    (hfull : s.full = false) (hdigits : ∀ c ∈ digits, isDigit c = true)
    (hroom : extend s.digits digits < Significand.room) (rest : List Char)
    : run ⟨stack, .number (.whole s)⟩ (digits ++ rest)
      = run ⟨stack, .number (.whole { s with digits := extend s.digits digits })⟩ rest := by
  induction digits generalizing s with
  | nil => rfl
  | cons c more ih =>
      obtain ⟨d, hc⟩ := Option.isSome_iff_exists.mp (hdigits c (by simp))
      have hextend : extend s.digits (c :: more) = extend (s.digits * 10 + d) more := by
        simp [extend, digitValue, hc]
      rw [hextend] at hroom
      have hnext : s.digits * 10 + d < Significand.room :=
        Nat.lt_of_le_of_lt (le_extend _ more) hroom
      have hpush : s.pushWhole d = { s with digits := s.digits * 10 + d } := by
        simp [Significand.pushWhole, hfull, hnext]
      have hstep : step ⟨stack, .number (.whole s)⟩ c
          = .ok ⟨stack, .number (.whole { s with digits := s.digits * 10 + d })⟩ := by
        simp [step, Numeral.push?, hc, hpush]
      rw [List.cons_append, run_cons_of_step hstep, hextend,
        ih (s := { s with digits := s.digits * 10 + d }) hfull
          (fun c hc => hdigits c (by simp [hc])) hroom]

/-- What may follow a value: the comma or the bracket behind it, or the line break before that. -/
def isEnd (c : Char) : Bool :=
  c == ',' || c == '\n' || c == ']' || c == '\x7d'

/-- No numeral goes on at the end of a value. -/
theorem push?_isEnd {c : Char} (h : isEnd c = true) (numeral : Numeral)
    : numeral.push? c = none := by
  simp only [isEnd, Bool.or_eq_true, beq_iff_eq] at h
  rcases h with ((rfl | rfl) | rfl) | rfl <;>
    cases numeral <;> simp [Numeral.push?, Numeral.leave?, digit?]

/-- A number is done at the end of a value. -/
theorem run_number {stack : List Frame} {numeral : Numeral} {value : Number} {c : Char}
    (hc : isEnd c = true) (hvalue : numeral.value? = some value) (rest : List Char)
    : run ⟨stack, .number numeral⟩ (c :: rest)
      = run ⟨stack, .done (.number value)⟩ (c :: rest) := by
  simp [run, step, push?_isEnd hc, hvalue]

theorem run_beginDigit (stack : List Frame) (mayClose : Bool) {d : Nat} (hd : d < 10)
    (rest : List Char)
    : run ⟨stack, .value mayClose⟩ (Nat.digitChar d :: rest)
      = run ⟨stack, .number (.ofDigit false d)⟩ rest := by
  have all : ∀ d < 10, isSpace (Nat.digitChar d) = false ∧ Nat.digitChar d ≠ '"'
      ∧ Nat.digitChar d ≠ '[' ∧ Nat.digitChar d ≠ '\x7b' ∧ Nat.digitChar d ≠ ']'
      ∧ Nat.digitChar d ≠ 'n' ∧ Nat.digitChar d ≠ 't' ∧ Nat.digitChar d ≠ 'f'
      ∧ Nat.digitChar d ≠ '-' := by decide
  refine run_cons_of_step ?_ rest
  simp [step, beginValue, all d hd, Numeral.begin?, digit?_digitChar hd]

/-- The digits of a number that is not zero, after a sign or none. -/
theorem run_digits {stack : List Frame} {start : State} {negative : Bool} {n : Nat} (hn : 0 < n)
    (hroom : n < Significand.room)
    (hbegin : ∀ d < 10, ∀ rest, start.run (Nat.digitChar d :: rest)
      = run ⟨stack, .number (.ofDigit negative d)⟩ rest)
    (rest : List Char)
    : start.run (Nat.toDigits 10 n ++ rest)
      = run ⟨stack, .number (.whole ⟨negative, n, 0, false⟩)⟩ rest := by
  obtain ⟨d, more, hd, hpos, hcons⟩ := exists_cons_toDigits hn
  have hextend : extend d more = n := by
    have hdigits := extend_zero_toDigits n
    rw [hcons] at hdigits
    simpa [extend, digitValue_digitChar hd] using hdigits
  have hmore (c) (hc : c ∈ more) : isDigit c = true :=
    isDigit_of_mem_toDigits (n := n) (by rw [hcons]; exact List.mem_cons_of_mem _ hc)
  have hfirst : Numeral.ofDigit negative d = .whole ⟨negative, d, 0, false⟩ := by
    rw [Numeral.ofDigit, if_neg (by omega)]
  rw [hcons, List.cons_append, hbegin d hd, hfirst,
    run_whole rfl hmore (by rw [hextend]; exact hroom), hextend]

/-- Integers of 64 bits are read back in front of the end of a value. -/
theorem run_integer (stack : List Frame) (mayClose : Bool) {n : Int}
    (h : (Number.integer n).IsKept) {c : Char} (hc : isEnd c = true) (rest : List Char)
    : run ⟨stack, .value mayClose⟩ ((toString n).toList ++ c :: rest)
      = run ⟨stack, .done (.number (.integer n))⟩ (c :: rest) := by
  have hroom : Significand.room = 2 ^ 64 := rfl
  have hhalf : twoTo 63 = 2 ^ 63 := rfl
  have hfull : twoTo 64 = 2 ^ 64 := rfl
  obtain ⟨hlow, hhigh⟩ : -(twoTo 63 : Int) ≤ n ∧ n < twoTo 64 := h
  rw [toList_toString_int]
  by_cases hneg : n < 0
  · have hminus : step ⟨stack, .value mayClose⟩ '-' = .ok ⟨stack, .number .minus⟩ := rfl
    have hbegin (d) (hd : d < 10) (rest : List Char)
        : run ⟨stack, .number .minus⟩ (Nat.digitChar d :: rest)
          = run ⟨stack, .number (.ofDigit true d)⟩ rest :=
      run_cons_of_step (by simp [step, Numeral.push?, digit?_digitChar hd]) rest
    have hvalue : (Numeral.whole ⟨true, n.natAbs, 0, false⟩).value? = some (.integer n) := by
      have hne : n.natAbs ≠ 0 := by omega
      have hle : n.natAbs ≤ twoTo 63 := by omega
      have hn : -(n.natAbs : Int) = n := by omega
      rw [Numeral.value?, Significand.toNumber?, if_neg (by simp), if_pos (by simp [hne, hle]), hn]
    rw [if_pos hneg, List.cons_append, List.nil_append, List.cons_append, run_cons_of_step hminus,
      run_digits (by omega) (by omega) hbegin, run_number hc hvalue]
  · rw [if_neg hneg, List.nil_append]
    by_cases hn : n = 0
    · subst hn
      have hvalue : (Numeral.zero false).value? = some (.integer 0) := rfl
      exact (run_beginDigit stack mayClose (by decide : 0 < 10) (c :: rest)).trans
        (run_number hc hvalue rest)
    · have hvalue : (Numeral.whole ⟨false, n.natAbs, 0, false⟩).value? = some (.integer n) := by
        have hn : (n.natAbs : Int) = n := by omega
        rw [Numeral.value?, Significand.toNumber?, if_pos (by simp), hn]
      rw [run_digits (by omega) (by omega) fun d hd => run_beginDigit stack mayClose hd,
        run_number hc hvalue]

-----------------------------------------------------------------------------------------
-- Strings
-----------------------------------------------------------------------------------------

/-- A step inside an escape is one of the escape alone. -/
theorem step_of_inString {stack : List Frame} {keyOf : Option Members} {front back : List Char}
    {escape next : Escape} {c : Char} (hopen : escape ≠ .none)
    (h : inString front escape c = .ok (back, next))
    : step ⟨stack, .string keyOf front escape⟩ c = .ok ⟨stack, .string keyOf back next⟩ := by
  have hquote : ¬(c = '"' ∧ escape = .none) := fun hends => hopen hends.2
  simp only [step, hquote, if_false, h]
  rfl

/-- A digit of an escape that is not its last one. -/
theorem run_hexDigit {stack : List Frame} {keyOf : Option Members} {reversed : List Char}
    {bytes value d : Nat} (hd : d < 16) (hbytes : bytes + 1 < 4) (rest : List Char)
    : run ⟨stack, .string keyOf reversed (.hex none bytes value false)⟩ (Nat.digitChar d :: rest)
      = run ⟨stack, .string keyOf reversed (.hex none (bytes + 1) (value * 16 + d) false)⟩
          rest := by
  have size : ∀ d < 16, (Nat.digitChar d).utf8Size = 1 := by decide
  refine run_cons_of_step (step_of_inString (by simp) ?_) rest
  simp [inString, hexDigit?_digitChar hd, size d hd, hbytes]

/-- Control characters have escapes of four digits. -/
theorem run_control {stack : List Frame} {keyOf : Option Members} {reversed : List Char} {n : Nat}
    (hn : n < 0x20) (rest : List Char)
    : run ⟨stack, .string keyOf reversed .none⟩ ('\\' :: 'u' :: (paddedDigits 16 4 n ++ rest))
      = run ⟨stack, .string keyOf (Char.ofNat n :: reversed) .none⟩ rest := by
  have digits : ∀ n < 0x20, paddedDigits 16 4 n
      = [Nat.digitChar 0, Nat.digitChar 0, Nat.digitChar (n / 16), Nat.digitChar (n % 16)] := by
    decide
  have size : ∀ d < 16, (Nat.digitChar d).utf8Size = 1 := by decide
  have hopened : step ⟨stack, .string keyOf reversed .none⟩ '\\'
      = .ok ⟨stack, .string keyOf reversed .opened⟩ := rfl
  have hhex : step ⟨stack, .string keyOf reversed .opened⟩ 'u'
      = .ok ⟨stack, .string keyOf reversed (.hex none 0 0 false)⟩ := rfl
  have hvalue : (((0 * 16 + 0) * 16 + 0) * 16 + n / 16) * 16 + n % 16 = n := by omega
  have hlast : step ⟨stack, .string keyOf reversed
      (.hex none 3 (((0 * 16 + 0) * 16 + 0) * 16 + n / 16) false)⟩ (Nat.digitChar (n % 16))
      = .ok ⟨stack, .string keyOf (Char.ofNat n :: reversed) .none⟩ := by
    have hmod : n % 16 < 16 := by omega
    have hlow : n < 0xD800 := by omega
    refine step_of_inString nofun ?_
    simp only [inString, hexDigit?_digitChar hmod, size _ hmod, Option.getD_some, hvalue, endHex,
      hlow]
    simp
  rw [run_cons_of_step hopened, run_cons_of_step hhex, digits n hn]
  simp only [List.cons_append, List.nil_append]
  rw [run_hexDigit (by omega) (by omega), run_hexDigit (by omega) (by omega),
    run_hexDigit (by omega) (by omega), run_cons_of_step hlast]

/-- What is written for a character is read as the character. -/
theorem run_escape (stack : List Frame) (keyOf : Option Members) (reversed : List Char) (c : Char)
    (rest : List Char)
    : run ⟨stack, .string keyOf reversed .none⟩ (escape c ++ rest)
      = run ⟨stack, .string keyOf (c :: reversed) .none⟩ rest := by
  unfold escape
  split
  · next h => subst h; rfl
  split
  · next h => subst h; rfl
  split
  · next h => subst h; rfl
  split
  · next h => subst h; rfl
  split
  · next h => subst h; rfl
  split
  · next h => subst h; rfl
  split
  · next h => subst h; rfl
  split
  · next h =>
      refine (run_control h rest).trans ?_
      rw [Char.ofNat_toNat]
  · next hquote hbackslash _ _ _ _ _ hcontrol =>
      refine run_cons_of_step ?_ rest
      simp only [step, hquote, false_and, if_false, inString, hbackslash, hcontrol]
      rfl

/-- The characters of a text are read one after the other, by induction on the text. -/
theorem run_characters (stack : List Frame) (keyOf : Option Members) (reversed text : List Char)
    (rest : List Char)
    : run ⟨stack, .string keyOf reversed .none⟩ (text.flatMap escape ++ rest)
      = run ⟨stack, .string keyOf (text.reverse ++ reversed) .none⟩ rest := by
  induction text generalizing reversed with
  | nil => rfl
  | cons c more ih =>
      rw [List.flatMap_cons, List.append_assoc, run_escape, ih, List.reverse_cons,
        List.append_assoc, List.singleton_append]

/-- A text is read up to its closing quote. -/
theorem run_string (stack : List Frame) (keyOf : Option Members) (text : String)
    (rest : List Char)
    : run ⟨stack, .string keyOf [] .none⟩ (text.toList.flatMap escape ++ '"' :: rest)
      = run (endString stack keyOf text.toList.reverse) rest := by
  have hquote : step ⟨stack, .string keyOf text.toList.reverse .none⟩ '"'
      = .ok (endString stack keyOf text.toList.reverse) := by
    simp [step]
  rw [run_characters, List.append_nil, run_cons_of_step hquote]

theorem run_value_writeString (stack : List Frame) (mayClose : Bool) (text : String)
    (rest : List Char)
    : run ⟨stack, .value mayClose⟩ (writeString text rest)
      = run ⟨stack, .done (.string text)⟩ rest := by
  have hquote : step ⟨stack, .value mayClose⟩ '"' = .ok ⟨stack, .string none [] .none⟩ := rfl
  rw [writeString, run_cons_of_step hquote, run_string]
  simp [endString]

/-- A key is read up to where its value begins. -/
theorem run_key_writeString (stack : List Frame) (members : Members) (mayClose : Bool)
    (key : String) (style : Style) (rest : List Char)
    : run ⟨stack, .key members mayClose⟩ (writeString key (style.colon rest))
      = run ⟨.object members key :: stack, .value false⟩ rest := by
  have hquote : step ⟨stack, .key members mayClose⟩ '"'
      = .ok ⟨stack, .string (some members) [] .none⟩ := rfl
  have hcolon : step ⟨stack, .colon members key⟩ ':'
      = .ok ⟨.object members key :: stack, .value false⟩ := rfl
  have hblank : step ⟨.object members key :: stack, .value false⟩ ' '
      = .ok ⟨.object members key :: stack, .value false⟩ := rfl
  rw [writeString, run_cons_of_step hquote, run_string]
  simp only [endString, List.reverse_reverse, String.ofList_toList]
  cases style with
  | compact => rw [Style.colon, run_cons_of_step hcolon]
  | indented level => rw [Style.colon, run_cons_of_step hcolon, run_cons_of_step hblank]

-----------------------------------------------------------------------------------------
-- Values
-----------------------------------------------------------------------------------------

/-- The text ends a value that stands in front of it. -/
def Ends (rest : List Char) : Prop :=
  ∃ c more, rest = c :: more ∧ isEnd c = true

theorem ends_lineBreak (style : Style) {c : Char} (hc : isEnd c = true) (rest : List Char)
    : Ends (style.lineBreak (c :: rest)) := by
  cases style with
  | compact => exact ⟨c, rest, rfl, hc⟩
  | indented level => exact ⟨'\n', _, rfl, rfl⟩

theorem ends_writeItems (style : Style) (items : List Json) {rest : List Char} (h : Ends rest)
    : Ends (writeItems style items rest) := by
  cases items with
  | nil => exact h
  | cons item items => exact ⟨',', _, rfl, rfl⟩

theorem ends_writeMembers (style : Style) (members : List (String × Json)) {rest : List Char}
    (h : Ends rest)
    : Ends (writeMembers style members rest) := by
  cases members with
  | nil => exact h
  | cons member members => exact ⟨',', _, rfl, rfl⟩

theorem step_bracket (stack : List Frame) (mayClose : Bool) (hroom : stack.length < depthLimit)
    : step ⟨stack, .value mayClose⟩ '[' = .ok ⟨.array [] :: stack, .value true⟩ := by
  simp [step, beginValue, isSpace, hroom]

theorem step_brace (stack : List Frame) (mayClose : Bool) (hroom : stack.length < depthLimit)
    : step ⟨stack, .value mayClose⟩ '\x7b' = .ok ⟨stack, .key [] true⟩ := by
  simp [step, beginValue, isSpace, hroom]

mutual
/-- A value is read back in front of its end, by induction on the value; only after a number it
matters what follows.
-/
theorem run_write (j : Json) (style : Style) {stack : List Frame} (mayClose : Bool)
    (hkept : j.IsKept) (hdeep : stack.length + j.nesting ≤ depthLimit) {rest : List Char}
    (hrest : ∀ value, j = .number value → Ends rest)
    : run ⟨stack, .value mayClose⟩ (j.write style rest) = run ⟨stack, .done j⟩ rest := by
  cases j with
  | null => rfl
  | bool value => cases value <;> rfl
  | string value => exact run_value_writeString stack mayClose value rest
  | number value =>
      obtain ⟨c, more, rfl, hc⟩ := hrest value rfl
      cases value with
      | integer n => exact run_integer stack mayClose hkept hc more
      | double x => cases hkept
      | single x => cases hkept
  | array items =>
      rw [nesting] at hdeep
      have hopen := step_bracket stack mayClose (by omega)
      cases items with
      | nil =>
          rw [Json.write, run_cons_of_step hopen]
          rfl
      | cons item items =>
          rw [nestingItems] at hdeep
          rw [Json.write, run_cons_of_step hopen, run_value_lineBreak,
            run_write item style.deeper true hkept.1 (by simp only [List.length_cons]; omega)
              fun _ _ => ends_writeItems _ _ (ends_lineBreak _ rfl _),
            run_writeItems items style.deeper style hkept.2 (by omega)]
          rfl
  | object members =>
      rw [nesting] at hdeep
      have hopen := step_brace stack mayClose (by omega)
      cases members with
      | nil =>
          rw [Json.write, run_cons_of_step hopen]
          rfl
      | cons member members =>
          obtain ⟨key, value⟩ := member
          rw [nestingMembers] at hdeep
          rw [Json.write, run_cons_of_step hopen, run_key_lineBreak, run_key_writeString,
            run_write value style.deeper false hkept.1 (by simp only [List.length_cons]; omega)
              fun _ _ => ends_writeMembers _ _ (ends_lineBreak _ rfl _),
            run_writeMembers members style.deeper style hkept.2 (by omega)]
          rfl

/-- The items after the first and the bracket behind them. -/
theorem run_writeItems (items : List Json) (inner outer : Style) {stack : List Frame}
    {front : List Json} {value : Json} (hkept : areKeptItems items)
    (hdeep : stack.length + 1 + nestingItems items ≤ depthLimit) {rest : List Char}
    : run ⟨.array front :: stack, .done value⟩
        (writeItems inner items (outer.lineBreak (']' :: rest)))
      = run ⟨stack, .done (.array (front.reverse ++ value :: items))⟩ rest := by
  cases items with
  | nil =>
      have hclose : step ⟨.array front :: stack, .done value⟩ ']'
          = .ok ⟨stack, .done (.array (value :: front).reverse)⟩ := rfl
      rw [writeItems, run_done_lineBreak, run_cons_of_step hclose, List.reverse_cons]
  | cons item items =>
      have hcomma : step ⟨.array front :: stack, .done value⟩ ','
          = .ok ⟨.array (value :: front) :: stack, .value false⟩ := rfl
      rw [nestingItems] at hdeep
      rw [writeItems, run_cons_of_step hcomma, run_value_lineBreak,
        run_write item inner false hkept.1 (by simp only [List.length_cons]; omega)
          fun _ _ => ends_writeItems _ _ (ends_lineBreak _ rfl _),
        run_writeItems items inner outer hkept.2 (by omega), List.reverse_cons, List.append_assoc,
        List.singleton_append]

/-- The members after the first and the bracket behind them. -/
theorem run_writeMembers (members : List (String × Json)) (inner outer : Style)
    {stack : List Frame} {front : Members} {key : String} {value : Json}
    (hkept : areKeptMembers members)
    (hdeep : stack.length + 1 + nestingMembers members ≤ depthLimit) {rest : List Char}
    : run ⟨.object front key :: stack, .done value⟩
        (writeMembers inner members (outer.lineBreak ('\x7d' :: rest)))
      = run ⟨stack, .done (.object (front.reverse ++ (key, value) :: members))⟩ rest := by
  cases members with
  | nil =>
      have hclose : step ⟨.object front key :: stack, .done value⟩ '\x7d'
          = .ok ⟨stack, .done (.object ((key, value) :: front).reverse)⟩ := rfl
      rw [writeMembers, run_done_lineBreak, run_cons_of_step hclose, List.reverse_cons]
  | cons member members =>
      obtain ⟨next, item⟩ := member
      have hcomma : step ⟨.object front key :: stack, .done value⟩ ','
          = .ok ⟨stack, .key ((key, value) :: front) false⟩ := rfl
      rw [nestingMembers] at hdeep
      rw [writeMembers, run_cons_of_step hcomma, run_key_lineBreak, run_key_writeString,
        run_write item inner false hkept.1 (by simp only [List.length_cons]; omega)
          fun _ _ => ends_writeMembers _ _ (ends_lineBreak _ rfl _),
        run_writeMembers members inner outer hkept.2 (by omega), List.reverse_cons,
        List.append_assoc, List.singleton_append]
end

end State

/-- The document of an indented text is the one that was written, unless it is a number. -/
theorem parse_pretty {j : Json} (hkept : j.IsKept) (hdeep : j.nesting ≤ State.depthLimit)
    (hnumber : ∀ value, j ≠ .number value)
    : parse j.pretty = .ok j := by
  have hread : State.run ⟨[], .value false⟩ (j.write (.indented 0) [])
      = State.run ⟨[], .done j⟩ [] :=
    State.run_write j (.indented 0) false hkept (by simpa using hdeep)
      fun value h => absurd h (hnumber value)
  rw [parse, pretty, String.toList_ofList, State.start, hread]
  rfl

end QueryKey.Json
