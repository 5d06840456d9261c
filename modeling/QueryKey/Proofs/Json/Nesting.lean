import QueryKey.Proofs.Json.ReadBack

/-! Documents that are nested too deeply. The reader stops at the first bracket for which its stack
has no room, so that it refuses the text of every such document.
-/

namespace QueryKey.Json

namespace State

theorem run_cons_of_malformed {s : State} {c : Char} (h : s.step c = malformed)
    (rest : List Char)
    : s.run (c :: rest) = malformed := by
  rw [run, h]
  rfl

/-- Neither an array nor an object is opened if the stack is full. -/
theorem step_full {stack : List Frame} (mayClose : Bool) (hfull : ¬ stack.length < depthLimit)
    : step ⟨stack, .value mayClose⟩ '[' = malformed
      ∧ step ⟨stack, .value mayClose⟩ '\x7b' = malformed := by
  simp [step, beginValue, isSpace, hfull]

mutual
/-- The text of a value that is too deep is refused, by induction on the value; the parts in front
of the first that is too deep are read.
-/
theorem run_write_tooDeep (j : Json) (style : Style) {stack : List Frame} (mayClose : Bool)
    (hkept : j.IsKept) (hroom : stack.length ≤ depthLimit)
    (hdeep : depthLimit < stack.length + j.nesting) (rest : List Char)
    : run ⟨stack, .value mayClose⟩ (j.write style rest) = malformed := by
  cases j with
  | null | bool value | string value | number value =>
      simp only [nesting] at hdeep
      omega
  | array items =>
      rw [nesting] at hdeep
      by_cases hfull : stack.length < depthLimit
      · have hopen := step_bracket stack mayClose hfull
        cases items with
        | nil =>
            rw [nestingItems] at hdeep
            omega
        | cons item items =>
            rw [nestingItems] at hdeep
            rw [Json.write, run_cons_of_step hopen, run_value_lineBreak]
            by_cases hitem : stack.length + 1 + item.nesting ≤ depthLimit
            · rw [run_write item style.deeper true hkept.1 (by simpa using hitem)
                fun _ _ => ends_writeItems _ _ (ends_lineBreak _ rfl _)]
              refine run_writeItems_tooDeep items style.deeper hkept.2 hfull (by omega) ?_
              exact ends_lineBreak _ rfl _
            · exact run_write_tooDeep item style.deeper true hkept.1
                (by simp only [List.length_cons]; omega) (by simpa using hitem) _
      · cases items with
        | nil => exact run_cons_of_malformed (step_full mayClose hfull).1 _
        | cons item items => exact run_cons_of_malformed (step_full mayClose hfull).1 _
  | object members =>
      rw [nesting] at hdeep
      by_cases hfull : stack.length < depthLimit
      · have hopen := step_brace stack mayClose hfull
        cases members with
        | nil =>
            rw [nestingMembers] at hdeep
            omega
        | cons member members =>
            obtain ⟨key, value⟩ := member
            rw [nestingMembers] at hdeep
            rw [Json.write, run_cons_of_step hopen, run_key_lineBreak, run_key_writeString]
            by_cases hvalue : stack.length + 1 + value.nesting ≤ depthLimit
            · rw [run_write value style.deeper false hkept.1 (by simpa using hvalue)
                fun _ _ => ends_writeMembers _ _ (ends_lineBreak _ rfl _)]
              refine run_writeMembers_tooDeep members style.deeper hkept.2 hfull (by omega) ?_
              exact ends_lineBreak _ rfl _
            · exact run_write_tooDeep value style.deeper false hkept.1
                (by simp only [List.length_cons]; omega) (by simpa using hvalue) _
      · cases members with
        | nil => exact run_cons_of_malformed (step_full mayClose hfull).2 _
        | cons member members => exact run_cons_of_malformed (step_full mayClose hfull).2 _

/-- Items of which one is too deep are refused in an array that has room for others. -/
theorem run_writeItems_tooDeep (items : List Json) (style : Style) {stack : List Frame}
    {front : List Json} {value : Json} (hkept : areKeptItems items)
    (hroom : stack.length < depthLimit)
    (hdeep : depthLimit < stack.length + 1 + nestingItems items) {rest : List Char}
    (hrest : Ends rest)
    : run ⟨.array front :: stack, .done value⟩ (writeItems style items rest) = malformed := by
  cases items with
  | nil =>
      rw [nestingItems] at hdeep
      omega
  | cons item items =>
      have hcomma : step ⟨.array front :: stack, .done value⟩ ','
          = .ok ⟨.array (value :: front) :: stack, .value false⟩ := rfl
      rw [nestingItems] at hdeep
      rw [writeItems, run_cons_of_step hcomma, run_value_lineBreak]
      by_cases hitem : stack.length + 1 + item.nesting ≤ depthLimit
      · rw [run_write item style false hkept.1 (by simpa using hitem)
          fun _ _ => ends_writeItems _ _ hrest]
        exact run_writeItems_tooDeep items style hkept.2 hroom (by omega) hrest
      · exact run_write_tooDeep item style false hkept.1
          (by simp only [List.length_cons]; omega) (by simpa using hitem) _

/-- Members of which one is too deep are refused in an object that has room for others. -/
theorem run_writeMembers_tooDeep (members : List (String × Json)) (style : Style)
    {stack : List Frame} {front : Members} {key : String} {value : Json}
    (hkept : areKeptMembers members) (hroom : stack.length < depthLimit)
    (hdeep : depthLimit < stack.length + 1 + nestingMembers members) {rest : List Char}
    (hrest : Ends rest)
    : run ⟨.object front key :: stack, .done value⟩ (writeMembers style members rest)
      = malformed := by
  cases members with
  | nil =>
      rw [nestingMembers] at hdeep
      omega
  | cons member members =>
      obtain ⟨next, item⟩ := member
      have hcomma : step ⟨.object front key :: stack, .done value⟩ ','
          = .ok ⟨stack, .key ((key, value) :: front) false⟩ := rfl
      rw [nestingMembers] at hdeep
      rw [writeMembers, run_cons_of_step hcomma, run_key_lineBreak, run_key_writeString]
      by_cases hitem : stack.length + 1 + item.nesting ≤ depthLimit
      · rw [run_write item style false hkept.1 (by simpa using hitem)
          fun _ _ => ends_writeMembers _ _ hrest]
        exact run_writeMembers_tooDeep members style hkept.2 hroom (by omega) hrest
      · exact run_write_tooDeep item style false hkept.1
          (by simp only [List.length_cons]; omega) (by simpa using hitem) _
end

end State

/-- The indented text of a document that is nested too deeply is refused. -/
theorem parse_pretty_tooDeep {j : Json} (hkept : j.IsKept)
    (hdeep : State.depthLimit < j.nesting)
    : parse j.pretty = .error .malformed := by
  have hrefused : State.run ⟨[], .value false⟩ (j.write (.indented 0) []) = State.malformed :=
    State.run_write_tooDeep j (.indented 0) false hkept (Nat.zero_le _) (by simpa using hdeep) []
  rw [parse, pretty, String.toList_ofList, State.start, hrefused]
  rfl

/-- Among the documents that hold no other numbers than integers of 64 bits, the reader takes back
exactly those that are not nested too deeply.
-/
theorem parse_pretty_eq {j : Json} (hkept : j.IsKept) (hnumber : ∀ value, j ≠ .number value)
    : parse j.pretty
      = if j.nesting ≤ State.depthLimit then .ok j else .error .malformed := by
  split
  · next hdeep => exact parse_pretty hkept hdeep hnumber
  · next hdeep => exact parse_pretty_tooDeep hkept (Nat.not_le.mp hdeep)

end QueryKey.Json
