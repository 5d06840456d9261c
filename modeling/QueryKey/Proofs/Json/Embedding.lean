import QueryKey.Proofs.Json.ReadBack

/-! Documents inside documents. The reader does with a text whatever it does with the text alone,
in the middle of arrays and objects that are open around it, as long as its stack has room for all
of them. How much room a text needs is how deep its document is nested.
-/

namespace QueryKey.Json

-----------------------------------------------------------------------------------------
-- Nesting
-----------------------------------------------------------------------------------------

theorem nestingItems_append (front back : List Json)
    : nestingItems (front ++ back) = max (nestingItems front) (nestingItems back) := by
  induction front with
  | nil => simp [nestingItems]
  | cons item rest ih => rw [List.cons_append, nestingItems, ih, nestingItems, Nat.max_assoc]

theorem nestingItems_reverse (items : List Json)
    : nestingItems items.reverse = nestingItems items := by
  induction items with
  | nil => rfl
  | cons item rest ih =>
      rw [List.reverse_cons, nestingItems_append, ih, nestingItems, nestingItems, nestingItems]
      omega

theorem nestingMembers_append (front back : List (String × Json))
    : nestingMembers (front ++ back) = max (nestingMembers front) (nestingMembers back) := by
  induction front with
  | nil => simp [nestingMembers]
  | cons member rest ih =>
      rw [List.cons_append, nestingMembers, ih, nestingMembers, Nat.max_assoc]

theorem nestingMembers_reverse (members : List (String × Json))
    : nestingMembers members.reverse = nestingMembers members := by
  induction members with
  | nil => rfl
  | cons member rest ih =>
      rw [List.reverse_cons, nestingMembers_append, ih, nestingMembers, nestingMembers,
        nestingMembers]
      omega

theorem nesting_lt_of_mem_members {members : List (String × Json)} {m : String × Json}
    (h : m ∈ members)
    : m.2.nesting < (object members).nesting := by
  rw [nesting, Nat.lt_succ_iff]
  induction members with
  | nil => cases h
  | cons other rest ih =>
      obtain ⟨key, value⟩ := other
      rw [nestingMembers]
      rcases List.mem_cons.mp h with rfl | h
      · exact Nat.le_max_left ..
      · exact Nat.le_trans (ih h) (Nat.le_max_right ..)

theorem nesting_lt_of_mem_items {items : List Json} {item : Json} (h : item ∈ items)
    : item.nesting < (array items).nesting := by
  rw [nesting, Nat.lt_succ_iff]
  induction items with
  | nil => cases h
  | cons other rest ih =>
      rw [nestingItems]
      rcases List.mem_cons.mp h with rfl | h
      · exact Nat.le_max_left ..
      · exact Nat.le_trans (ih h) (Nat.le_max_right ..)

-----------------------------------------------------------------------------------------
-- How deep the reader has been
-----------------------------------------------------------------------------------------

/-- How deep the parts are nested that have been read of an open array or object. -/
def Frame.nesting : Frame → Nat
  | array items => nestingItems items
  | object members _ => nestingMembers members

/-- How deep what the machine is about to take in is nested, as far as it is known. A key belongs to
an object that is open, but not yet on the stack.
-/
def Mode.nesting : Mode → Nat
  | .key members _ | .colon members _ | .string (some members) _ _ => nestingMembers members + 1
  | .done j | .word _ j => j.nesting
  | .value _ | .string none _ _ | .number _ => 0

namespace State

/-- How deep the open arrays and objects are nested as far as they have been read. -/
def stackReach : List Frame → Nat
  | [] => 0
  | frame :: rest => max (rest.length + 1 + frame.nesting) (stackReach rest)

/-- How deep the machine has been. -/
def reach (s : State) : Nat :=
  max (s.stack.length + s.mode.nesting) (stackReach s.stack)

/-- An array may be closed only after its opening bracket, when it is empty. -/
def IsOrderly (s : State) : Prop :=
  s.mode = .value true → ∃ rest, s.stack = .array [] :: rest

theorem isOrderly_of_mode_ne {s : State} (h : s.mode ≠ .value true) : s.IsOrderly :=
  fun hmode => absurd hmode h

theorem isOrderly_start : start.IsOrderly :=
  isOrderly_of_mode_ne (by simp [start])

/-- The machine in the middle of other arrays and objects. -/
def above (below : List Frame) (s : State) : State :=
  ⟨s.stack ++ below, s.mode⟩

/-- What a step from one state to the next keeps: the next state is in order and has been no less
deep, and the step may be taken above other frames as well, if it does not go too deep there.
-/
structure Keeps (s next : State) (step : List Frame → Except ParseError State) : Prop where
  orderly : next.IsOrderly
  reach_le : s.reach ≤ next.reach
  above : ∀ below, next.reach + below.length ≤ depthLimit → step below = .ok (next.above below)

-----------------------------------------------------------------------------------------
-- Single steps
-----------------------------------------------------------------------------------------

section Steps

variable {stack : List Frame} {c : Char} {next : State}

theorem afterValue_keeps {value : Json} (h : afterValue stack value c = .ok next)
    : Keeps ⟨stack, .done value⟩ next fun below => afterValue (stack ++ below) value c := by
  rcases stack with _ | ⟨⟨items⟩ | ⟨members, key⟩, rest⟩ <;> simp only [afterValue] at h
  all_goals
    refine ⟨?orderly, ?reach_le, fun below _ => ?above⟩
    case orderly => grind [malformed, IsOrderly]
    case reach_le =>
      grind [malformed, reach, stackReach, Mode.nesting, Frame.nesting, nesting, nestingItems,
        nestingMembers, nestingItems_reverse, nestingMembers_reverse]
    case above =>
      simp only [afterValue, List.cons_append]
      grind [malformed, State.above, afterValue]

theorem beginValue_keeps {mayClose : Bool} (hstack : IsOrderly ⟨stack, .value mayClose⟩)
    (h : beginValue stack mayClose c = .ok next)
    : Keeps ⟨stack, .value mayClose⟩ next fun below => beginValue (stack ++ below) mayClose c := by
  -- In an orderly state a bracket closes an array that is there, not the one below the machine.
  cases hn : Numeral.begin? c <;> simp only [beginValue, hn] at h
  all_goals
    refine ⟨?orderly, ?reach_le, fun below hroom => ?above⟩
    case orderly => grind [malformed, IsOrderly]
    case reach_le =>
      grind [malformed, reach, stackReach, Mode.nesting, Frame.nesting, nesting, nestingItems,
        nestingMembers, IsOrderly]
    case above =>
      simp only [beginValue, hn]
      grind [malformed, reach, stackReach, Mode.nesting, State.above, IsOrderly]

theorem beginKey_keeps {members : Members} {mayClose : Bool}
    (h : beginKey stack members mayClose c = .ok next)
    : Keeps ⟨stack, .key members mayClose⟩ next
        fun below => beginKey (stack ++ below) members mayClose c := by
  simp only [beginKey] at h
  refine ⟨?_, ?_, fun below _ => ?_⟩
  · grind [malformed, IsOrderly]
  · grind [malformed, reach, Mode.nesting, nesting]
  · grind [malformed, State.above, beginKey]

theorem afterKey_keeps {members : Members} {key : String}
    (h : afterKey stack members key c = .ok next)
    : Keeps ⟨stack, .colon members key⟩ next
        fun below => afterKey (stack ++ below) members key c := by
  simp only [afterKey] at h
  refine ⟨?_, ?_, fun below _ => ?_⟩
  · grind [malformed, IsOrderly]
  · grind [malformed, reach, stackReach, Mode.nesting, Frame.nesting, nesting]
  · grind [malformed, State.above, afterKey]

theorem string_keeps {keyOf : Option Members} {reversed : List Char} {escape : Escape}
    (h : step ⟨stack, .string keyOf reversed escape⟩ c = .ok next)
    : Keeps ⟨stack, .string keyOf reversed escape⟩ next
        fun below => step ⟨stack ++ below, .string keyOf reversed escape⟩ c := by
  by_cases hquote : c = '"' ∧ escape = .none
  · simp only [step, hquote, and_self, if_true] at h
    cases h
    refine ⟨isOrderly_of_mode_ne ?_, ?_, fun below _ => ?_⟩ <;> cases keyOf
    all_goals simp [step, hquote, endString, State.above, reach, Mode.nesting, nesting]
  · simp only [step, hquote, if_false] at h
    cases hin : inString reversed escape c with
    | error e =>
        rw [hin] at h
        cases h
    | ok more =>
        rw [hin] at h
        cases h
        refine ⟨isOrderly_of_mode_ne (by simp), ?_, fun below _ => ?_⟩
        · cases keyOf <;> exact Nat.le_refl _
        · simp only [step, State.above, hquote, if_false, hin]
          rfl

end Steps

/-- Every step keeps a machine in order and its depth, and may be taken above other frames. -/
theorem step_keeps {s next : State} {c : Char} (hs : s.IsOrderly) (h : s.step c = .ok next)
    : Keeps s next fun below => (s.above below).step c := by
  obtain ⟨stack, mode⟩ := s
  cases mode with
  | value mayClose => exact beginValue_keeps hs h
  | key members mayClose => exact beginKey_keeps h
  | colon members key => exact afterKey_keeps h
  | done value => exact afterValue_keeps h
  | string keyOf reversed escape => exact string_keeps h
  | number numeral =>
      simp only [step] at h
      split at h
      · next longer hpush =>
          cases h
          refine ⟨isOrderly_of_mode_ne (by simp), Nat.le_refl _, fun below _ => ?_⟩
          simp only [step, State.above, hpush]
      · next hpush =>
          split at h
          · next value hvalue =>
              obtain ⟨horderly, hreach, habove⟩ := afterValue_keeps h
              refine ⟨horderly, hreach, fun below hroom => ?_⟩
              simpa only [step, State.above, hpush, hvalue] using habove below hroom
          · cases h
  | word rest value =>
      cases rest with
      | nil =>
          obtain ⟨horderly, hreach, habove⟩ := afterValue_keeps h
          exact ⟨horderly, hreach, habove⟩
      | cons d rest =>
          simp only [step] at h
          refine ⟨?orderly, ?reach_le, fun below _ => ?above⟩
          case orderly => grind [malformed, IsOrderly]
          case reach_le => grind [malformed, reach, Mode.nesting]
          case above => grind [malformed, State.above, step]

/-- A whole run keeps what its steps keep, by induction on the text. -/
theorem run_keeps {s last : State} {text : List Char} (hs : s.IsOrderly)
    (h : s.run text = .ok last)
    : Keeps s last fun below => (s.above below).run text := by
  induction text generalizing s with
  | nil =>
      cases h
      exact ⟨hs, Nat.le_refl _, fun _ _ => rfl⟩
  | cons c rest ih =>
      rw [run] at h
      split at h
      · next next hstep =>
          obtain ⟨horderly, hfirst, habove⟩ := step_keeps hs hstep
          obtain ⟨hlast, hreach, hrest⟩ := ih horderly h
          refine ⟨hlast, Nat.le_trans hfirst hreach, fun below hroom => ?_⟩
          rw [run_cons_of_step (habove below (by omega)), hrest below hroom]
      · cases h

theorem run_append {s next : State} {front : List Char} (h : s.run front = .ok next)
    (back : List Char)
    : s.run (front ++ back) = next.run back := by
  induction front generalizing s with
  | nil =>
      cases h
      rfl
  | cons c rest ih =>
      rw [run] at h
      split at h
      · next _ hstep => rw [List.cons_append, run_cons_of_step hstep, ih h]
      · cases h

-----------------------------------------------------------------------------------------
-- Whole documents
-----------------------------------------------------------------------------------------

/-- A text may end behind its document, or in a number that is the document. -/
theorem cases_of_finish {s : State} {j : Json} (h : s.finish = .ok j)
    : s = ⟨[], .done j⟩
      ∨ ∃ numeral value, numeral.value? = some value ∧ s = ⟨[], .number numeral⟩
          ∧ j = .number value := by
  obtain ⟨stack, mode⟩ := s
  simp only [finish] at h
  grind [malformed]

/-- Where a text may end, the machine has been as deep as the document is nested. -/
theorem reach_eq_of_finish {s : State} {j : Json} (h : s.finish = .ok j)
    : s.reach = j.nesting := by
  rcases cases_of_finish h with rfl | ⟨numeral, value, -, rfl, rfl⟩
  · simp [reach, stackReach, Mode.nesting]
  · rfl

/-- Where a text may end, its document is done in front of the end of a value. -/
theorem run_above_of_finish {s : State} {j : Json} (h : s.finish = .ok j) (below : List Frame)
    {c : Char} (hc : isEnd c = true) (rest : List Char)
    : (s.above below).run (c :: rest) = run ⟨below, .done j⟩ (c :: rest) := by
  rcases cases_of_finish h with rfl | ⟨numeral, value, hvalue, rfl, rfl⟩
  · rfl
  · exact run_number hc hvalue rest

end State

/-- A text of a document is read up to where it may end. -/
theorem exists_run_of_parse {text : String} {j : Json} (h : parse text = .ok j)
    : ∃ last, State.start.run text.toList = .ok last ∧ last.finish = .ok j := by
  rw [parse] at h
  cases hrun : State.start.run text.toList with
  | error e =>
      rw [hrun] at h
      cases h
  | ok last =>
      rw [hrun] at h
      exact ⟨last, rfl, h⟩

/-- A text is read in the middle of another one as it is read alone, if there is room for it. -/
theorem run_of_parse {text : String} {j : Json} (h : parse text = .ok j) {below : List Frame}
    (hroom : j.nesting + below.length ≤ State.depthLimit) {c : Char}
    (hc : State.isEnd c = true) (rest : List Char)
    : State.run ⟨below, .value false⟩ (text.toList ++ c :: rest)
      = State.run ⟨below, .done j⟩ (c :: rest) := by
  obtain ⟨last, hrun, hfinish⟩ := exists_run_of_parse h
  have hkeeps := State.run_keeps State.isOrderly_start hrun
  have habove : State.run ⟨below, .value false⟩ text.toList = .ok (last.above below) := by
    refine hkeeps.above below ?_
    rwa [State.reach_eq_of_finish hfinish]
  rw [State.run_append habove, State.run_above_of_finish hfinish below hc]

end QueryKey.Json
