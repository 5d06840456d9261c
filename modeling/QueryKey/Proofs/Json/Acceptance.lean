import QueryKey.Proofs.Json.Embedding

/-! Which documents have a text. All that the reader returns is made of numbers that it reads by
themselves, and any document of such numbers has a text, as long as it is not nested too deeply.
-/

namespace QueryKey.Json

/-- The reader makes the document of some text. -/
def HasText (j : Json) : Prop :=
  ∃ text, parse text = .ok j

/-- Every number of the document has a text. -/
inductive IsLegible : Json → Prop where
  | null : IsLegible .null
  | bool (value : Bool) : IsLegible (.bool value)
  | number {value : Number} (h : HasText (.number value)) : IsLegible (.number value)
  | string (value : String) : IsLegible (.string value)
  | array {items : List Json} (h : ∀ item ∈ items, IsLegible item) : IsLegible (.array items)
  | object {members : List (String × Json)} (h : ∀ m ∈ members, IsLegible m.2)
      : IsLegible (.object members)

theorem isLegible_array {items : List Json}
    : (array items).IsLegible ↔ ∀ item ∈ items, item.IsLegible := by
  refine ⟨fun h => ?_, .array⟩
  cases h with
  | array hitems => exact hitems

theorem isLegible_object {members : List (String × Json)}
    : (object members).IsLegible ↔ ∀ m ∈ members, m.2.IsLegible := by
  refine ⟨fun h => ?_, .object⟩
  cases h with
  | object hmembers => exact hmembers

/-- An item of a legible array may be replaced by another one that is legible. -/
theorem IsLegible.replaceItem {j k : Json} {front back : List Json}
    (h : (Json.array (front ++ j :: back)).IsLegible) (hk : j.IsLegible → k.IsLegible)
    : (Json.array (front ++ k :: back)).IsLegible := by
  rw [isLegible_array, List.forall_mem_append, List.forall_mem_cons] at h ⊢
  exact ⟨h.1, hk h.2.1, h.2.2⟩

/-- A value of a legible object may be replaced by another one that is legible. -/
theorem IsLegible.replaceMember {j k : Json} {front back : List (String × Json)} {key : String}
    (h : (Json.object (front ++ (key, j) :: back)).IsLegible) (hk : j.IsLegible → k.IsLegible)
    : (Json.object (front ++ (key, k) :: back)).IsLegible := by
  rw [isLegible_object, List.forall_mem_append, List.forall_mem_cons] at h ⊢
  exact ⟨h.1, hk h.2.1, h.2.2⟩

/-- A legible member may be added to a legible object. -/
theorem IsLegible.insertMember {front back : List (String × Json)} {key : String} {value : Json}
    (h : (Json.object (front ++ back)).IsLegible) (hvalue : value.IsLegible)
    : (Json.object (front ++ (key, value) :: back)).IsLegible := by
  rw [isLegible_object, List.forall_mem_append] at h
  rw [isLegible_object, List.forall_mem_append, List.forall_mem_cons]
  exact ⟨h.1, hvalue, h.2⟩

-----------------------------------------------------------------------------------------
-- What the reader holds
-----------------------------------------------------------------------------------------

/-- The parts of an open array or object are legible. -/
def Frame.IsLegible : Frame → Prop
  | array items => ∀ item ∈ items, item.IsLegible
  | object members _ => ∀ m ∈ members, m.2.IsLegible

/-- What has been read is legible. Of a numeral the reader has read all by itself. -/
def Mode.IsLegible : Mode → Prop
  | .key members _ | .colon members _ | .string (some members) _ _ =>
      ∀ m ∈ members, m.2.IsLegible
  | .done j | .word _ j => j.IsLegible
  | .number numeral => ∃ text, State.start.run text = .ok ⟨[], .number numeral⟩
  | .value _ | .string none _ _ => True

namespace State

structure IsLegible (s : State) : Prop where
  stack : ∀ frame ∈ s.stack, frame.IsLegible
  mode : s.mode.IsLegible

theorem isLegible_start : start.IsLegible :=
  ⟨nofun, trivial⟩

/-- A complete numeral that the reader has read by itself makes a legible number. -/
theorem isLegible_of_numeral {numeral : Numeral} {value : Number}
    (h : Mode.IsLegible (.number numeral)) (hvalue : numeral.value? = some value)
    : (Json.number value).IsLegible := by
  obtain ⟨text, hrun⟩ := h
  refine .number ⟨String.ofList text, ?_⟩
  rw [parse, String.toList_ofList, hrun]
  simp [bind, Except.bind, finish, hvalue]

section Steps

variable {stack : List Frame} {c : Char} {next : State}

theorem afterValue_isLegible {value : Json} (hstack : ∀ frame ∈ stack, frame.IsLegible)
    (hvalue : value.IsLegible) (h : afterValue stack value c = .ok next)
    : next.IsLegible := by
  rcases stack with _ | ⟨⟨items⟩ | ⟨members, key⟩, rest⟩ <;> simp only [afterValue] at h
  · split at h <;> cases h
    exact ⟨hstack, hvalue⟩
  · obtain ⟨hitems, hrest⟩ := List.forall_mem_cons.mp hstack
    have hall : ∀ item ∈ value :: items, item.IsLegible :=
      List.forall_mem_cons.mpr ⟨hvalue, hitems⟩
    split at h
    · cases h
      exact ⟨hstack, hvalue⟩
    split at h
    · cases h
      exact ⟨List.forall_mem_cons.mpr ⟨hall, hrest⟩, trivial⟩
    split at h <;> cases h
    exact ⟨hrest, .array fun item hitem => hall item (List.mem_reverse.mp hitem)⟩
  · obtain ⟨hmembers, hrest⟩ := List.forall_mem_cons.mp hstack
    have hall : ∀ m ∈ (key, value) :: members, m.2.IsLegible :=
      List.forall_mem_cons.mpr ⟨hvalue, hmembers⟩
    split at h
    · cases h
      exact ⟨hstack, hvalue⟩
    split at h
    · cases h
      exact ⟨hrest, hall⟩
    split at h <;> cases h
    exact ⟨hrest, .object fun m hm => hall m (List.mem_reverse.mp hm)⟩

/-- A numeral begins with the same characters wherever a value may begin. -/
theorem begin?_isLegible {numeral : Numeral} (h : Numeral.begin? c = some numeral)
    : Mode.IsLegible (.number numeral) := by
  have hall : ∀ d ∈ [' ', '\t', '\n', '\r', '"', '[', '\x7b', 'n', 't', 'f'],
      Numeral.begin? d = none := by simp [Numeral.begin?, QueryKey.Text.digit?]
  have hne : ∀ d ∈ [' ', '\t', '\n', '\r', '"', '[', '\x7b', 'n', 't', 'f'], c ≠ d := by
    rintro d hd rfl
    rw [hall c hd] at h
    cases h
  simp only [List.forall_mem_cons] at hne
  exact ⟨[c], run_cons_of_step (by simp [step, start, beginValue, isSpace, hne, h]) []⟩

theorem beginValue_isLegible {mayClose : Bool} (hstack : ∀ frame ∈ stack, frame.IsLegible)
    (h : beginValue stack mayClose c = .ok next)
    : next.IsLegible := by
  simp only [beginValue] at h
  split at h
  · cases h
    exact ⟨hstack, trivial⟩
  split at h
  · cases h
    exact ⟨hstack, trivial⟩
  split at h
  · split at h <;> cases h
    exact ⟨List.forall_mem_cons.mpr ⟨List.forall_mem_nil _, hstack⟩, trivial⟩
  split at h
  · split at h <;> cases h
    exact ⟨hstack, List.forall_mem_nil _⟩
  split at h
  · cases h
    refine ⟨fun frame hframe => hstack frame (List.mem_of_mem_tail hframe), ?_⟩
    exact isLegible_array.mpr (List.forall_mem_nil _)
  split at h
  · cases h
    exact ⟨hstack, .null⟩
  split at h
  · cases h
    exact ⟨hstack, .bool true⟩
  split at h
  · cases h
    exact ⟨hstack, .bool false⟩
  split at h
  · next hbegin =>
      cases h
      exact ⟨hstack, begin?_isLegible hbegin⟩
  · cases h

theorem beginKey_isLegible {members : Members} {mayClose : Bool}
    (hstack : ∀ frame ∈ stack, frame.IsLegible) (hmembers : ∀ m ∈ members, m.2.IsLegible)
    (h : beginKey stack members mayClose c = .ok next)
    : next.IsLegible := by
  have hobject : (Json.object members).IsLegible := .object hmembers
  simp only [beginKey] at h
  grind [malformed, IsLegible, Mode.IsLegible]

theorem afterKey_isLegible {members : Members} {key : String}
    (hstack : ∀ frame ∈ stack, frame.IsLegible) (hmembers : ∀ m ∈ members, m.2.IsLegible)
    (h : afterKey stack members key c = .ok next)
    : next.IsLegible := by
  have hopen : ∀ frame ∈ .object members key :: stack, frame.IsLegible :=
    List.forall_mem_cons.mpr ⟨hmembers, hstack⟩
  simp only [afterKey] at h
  grind [malformed, IsLegible, Mode.IsLegible]

theorem string_isLegible {keyOf : Option Members} {reversed : List Char} {escape : Escape}
    (hs : IsLegible ⟨stack, .string keyOf reversed escape⟩)
    (h : step ⟨stack, .string keyOf reversed escape⟩ c = .ok next)
    : next.IsLegible := by
  obtain ⟨hstack, hmode⟩ := hs
  simp only [step] at h
  split at h
  · cases h
    cases keyOf with
    | none => exact ⟨hstack, .string _⟩
    | some members => exact ⟨hstack, hmode⟩
  · cases hin : inString reversed escape c with
    | error e =>
        rw [hin] at h
        cases h
    | ok more =>
        rw [hin] at h
        cases h
        cases keyOf <;> exact ⟨hstack, hmode⟩

end Steps

/-- Every step of the reader keeps what it holds legible. -/
theorem step_isLegible {s next : State} {c : Char} (hs : s.IsLegible) (h : s.step c = .ok next)
    : next.IsLegible := by
  obtain ⟨stack, mode⟩ := s
  obtain ⟨hstack, hmode⟩ := id hs
  cases mode with
  | value mayClose => exact beginValue_isLegible hstack h
  | key members mayClose => exact beginKey_isLegible hstack hmode h
  | colon members key => exact afterKey_isLegible hstack hmode h
  | done value => exact afterValue_isLegible hstack hmode h
  | string keyOf reversed escape => exact string_isLegible hs h
  | number numeral =>
      simp only [step] at h
      split at h
      · next longer hpush =>
          cases h
          obtain ⟨text, hrun⟩ := hmode
          refine ⟨hstack, text ++ [c], ?_⟩
          rw [run_append hrun]
          exact run_cons_of_step (by simp only [step, hpush]) []
      · split at h
        · next value hvalue =>
            exact afterValue_isLegible hstack (isLegible_of_numeral hmode hvalue) h
        · cases h
  | word rest value =>
      cases rest with
      | nil => exact afterValue_isLegible hstack hmode h
      | cons d rest =>
          simp only [step] at h
          grind [malformed, IsLegible, Mode.IsLegible]

theorem run_isLegible {s last : State} {text : List Char} (hs : s.IsLegible)
    (h : s.run text = .ok last)
    : last.IsLegible := by
  induction text generalizing s with
  | nil =>
      cases h
      exact hs
  | cons c rest ih =>
      rw [run] at h
      split at h
      · next _ hstep => exact ih (step_isLegible hs hstep) h
      · cases h

end State

/-- The reader makes legible documents only. -/
theorem HasText.isLegible {j : Json} (h : j.HasText) : j.IsLegible := by
  obtain ⟨text, hparse⟩ := h
  obtain ⟨last, hrun, hfinish⟩ := exists_run_of_parse hparse
  obtain ⟨-, hmode⟩ := State.run_isLegible State.isLegible_start hrun
  rcases State.cases_of_finish hfinish with rfl | ⟨numeral, value, hvalue, rfl, rfl⟩
  · exact hmode
  · exact State.isLegible_of_numeral hmode hvalue

-----------------------------------------------------------------------------------------
-- How deep the reader goes
-----------------------------------------------------------------------------------------

namespace State

section Steps

variable {stack : List Frame} {c : Char} {next : State}

theorem afterValue_fits {value : Json} (hfits : reach ⟨stack, .done value⟩ ≤ depthLimit)
    (h : afterValue stack value c = .ok next)
    : next.reach ≤ depthLimit := by
  rcases stack with _ | ⟨⟨items⟩ | ⟨members, key⟩, rest⟩ <;> simp only [afterValue] at h
  all_goals
    grind [malformed, reach, stackReach, Mode.nesting, Frame.nesting, nesting, nestingItems,
      nestingMembers, nestingItems_reverse, nestingMembers_reverse]

theorem beginValue_fits {mayClose : Bool} (hstack : IsOrderly ⟨stack, .value mayClose⟩)
    (hfits : reach ⟨stack, .value mayClose⟩ ≤ depthLimit)
    (h : beginValue stack mayClose c = .ok next)
    : next.reach ≤ depthLimit := by
  cases hn : Numeral.begin? c <;> simp only [beginValue, hn] at h
  all_goals
    grind [malformed, reach, stackReach, Mode.nesting, Frame.nesting, nesting, nestingItems,
      nestingMembers, IsOrderly]

theorem beginKey_fits {members : Members} {mayClose : Bool}
    (hfits : reach ⟨stack, .key members mayClose⟩ ≤ depthLimit)
    (h : beginKey stack members mayClose c = .ok next)
    : next.reach ≤ depthLimit := by
  simp only [beginKey] at h
  grind [malformed, reach, Mode.nesting, nesting]

theorem afterKey_fits {members : Members} {key : String}
    (hfits : reach ⟨stack, .colon members key⟩ ≤ depthLimit)
    (h : afterKey stack members key c = .ok next)
    : next.reach ≤ depthLimit := by
  simp only [afterKey] at h
  grind [malformed, reach, stackReach, Mode.nesting, Frame.nesting, nesting]

theorem string_fits {keyOf : Option Members} {reversed : List Char} {escape : Escape}
    (hfits : reach ⟨stack, .string keyOf reversed escape⟩ ≤ depthLimit)
    (h : step ⟨stack, .string keyOf reversed escape⟩ c = .ok next)
    : next.reach ≤ depthLimit := by
  simp only [step] at h
  split at h
  · cases h
    cases keyOf <;> simpa [endString, reach, Mode.nesting, nesting] using hfits
  · cases hin : inString reversed escape c with
    | error e =>
        rw [hin] at h
        cases h
    | ok more =>
        rw [hin] at h
        cases h
        cases keyOf <;> exact hfits

end Steps

/-- No step takes the reader deeper than it may go. -/
theorem step_fits {s next : State} {c : Char} (hs : s.IsOrderly) (hfits : s.reach ≤ depthLimit)
    (h : s.step c = .ok next)
    : next.reach ≤ depthLimit := by
  obtain ⟨stack, mode⟩ := s
  cases mode with
  | value mayClose => exact beginValue_fits hs hfits h
  | key members mayClose => exact beginKey_fits hfits h
  | colon members key => exact afterKey_fits hfits h
  | done value => exact afterValue_fits hfits h
  | string keyOf reversed escape => exact string_fits hfits h
  | number numeral =>
      simp only [step] at h
      split at h
      · cases h
        exact hfits
      · split at h
        · exact afterValue_fits hfits h
        · cases h
  | word rest value =>
      cases rest with
      | nil => exact afterValue_fits hfits h
      | cons d rest =>
          simp only [step] at h
          grind [malformed, reach, Mode.nesting]

theorem run_fits {s last : State} {text : List Char} (hs : s.IsOrderly)
    (hfits : s.reach ≤ depthLimit) (h : s.run text = .ok last)
    : last.reach ≤ depthLimit := by
  induction text generalizing s with
  | nil =>
      cases h
      exact hfits
  | cons c rest ih =>
      rw [run] at h
      split at h
      · next _ hstep => exact ih (step_keeps hs hstep).orderly (step_fits hs hfits hstep) h
      · cases h

end State

/-- The reader makes no document that is nested too deeply. -/
theorem HasText.nesting_le {j : Json} (h : j.HasText) : j.nesting ≤ State.depthLimit := by
  obtain ⟨text, hparse⟩ := h
  obtain ⟨last, hrun, hfinish⟩ := exists_run_of_parse hparse
  rw [← State.reach_eq_of_finish hfinish]
  exact State.run_fits State.isOrderly_start (Nat.zero_le _) hrun

-----------------------------------------------------------------------------------------
-- Texts of documents
-----------------------------------------------------------------------------------------

namespace State

/-- That an empty array may be closed is no reason to refuse what is read otherwise. -/
theorem run_mayClose {stack : List Frame} {text : List Char} {j : Json}
    (h : run ⟨stack, .value false⟩ text = .ok ⟨[], .done j⟩)
    : run ⟨stack, .value true⟩ text = .ok ⟨[], .done j⟩ := by
  induction text with
  | nil => cases h
  | cons c rest ih =>
      by_cases hspace : isSpace c = true
      · have hskip (mayClose : Bool)
            : step ⟨stack, .value mayClose⟩ c = .ok ⟨stack, .value mayClose⟩ := by
          simp [step, beginValue, hspace]
        rw [run_cons_of_step (hskip false)] at h
        rw [run_cons_of_step (hskip true), ih h]
      · have hsame (hclose : c ≠ ']')
            : step ⟨stack, .value true⟩ c = step ⟨stack, .value false⟩ c := by
          simp [step, beginValue, hspace, hclose]
        by_cases hclose : c = ']'
        · subst hclose
          cases h
        · rw [run, hsame hclose]
          exact h

/-- Items that have texts are read after others, up to the bracket behind them. -/
theorem exists_run_items {items : List Json} (htext : ∀ item ∈ items, item.HasText)
    (hdeep : nestingItems items < depthLimit)
    : ∃ text, Ends text ∧ ∀ front value, run ⟨[.array front], .done value⟩ text
        = .ok ⟨[], .done (.array (front.reverse ++ value :: items))⟩ := by
  induction items with
  | nil =>
      refine ⟨[']'], ⟨']', [], rfl, rfl⟩, fun front value => ?_⟩
      rw [← List.reverse_cons]
      rfl
  | cons item rest ih =>
      obtain ⟨⟨text, hparse⟩, hrest⟩ := List.forall_mem_cons.mp htext
      rw [nestingItems] at hdeep
      obtain ⟨more, ⟨c, back, rfl, hc⟩, hmore⟩ := ih hrest (by omega)
      refine ⟨',' :: (text.toList ++ c :: back), ⟨',', _, rfl, rfl⟩, fun front value => ?_⟩
      have hcomma : step ⟨[.array front], .done value⟩ ','
          = .ok ⟨[.array (value :: front)], .value false⟩ := rfl
      have hroom : item.nesting + [Frame.array (value :: front)].length ≤ depthLimit := by
        simp only [List.length_singleton]
        omega
      rw [run_cons_of_step hcomma, run_of_parse hparse hroom hc, hmore]
      simp

/-- Members whose values have texts are read after others, up to the brace behind them. -/
theorem exists_run_members {members : Members} (htext : ∀ m ∈ members, m.2.HasText)
    (hdeep : nestingMembers members < depthLimit)
    : ∃ text, Ends text ∧ ∀ front key value, run ⟨[.object front key], .done value⟩ text
        = .ok ⟨[], .done (.object (front.reverse ++ (key, value) :: members))⟩ := by
  induction members with
  | nil =>
      refine ⟨['\x7d'], ⟨'\x7d', [], rfl, rfl⟩, fun front key value => ?_⟩
      rw [← List.reverse_cons]
      rfl
  | cons member rest ih =>
      obtain ⟨name, item⟩ := member
      obtain ⟨⟨text, hparse⟩, hrest⟩ := List.forall_mem_cons.mp htext
      rw [nestingMembers] at hdeep
      obtain ⟨more, ⟨c, back, rfl, hc⟩, hmore⟩ := ih hrest (by omega)
      refine ⟨',' :: writeString name (Style.compact.colon (text.toList ++ c :: back)),
        ⟨',', _, rfl, rfl⟩, fun front key value => ?_⟩
      have hcomma : step ⟨[.object front key], .done value⟩ ','
          = .ok ⟨[], .key ((key, value) :: front) false⟩ := rfl
      have hroom : item.nesting + [Frame.object ((key, value) :: front) name].length
          ≤ depthLimit := by
        simp only [List.length_singleton]
        omega
      rw [run_cons_of_step hcomma, run_key_writeString, run_of_parse hparse hroom hc, hmore]
      simp

end State

/-- A text after which the reader is done with a document is a text of the document. -/
theorem hasText_of_run {text : List Char} {j : Json}
    (h : State.start.run text = .ok ⟨[], .done j⟩)
    : j.HasText := by
  refine ⟨String.ofList text, ?_⟩
  rw [parse, String.toList_ofList, h]
  rfl

/-- An array has a text if its items have one and there is room for them. -/
theorem hasText_array {items : List Json} (htext : ∀ item ∈ items, item.HasText)
    (hdeep : (array items).nesting ≤ State.depthLimit)
    : (array items).HasText := by
  cases items with
  | nil => exact ⟨"[]", rfl⟩
  | cons item rest =>
      obtain ⟨⟨text, hparse⟩, hrest⟩ := List.forall_mem_cons.mp htext
      rw [nesting, nestingItems] at hdeep
      obtain ⟨more, ⟨c, back, rfl, hc⟩, hmore⟩ := State.exists_run_items hrest (by omega)
      have hopen : State.start.step '[' = .ok ⟨[.array []], .value true⟩ := rfl
      have hroom : item.nesting + [Frame.array []].length ≤ State.depthLimit := by
        simp only [List.length_singleton]
        omega
      have hrun : State.run ⟨[.array []], .value false⟩ (text.toList ++ c :: back)
          = .ok ⟨[], .done (.array (item :: rest))⟩ := by
        rw [run_of_parse hparse hroom hc, hmore]
        rfl
      exact hasText_of_run ((State.run_cons_of_step hopen _).trans (State.run_mayClose hrun))

/-- An object has a text if its values have one and there is room for them. -/
theorem hasText_object {members : Members} (htext : ∀ m ∈ members, m.2.HasText)
    (hdeep : (object members).nesting ≤ State.depthLimit)
    : (object members).HasText := by
  cases members with
  | nil => exact ⟨"\x7b\x7d", rfl⟩
  | cons member rest =>
      obtain ⟨key, value⟩ := member
      obtain ⟨⟨text, hparse⟩, hrest⟩ := List.forall_mem_cons.mp htext
      rw [nesting, nestingMembers] at hdeep
      obtain ⟨more, ⟨c, back, rfl, hc⟩, hmore⟩ := State.exists_run_members hrest (by omega)
      have hopen : State.start.step '\x7b' = .ok ⟨[], .key [] true⟩ := rfl
      have hroom : value.nesting + [Frame.object [] key].length ≤ State.depthLimit := by
        simp only [List.length_singleton]
        omega
      have hrun : State.run ⟨[], .key [] true⟩
            (writeString key (Style.compact.colon (text.toList ++ c :: back)))
          = .ok ⟨[], .done (.object ((key, value) :: rest))⟩ := by
        rw [State.run_key_writeString, run_of_parse hparse hroom hc, hmore]
        rfl
      exact hasText_of_run ((State.run_cons_of_step hopen _).trans hrun)

/-- A legible document has a text if it is not nested too deeply, by induction on the document. -/
theorem IsLegible.hasText {j : Json} (h : j.IsLegible) (hdeep : j.nesting ≤ State.depthLimit)
    : j.HasText := by
  induction h with
  | null => exact ⟨"null", rfl⟩
  | bool value =>
      cases value with
      | false => exact ⟨"false", rfl⟩
      | true => exact ⟨"true", rfl⟩
  | number h => exact h
  | string value =>
      exact hasText_of_run ((State.run_value_writeString [] false value []).trans rfl)
  | array h ih =>
      refine hasText_array (fun item hitem => ih item hitem ?_) hdeep
      exact Nat.le_of_lt (Nat.lt_of_lt_of_le (nesting_lt_of_mem_items hitem) hdeep)
  | object h ih =>
      refine hasText_object (fun m hm => ih m hm ?_) hdeep
      exact Nat.le_of_lt (Nat.lt_of_lt_of_le (nesting_lt_of_mem_members hm) hdeep)

/-- A document has a text exactly if its numbers have texts and it is not nested too deeply. -/
theorem hasText_iff {j : Json} : j.HasText ↔ j.IsLegible ∧ j.nesting ≤ State.depthLimit :=
  ⟨fun h => ⟨h.isLegible, h.nesting_le⟩, fun h => h.1.hasText h.2⟩

end QueryKey.Json
