import QueryKey.Number.Decimal
import QueryKey.Proofs.Text.Digits

/-! Decimals read back: the text of a decimal gives the decimal again, with its places, unless it
is a zero with a sign.
-/

namespace QueryKey.Number.Decimal

open QueryKey.Text

/-- The digits before the point, at least one. -/
def wholeDigits (coefficient scale : Nat) : List Char :=
  let digits := paddedDigits 10 (scale + 1) coefficient
  digits.take (digits.length - scale)

/-- The digits after the point. -/
def placeDigits (coefficient scale : Nat) : List Char :=
  let digits := paddedDigits 10 (scale + 1) coefficient
  digits.drop (digits.length - scale)

/-- A number with so many places, without its sign. -/
def unsigned (coefficient scale : Nat) : List Char :=
  wholeDigits coefficient scale
    ++ (if scale = 0 then [] else '.' :: placeDigits coefficient scale)

theorem toList_text (d : Decimal)
    : d.text.toList = (if d.negative then ['-'] else []) ++ unsigned d.coefficient d.scale := by
  simp [text, unsigned, wholeDigits, placeDigits]

theorem wholeDigits_append_placeDigits (coefficient scale : Nat)
    : wholeDigits coefficient scale ++ placeDigits coefficient scale
      = paddedDigits 10 (scale + 1) coefficient :=
  List.take_append_drop ..

theorem le_length_paddedDigits (base width n : Nat)
    : width ≤ (paddedDigits base width n).length := by
  simp only [paddedDigits, List.length_append, List.length_replicate]
  omega

theorem wholeDigits_ne_nil (coefficient scale : Nat) : wholeDigits coefficient scale ≠ [] := by
  have := le_length_paddedDigits 10 (scale + 1) coefficient
  rw [← List.length_pos_iff, wholeDigits, List.length_take]
  omega

theorem length_placeDigits (coefficient scale : Nat)
    : (placeDigits coefficient scale).length = scale := by
  have := le_length_paddedDigits 10 (scale + 1) coefficient
  rw [placeDigits, List.length_drop]
  omega

theorem isDigit_of_mem_wholeDigits {coefficient scale : Nat} {c : Char}
    (h : c ∈ wholeDigits coefficient scale)
    : isDigit c = true :=
  isDigit_of_mem_paddedDigits (List.mem_of_mem_take h)

theorem isDigit_of_mem_placeDigits {coefficient scale : Nat} {c : Char}
    (h : c ∈ placeDigits coefficient scale)
    : isDigit c = true :=
  isDigit_of_mem_paddedDigits (List.mem_of_mem_drop h)

/-- Unsigned texts begin with a digit. -/
theorem exists_cons_unsigned (coefficient scale : Nat)
    : ∃ c more, unsigned coefficient scale = c :: more ∧ isDigit c = true := by
  obtain ⟨c, more, h⟩ := List.exists_cons_of_ne_nil (wholeDigits_ne_nil coefficient scale)
  have hc : c ∈ wholeDigits coefficient scale := by simp [h]
  exact ⟨c, _, by rw [unsigned, h, List.cons_append], isDigit_of_mem_wholeDigits hc⟩

-----------------------------------------------------------------------------------------
-- Running over digits
-----------------------------------------------------------------------------------------

/-- Digits for which there is room are read into the coefficient one after the other, by
induction on the digits.
-/
theorem Reading.run_digits (r : Reading) (negative : Bool) (digits rest : List Char)
    (hd : ∀ c ∈ digits, isDigit c = true) (hc : extend r.coefficient digits < twoTo 96)
    (hp : ∀ k ∈ r.places, k + digits.length ≤ 28)
    : r.run negative (digits ++ rest)
      = run
          {
            coefficient := extend r.coefficient digits
            places := r.places.map (· + digits.length)
            started := r.started || !digits.isEmpty
          }
          negative rest := by
  induction digits generalizing r with
  | nil => simp [extend]
  | cons c more ih =>
      have hcd : (digit? c).isSome := hd c (by simp)
      obtain ⟨d, hcd⟩ := Option.isSome_iff_exists.mp hcd
      have hv : digitValue c = d := by rw [digitValue, hcd, Option.getD_some]
      have hfull : r.places ≠ some 28 := by
        intro h
        have := hp 28 (by simp [h])
        simp only [List.length_cons] at this
        omega
      have hext : extend r.coefficient (c :: more) = extend (r.coefficient * 10 + d) more := by
        simp [extend, hv]
      have hnext : r.coefficient * 10 + d < twoTo 96 :=
        Nat.lt_of_le_of_lt (le_extend _ more) (hext ▸ hc)
      have hi := ih ⟨r.coefficient * 10 + d, r.places.map (· + 1), true⟩
        (fun c hc => hd c (by simp [hc])) (by rw [← hext]; exact hc)
        (by
          intro k hk
          obtain ⟨j, hj, rfl⟩ := Option.map_eq_some_iff.mp hk
          have := hp j hj
          simp only [List.length_cons] at this
          omega)
      rw [List.cons_append, run, if_neg hfull]
      simp only [hcd, hnext, if_true, hi, hext]
      congr 2
      · cases r.places with
        | none => rfl
        | some places =>
            simp only [Option.map_some, List.length_cons, Option.some.injEq]
            omega
      · simp

-----------------------------------------------------------------------------------------
-- Reading a whole text
-----------------------------------------------------------------------------------------

/-- Reading an unsigned text gives its coefficient and its places. -/
theorem Reading.run_unsigned (negative : Bool) {coefficient scale : Nat}
    (hc : coefficient < twoTo 96) (hs : scale ≤ 28)
    : ({} : Reading).run negative (unsigned coefficient scale)
      = ofParts? negative coefficient scale := by
  have hv : extend (extend 0 (wholeDigits coefficient scale)) (placeDigits coefficient scale)
      = coefficient := by
    rw [← extend_append, wholeDigits_append_placeDigits, extend_zero_paddedDigits]
  have hw : extend 0 (wholeDigits coefficient scale) < twoTo 96 :=
    Nat.lt_of_le_of_lt (le_extend _ (placeDigits coefficient scale)) (by rw [hv]; exact hc)
  have hne := wholeDigits_ne_nil coefficient scale
  have hl := length_placeDigits coefficient scale
  rw [unsigned, Reading.run_digits {} negative _ _ (fun _ => isDigit_of_mem_wholeDigits) hw
    (by simp)]
  split
  · next hz =>
      subst hz
      have hnil : placeDigits coefficient 0 = [] := List.length_eq_zero_iff.mp hl
      rw [hnil] at hv
      have hv : extend 0 (wholeDigits coefficient 0) = coefficient := hv
      simp only [run, Option.map_none, Reading.scale, Option.getD_none, hv]
      rw [if_pos (by simpa using hne)]
  · next hz =>
      have hpoint : digit? '.' = none := by decide
      have hrun := Reading.run_digits
        ⟨extend 0 (wholeDigits coefficient scale), some 0,
          false || !(wholeDigits coefficient scale).isEmpty⟩
        negative (placeDigits coefficient scale) []
        (fun _ => isDigit_of_mem_placeDigits) (by rw [hv]; exact hc) (by simp [hl, hs])
      rw [List.append_nil] at hrun
      rw [run, if_neg (by simp)]
      simp only [hpoint, Option.map_none, Option.isNone_none, and_self, if_true]
      rw [hrun]
      simp only [run, Option.map_some, Reading.scale, Option.getD_some, hv, hl, Nat.zero_add]
      rw [if_pos (by simpa using .inl hne)]

/-- A decimal that is no zero with a sign. -/
def IsPlain (d : Decimal) : Prop :=
  d.negative = true → d.coefficient ≠ 0

theorem IsPlain.ofParts? {d : Decimal} (h : d.IsPlain)
    : ofParts? d.negative d.coefficient d.scale = some d := by
  rw [Decimal.ofParts?, dif_pos ⟨d.coefficient_lt, d.scale_le⟩]
  cases hn : d.negative with
  | false =>
      cases d
      simp_all
  | true =>
      have hc := h hn
      cases d
      simp_all

theorem IsPlain.ofText?_text {d : Decimal} (h : d.IsPlain) : ofText? d.text = some d := by
  have hr := Reading.run_unsigned d.negative d.coefficient_lt d.scale_le
  rw [h.ofParts?] at hr
  have hp : ofPositional? d.text.toList = some d := by
    rw [toList_text]
    cases hn : d.negative with
    | true =>
        rw [hn] at hr
        simpa [ofPositional?] using hr
    | false =>
        rw [hn] at hr
        obtain ⟨c, more, hu, hc⟩ := exists_cons_unsigned d.coefficient d.scale
        have hminus : c ≠ '-' := ne_of_isDigit hc rfl
        have hplus : c ≠ '+' := ne_of_isDigit hc rfl
        rw [hu] at hr ⊢
        simp only [Bool.false_eq_true, if_false, List.nil_append, ofPositional?]
        split
        · next he => exact absurd (List.cons.inj he).1 hminus
        · next he => exact absurd (List.cons.inj he).1 hplus
        · exact hr
  rw [ofText?, hp]
  rfl

end QueryKey.Number.Decimal
