import QueryKey.Text.Digits

/-! Digits read back: the digits that are written for a number are taken off the front of a text
again, whatever follows them, and make the same number.
-/

namespace QueryKey.Text

/-- No character of the class stands at the front of the text. -/
def Stops (p : Char → Bool) (text : List Char) : Prop :=
  ∀ c ∈ text.head?, p c = false

@[simp] theorem stops_nil (p : Char → Bool) : Stops p [] := by
  simp [Stops]

@[simp] theorem stops_cons (p : Char → Bool) (c : Char) (rest : List Char)
    : Stops p (c :: rest) ↔ p c = false := by
  simp [Stops]

-----------------------------------------------------------------------------------------
-- The digits of a number
-----------------------------------------------------------------------------------------

/-- The number that a decimal digit stands for. -/
def digitValue (c : Char) : Nat :=
  (digit? c).getD 0

/-- The number that a hexadecimal digit stands for. -/
def hexValue (c : Char) : Nat :=
  (hexDigit? c).getD 0

theorem digit?_digitChar {d : Nat} (hd : d < 10) : digit? (Nat.digitChar d) = some d := by
  have all : ∀ d < 10, digit? (Nat.digitChar d) = some d := by decide
  exact all d hd

theorem hexDigit?_digitChar {d : Nat} (hd : d < 16) : hexDigit? (Nat.digitChar d) = some d := by
  have all : ∀ d < 16, hexDigit? (Nat.digitChar d) = some d := by decide
  exact all d hd

theorem digitValue_digitChar {d : Nat} (hd : d < 10) : digitValue (Nat.digitChar d) = d := by
  rw [digitValue, digit?_digitChar hd, Option.getD_some]

theorem hexValue_digitChar {d : Nat} (hd : d < 16) : hexValue (Nat.digitChar d) = d := by
  rw [hexValue, hexDigit?_digitChar hd, Option.getD_some]

theorem ofDigits_append (base : Nat) (front : List Nat) (d : Nat)
    : ofDigits base (front ++ [d]) = ofDigits base front * base + d := by
  simp [ofDigits]

/-- The digits of a number make it again, by induction on the number. -/
theorem ofDigits_toDigits {base : Nat} (hb : 1 < base) (value : Char → Nat)
    (hv : ∀ d < base, value (Nat.digitChar d) = d) (n : Nat)
    : ofDigits base ((Nat.toDigits base n).map value) = n := by
  induction n using Nat.strongRecOn with
  | ind n ih =>
      by_cases hn : n < base
      · rw [Nat.toDigits_of_lt_base hn]
        simp [ofDigits, hv n hn]
      · have hle : base ≤ n := Nat.le_of_not_lt hn
        rw [Nat.toDigits_of_base_le hb hle, List.map_append, List.map_singleton,
          ofDigits_append, ih (n / base) (Nat.div_lt_self (by omega) hb),
          hv _ (Nat.mod_lt _ (by omega))]
        exact Nat.div_add_mod' n base

/-- Zeros in front of digits change nothing. -/
theorem ofDigits_zeros (base zeros : Nat) (digits : List Nat)
    : ofDigits base (List.replicate zeros 0 ++ digits) = ofDigits base digits := by
  induction zeros with
  | zero => rfl
  | succ zeros ih =>
      rw [← ih]
      simp [ofDigits, List.replicate_succ]

theorem ofDigits_paddedDigits {base : Nat} (hb : 1 < base) (value : Char → Nat)
    (hv : ∀ d < base, value (Nat.digitChar d) = d) (width n : Nat)
    : ofDigits base ((paddedDigits base width n).map value) = n := by
  have zero : value '0' = 0 := hv 0 (by omega)
  rw [paddedDigits, List.map_append, List.map_replicate, zero, ofDigits_zeros,
    ofDigits_toDigits hb value hv]

/-- Every digit that is written is the digit of some number below the base. -/
theorem exists_digitChar_of_mem_toDigits {base n : Nat} {c : Char} (hb : 1 < base)
    (h : c ∈ Nat.toDigits base n)
    : ∃ d < base, c = Nat.digitChar d := by
  induction n using Nat.strongRecOn with
  | ind n ih =>
      by_cases hn : n < base
      · rw [Nat.toDigits_of_lt_base hn, List.mem_singleton] at h
        exact ⟨n, hn, h⟩
      · have hle : base ≤ n := Nat.le_of_not_lt hn
        rw [Nat.toDigits_of_base_le hb hle, List.mem_append, List.mem_singleton] at h
        rcases h with h | h
        · exact ih (n / base) (Nat.div_lt_self (by omega) hb) h
        · exact ⟨n % base, Nat.mod_lt _ (by omega), h⟩

theorem exists_digitChar_of_mem_paddedDigits {base width n : Nat} {c : Char} (hb : 1 < base)
    (h : c ∈ paddedDigits base width n)
    : ∃ d < base, c = Nat.digitChar d := by
  rw [paddedDigits, List.mem_append] at h
  rcases h with h | h
  · exact ⟨0, by omega, List.eq_of_mem_replicate h⟩
  · exact exists_digitChar_of_mem_toDigits hb h

/-- A number that fits the width fills it exactly. -/
theorem length_paddedDigits {base width n : Nat} (hb : 1 < base) (hw : 0 < width)
    (hn : n < Nat.pow base width)
    : (paddedDigits base width n).length = width := by
  have := (Nat.length_toDigits_le_iff hb hw).mpr hn
  simp only [paddedDigits, List.length_append, List.length_replicate]
  omega

theorem isDigit_digitChar {d : Nat} (hd : d < 10) : isDigit (Nat.digitChar d) = true := by
  rw [isDigit, digit?_digitChar hd, Option.isSome_some]

theorem ne_of_isDigit {c d : Char} (hc : isDigit c = true) (hd : isDigit d = false) : c ≠ d := by
  rintro rfl
  rw [hc] at hd
  cases hd

theorem isDigit_of_mem_toDigits {n : Nat} {c : Char} (h : c ∈ Nat.toDigits 10 n)
    : isDigit c = true := by
  obtain ⟨d, hd, rfl⟩ := exists_digitChar_of_mem_toDigits (by decide) h
  exact isDigit_digitChar hd

theorem isDigit_of_mem_paddedDigits {width n : Nat} {c : Char}
    (h : c ∈ paddedDigits 10 width n)
    : isDigit c = true := by
  obtain ⟨d, hd, rfl⟩ := exists_digitChar_of_mem_paddedDigits (by decide) h
  exact isDigit_digitChar hd

theorem paddedDigits_ne_nil (base width n : Nat) : paddedDigits base width n ≠ [] := by
  simp [paddedDigits, Nat.toDigits_ne_nil]

-----------------------------------------------------------------------------------------
-- Taking digits off the front
-----------------------------------------------------------------------------------------

/-- A run of digits is taken as a whole if there is room for it and it ends there, by induction
on the run.
-/
theorem takeDigits_append {most : Nat} {digits rest : List Char}
    (hd : ∀ c ∈ digits, isDigit c = true) (hm : digits.length ≤ most)
    (hr : digits.length = most ∨ Stops isDigit rest)
    : takeDigits most (digits ++ rest) = (digits.map digitValue, rest) := by
  induction digits generalizing most with
  | nil =>
      cases most with
      | zero => simp [takeDigits]
      | succ most =>
          have hr : Stops isDigit rest := by simpa using hr
          cases rest with
          | nil => rfl
          | cons c more =>
              have hc : digit? c = none := by simpa [isDigit] using hr
              simp [takeDigits, hc]
  | cons c more ih =>
      cases most with
      | zero => simp at hm
      | succ most =>
          have hc : (digit? c).isSome := hd c (by simp)
          obtain ⟨d, hc⟩ := Option.isSome_iff_exists.mp hc
          have hi : takeDigits most (more ++ rest) = (more.map digitValue, rest) :=
            ih (fun c hc => hd c (by simp [hc])) (by simpa using hm) (by simpa using hr)
          simp [takeDigits, hc, hi, digitValue]

/-- A padded number is taken back if there is room for it and no digit follows. -/
theorem takeDigits_paddedDigits {most width n : Nat} {rest : List Char}
    (hm : (paddedDigits 10 width n).length ≤ most)
    (hr : (paddedDigits 10 width n).length = most ∨ Stops isDigit rest)
    : takeDigits most (paddedDigits 10 width n ++ rest)
      = ((paddedDigits 10 width n).map digitValue, rest) :=
  takeDigits_append (fun _ hc => isDigit_of_mem_paddedDigits hc) hm hr

theorem ofDigits_digitValue_paddedDigits (width n : Nat)
    : ofDigits 10 ((paddedDigits 10 width n).map digitValue) = n :=
  ofDigits_paddedDigits (by decide) digitValue (fun _ hd => digitValue_digitChar hd) width n

-----------------------------------------------------------------------------------------
-- Digits behind a number
-----------------------------------------------------------------------------------------

/-- The digits of a number that is not zero start with one that is not zero, by induction on the
number.
-/
theorem exists_cons_toDigits {n : Nat} (hn : 0 < n)
    : ∃ d more, d < 10 ∧ 0 < d ∧ Nat.toDigits 10 n = Nat.digitChar d :: more := by
  induction n using Nat.strongRecOn with
  | ind n ih =>
      by_cases hlt : n < 10
      · exact ⟨n, [], hlt, hn, Nat.toDigits_of_lt_base hlt⟩
      · obtain ⟨d, more, hd, hpos, hcons⟩ := ih (n / 10) (by omega) (by omega)
        refine ⟨d, more ++ [Nat.digitChar (n % 10)], hd, hpos, ?_⟩
        rw [Nat.toDigits_of_base_le (by decide) (by omega), hcons, List.cons_append]

/-- The number that results when digits are read behind another number. -/
def extend (coefficient : Nat) (digits : List Char) : Nat :=
  (digits.map digitValue).foldl (fun value digit => value * 10 + digit) coefficient

theorem extend_append (coefficient : Nat) (front back : List Char)
    : extend coefficient (front ++ back) = extend (extend coefficient front) back := by
  simp [extend]

theorem extend_zero_paddedDigits (width n : Nat) : extend 0 (paddedDigits 10 width n) = n :=
  ofDigits_digitValue_paddedDigits width n

theorem extend_zero_toDigits (n : Nat) : extend 0 (Nat.toDigits 10 n) = n :=
  ofDigits_toDigits (by decide) digitValue (fun _ => digitValue_digitChar) n

/-- Reading on never makes a number smaller, by induction on the digits. -/
theorem le_extend (coefficient : Nat) (digits : List Char)
    : coefficient ≤ extend coefficient digits := by
  induction digits generalizing coefficient with
  | nil => exact Nat.le_refl coefficient
  | cons c more ih =>
      have hi := ih (coefficient * 10 + digitValue c)
      simp only [extend, List.map_cons, List.foldl_cons] at hi ⊢
      omega

-----------------------------------------------------------------------------------------
-- Numbers as texts
-----------------------------------------------------------------------------------------

theorem toList_toString_nat (n : Nat) : (toString n).toList = Nat.toDigits 10 n := by
  rw [Nat.toString_eq_repr, Nat.repr_eq_ofList_toDigits, String.toList_ofList]

/-- A whole number is written with a sign in front of its digits if it is negative. -/
theorem toList_toString_int (n : Int)
    : (toString n).toList = (if n < 0 then ['-'] else []) ++ Nat.toDigits 10 n.natAbs := by
  cases n with
  | ofNat n =>
      have hn : ¬((n : Int) < 0) := by omega
      simp only [Int.ofNat_eq_natCast, hn, if_false, Int.natAbs_natCast, List.nil_append]
      exact toList_toString_nat n
  | negSucc n =>
      have hsign : toString (Int.negSucc n) = "-" ++ toString (n + 1) := rfl
      rw [if_pos (Int.negSucc_lt_zero n), hsign, String.toList_append, toList_toString_nat,
        Int.natAbs_negSucc]
      rfl

end QueryKey.Text
