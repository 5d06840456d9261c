import QueryKey.Proofs.Key.LiteralReader

/-! Quoted texts delimit themselves. A reader that takes every two quotes as one finds the closing
quote, whatever quotes the text holds, so long as what follows does not start with another.
-/

namespace QueryKey.Text

open QueryKey.Key.Reader

/-- Quotes that are written twice are taken once, by induction on the text. -/
theorem Quoted.decode_encode (text : List Char)
    : Quoted.decode (Quoted.encode text) = some text := by
  induction text with
  | nil => rfl
  | cons c rest ih =>
      by_cases hc : c = Quoted.mark
      · subst hc
        simp [Quoted.encode, Quoted.decode, ih]
      · rw [Quoted.encode, if_neg hc, Quoted.decode.eq_def]
        simp [hc, ih]

/-- A quoted text and what follows it are told by reading the text off. -/
theorem quote_append_cancel {s t r u : String} (hr : r.toList.head? ≠ some Quoted.mark)
    (hu : u.toList.head? ≠ some Quoted.mark) (h : quote s ++ r = quote t ++ u)
    : s = t ∧ r = u := by
  have hread (text rest : String) (hrest : rest.toList.head? ≠ some Quoted.mark)
      : quoted (quote text ++ rest).toList = some (text.toList, rest.toList) := by
    have hquoted := quoted_quote text.toList hrest
    rwa [String.ofList_toList, ← String.toList_append] at hquoted
  have hsame : some (s.toList, r.toList) = some (t.toList, u.toList) := by
    rw [← hread s r hr, h, hread t u hu]
  obtain ⟨htext, hrest⟩ := Prod.mk.inj (Option.some.inj hsame)
  exact ⟨String.toList_inj.mp htext, String.toList_inj.mp hrest⟩

/-- Two quoted texts in front of anything but a quote are equal only if the texts are, and what
follows them. The text itself is what stands between the outer quotes, with every two quotes taken
as one.
-/
theorem quote_delimits_itself
    : (∀ s t r u : String,
        r.toList.head? ≠ some Quoted.mark → u.toList.head? ≠ some Quoted.mark
          → quote s ++ r = quote t ++ u → s = t ∧ r = u)
      ∧ ∀ s : String, ∃ inner,
          (quote s).toList = Quoted.mark :: inner ++ [Quoted.mark]
          ∧ Quoted.decode inner = some s.toList := by
  refine ⟨fun s t r u hr hu h => quote_append_cancel hr hu h, fun s => ?_⟩
  exact ⟨Quoted.encode s.toList, String.toList_ofList, Quoted.decode_encode s.toList⟩

/-- A text of three quotes is written with eight, in front of a comma as elsewhere. -/
theorem quote_threeQuotes
    : quote "'''" ++ ",'x'" = "'''''''','x'"
      ∧ quote ("'" ++ "''") ++ ("," ++ quote "x") = "'''''''','x'"
      ∧ "'''" = "'" ++ "''" ∧ ",'x'" = "," ++ quote "x" := by
  have hfirst : quote "'''" ++ ",'x'" = "'''''''','x'" := by decide +kernel
  have hsecond : quote ("'" ++ "''") ++ ("," ++ quote "x") = "'''''''','x'" := by decide +kernel
  exact ⟨hfirst, hsecond,
    quote_delimits_itself.1 _ _ _ _ (by decide) (by decide +kernel) (hfirst.trans hsecond.symm)⟩

/-- A quote right behind a quoted text goes on with it. -/
example : quote "a" ++ quote "b" = quote "a'b" := by decide +kernel

end QueryKey.Text
