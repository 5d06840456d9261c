import QueryKey.Guid
import QueryKey.Proofs.Text.Digits

/-! Identifiers read back: the hyphenated text of an identifier gives the identifier again. -/

namespace QueryKey.Guid

open QueryKey.Text

/-- A piece of the right length is cut off whole. -/
theorem cut_append {α : Type} {n : Nat} {piece : List α} (h : piece.length = n) (ns : List Nat)
    (rest : List α)
    : cut (n :: ns) (piece ++ rest) = piece :: cut ns rest := by
  rw [cut, List.take_left' h, List.drop_left' h]

/-- Five groups of digits with the lengths that are written. -/
structure Grouping (digits a b c d e : List Char) : Prop where
  eq_append : digits = a ++ (b ++ (c ++ (d ++ (e ++ []))))
  lengths
    : a.length = 8 ∧ b.length = 4 ∧ c.length = 4 ∧ d.length = 4 ∧ e.length = 12

/-- Thirty-two digits fall into five groups. -/
theorem exists_grouping {digits : List Char} (h : digits.length = 32)
    : ∃ a b c d e, Grouping digits a b c d e := by
  refine ⟨digits.take 8, (digits.drop 8).take 4, (digits.drop 12).take 4,
    (digits.drop 16).take 4, digits.drop 20, ?_, ?_⟩
  · have h₁ := List.take_append_drop 8 digits
    have h₂ := List.take_append_drop 4 (digits.drop 8)
    have h₃ := List.take_append_drop 4 (digits.drop 12)
    have h₄ := List.take_append_drop 4 (digits.drop 16)
    simp only [List.drop_drop] at h₂ h₃ h₄
    rw [List.append_nil, h₄, h₃, h₂, h₁]
  · simp only [List.length_take, List.length_drop]
    omega

/-- The groups with hyphens between them. -/
def hyphenated (a b c d e : List Char) : List Char :=
  a ++ (['-'] ++ (b ++ (['-'] ++ (c ++ (['-'] ++ (d ++ (['-'] ++ (e ++ []))))))))

theorem Grouping.intercalate {digits a b c d e : List Char} (h : Grouping digits a b c d e)
    : ['-'].intercalate (cut groups digits) = hyphenated a b c d e := by
  obtain ⟨ha, hb, hc, hd, he⟩ := h.lengths
  rw [h.eq_append, groups, cut_append ha, cut_append hb, cut_append hc, cut_append hd,
    cut_append he, cut]
  simp [List.intercalate, List.intersperse, hyphenated]

/-- Taking the hyphens out again leaves the digits. -/
theorem Grouping.ofHyphenated? {digits a b c d e : List Char} (h : Grouping digits a b c d e)
    : Guid.ofHyphenated? (hyphenated a b c d e) = ofDigits? digits := by
  obtain ⟨ha, hb, hc, hd, he⟩ := h.lengths
  have hlen : (hyphenated a b c d e).length = 36 := by
    simp only [hyphenated, List.length_append, List.length_cons, List.length_nil]
    omega
  have hone : ['-'].length = 1 := rfl
  have hcut : cut [8, 1, 4, 1, 4, 1, 4, 1, 12] (hyphenated a b c d e)
      = [a, ['-'], b, ['-'], c, ['-'], d, ['-'], e] := by
    rw [hyphenated, cut_append ha, cut_append hone, cut_append hb, cut_append hone,
      cut_append hc, cut_append hone, cut_append hd, cut_append hone, cut_append he, cut]
  rw [Guid.ofHyphenated?, hcut]
  simp [hlen, h.eq_append]

theorem mapM_hexDigit? {digits : List Char} (h : ∀ c ∈ digits, (hexDigit? c).isSome = true)
    : digits.mapM hexDigit? = some (digits.map hexValue) := by
  induction digits with
  | nil => rfl
  | cons c more ih =>
      obtain ⟨d, hc⟩ := Option.isSome_iff_exists.mp (h c (by simp))
      rw [List.mapM_cons, ih (fun c hc => h c (by simp [hc])), hc]
      simp [hexValue, hc]

theorem length_hexDigits (g : Guid) : (paddedDigits 16 32 g.bits.toNat).length = 32 :=
  length_paddedDigits (by decide) (by decide) g.bits.isLt

theorem ofDigits?_paddedDigits (g : Guid)
    : ofDigits? (paddedDigits 16 32 g.bits.toNat) = some g := by
  have hsome (c : Char) (hc : c ∈ paddedDigits 16 32 g.bits.toNat)
      : (hexDigit? c).isSome = true := by
    obtain ⟨d, hd, rfl⟩ := exists_digitChar_of_mem_paddedDigits (by decide) hc
    rw [hexDigit?_digitChar hd, Option.isSome_some]
  have hvalue := ofDigits_paddedDigits (by decide : 1 < 16) hexValue
    (fun _ hd => hexValue_digitChar hd) 32 g.bits.toNat
  rw [ofDigits?, if_pos g.length_hexDigits, mapM_hexDigit? hsome]
  simp [hvalue]

/-- The text is some grouping of the identifier's digits, with hyphens. -/
theorem exists_text (g : Guid)
    : ∃ a b c d e,
        Grouping (paddedDigits 16 32 g.bits.toNat) a b c d e
        ∧ g.text.toList = hyphenated a b c d e := by
  obtain ⟨a, b, c, d, e, h⟩ := exists_grouping g.length_hexDigits
  exact ⟨a, b, c, d, e, h, by rw [text, String.toList_ofList, h.intercalate]⟩

theorem ofHyphenated?_text (g : Guid) : Guid.ofHyphenated? g.text.toList = some g := by
  obtain ⟨a, b, c, d, e, h, ht⟩ := g.exists_text
  rw [ht, h.ofHyphenated?, ofDigits?_paddedDigits]

theorem length_text (g : Guid) : g.text.toList.length = 36 := by
  obtain ⟨a, b, c, d, e, h, ht⟩ := g.exists_text
  obtain ⟨ha, hb, hc, hd, he⟩ := h.lengths
  simp only [ht, hyphenated, List.length_append, List.length_cons, List.length_nil]
  omega

theorem ofText?_text (g : Guid) : ofText? g.text = some g := by
  rw [ofText?]
  simp only [g.length_text, g.ofHyphenated?_text]

end QueryKey.Guid
