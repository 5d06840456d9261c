import QueryKey.Proofs.Calendar.ReadBack
import QueryKey.Proofs.Document.RoundTrip
import QueryKey.Proofs.GuidText
import QueryKey.Proofs.Number.DecimalText

/-! Leaves, words and payloads read back, all but floats: a document gives a float in as many digits
as it needs, and tells minus zero from zero only if those have a point.
-/

namespace QueryKey.Expr

/-- The payloads that a document tells exactly: no floats, no zeros with a sign, no leap seconds but
at the end of a minute, no offsets that are not in whole minutes or beyond the years of four digits,
and otherwise no days outside the years of the calendar.
-/
def Payload.IsStorable : Payload → Prop
  | single _ | double _ => False
  | decimal value => value.IsPlain
  | dateTime value => value.IsRegular ∧ value.date.IsWithinYears
  | dateTimeOffset value => value.IsPlain ∧ value.IsRegular
  | time value => value.IsRegular
  | _ => True

end QueryKey.Expr

namespace QueryKey.Document

open QueryKey.Expr QueryKey.Metadata QueryKey.Number QueryKey.Calendar QueryKey.Text

-----------------------------------------------------------------------------------------
-- Leaves
-----------------------------------------------------------------------------------------

/-- A leaf is read back if its document is. -/
theorem ReadsBack.leaf {l : Leaf} {x : l.Value} {json : Json} (hwrite : l.write x = json)
    (hlevel : levelOf json.arranged = .scalar json) (hkept : json.IsKept)
    (hread : l.read? json = .some x)
    : ReadsBack (.leaf l) x where
  kept := by
    rw [Shape.map, write, hwrite]
    exact hkept
  reads nested := by
    rw [Shape.map, write, hwrite, read_eq_readLevel, hlevel, readLevel, hread]
    rfl

theorem text_readsBack (s : String) : ReadsBack .text s :=
  .leaf rfl rfl trivial rfl

theorem flag_readsBack (b : Bool) : ReadsBack .flag b :=
  .leaf rfl rfl trivial rfl

/-- Integers of 64 bits are kept. -/
theorem ReadsBack.integer {l : Leaf} {x : l.Value} {n : Int}
    (hwrite : l.write x = .number (.integer n)) (hlow : -(twoTo 63 : Int) ≤ n)
    (hhigh : n < twoTo 64)
    (hread : l.read? (.number (.integer n)) = .some x)
    : ReadsBack (.leaf l) x :=
  .leaf hwrite rfl ⟨hlow, hhigh⟩ hread

theorem byte_readsBack (n : UInt8) : ReadsBack (.leaf .byte) n := by
  have hn := n.toNat_lt
  have hfull : twoTo 64 = 18446744073709551616 := rfl
  have hread : integer? 0 255 (.number (.integer n.toNat)) = some (n.toNat : Int) := by
    rw [integer?, if_pos ⟨by omega, by omega⟩]
  refine .integer rfl (by omega) (by omega) ?_
  simp [Leaf.read?, hread]

/-- Signed integers of up to 64 bits are read back if the leaf reads those of their size. -/
theorem ReadsBack.signed {l : Leaf} {x : l.Value} {n : Int} (bits : Nat) (hbits : bits ≤ 64)
    (hlow : -(twoTo (bits - 1) : Int) ≤ n) (hhigh : n < twoTo (bits - 1))
    (hwrite : l.write x = .number (.integer n))
    (hread : ∀ json, signed? bits json = .some n → l.read? json = .some x)
    : ReadsBack (.leaf l) x := by
  have hpow : twoTo (bits - 1) ≤ twoTo 63 :=
    Nat.pow_le_pow_right (by decide) (by omega)
  have hfull : twoTo 64 = twoTo 63 * 2 := rfl
  have hsigned : signed? bits (.number (.integer n)) = .some n := by
    rw [signed?, integer?]
    exact if_pos ⟨hlow, Int.le_sub_one_of_lt hhigh⟩
  exact .integer hwrite (by omega) (by omega) (hread _ hsigned)

theorem sbyte_readsBack (n : Int8) : ReadsBack (.leaf .sbyte) n :=
  .signed 8 (by decide) n.le_toInt n.toInt_lt rfl fun json h => by simp [Leaf.read?, h]

theorem int16_readsBack (n : Int16) : ReadsBack (.leaf .int16) n :=
  .signed 16 (by decide) n.le_toInt n.toInt_lt rfl fun json h => by simp [Leaf.read?, h]

theorem int32_readsBack (n : Int32) : ReadsBack (.leaf .int32) n :=
  .signed 32 (by decide) n.le_toInt n.toInt_lt rfl fun json h => by simp [Leaf.read?, h]

theorem int64_readsBack (n : Int64) : ReadsBack (.leaf .int64) n :=
  .signed 64 (by decide) n.le_toInt n.toInt_lt rfl fun json h => by simp [Leaf.read?, h]

/-- Values with a text of their own are read back if their text is. -/
theorem ReadsBack.ownText {l : Leaf} {x : l.Value} {text : String}
    (hwrite : l.write x = .string text) (hread : l.read? (.string text) = .some x)
    : ReadsBack (.leaf l) x :=
  .leaf hwrite rfl trivial hread

theorem decimal_readsBack {d : Decimal} (h : d.IsPlain) : ReadsBack (.leaf .decimal) d :=
  .ownText rfl (by simp [Leaf.read?, string?, h.ofText?_text])

theorem guid_readsBack (g : Guid) : ReadsBack (.leaf .guid) g :=
  .ownText rfl (by simp [Leaf.read?, string?, g.ofText?_text])

theorem dateTime_readsBack {t : DateTime} (h : t.IsRegular) (hwithin : t.date.IsWithinYears)
    : ReadsBack (.leaf .dateTime) t :=
  .ownText rfl (by simp [Leaf.read?, string?, t.ofText?_text _ hwithin, t.carried_eq_self h])

theorem dateTimeOffset_readsBack {t : OffsetDateTime} (h : t.IsPlain) (hregular : t.IsRegular)
    : ReadsBack (.leaf .dateTimeOffset) t :=
  .ownText rfl (by simp [Leaf.read?, string?, h.ofText?_text, t.carried_eq_self hregular])

theorem time_readsBack {t : Time} (h : t.IsRegular) : ReadsBack (.leaf .time) t :=
  .ownText rfl (by simp [Leaf.read?, string?, t.ofText?_text, t.carried_eq_self h])

-----------------------------------------------------------------------------------------
-- Words
-----------------------------------------------------------------------------------------

theorem Words.ofWord?_word (w : Words) (x : w.Value)
    : Vocabulary.ofWord? (Vocabulary.word x) = some x := by
  cases w <;> cases x <;> decide

theorem formOfWord_word {F : Type} [Vocabulary F] {form : F}
    (h : Vocabulary.ofWord? (Vocabulary.word form) = some form)
    : formOfWord (Vocabulary.word form) = .ok form := by
  rw [formOfWord, h]

theorem word_readsBack (w : Words) (x : w.Value) : ReadsBack (.word w) x where
  kept := by
    rw [Shape.map, write]
    trivial
  reads nested := by
    have hword := formOfWord_word (w.ofWord?_word x)
    rw [Shape.map, write, read_eq_readLevel, readLevel]
    simp only [Json.arranged, levelOf, readEnumeration, readWord, bind, Except.bind, hword]
    rfl

-----------------------------------------------------------------------------------------
-- Payloads
-----------------------------------------------------------------------------------------

theorem PayloadForm.ofWord?_word (form : PayloadForm)
    : Vocabulary.ofWord? (Vocabulary.word form) = some form := by
  cases form <;> decide

/-- No payload has expressions in it. -/
theorem PayloadForm.split_make (form : PayloadForm) (x : form.shape.Carrier Expr)
    : split (form.make x) = ⟨form, form.shape.map writeExpr x⟩ := by
  cases form with
  | binary =>
      have hbytes : x.map ((Shape.leaf .byte).map writeExpr) = x :=
        (List.map_congr_left fun _ _ => rfl).trans (List.map_id x)
      simp only [make, split, Shape.map, PayloadForm.shape] at hbytes ⊢
      rw [hbytes]
  | _ => rfl

/-- A payload is read back if its content is. -/
theorem ReadsBack.payload (form : PayloadForm) {x : form.shape.Carrier Expr}
    (h : ReadsBack form.shape x)
    : ReadsBack .payload (form.make x) := by
  have hwrite : write .payload (form.make x)
      = .object [(Vocabulary.word form, write form.shape (form.shape.map writeExpr x))] := by
    rw [write, form.split_make x]
    rfl
  refine ⟨?_, fun nested => ?_⟩
  · rw [Shape.map, hwrite, isKept_object]
    exact fun m hm => List.mem_singleton.mp hm ▸ h.kept
  · rw [Shape.map, hwrite, read_eq_readLevel, readLevel]
    simp only [Json.arranged, Json.arrangedMembers, Json.insertMember, levelOf, partsOfMembers,
      readWord, bind, Except.bind, formOfWord_word form.ofWord?_word, readContent, h.reads nested]
    rfl

theorem spatial_readsBack (s : Spatial) : ReadsBack (.record .spatial) s :=
  .record ⟨int32_readsBack s.srid, text_readsBack s.wkt, trivial⟩

/-- Every payload that can be stored is read back. -/
theorem payload_readsBack {value : Payload} (h : value.IsStorable) : ReadsBack .payload value := by
  cases value with
  | binary bytes => exact .payload .binary (.list fun b _ => byte_readsBack b)
  | boolean b => exact .payload .boolean (flag_readsBack b)
  | byte n => exact .payload .byte (byte_readsBack n)
  | sbyte n => exact .payload .sbyte (sbyte_readsBack n)
  | int16 n => exact .payload .int16 (int16_readsBack n)
  | int32 n => exact .payload .int32 (int32_readsBack n)
  | int64 n => exact .payload .int64 (int64_readsBack n)
  | decimal d => exact .payload .decimal (decimal_readsBack h)
  | guid g => exact .payload .guid (guid_readsBack g)
  | string text => exact .payload .string (text_readsBack text)
  | dateTime t => exact .payload .dateTime (dateTime_readsBack h.1 h.2)
  | dateTimeOffset t => exact .payload .dateTimeOffset (dateTimeOffset_readsBack h.1 h.2)
  | time t => exact .payload .time (time_readsBack h)
  | geometry shape => exact .payload .geometry (spatial_readsBack shape)
  | geography shape => exact .payload .geography (spatial_readsBack shape)
  | hierarchyId path => exact .payload .hierarchyId (text_readsBack path)
  | single x => exact h.elim
  | double x => exact h.elim

end QueryKey.Document
