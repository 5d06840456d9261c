import QueryKey.Expr.Builder
import QueryKey.Proofs.Key.Outline
import QueryKey.Proofs.Validation.Agreement

/-! Constants that do not hold what they declare. Key generation refuses them where the kind is
read from the payload's shape, and writes them where payload and kind are both among the kinds with
plain text; validation warns of all of them alike.
-/

namespace QueryKey.Key.Literal

open QueryKey.Expr QueryKey.Metadata

/-- The kinds whose constants are written without quotes. -/
def isPlain : Primitive → Bool
  | .boolean | .byte | .decimal | .double | .guid | .single | .sbyte | .int16 | .int32 | .int64
  | .time => true
  | _ => false

theorem isSome_plainText? (payload : Payload)
    : (plainText? payload).isSome = isPlain payload.naturalKind := by
  cases payload <;> rfl

theorem payloadText?_of_isPlain {kind : Primitive} (h : isPlain kind = true) (payload : Payload)
    : payloadText? kind payload = plainText? payload := by
  cases kind <;> first | rfl | cases h

/-- A kind without plain text is left to the payloads that fit it. -/
theorem fits_of_payloadText? {kind : Primitive} {payload : Payload} {text : String}
    (hkind : isPlain kind = false) (h : payloadText? kind payload = some text)
    : payload.fits kind = true := by
  cases kind <;> cases hkind <;> cases payload <;> first | rfl | cases h

/-- A constant can be written if its payload fits its kind, unless that has no text at all, and
if both are plain.
-/
theorem isSome_payloadText? {kind : Primitive} {payload : Payload}
    : (payloadText? kind payload).isSome = true
      ↔ payload.fits kind = true ∧ kind ≠ .hierarchyId
        ∨ isPlain kind = true ∧ isPlain payload.naturalKind = true := by
  rw [← isSome_plainText?]
  constructor
  · intro h
    obtain ⟨text, htext⟩ := Option.isSome_iff_exists.mp h
    cases hplain : isPlain kind with
    | true =>
        rw [payloadText?_of_isPlain hplain] at h
        exact .inr ⟨rfl, h⟩
    | false =>
        refine .inl ⟨fits_of_payloadText? hplain htext, ?_⟩
        rintro rfl
        cases htext
  · rintro (⟨hfits, hkind⟩ | ⟨hplain, h⟩)
    · obtain ⟨text, htext⟩ := Validation.exists_payloadText hfits hkind
      rw [htext, Option.isSome_some]
    · rwa [payloadText?_of_isPlain hplain]

end QueryKey.Key.Literal

namespace QueryKey.Validation

open QueryKey.Expr QueryKey.Metadata QueryKey.Key

/-- A warning of a mismatch is about a constant whose payload does not fit its kind. -/
theorem constant_of_mem_issues {e : Expr} {rule : Rule} {message : String}
    (h : Issue.warning .constantTypeMismatch message ∈ rule.issues e)
    : ∃ payload kind, e.body = .constant payload ∧ e.usage.type.scalarKind? = some kind
        ∧ payload.fits kind = false := by
  have hrule := Rule.canFind_of_mem_issues h
  rcases e with ⟨usage, body⟩
  cases rule with
  | constants =>
      cases body with
      | constant payload =>
          simp only [Rule.issues, Rule.constantIssues, Expr.body, Expr.usage] at h
          split at h
          · simp at h
          · next kind hkind =>
              refine ⟨payload, kind, rfl, hkind, ?_⟩
              split at h
              · cases h
              · next hfits => simpa using hfits
      | _ => cases h
  | _ => cases hrule

/-- A constant of a tree with a key can be written. -/
theorem exists_kind_of_generate {s : Settings} {t : Expr} {key : CacheKey}
    (h : generate s t = .ok key) {p : Expr × String} (hp : p ∈ t.walk) {payload : Payload}
    (hbody : p.1.body = .constant payload)
    : ∃ kind, p.1.usage.type.scalarKind? = some kind
        ∧ (Literal.payloadText? kind payload).isSome = true := by
  obtain ⟨hnone, -⟩ := generate_eq_ok_iff.mp h
  obtain ⟨pieces, ht⟩ := exists_template_of_failure? hnone p.1 (List.mem_map_of_mem hp)
  rw [hbody] at ht
  obtain ⟨text, hliteral, -⟩ := exists_literal ht
  obtain ⟨kind, hkind, htext⟩ := exists_payloadText? hliteral
  exact ⟨kind, hkind, by rw [htext, Option.isSome_some]⟩

/-- Every constant of a tree with a key fits the kind that it declares or is plain, in its payload
and its kind; and these plain constants are what all warnings of a mismatch are about.
-/
theorem mismatches_are_plain (s : Settings) (t : Expr) (key : CacheKey)
    (h : generate s t = .ok key)
    : (∀ p ∈ t.walk, ∀ payload, p.1.body = .constant payload
        → ∃ kind, p.1.usage.type.scalarKind? = some kind
          ∧ (payload.fits kind = true
            ∨ Literal.isPlain kind = true ∧ Literal.isPlain payload.naturalKind = true))
      ∧ ∀ found ∈ (validate Rule.all t).warnings, found.code = .constantTypeMismatch
        → ∃ p ∈ t.walk, p.2 = found.path
          ∧ ∃ payload kind, p.1.body = .constant payload
            ∧ p.1.usage.type.scalarKind? = some kind ∧ payload.fits kind = false
            ∧ Literal.isPlain kind = true ∧ Literal.isPlain payload.naturalKind = true := by
  have hconstant {p : Expr × String} (hp : p ∈ t.walk) {payload : Payload}
      (hbody : p.1.body = .constant payload)
      : ∃ kind, p.1.usage.type.scalarKind? = some kind
          ∧ (payload.fits kind = true
            ∨ Literal.isPlain kind = true ∧ Literal.isPlain payload.naturalKind = true) := by
    obtain ⟨kind, hkind, htext⟩ := exists_kind_of_generate h hp hbody
    exact ⟨kind, hkind, (Literal.isSome_payloadText?.mp htext).imp_left And.left⟩
  refine ⟨fun p hp payload => hconstant hp, ?_⟩
  intro found hfound hcode
  obtain ⟨rule, -, e, he, hmem⟩ := mem_warnings_validate.mp hfound
  rw [hcode] at hmem
  obtain ⟨payload, kind, hbody, hkind, hmismatch⟩ := constant_of_mem_issues hmem
  obtain ⟨written, hwritten, hfits | hplain⟩ := hconstant he hbody
  all_goals obtain rfl : kind = written := Option.some.inj (hkind.symm.trans hwritten)
  · rw [hmismatch] at hfits
    cases hfits
  · exact ⟨_, he, rfl, payload, kind, hbody, hkind, hmismatch, hplain⟩

/-- A comparison of a long five that is declared as a shorter one. -/
def mistypedFive : Expr :=
  let five := Expr.typedConstant (.int64 5) (.primitive .int32)
  five.compare .equals (.constant (.int32 5))

/-- The comparison has a key although its left operand does not fit; the operand is plain. -/
theorem mismatches_of_mistypedFive
    : generate {} mistypedFive = .ok ⟨"[=](5:Edm.Int32,5:Edm.Int32)"⟩
      ∧ ∀ p ∈ mistypedFive.walk, ∀ payload, p.1.body = .constant payload
        → ∃ kind, p.1.usage.type.scalarKind? = some kind
          ∧ (payload.fits kind = true
            ∨ Literal.isPlain kind = true ∧ Literal.isPlain payload.naturalKind = true) := by
  have hkey : generate {} mistypedFive = .ok ⟨"[=](5:Edm.Int32,5:Edm.Int32)"⟩ := by
    decide +kernel
  exact ⟨hkey, (mismatches_are_plain {} mistypedFive _ hkey).1⟩

/-- Validation warns of the long five, but the tree has a key, and the key is also that of the
tree whose constants are both what they declare.
-/
theorem generate_mistypedFive
    : (validate Rule.all mistypedFive).warnings.map WarningFinding.code = [.constantTypeMismatch]
      ∧ generate {} mistypedFive
        = generate {} (Expr.compare (.constant (.int32 5)) .equals (.constant (.int32 5)))
      ∧ ∃ key, generate {} mistypedFive = .ok key := by
  refine ⟨by decide +kernel, by decide +kernel, ⟨"[=](5:Edm.Int32,5:Edm.Int32)"⟩, ?_⟩
  decide +kernel

end QueryKey.Validation
