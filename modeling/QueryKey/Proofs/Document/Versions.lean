import QueryKey.Document.TreeFile
import QueryKey.Proofs.Document.Members
import QueryKey.Proofs.Json.Embedding

/-! Documents with a version. A version that is known changes nothing: the document below it is
read as it is read alone, faults included. A version that is too new is refused, whatever the
document is.
-/

namespace QueryKey.TreeFile

open QueryKey.Json (State Style writeString)
open QueryKey.Number (twoTo)

-----------------------------------------------------------------------------------------
-- Documents
-----------------------------------------------------------------------------------------

/-- A document with a version in front. -/
def withVersion (version : Nat) (json : Json) : Json :=
  .object [(versionKey, .number (.integer version)), (treeKey, json)]

/-- The version stands in front of the tree in arranged documents, too. -/
theorem arranged_withVersion (version : Nat) (json : Json)
    : (withVersion version json).arranged = withVersion version json.arranged := by
  have horder : versionKey < treeKey := by decide
  rw [withVersion, Json.arranged, Json.arrangedMembers, Json.arrangedMembers,
    Json.arrangedMembers, Json.insertMember, Json.insertMember, if_pos horder]
  rfl

/-- A version of 32 bits is read. -/
theorem readVersion_integer {version : Nat} (h : version < twoTo 32)
    : readVersion (.number (.integer version)) = .ok version := by
  have hfits : (0 : Int) ≤ version ∧ (version : Int) ≤ (twoTo 32 : Int) - 1 := by omega
  rw [readVersion, Document.integer?, if_pos hfits]
  rfl

/-- A version decides alone whether the document below it is read. -/
theorem ofArranged_withVersion {version : Nat} (h : version < twoTo 32) (json : Json)
    : ofArranged (withVersion version json)
      = if schemaVersion < version then .error (.schemaVersionMismatch schemaVersion version)
        else readTree json := by
  have hfound : (withVersion version json).get? versionKey = some (.number (.integer version)) :=
    rfl
  have htree : (withVersion version json).get? treeKey = some json := rfl
  have hversion : failing (readVersion (.number (.integer version))) = .ok version := by
    rw [readVersion_integer h]
    rfl
  rw [ofArranged, hfound]
  simp only [hversion, htree]
  rfl

/-- A document that is no object with a version is read as a bare tree. -/
theorem ofArranged_of_bare {json : Json}
    (h : ∀ members, json = .object members → versionKey ∉ members.map Prod.fst)
    : ofArranged json.arranged = readTree json.arranged := by
  have hnone : json.arranged.get? versionKey = none := by
    cases json with
    | object members =>
        refine Json.find?_eq_none ?_
        rw [Json.mem_keys_arrangedMembers]
        exact h members rfl
    | null | bool value | number value | string value | array items => rfl
  rw [ofArranged, hnone]

-----------------------------------------------------------------------------------------
-- Texts
-----------------------------------------------------------------------------------------

/-- The text of a document with a version in front. -/
def versionedText (version : Nat) (document : String) : String :=
  "\x7b\"schema_version\": " ++ toString version ++ ", \"tree\": " ++ document ++ "\x7d"

/-- The parts of a text with a version, as the reader meets them. -/
theorem toList_versionedText (version : Nat) (document : String)
    : (versionedText version document).toList
      = '\x7b' :: writeString versionKey (Style.colon (.indented 0)
          ((toString (version : Int)).toList ++ ',' :: ' ' :: writeString treeKey
            (Style.colon (.indented 0) (document.toList ++ ['\x7d'])))) := by
  have hfront (rest : List Char)
      : "\x7b\"schema_version\": ".toList ++ rest
        = '\x7b' :: writeString versionKey (Style.colon (.indented 0) rest) := rfl
  have hbetween (rest : List Char)
      : ", \"tree\": ".toList ++ rest
        = ',' :: ' ' :: writeString treeKey (Style.colon (.indented 0) rest) := rfl
  have hnumber : toString (version : Int) = toString version := rfl
  have hclose : "\x7d".toList = ['\x7d'] := rfl
  unfold versionedText
  simp only [String.toList_append, List.append_assoc]
  rw [hfront, hbetween, hclose, hnumber]

/-- What is read of a text with a version is the document with the version. -/
theorem parse_versionedText {version : Nat} (hversion : version < twoTo 32) {document : String}
    {json : Json} (h : Json.parse document = .ok json) (hdeep : json.nesting < State.depthLimit)
    : Json.parse (versionedText version document) = .ok (withVersion version json) := by
  have hkept : (Json.Number.integer version).IsKept := by
    have hsmall : twoTo 32 ≤ twoTo 64 := by decide
    exact ⟨by omega, by omega⟩
  have hopen : State.step .start '\x7b' = .ok ⟨[], .key [] true⟩ := rfl
  have hcomma (value : Json)
      : State.step ⟨[.object [] versionKey], .done value⟩ ','
        = .ok ⟨[], .key [(versionKey, value)] false⟩ := rfl
  have hblank (members : Json.Members)
      : State.step ⟨[], .key members false⟩ ' ' = .ok ⟨[], .key members false⟩ := rfl
  have hroom : json.nesting + [Json.Frame.object [(versionKey, .number (.integer version))]
      treeKey].length ≤ State.depthLimit := hdeep
  have hrun : State.run .start (versionedText version document).toList
      = .ok ⟨[], .done (withVersion version json)⟩ := by
    rw [toList_versionedText, State.run_cons_of_step hopen, State.run_key_writeString,
      State.run_integer _ false hkept (by decide), State.run_cons_of_step (hcomma _),
      State.run_cons_of_step (hblank _), State.run_key_writeString, Json.run_of_parse h hroom rfl]
    rfl
  rw [Json.parse, hrun]
  rfl

/-- A document is read alike with a version that is known and without a version. With a version
that is too new it is refused.
-/
theorem ofText_versionedText {document : String} {json : Json}
    (hread : Json.parse document = .ok json) (hdeep : json.nesting ≤ 126)
    : (∀ version ≤ 1, (∀ members, json = .object members → versionKey ∉ members.map Prod.fst)
          → ofText (versionedText version document) = ofText document)
      ∧ ∀ version, 1 < version → version < twoTo 32
          → ofText (versionedText version document)
            = .error (.schemaVersionMismatch 1 version) := by
  have hbare : ofText document = ofArranged json.arranged := by
    rw [ofText, parse, hread]
    rfl
  have hversioned {version : Nat} (hversion : version < twoTo 32)
      : ofText (versionedText version document)
        = if schemaVersion < version then .error (.schemaVersionMismatch schemaVersion version)
          else readTree json.arranged := by
    have hroom : json.nesting < State.depthLimit := Nat.lt_succ_of_le hdeep
    rw [ofText, parse, parse_versionedText hversion hread hroom]
    refine Eq.trans ?_ (ofArranged_withVersion hversion json.arranged)
    rw [← arranged_withVersion]
    rfl
  refine ⟨fun version hknown hobject => ?_, fun version hnew hversion => ?_⟩
  · have hold : ¬ schemaVersion < version := Nat.not_lt.mpr hknown
    have hversion : version < twoTo 32 := Nat.lt_of_le_of_lt hknown (by decide)
    rw [hversioned hversion, if_neg hold, hbare, ofArranged_of_bare hobject]
  · rw [hversioned hversion]
    exact if_pos hnew

/-- A document that is no tree. -/
def strayDocument : Json :=
  .object [("node", .array [.number (.integer 7)])]

theorem ofText_versionedText_strayDocument
    : Json.parse "\x7b\"node\": [7]\x7d" = .ok strayDocument
      ∧ strayDocument.nesting ≤ 126
      ∧ ofText (versionedText 1 "\x7b\"node\": [7]\x7d") = ofText "\x7b\"node\": [7]\x7d"
      ∧ ofText (versionedText 2 "\x7b\"node\": [7]\x7d")
        = .error (.schemaVersionMismatch 1 2) := by
  have hread : Json.parse "\x7b\"node\": [7]\x7d" = .ok strayDocument := rfl
  have hdeep : strayDocument.nesting ≤ 126 := by decide
  have hobject (members : List (String × Json)) (h : strayDocument = .object members)
      : versionKey ∉ members.map Prod.fst := by
    cases h
    decide
  obtain ⟨hknown, hnew⟩ := ofText_versionedText hread hdeep
  exact ⟨hread, hdeep, hknown 1 (Nat.le_refl 1) hobject, hnew 2 (by decide) (by decide)⟩

end QueryKey.TreeFile
