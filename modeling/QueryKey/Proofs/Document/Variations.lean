import Mathlib.Logic.Relation
import QueryKey.Expr.Builder
import QueryKey.Proofs.Document.Additions

/-! Documents that tell the same tree. It matters neither in which order the members of an object
stand nor which others stand among them, so that documents of other origin load as well.
-/

namespace QueryKey.Json

/-- Reordering changes no number, by induction on the place. -/
theorem Reorders.isLegible {j k : Json} (h : Reorders j k) (hj : j.IsLegible) : k.IsLegible := by
  induction h with
  | here hperm =>
      rw [isLegible_object] at hj ⊢
      exact fun m hm => hj m (hperm.mem_iff.mpr hm)
  | item _ _ _ ih => exact hj.replaceItem ih
  | member _ _ _ _ ih => exact hj.replaceMember ih

/-- What one reordering keeps, many of them keep. -/
theorem reorders_keep {j k : Json} (h : Relation.ReflTransGen Reorders j k) (hj : j.HasDistinctKeys)
    (hlegible : j.IsLegible)
    : k.HasDistinctKeys ∧ k.IsLegible ∧ j.arranged = k.arranged := by
  induction h with
  | refl => exact ⟨hj, hlegible, rfl⟩
  | tail _ hstep ih =>
      obtain ⟨hdistinct, hlegible, heq⟩ := ih
      obtain ⟨hdistinct, hstep'⟩ := hstep.arranged_eq hdistinct
      exact ⟨hdistinct, hstep.isLegible hlegible, heq.trans hstep'⟩

end QueryKey.Json

namespace QueryKey.TreeFile

open QueryKey.Document QueryKey.Expr QueryKey.Metadata
open QueryKey.Json (HasText State)

/-- Not an object with a version. -/
def IsBare (json : Json) : Prop :=
  ∀ members, json = .object members → versionKey ∉ members.map Prod.fst

/-- One member is added to a document that is read as a tree file: beside the version and the tree,
or at a place inside the tree. A bare tree gets no version.
-/
inductive Adds : Json → Json → Prop where
  | bare {j k : Json} (hj : IsBare j) (hk : IsBare k) (h : Document.Adds .expr j k) : Adds j k
  | here (front back : List (String × Json)) {key : String} {value : Json}
      (hversion : versionKey ∈ (front ++ back).map Prod.fst) (hkey : key ∉ [versionKey, treeKey])
      (hvalue : value.HasText)
      : Adds (.object (front ++ back)) (.object (front ++ (key, value) :: back))
  | tree (front back : List (String × Json)) {j k : Json}
      (hversion : versionKey ∈ (front ++ (treeKey, j) :: back).map Prod.fst)
      (h : Document.Adds .expr j k)
      : Adds (.object (front ++ (treeKey, j) :: back)) (.object (front ++ (treeKey, k) :: back))

theorem implies_readTree {j k : Json} (h : Implies (read j false .expr) (read k false .expr))
    : Implies (readTree j) (readTree k) :=
  h.mapError _

/-- Objects with the same version load alike if their trees are read alike. -/
theorem implies_ofArranged_object {members others : List (String × Json)}
    (hversion : versionKey ∈ members.map Prod.fst)
    (hsame : Json.find? versionKey (Json.arrangedMembers others)
      = Json.find? versionKey (Json.arrangedMembers members))
    (htree : Option.Rel (fun v w => Implies (readTree v) (readTree w))
      (Json.find? treeKey (Json.arrangedMembers members))
      (Json.find? treeKey (Json.arrangedMembers others)))
    : Implies (ofArranged (Json.object members).arranged)
        (ofArranged (Json.object others).arranged) := by
  have hget (members : List (String × Json)) (key : String)
      : (Json.object members).arranged.get? key = Json.find? key (Json.arrangedMembers members) :=
    rfl
  obtain ⟨version, hfound⟩ := Json.exists_find? (Json.mem_keys_arrangedMembers.mpr hversion)
  simp only [ofArranged, hget, hsame, hfound]
  refine (Implies.refl _).bind fun found _ => ?_
  split
  · exact .refl _
  · generalize Json.find? treeKey (Json.arrangedMembers members) = v,
      Json.find? treeKey (Json.arrangedMembers others) = w at htree
    cases htree with
    | none => exact .refl _
    | some himplies => exact himplies

/-- A tree file loads as before with an additional member. -/
theorem Adds.implies {j k : Json} (h : Adds j k)
    : Implies (ofArranged j.arranged) (ofArranged k.arranged) := by
  cases h with
  | bare hj hk h =>
      rw [ofArranged_of_bare hj, ofArranged_of_bare hk]
      exact implies_readTree (h.implies false)
  | here front back hversion hkey hvalue =>
      simp only [List.mem_cons, List.not_mem_nil, or_false, not_or] at hkey
      refine implies_ofArranged_object hversion ?_ ?_
      · exact Json.find?_arrangedMembers_insert (Ne.symm hkey.1) ..
      · rw [Json.find?_arrangedMembers_insert (Ne.symm hkey.2)]
        cases Json.find? treeKey (Json.arrangedMembers (front ++ back)) with
        | none => exact .none
        | some tree => exact .some (.refl _)
  | @tree front back j k hversion h =>
      have hfield : field treeKey .expr ∈ [field treeKey .expr] := List.mem_singleton_self _
      have hsame := agree_replace (by simp) hfield h.implies front back
      refine implies_ofArranged_object hversion (find?_eq_of_agree hsame (by decide)) ?_
      have hfound := hsame.find? treeKey
      generalize Json.find? treeKey (Json.arrangedMembers (front ++ (treeKey, j) :: back)) = v,
        Json.find? treeKey (Json.arrangedMembers (front ++ (treeKey, k) :: back)) = w at hfound ⊢
      cases hfound with
      | none => exact .none
      | some hagree => exact .some (implies_readTree (hagree.implies false _ hfield rfl))

theorem Adds.isLegible {j k : Json} (h : Adds j k) (hj : j.IsLegible) : k.IsLegible := by
  cases h with
  | bare _ _ h => exact h.isLegible hj
  | here _ _ _ _ hvalue => exact hj.insertMember hvalue.isLegible
  | tree _ _ _ h => exact hj.replaceMember h.isLegible

/-- What one additional member keeps, many of them keep. -/
theorem additions_keep {j k : Json} (h : Relation.ReflTransGen Adds j k) (hj : j.IsLegible)
    : k.IsLegible ∧ Implies (ofArranged j.arranged) (ofArranged k.arranged) := by
  induction h with
  | refl => exact ⟨hj, .refl _⟩
  | tail _ hstep ih =>
      obtain ⟨hlegible, himplies⟩ := ih
      exact ⟨hstep.isLegible hlegible, fun t ht => hstep.implies t (himplies t ht)⟩

theorem ofText_eq_of_parse {text : String} {j : Json} (h : Json.parse text = .ok j)
    : ofText text = ofArranged j.arranged := by
  rw [ofText, parse, h]
  rfl

/-- A tree is loaded from any document that differs from one of its documents in the order of
members and in members that nothing is read of, and such a document has a text.
-/
theorem ofText_of_variation {text : String} {j reordered varied : Json} {tree : Expr}
    (hparse : Json.parse text = .ok j) (hkeys : j.HasDistinctKeys) (hload : ofText text = .ok tree)
    (hreorders : Relation.ReflTransGen Json.Reorders j reordered)
    (hadds : Relation.ReflTransGen Adds reordered varied)
    (hdeep : varied.nesting ≤ State.depthLimit)
    : varied.HasText ∧ ∀ other, Json.parse other = .ok varied → ofText other = .ok tree := by
  have hlegible : j.IsLegible := HasText.isLegible ⟨text, hparse⟩
  obtain ⟨-, hreordered, harranged⟩ := Json.reorders_keep hreorders hkeys hlegible
  obtain ⟨hvaried, himplies⟩ := additions_keep hadds hreordered
  refine ⟨Json.hasText_iff.mpr ⟨hvaried, hdeep⟩, fun other hother => ?_⟩
  rw [ofText_eq_of_parse hother]
  refine himplies tree ?_
  rw [← harranged, ← ofText_eq_of_parse hparse]
  exact hload

-----------------------------------------------------------------------------------------
-- An annotated parameter
-----------------------------------------------------------------------------------------

/-- The file of a parameter whose node has these members. -/
def parameterFile (node : List (String × Json)) : Json :=
  let type := Json.object
    [("identity", .string "Edm.Int32"), ("kind", .object [("Primitive", .string "Int32")])]
  let usage := Json.object [("identity", .string "Edm.Int32"), ("edm_type", type)]
  .object [(versionKey, .number (.integer 1)),
    (treeKey, .object [("type", usage), ("node", .object node)])]

def yearNode : List (String × Json) :=
  [("kind", .string "ParameterReference"), ("name", .string "year")]

/-- The members in another order. -/
def turnedNode : List (String × Json) :=
  [("name", .string "year"), ("kind", .string "ParameterReference")]

/-- A note between the members, under the name of a field that other nodes have. -/
def annotatedNode : List (String × Json) :=
  [("name", .string "year"), ("left", .array [.object []]), ("kind", .string "ParameterReference")]

theorem parse_parameterFile
    : Json.parse (parameterFile yearNode).pretty = .ok (parameterFile yearNode) := by
  exact Json.parse_pretty (by decide) (by decide) nofun

theorem hasDistinctKeys_parameterFile : (parameterFile yearNode).HasDistinctKeys := by
  simp [parameterFile, yearNode, Json.hasDistinctKeys_object, Json.HasDistinctKeys.string,
    Json.HasDistinctKeys.number, versionKey, treeKey]

theorem reorders_parameterFile
    : Json.Reorders (parameterFile yearNode) (parameterFile turnedNode) :=
  .member [_] [] treeKey (.member [_] [] "node" (.here (.swap ..)))

theorem adds_parameterFile : Adds (parameterFile turnedNode) (parameterFile annotatedNode) := by
  have hnode : Document.Adds .body (.object turnedNode) (.object annotatedNode) :=
    .here [_] [_] rfl (by decide) ⟨"[\x7b\x7d]", rfl⟩
  exact .tree [_] [] (by decide) (.field [_] [] (field "node" .body) rfl (by decide) hnode)

theorem ofText_of_annotatedNode
    : Json.parse (parameterFile yearNode).pretty = .ok (parameterFile yearNode)
      ∧ (parameterFile yearNode).HasDistinctKeys
      ∧ ofText (parameterFile yearNode).pretty = .ok (parameter "year" (.primitive .int32))
      ∧ Relation.ReflTransGen Json.Reorders (parameterFile yearNode) (parameterFile turnedNode)
      ∧ Relation.ReflTransGen Adds (parameterFile turnedNode) (parameterFile annotatedNode)
      ∧ (parameterFile annotatedNode).nesting ≤ State.depthLimit
      ∧ (parameterFile annotatedNode).HasText
      ∧ ∀ other, Json.parse other = .ok (parameterFile annotatedNode)
        → ofText other = .ok (parameter "year" (.primitive .int32)) := by
  have hload : ofText (parameterFile yearNode).pretty
      = .ok (parameter "year" (.primitive .int32)) := by
    rw [ofText_eq_of_parse parse_parameterFile]
    rfl
  have hreorders := Relation.ReflTransGen.single reorders_parameterFile
  have hadds := Relation.ReflTransGen.single adds_parameterFile
  have hdeep : (parameterFile annotatedNode).nesting ≤ State.depthLimit := by decide
  exact ⟨parse_parameterFile, hasDistinctKeys_parameterFile, hload, hreorders, hadds, hdeep,
    ofText_of_variation parse_parameterFile hasDistinctKeys_parameterFile hload hreorders hadds
      hdeep⟩

end QueryKey.TreeFile
