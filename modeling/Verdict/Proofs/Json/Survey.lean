import Verdict.Proofs.Survey
import Verdict.Proofs.Tree.Storage

/-!
# Nesting counted from a list

Arrays and objects are the levels of a JSON value, and what stands in them are their items and the
values of their members. Counting these levels from a list of waiting values, in any order and
broken off as soon as there are more than a tree may have, comes to what `Json.nestingUpTo` counts by
recursion: the nesting of the value, or one level more than there may be. The main statement,
`Json.nestingUpTo_counts`, says also what this number is for stored trees.
-/

namespace Verdict

namespace Json

/-! ## What stands in an array or an object -/

theorem Items.nesting_eq (items : Items) :
    items.nesting = (items.toList.map Json.nesting).foldr max 0 := by
  match items with
  | .nil => rfl
  | .cons item rest => exact congrArg (max item.nesting) rest.nesting_eq

theorem Members.nesting_eq (members : Members) :
    members.nesting = ((members.toList.map Prod.snd).map Json.nesting).foldr max 0 := by
  match members with
  | .nil => rfl
  | .cons key value rest => exact congrArg (max value.nesting) rest.nesting_eq

/-- Whether a value is an array or an object. -/
def IsContainer : Json → Prop
  | .array _ => True
  | .object _ => True
  | _ => False

/-- The items of an array, or the values of the members of an object. -/
def inside : Json → List Json
  | .array items => items.toList
  | .object members => members.toList.map Prod.snd
  | _ => []

theorem nesting_eq_zero : ∀ {value : Json}, ¬ value.IsContainer → value.nesting = 0
  | .array _, h => absurd trivial h
  | .object _, h => absurd trivial h
  | .null, _ => rfl
  | .bool _, _ => rfl
  | .number _, _ => rfl
  | .string _, _ => rfl

/-- An array or an object nests once more than what stands in it. -/
theorem nesting_eq : ∀ {value : Json}, value.IsContainer →
    value.nesting = (value.inside.map nesting).foldr max 0 + 1
  | .array items, _ => congrArg (· + 1) items.nesting_eq
  | .object members, _ => congrArg (· + 1) members.nesting_eq

/-- The arrays and objects of a value as its levels. -/
def containers : Levels Json where
  IsLevel := IsContainer
  inside := inside
  levels := nesting
  levels_eq_zero := nesting_eq_zero
  levels_eq := nesting_eq

/-! ## The count -/

/-- **Counting the nesting.** Whichever of the waiting values is taken up next, a count of arrays and
objects that breaks off beyond `maxLevels` ends, and with the number that `nestingUpTo` gives: the
nesting of the value, but at most one level more than a tree may have. For a stored tree these are
its own levels up to there, and no tree is read from a value that counts fewer levels than the
tree has. -/
theorem nestingUpTo_counts (value : Json) :
    containers.Counts (maxLevels < ·) value (value.nestingUpTo (maxLevels + 1)) ∧
    value.nestingUpTo (maxLevels + 1) = min value.nesting (maxLevels + 1) ∧
    (∀ t : Tree, t.toJson.nestingUpTo (maxLevels + 1) = min t.depth (maxLevels + 1)) ∧
    ∀ t : Tree, Tree.ofJson value = .ok t → t.depth ≤ value.nestingUpTo (maxLevels + 1) := by
  have hmin := nestingUpTo_eq_min (maxLevels + 1) value
  refine ⟨?_, hmin, fun t => ?_, fun t hread => ?_⟩
  · rw [hmin]
    exact containers.counts_min (maxLevels + 1) value
  · rw [nestingUpTo_eq_min, Tree.nesting_toJson]
  · obtain ⟨hnesting, hdecode⟩ := Tree.ofJson_eq_ok_iff.mp hread
    have hdepth := Tree.depth_le_nesting hdecode
    omega

/-- An operand with a note on the side: the note nests, the tree does not, and what is counted is the
note. -/
theorem nestingUpTo_counts_note :
    let note : Json := .ofItems [.null, .ofItems [.ofItems []]]
    let value : Json := .object (.cons "note" note (.cons "type" (.string "operand")
      (.cons "value" (.string "a") .nil)))
    Tree.ofJson value = .ok (.operand "a") ∧ value.nestingUpTo (maxLevels + 1) = 4 ∧
      (Tree.operand "a").depth ≤ value.nestingUpTo (maxLevels + 1) ∧
      containers.Counts (maxLevels < ·) value 4 := by
  intro note value
  have hread : Tree.ofJson value = .ok (.operand "a") := rfl
  have hfour : value.nestingUpTo (maxLevels + 1) = 4 := by decide
  obtain ⟨hcounts, -, -, hdepth⟩ := nestingUpTo_counts value
  exact ⟨hread, hfour, hdepth _ hread, hfour ▸ hcounts⟩

end Json

end Verdict
