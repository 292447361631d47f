import Verdict.Tree.Json

/-!
# Nesting of stored trees

`Json.nestingUpTo` counts the nesting of a value exactly, up to its limit (`nestingUpTo_eq_min`),
so the check in front of the decoder is a check of the nesting (`ofJson_eq`). `Tree.Layered` says
which properties of trees decoding keeps, level by level: children of operands and unknown keys may
add to the nesting, never take from it. A value therefore stores no tree with more levels than its
nesting (`depth_le_nesting`), and the check bounds the levels of every tree that comes from
storage.
-/

namespace Verdict

namespace Json

mutual

/-- Counting up to a limit gives the nesting, or the limit where the nesting is beyond it. -/
theorem nestingUpTo_eq_min : ∀ (limit : Nat) (value : Json),
    value.nestingUpTo limit = min value.nesting limit
  | 0, value => by simp [nestingUpTo]
  | limit + 1, .array items => by
      rw [nestingUpTo, nesting, Items.nestingUpTo_eq_min limit items, Nat.add_min_add_right]
  | limit + 1, .object members => by
      rw [nestingUpTo, nesting, Members.nestingUpTo_eq_min limit members, Nat.add_min_add_right]
  | _ + 1, .null => by simp [nestingUpTo, nesting]
  | _ + 1, .bool _ => by simp [nestingUpTo, nesting]
  | _ + 1, .number _ => by simp [nestingUpTo, nesting]
  | _ + 1, .string _ => by simp [nestingUpTo, nesting]

theorem Items.nestingUpTo_eq_min : ∀ (limit : Nat) (items : Items),
    items.nestingUpTo limit = min items.nesting limit
  | limit, .nil => by simp [Items.nestingUpTo, Items.nesting]
  | limit, .cons item rest => by
      rw [Items.nestingUpTo, Items.nesting, Json.nestingUpTo_eq_min limit item,
        Items.nestingUpTo_eq_min limit rest]
      omega

theorem Members.nestingUpTo_eq_min : ∀ (limit : Nat) (members : Members),
    members.nestingUpTo limit = min members.nesting limit
  | limit, .nil => by simp [Members.nestingUpTo, Members.nesting]
  | limit, .cons _ value rest => by
      rw [Members.nestingUpTo, Members.nesting, Json.nestingUpTo_eq_min limit value,
        Members.nestingUpTo_eq_min limit rest]
      omega

end

end Json

namespace Tree

/-! ## What decoding keeps -/

/-- A property of trees within so many levels that decoding keeps: it holds of a missing tree and
of every operand, of a node if it holds of the children one level below, and it is not lost where
there is room for more levels. -/
structure Layered (P : Nat → Tree → Prop) : Prop where
  room : ∀ {n m : Nat} {t : Tree}, n ≤ m → P n t → P m t
  absent : P 0 .absent
  operand : ∀ (n : Nat) (token : String), P (n + 1) (.operand token)
  operator : ∀ {n : Nat} {left right : Tree} (text : String), P n left → P n right →
    P (n + 1) (.operator (.ofText text) left right)

/-- Whether a property holds of the children decoded so far. -/
def Parts.Hold (P : Nat → Tree → Prop) (n : Nat) (parts : Parts) : Prop :=
  P n (parts.left.getD .absent) ∧ P n (parts.right.getD .absent)

namespace Layered

variable {P : Nat → Tree → Prop}

theorem none (hP : Layered P) (n : Nat) : Parts.none.Hold P n :=
  ⟨hP.room (Nat.zero_le n) hP.absent, hP.room (Nat.zero_le n) hP.absent⟩

theorem finish (hP : Layered P) {n : Nat} {parts : Parts} {t : Tree} (hparts : parts.Hold P n)
    (h : parts.finish = .ok t) : P (n + 1) t := by
  unfold Parts.finish at h
  split at h <;> cases h
  · exact hP.operand n _
  · exact hP.operator _ hparts.1 hparts.2

mutual

/-- The tree that a value stores has the property within the nesting of the value. -/
theorem of_decode (hP : Layered P) : ∀ {value : Json} {t : Tree}, decode value = .ok t →
    P value.nesting t
  | .null, t, h => by
      cases h
      exact hP.absent
  | .object members, t, h => by
      rw [decode] at h
      split at h
      · cases h
      · next parts hparts =>
          exact hP.finish (of_decodeMembers hP (Nat.le_refl _) hparts (hP.none _)) h
  | .array items, t, h => by
      rw [decode] at h
      split at h
      · cases h
      · next parts hparts =>
          exact hP.finish (of_decodeItems hP (Nat.le_refl _) hparts (hP.none _)) h
  | .bool _, t, h => nomatch h
  | .number _, t, h => nomatch h
  | .string _, t, h => nomatch h

theorem of_decodeItems (hP : Layered P) : ∀ {items : Json.Items} {place n : Nat}
    {parts parts' : Parts}, items.nesting ≤ n →
    decodeItems place parts items = .ok parts' → parts.Hold P n → parts'.Hold P n
  | .nil, place, n, parts, parts', _, h, hparts => by
      rw [decodeItems] at h
      split at h <;> cases h
      exact hparts
  | .cons item rest, place, n, parts, parts', hn, h, hparts => by
      rw [Json.Items.nesting] at hn
      obtain ⟨hitem, hrest⟩ := Nat.max_le.mp hn
      have hchild : ∀ {child : Tree}, decode item = .ok child → P n child :=
        fun hdecode => hP.room hitem (of_decode hP hdecode)
      match place with
      | 0 =>
          simp only [decodeItems] at h
          split at h
          · cases h
          · exact of_decodeItems hP hrest h hparts
      | 1 =>
          simp only [decodeItems] at h
          split at h
          · cases h
          · exact of_decodeItems hP hrest h hparts
      | 2 =>
          simp only [decodeItems] at h
          split at h
          · cases h
          · next hleft => exact of_decodeItems hP hrest h ⟨hchild hleft, hparts.2⟩
      | 3 =>
          simp only [decodeItems] at h
          split at h
          · cases h
          · next hright => exact of_decodeItems hP hrest h ⟨hparts.1, hchild hright⟩
      | place + 4 =>
          simp only [decodeItems] at h
          cases h

theorem of_decodeMembers (hP : Layered P) : ∀ {members : Json.Members} {n : Nat}
    {parts parts' : Parts}, members.nesting ≤ n →
    decodeMembers parts members = .ok parts' → parts.Hold P n → parts'.Hold P n
  | .nil, n, parts, parts', _, h, hparts => by
      cases h
      exact hparts
  | .cons key value rest, n, parts, parts', hn, h, hparts => by
      rw [Json.Members.nesting] at hn
      obtain ⟨hvalue, hrest⟩ := Nat.max_le.mp hn
      have hchild : ∀ {child : Tree}, decode value = .ok child → P n child :=
        fun hdecode => hP.room hvalue (of_decode hP hdecode)
      rw [decodeMembers] at h
      split at h
      · split at h
        · cases h
        · next hleft => exact of_decodeMembers hP hrest h ⟨hchild hleft, hparts.2⟩
      split at h
      · split at h
        · cases h
        · next hright => exact of_decodeMembers hP hrest h ⟨hparts.1, hchild hright⟩
      -- the type, the value and unknown keys hold no child
      split at h
      · split at h
        · cases h
        · exact of_decodeMembers hP hrest h hparts
      split at h
      · split at h
        · cases h
        · exact of_decodeMembers hP hrest h hparts
      · exact of_decodeMembers hP hrest h hparts

end

end Layered

/-- A value stores no tree with more levels than its nesting. -/
theorem depth_le_nesting {value : Json} {t : Tree} (h : decode value = .ok t) :
    t.depth ≤ value.nesting := by
  have hlayered : Layered fun n t => t.depth ≤ n := {
    room := fun hle hdepth => Nat.le_trans hdepth hle
    absent := Nat.le_refl 0
    operand := fun n _ => Nat.le_add_left 1 n
    operator := fun _ hleft hright => Nat.succ_le_succ (Nat.max_le.mpr ⟨hleft, hright⟩) }
  exact hlayered.of_decode h

/-- The nesting alone decides whether a value is decoded at all, and one that nests too deeply is
refused as one level too many, however deep it is. -/
theorem ofJson_eq (value : Json) :
    ofJson value =
      if maxLevels < value.nesting then .error (.tooDeep (maxLevels + 1))
      else (decode value).mapError .json := by
  unfold ofJson
  rw [Json.nestingUpTo_eq_min]
  simp only
  by_cases hdeep : maxLevels < value.nesting
  · rw [Nat.min_eq_right hdeep, if_pos (Nat.lt_succ_self _), if_pos hdeep]
  · rw [Nat.min_eq_left (by omega), if_neg hdeep, if_neg hdeep]

/-- A tree that comes from storage was decoded, and its value nests within the levels. -/
theorem ofJson_eq_ok_iff {value : Json} {t : Tree} :
    ofJson value = .ok t ↔ value.nesting ≤ maxLevels ∧ decode value = .ok t := by
  rw [ofJson_eq]
  by_cases hdeep : maxLevels < value.nesting
  · rw [if_pos hdeep]
    constructor
    · intro h
      cases h
    · intro h
      exact absurd hdeep (Nat.not_lt.mpr h.1)
  · rw [if_neg hdeep]
    cases decode value with
    | error fault =>
        constructor
        · intro h
          cases h
        · intro h
          cases h.2
    | ok t' =>
        constructor
        · intro h
          cases h
          exact ⟨Nat.not_lt.mp hdeep, rfl⟩
        · rintro ⟨-, h⟩
          cases h
          rfl

/-- A tree that comes from storage is within the levels. -/
theorem depth_le_of_ofJson {value : Json} {t : Tree} (h : ofJson value = .ok t) :
    t.depth ≤ maxLevels := by
  obtain ⟨hnesting, hdecode⟩ := ofJson_eq_ok_iff.mp h
  exact Nat.le_trans (depth_le_nesting hdecode) hnesting

end Tree

end Verdict
