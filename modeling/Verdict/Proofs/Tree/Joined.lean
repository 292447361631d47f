import Verdict.Proofs.Tree.Accepted

/-!
# Trees that are joined

`Tree.disjoin` puts `OR` above trees from left to right, whatever their levels. Joining trees comes
to this tree, or to none: `any_eq_ok_iff` says that the levels are checked exactly if there is
something to join. A tree that stands alone is not checked, so `levels_of_any` finds one way, and
no other, in which a tree of too many levels comes out.
-/

namespace Verdict

namespace Tree

/-- Some trees under `OR`, from left to right. -/
def disjoin (first : Tree) (rest : List Tree) : Tree :=
  rest.foldl (binary .or) first

/-! ## The outcome of a join -/

theorem depth_lt_depth_or (left right : Tree) : left.depth < (binary .or left right).depth := by
  simp only [binary, depth]
  omega

/-- Joining never takes levels away. -/
theorem depth_le_depth_disjoin (first : Tree) (rest : List Tree) :
    first.depth ≤ (disjoin first rest).depth := by
  induction rest generalizing first with
  | nil => exact Nat.le_refl _
  | cons tree rest ih =>
      calc first.depth
        _ ≤ (binary .or first tree).depth := Nat.le_of_lt (depth_lt_depth_or first tree)
        _ ≤ (disjoin (binary .or first tree) rest).depth := ih _

/-- The levels are checked at every join, and the last check is the strictest. -/
theorem join_eq_ok_iff {first t : Tree} {rest : List Tree} :
    join first first.depth rest = .ok t ↔
      t = disjoin first rest ∧ (rest = [] ∨ t.depth ≤ maxLevels) := by
  induction rest generalizing first with
  | nil =>
      show Except.ok first = .ok t ↔ t = first ∧ _
      simp [eq_comm]
  | cons tree rest ih =>
      rw [join_cons]
      have hgrow := depth_le_depth_disjoin (binary .or first tree) rest
      split
      · next hdeep =>
          refine ⟨fun h => (nomatch h), ?_⟩
          rintro ⟨rfl, hnil | hle⟩
          · cases hnil
          · exact absurd hdeep (Nat.not_lt.mpr (Nat.le_trans hgrow hle))
      · next hle =>
          rw [ih]
          refine and_congr_right fun ht => ?_
          constructor
          · rintro (rfl | ht)
            · rw [ht]
              exact .inr (Nat.not_lt.mp hle)
            · exact .inr ht
          · rintro (hnil | ht)
            · cases hnil
            · exact .inr ht

theorem any_eq_ok_iff {first t : Tree} {rest : List Tree} :
    any (first :: rest) = .ok t ↔
      t = disjoin first rest ∧ (rest = [] ∨ t.depth ≤ maxLevels) :=
  join_eq_ok_iff

/-- Joining trees fails only when the joined tree has too many levels. -/
theorem exists_tooDeep_of_join {trees : List Tree} {joined : Tree} {e : RuleError}
    (h : join joined joined.depth trees = .error e) : ∃ levels, e = .tooDeep levels := by
  induction trees generalizing joined with
  | nil => cases h
  | cons tree rest ih =>
      rw [join_cons] at h
      split at h
      · cases h
        exact ⟨_, rfl⟩
      · exact ih h

/-! ## The levels of what is joined -/

/-- **Levels of joined trees.** What comes out of a join has too many levels exactly if it is a
tree with too many levels that went in alone. Joining nothing fails for want of rules, and any
other failure lies in the input; one tree never fails, and several do exactly if their joined tree
has too many levels. -/
theorem levels_of_any (trees : List Tree) :
    (∀ t, any trees = .ok t →
      (maxLevels < t.depth ↔ ∃ deep, trees = [deep] ∧ maxLevels < deep.depth)) ∧
    (∀ e, any trees = .error e →
      (trees = [] ∧ e = .noRules) ∨ (2 ≤ trees.length ∧ e.IsInvalidInput)) ∧
    ((∃ t, any trees = .ok t) ↔ ∃ first rest, trees = first :: rest ∧
      (rest = [] ∨ (disjoin first rest).depth ≤ maxLevels)) := by
  cases trees with
  | nil =>
      refine ⟨fun t h => (nomatch h), fun e h => ?_, ?_⟩
      · cases h
        exact .inl ⟨rfl, rfl⟩
      · exact ⟨fun ⟨_, h⟩ => (nomatch h), fun ⟨_, _, h, _⟩ => (nomatch h)⟩
  | cons first rest =>
      refine ⟨fun t h => ?_, fun e h => ?_, ?_⟩
      · obtain ⟨rfl, rfl | hle⟩ := any_eq_ok_iff.mp h
        · -- the only tree comes out as it went in
          constructor
          · intro hdeep
            exact ⟨first, rfl, hdeep⟩
          · rintro ⟨deep, hone, hdeep⟩
            cases hone
            exact hdeep
        · constructor
          · intro hdeep
            exact absurd hdeep (Nat.not_lt.mpr hle)
          · rintro ⟨deep, hone, hdeep⟩
            cases hone
            exact hdeep
      · obtain ⟨levels, rfl⟩ := exists_tooDeep_of_join h
        cases rest with
        | nil => cases h
        | cons second rest => exact .inr ⟨by simp, rfl⟩
      · simp only [any_eq_ok_iff, exists_eq_left, List.cons.injEq]
        constructor
        · intro h
          exact ⟨first, rest, ⟨rfl, rfl⟩, h⟩
        · rintro ⟨_, _, ⟨rfl, rfl⟩, h⟩
          exact h

/-- An operand that is joined with itself as often as there are levels. -/
def overgrown : Tree :=
  disjoin (.operand "a") (List.replicate maxLevels (.operand "a"))

/-- A tree with one level too many comes out of a join that it goes into alone. -/
theorem any_overgrown :
    any [overgrown] = .ok overgrown ∧ overgrown.depth = 101 ∧ ¬ overgrown.depth ≤ maxLevels := by
  refine ⟨rfl, ?_, ?_⟩
  all_goals decide +kernel

end Tree

end Verdict
