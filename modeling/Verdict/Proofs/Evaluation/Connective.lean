import Verdict.Proofs.Evaluation.Order

/-!
# Conjunctions and disjunctions

`AND` and `OR` look at nothing but the truth of what stands below them. So the verdict of two
trees that a connective joins is that of the connective on their own verdicts
(`Tree.evaluate_join_eq_ok`), and if the two fail together for an unknown operator, one of them
does so alone (`Tree.evaluate_join_eq_unknown`).
-/

namespace Verdict

/-- An operator that joins truth values. -/
inductive Connective where
  | and
  | or
deriving DecidableEq, Repr

namespace Connective

/-- The operator of a connective. -/
def operator : Connective → Operator
  | and => .and
  | or => .or

/-- A connective between two truth values. -/
def apply : Connective → Bool → Bool → Bool
  | and, a, b => a && b
  | or, a, b => a || b

/-- Two trees under a connective. -/
def join (c : Connective) (left right : Tree) : Tree :=
  .operator (.known c.operator) left right

theorem operator_apply (c : Connective) (a b : Value) :
    c.operator.apply a b = c.apply a.isTruthy b.isTruthy := by
  cases c <;> rfl

theorem apply_comm (c : Connective) (a b : Bool) : c.apply a b = c.apply b a := by
  cases c with
  | and => exact Bool.and_comm a b
  | or => exact Bool.or_comm a b

/-- More truth on either side never makes a connective false. -/
theorem apply_mono (c : Connective) {a a' b b' : Bool} (ha : a = true → a' = true)
    (hb : b = true → b' = true) (h : c.apply a b = true) : c.apply a' b' = true := by
  cases c with
  | and =>
      obtain ⟨hatrue, hbtrue⟩ := Bool.and_eq_true_iff.mp h
      exact Bool.and_eq_true_iff.mpr ⟨ha hatrue, hb hbtrue⟩
  | or =>
      refine Bool.or_eq_true_iff.mpr ?_
      rcases Bool.or_eq_true_iff.mp h with hatrue | hbtrue
      · exact .inl (ha hatrue)
      · exact .inr (hb hbtrue)

end Connective

namespace Tree

variable {record : Record} {left right : Tree}

/-- Joined trees have a verdict only if both have one, and it is that of the connective. -/
theorem evaluate_join_eq_ok {c : Connective} {verdict : Bool}
    (h : (c.join left right).evaluate record = .ok verdict) :
    ∃ leftVerdict rightVerdict, left.evaluate record = .ok leftVerdict ∧
      right.evaluate record = .ok rightVerdict ∧ verdict = c.apply leftVerdict rightVerdict := by
  obtain ⟨leftValue, rightValue, hl, hr, hverdict⟩ := evaluate_binary_eq_ok_iff.mp h
  refine ⟨leftValue.isTruthy, rightValue.isTruthy, evaluate_of_walk_ok (by decide) hl,
    evaluate_of_walk_ok (by decide) hr, ?_⟩
  rw [← hverdict, c.operator_apply]

/-- The right tree is only looked at if the left one evaluates. -/
theorem evaluate_join_eq_unknown {c : Connective} {symbol : String}
    (h : (c.join left right).evaluate record = .error (.unknownOperator symbol)) :
    left.evaluate record = .error (.unknownOperator symbol) ∨
      (∃ verdict, left.evaluate record = .ok verdict) ∧
        right.evaluate record = .error (.unknownOperator symbol) := by
  replace h := (evaluate_binary c.operator left right record).symm.trans h
  cases hl : (left.walk record [.left] 2).outcome with
  | error e =>
      rw [hl] at h
      cases h
      exact .inl (evaluate_of_walk_unknown (by decide) hl)
  | ok leftValue =>
      cases hr : (right.walk record [.right] 2).outcome with
      | error e =>
          rw [hl, hr] at h
          cases h
          exact .inr ⟨⟨_, evaluate_of_walk_ok (by decide) hl⟩,
            evaluate_of_walk_unknown (by decide) hr⟩
      | ok rightValue =>
          rw [hl, hr] at h
          cases h

end Tree

end Verdict
