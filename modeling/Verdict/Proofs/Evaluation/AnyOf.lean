import Verdict.Proofs.Evaluation.Connective
import Verdict.Proofs.Tree.Joined

/-!
# Verdicts of joined trees

A joined tree says whether any of its trees holds. All of them are evaluated, and each comes to
what it comes to on its own. This is so for one `OR` (`evaluate_or_eq_ok`,
`evaluate_or_eq_unknown`), and then by induction for all of the trees; the main statement is
`evaluate_any`.
-/

namespace Verdict

namespace Tree

variable {record : Record} {left right first : Tree} {rest : List Tree}

/-! ## One join -/

/-- Two trees under `OR` have a verdict only if both have one. -/
theorem evaluate_or_eq_ok {verdict : Bool}
    (h : (binary .or left right).evaluate record = .ok verdict) :
    ∃ leftVerdict rightVerdict, left.evaluate record = .ok leftVerdict ∧
      right.evaluate record = .ok rightVerdict ∧ verdict = (leftVerdict || rightVerdict) :=
  evaluate_join_eq_ok (c := .or) h

theorem evaluate_or_eq_unknown {symbol : String}
    (h : (binary .or left right).evaluate record = .error (.unknownOperator symbol)) :
    left.evaluate record = .error (.unknownOperator symbol) ∨
      (∃ verdict, left.evaluate record = .ok verdict) ∧
        right.evaluate record = .error (.unknownOperator symbol) :=
  evaluate_join_eq_unknown (c := .or) h

/-! ## Any number of joins -/

/-- If a joined tree has a verdict, so has every one of its trees, and it holds if any of them
does. -/
theorem evaluate_disjoin_eq_ok {verdict : Bool}
    (h : (disjoin first rest).evaluate record = .ok verdict) :
    ∃ verdicts, List.Forall₂ (fun t b => t.evaluate record = .ok b) (first :: rest) verdicts ∧
      verdict = verdicts.any id := by
  induction rest generalizing first with
  | nil => exact ⟨[verdict], .cons h .nil, by simp⟩
  | cons second rest ih =>
      -- the first two trees are one tree for the trees behind them
      obtain ⟨verdicts, hall, hverdict⟩ := ih h
      cases hall with
      | cons hjoined hrest =>
          obtain ⟨a, b, hfirst, hsecond, hor⟩ := evaluate_or_eq_ok hjoined
          refine ⟨a :: b :: _, .cons hfirst (.cons hsecond hrest), ?_⟩
          rw [hverdict, hor]
          simp [Bool.or_assoc]

/-- If a joined tree fails for an unknown operator, so does the first of its trees that fails. -/
theorem evaluate_disjoin_eq_unknown {symbol : String}
    (h : (disjoin first rest).evaluate record = .error (.unknownOperator symbol)) :
    ∃ before failing after, first :: rest = before ++ failing :: after ∧
      (∀ t ∈ before, ∃ b, t.evaluate record = .ok b) ∧
      failing.evaluate record = .error (.unknownOperator symbol) := by
  induction rest generalizing first with
  | nil => exact ⟨[], first, [], rfl, by simp, h⟩
  | cons second rest ih =>
      obtain ⟨before, failing, after, hsplit, hbefore, hfailing⟩ := ih h
      cases before with
      | nil =>
          -- the first two trees fail together, so one of them does
          cases hsplit
          rcases evaluate_or_eq_unknown hfailing with hfirst | ⟨hfirst, hsecond⟩
          · exact ⟨[], first, second :: rest, rfl, by simp, hfirst⟩
          · exact ⟨[first], second, rest, rfl, by simpa using hfirst, hsecond⟩
      | cons joined before =>
          cases hsplit
          obtain ⟨b, hjoined⟩ := hbefore _ List.mem_cons_self
          obtain ⟨x, y, hfirst, hsecond, -⟩ := evaluate_or_eq_ok hjoined
          refine ⟨first :: second :: before, failing, after, rfl, ?_, hfailing⟩
          intro t ht
          rcases List.mem_cons.mp ht with rfl | ht
          · exact ⟨x, hfirst⟩
          rcases List.mem_cons.mp ht with rfl | ht
          · exact ⟨y, hsecond⟩
          · exact hbefore t (List.mem_cons_of_mem _ ht)

/-- **Any of the trees.** If the join of some trees has a verdict on a record, each of the trees
has one, and the join holds exactly if any of them does. If it fails for an unknown operator, the
first of the trees that fails on its own fails for the same operator. -/
theorem evaluate_any {trees : List Tree} {t : Tree} (h : any trees = .ok t) (record : Record) :
    (∀ b, t.evaluate record = .ok b →
      ∃ verdicts, List.Forall₂ (fun t b => t.evaluate record = .ok b) trees verdicts ∧
        b = verdicts.any id) ∧
    ∀ symbol, t.evaluate record = .error (.unknownOperator symbol) →
      ∃ before failing after, trees = before ++ failing :: after ∧
        (∀ t ∈ before, ∃ b, t.evaluate record = .ok b) ∧
        failing.evaluate record = .error (.unknownOperator symbol) := by
  cases trees with
  | nil => cases h
  | cons first rest =>
      obtain ⟨rfl, -⟩ := any_eq_ok_iff.mp h
      exact ⟨fun _ => evaluate_disjoin_eq_ok, fun _ => evaluate_disjoin_eq_unknown⟩

/-- The second of three rules holds, so their join does; of three others, the first one evaluates,
and the second one is the first that fails. -/
theorem evaluate_any_second :
    let fails := binary .gt (.operand "1") (.operand "2")
    let holds := binary .eq (.operand "a") (.operand "a")
    let odd := operator (.unknown "!=") (.operand "a") .absent
    let odder := operator (.unknown "~") .absent .absent
    let joined := binary .or (binary .or fails holds) fails
    let mixed := binary .or (binary .or holds odd) odder
    (any [fails, holds, fails] = .ok joined ∧ joined.evaluate .empty = .ok true ∧
      ∃ verdicts, List.Forall₂ (fun t b => t.evaluate .empty = .ok b) [fails, holds, fails]
        verdicts ∧ true = verdicts.any id) ∧
    any [holds, odd, odder] = .ok mixed ∧
      mixed.evaluate .empty = .error (.unknownOperator "!=") ∧
      ∃ before failing after, [holds, odd, odder] = before ++ failing :: after ∧
        (∀ t ∈ before, ∃ b, t.evaluate .empty = .ok b) ∧
        failing.evaluate .empty = .error (.unknownOperator "!=") := by
  intro fails holds odd odder joined mixed
  have hjoined : any [fails, holds, fails] = .ok joined := rfl
  have hmixed : any [holds, odd, odder] = .ok mixed := rfl
  have htrue : joined.evaluate .empty = .ok true := by decide +kernel
  have hodd : mixed.evaluate .empty = .error (.unknownOperator "!=") := by decide +kernel
  exact ⟨⟨hjoined, htrue, (evaluate_any hjoined .empty).1 true htrue⟩, hmixed, hodd,
    (evaluate_any hmixed .empty).2 "!=" hodd⟩

end Tree

end Verdict
