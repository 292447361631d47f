import Verdict.Proofs.Evaluation.LastLevel

/-!
# Missing children as operands

An evaluation visits a missing child as it visits an operand: it takes up a level, it leaves a step
behind, and it has a value, which is false. So an operand that stands for false may take the place
of a missing child anywhere in a tree, or of the whole tree if there is none. `Tree.filled` puts it
there. `Tree.walk_filled` shows that the walk is the same but for the steps at these places,
wherever the tree stands and however deep it is, and the main statement is
`Tree.missing_reads_false`.
-/

namespace Verdict

/-- The step of a missing tree as that of an operand that reads false. -/
def Step.filled (name : String) : Step → Step
  | missing path => operand path name (.bool false)
  | operand path token value => operand path token value
  | operator path op left right matched => operator path op left right matched

namespace Tree

/-- The tree with an operand in the place of everything that is missing. -/
def filled (name : String) : Tree → Tree
  | absent => operand name
  | operand token => operand token
  | operator symbol left right => operator symbol (left.filled name) (right.filled name)

/-! ## Shape -/

/-- Nothing is missing any more. -/
theorem complete_filled (name : String) (t : Tree) : (t.filled name).Complete := by
  induction t with
  | absent => trivial
  | operand token => trivial
  | operator symbol left right ihl ihr => exact ⟨ihl, ihr⟩

/-- Where nothing is missing, there is nothing to fill. -/
theorem Complete.filled_eq {t : Tree} (h : t.Complete) (name : String) : t.filled name = t := by
  induction t with
  | absent => exact absurd h id
  | operand token => rfl
  | operator symbol left right ihl ihr => rw [filled, ihl h.1, ihr h.2]

/-! ## Walks -/

/-- The operand is visited where the child was missing, and nothing else changes. -/
theorem walk_filled {record : Record} {name : String} (h : record.get? name = some (.bool false))
    (t : Tree) (path : Path) (level : Nat) :
    (t.filled name).walk record path level =
      ⟨(t.walk record path level).steps.map (Step.filled name),
        (t.walk record path level).outcome⟩ := by
  induction t generalizing path level with
  | absent =>
      by_cases hdeep : maxLevels < level
      · -- below the last level it makes no difference what stands there
        rw [walk_of_lt record path hdeep, walk_of_lt record path hdeep]
        rfl
      · have hin : level ≤ maxLevels := Nat.not_lt.mp hdeep
        have hresolve : record.resolve name = .bool false := by
          simp only [Record.resolve, h]
        rw [filled, walk_operand record path hin, walk_absent record path hin, hresolve]
        rfl
  | operand token =>
      rw [filled]
      unfold walk
      split <;> rfl
  | operator symbol left right ihl ihr =>
      simp only [filled, walk, ihl, ihr]
      split
      · rfl
      · -- the walks of both children have the outcomes that they had
        cases (left.walk record (.left :: path) (level + 1)).outcome with
        | error e => rfl
        | ok leftValue =>
            cases (right.walk record (.right :: path) (level + 1)).outcome with
            | error e => simp only [List.map_append]
            | ok rightValue =>
                cases symbol with
                | unknown text => simp only [List.map_append]
                | known op => simp only [List.map_append, List.map_cons, List.map_nil, Step.filled]

/-! ## Verdicts -/

/-- **A missing child reads false.** Let an operand be false on a record. The tree with this operand
in the place of everything that is missing, of the root, too, if there is none, is complete. It is
evaluated like the tree itself, however deep it is and whatever its symbols are: the verdict is the
same or the failure is, with a trace or without one. A trace that is kept differs in the lines of
the missing places only. -/
theorem missing_reads_false {record : Record} {name : String}
    (h : record.get? name = some (.bool false)) (t : Tree) :
    (t.filled name).Complete ∧
    (t.filled name).evaluate record = t.evaluate record ∧
    ∀ executor : Executor,
      executor.evaluate (t.filled name) record = executor.evaluate t record ∧
      executor.execute (t.filled name) record =
        (executor.execute t record).map fun report =>
          ⟨report.matched,
            if executor.traceEnabled then
              (t.walkAll record).steps.map fun step => (step.filled name).text
            else []⟩ := by
  have hwalk : (t.filled name).walkAll record =
      ⟨(t.walkAll record).steps.map (Step.filled name), (t.walkAll record).outcome⟩ :=
    walk_filled h t [] 1
  have hverdict : ∀ executor : Executor,
      executor.evaluate (t.filled name) record = executor.evaluate t record := by
    intro executor
    rw [Executor.evaluate_eq_walkAll, Executor.evaluate_eq_walkAll, hwalk]
  refine ⟨complete_filled name t, hverdict ⟨false⟩, fun executor => ⟨hverdict executor, ?_⟩⟩
  rw [Executor.execute_eq_walkAll, Executor.execute_eq_walkAll, hwalk, List.map_map]
  cases (t.walkAll record).outcome <;> rfl

/-- Under a comparison the missing side is compared as the text `false`. On the last level, the
places below are too deep, missing or not. -/
theorem missing_reads_false_compared :
    let record : Record := Record.empty.insert "no" (.bool false)
    let compared := operator (.known .ge) .absent (.operand "false")
    record.get? "no" = some (.bool false) ∧
      compared.filled "no" = binary .ge (.operand "no") (.operand "false") ∧
      (binary .ge (.operand "no") (.operand "false")).evaluate record = .ok true ∧
      compared.evaluate record = .ok true ∧
      (bareChain.filled "no").evaluate record = .error (.tooDeep 101) ∧
      (bareChain.filled "no").Complete := by
  intro record compared
  have hno : record.get? "no" = some (.bool false) := by decide +kernel
  have hcompared := (missing_reads_false hno compared).2.1
  have hchain := missing_reads_false hno bareChain
  have hverdict : compared.evaluate record = .ok true := by decide +kernel
  have hdeep : bareChain.evaluate record = .error (.tooDeep 101) := by decide +kernel
  exact ⟨hno, rfl, hcompared.trans hverdict, hverdict, hchain.2.1.trans hdeep, hchain.1⟩

end Tree

end Verdict
