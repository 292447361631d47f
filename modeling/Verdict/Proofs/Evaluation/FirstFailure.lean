import Verdict.Proofs.Evaluation.LastLevel

/-!
# The first failing position

An evaluation makes sure of two things: that a position is not too deep, as soon as it comes
there, and that a symbol names an operator, once both children are evaluated. `Tree.checks` lists
these checks in the order in which they are made, for all positions of a tree and without a look
at any record. An evaluation fails with the first check that fails (`Tree.walk_failure?_eq_checks`)
and succeeds if all of them pass; no verdict of a child ever spares the other one its checks. The
main statement is `Tree.evaluate_firstFailure`.
-/

namespace Verdict

/-- The level of the position at a path. -/
def Path.level (path : Path) : Nat := path.length + 1

theorem Path.level_cons (side : Side) (path : Path) :
    level (side :: path) = path.level + 1 := rfl

/-- One check of an evaluation: of the level of a position, on the way in, or of the symbol of an
operator, on the way out. -/
inductive Check where
  | level (path : Path)
  | symbol (path : Path) (symbol : Symbol)
deriving DecidableEq, Repr

/-- The error of a check that fails: the position is too deep, or the symbol is unknown. -/
def Check.failure? : Check → Option RuleError
  | .level path => if maxLevels < path.level then some (.tooDeep path.level) else none
  | .symbol _ (.unknown text) => some (.unknownOperator text)
  | .symbol _ (.known _) => none

namespace Tree

/-- The positions of a tree that stands at a path: its nodes, the missing children of its
operators, and its own place if it is absent. -/
def positions (path : Path) : Tree → List Path
  | absent => [path]
  | operand _ => [path]
  | operator _ left right =>
    path :: (left.positions (.left :: path) ++ right.positions (.right :: path))

/-- The checks of a tree that stands at a path, in the order in which they are made: the level of
the position, all checks of the left child, all checks of the right child, the symbol. -/
def checks (path : Path) : Tree → List Check
  | absent => [.level path]
  | operand _ => [.level path]
  | operator symbol left right =>
    .level path :: (left.checks (.left :: path) ++ right.checks (.right :: path) ++
      [.symbol path symbol])

/-! ## Checks and walks -/

theorem failure?_level_of_le {path : Path} (h : path.level ≤ maxLevels) :
    (Check.level path).failure? = none := by
  unfold Check.failure?
  exact if_neg (Nat.not_lt.mpr h)

theorem failure?_level_of_lt {path : Path} (h : maxLevels < path.level) :
    (Check.level path).failure? = some (.tooDeep path.level) := by
  unfold Check.failure?
  exact if_pos h

/-- Whatever the tree, the level of its position is checked first. -/
theorem findSome?_checks_of_lt (t : Tree) {path : Path} (h : maxLevels < path.level) :
    (t.checks path).findSome? Check.failure? = some (.tooDeep path.level) := by
  cases t <;> simp only [checks, List.findSome?_cons, failure?_level_of_lt h]

/-- Within the levels, the checks of an operator are those of its children and of its symbol. -/
theorem findSome?_checks_operator {path : Path} (h : path.level ≤ maxLevels) (symbol : Symbol)
    (left right : Tree) :
    ((operator symbol left right).checks path).findSome? Check.failure? =
      (((left.checks (.left :: path)).findSome? Check.failure?).or
        ((right.checks (.right :: path)).findSome? Check.failure?)).or
          (Check.symbol path symbol).failure? := by
  have hlast : [Check.symbol path symbol].findSome? Check.failure? =
      (Check.symbol path symbol).failure? := by
    rw [List.findSome?_singleton]
  simp only [checks, List.findSome?_cons, failure?_level_of_le h, List.findSome?_append, hlast]

/-- **First failing check.** A walk fails with the first check that fails, and succeeds if all
checks pass. -/
theorem walk_failure?_eq_checks (record : Record) (t : Tree) (path : Path) :
    (t.walk record path path.level).failure? = (t.checks path).findSome? Check.failure? := by
  induction t generalizing path with
  | absent =>
      by_cases hdeep : maxLevels < path.level
      · rw [findSome?_checks_of_lt _ hdeep, walk_of_lt record path hdeep, Walk.failure?]
      · have hpass := failure?_level_of_le (Nat.not_lt.mp hdeep)
        simp [walk, hdeep, checks, hpass, Walk.failure?]
  | operand token =>
      by_cases hdeep : maxLevels < path.level
      · rw [findSome?_checks_of_lt _ hdeep, walk_of_lt record path hdeep, Walk.failure?]
      · have hpass := failure?_level_of_le (Nat.not_lt.mp hdeep)
        simp [walk, hdeep, checks, hpass, Walk.failure?]
  | operator symbol left right ihl ihr =>
      by_cases hdeep : maxLevels < path.level
      · rw [findSome?_checks_of_lt _ hdeep, walk_of_lt record path hdeep, Walk.failure?]
      · have hin : path.level ≤ maxLevels := Nat.not_lt.mp hdeep
        have hl := ihl (.left :: path)
        have hr := ihr (.right :: path)
        rw [Path.level_cons] at hl hr
        rw [findSome?_checks_operator hin, ← hl, ← hr]
        unfold Walk.failure?
        rw [walk_operator_outcome record path hin]
        -- the first of the three parts that fails hides the others
        cases (left.walk record (.left :: path) (path.level + 1)).outcome with
        | error e => rfl
        | ok leftValue =>
            cases (right.walk record (.right :: path) (path.level + 1)).outcome with
            | error e => rfl
            | ok rightValue =>
                cases symbol with
                | unknown text => rfl
                | known op => rfl

/-! ## When all checks pass -/

/-- All checks pass exactly if all symbols are known and no position is too deep. -/
theorem checks_pass_iff (t : Tree) (path : Path) :
    (∀ check ∈ t.checks path, check.failure? = none) ↔
      t.Known ∧ ∀ p ∈ t.positions path, p.level ≤ maxLevels := by
  have hlevel : ∀ p : Path, (Check.level p).failure? = none ↔ p.level ≤ maxLevels := by
    intro p
    refine ⟨fun hnone => ?_, failure?_level_of_le⟩
    by_contra hdeep
    rw [failure?_level_of_lt (Nat.not_le.mp hdeep)] at hnone
    cases hnone
  induction t generalizing path with
  | absent => simp [checks, positions, hlevel, Known]
  | operand token => simp [checks, positions, hlevel, Known]
  | operator symbol left right ihl ihr =>
      have hsymbol : (Check.symbol path symbol).failure? = none ↔ symbol.isKnown = true := by
        cases symbol <;> simp [Check.failure?, Symbol.isKnown]
      simp only [checks, positions, Known, List.forall_mem_cons, List.forall_mem_append, ihl, ihr,
        hlevel, hsymbol, List.not_mem_nil, false_implies, implies_true, and_true]
      tauto

/-- An evaluation fails exactly with the first check that fails. -/
theorem evaluate_eq_error_iff_checks {t : Tree} {record : Record} {e : RuleError} :
    t.evaluate record = .error e ↔ (t.checks []).findSome? Check.failure? = some e := by
  rw [← walk_failure?_eq_checks record t []]
  exact evaluate_eq_error_iff_failure?

/-- **The first failing position.** An evaluation succeeds exactly if all symbols are known and
no position, missing children included, lies below the last level. Otherwise its error is that of
the first check that fails: the level of a position counts before anything below it, the symbol of
an operator after all that is below it, and the left child comes before the right one. A position
is refused on the first level that is too deep, and the record has no say in any of this. -/
theorem evaluate_firstFailure (t : Tree) :
    (∀ record, (∃ verdict, t.evaluate record = .ok verdict) ↔
      t.Known ∧ ∀ path ∈ t.positions [], path.level ≤ maxLevels) ∧
    (∀ record e, t.evaluate record = .error e ↔
      ∃ before check after, t.checks [] = before ++ check :: after ∧
        check.failure? = some e ∧ ∀ c ∈ before, c.failure? = none) ∧
    (∀ record e, t.evaluate record = .error e →
      (e = .tooDeep 101 ∧ e.IsInvalidInput) ∨ ∃ symbol, e = .unknownOperator symbol) ∧
    ∀ record record' e, t.evaluate record = .error e ↔ t.evaluate record' = .error e := by
  refine ⟨fun record => ?_, fun record e => ?_, fun record e he => ?_, fun record record' e => ?_⟩
  · rw [← checks_pass_iff, ← List.findSome?_eq_none_iff]
    cases heval : t.evaluate record with
    | ok verdict =>
        refine ⟨fun _ => ?_, fun _ => ⟨verdict, rfl⟩⟩
        refine Option.eq_none_iff_forall_ne_some.mpr fun e he => ?_
        rw [evaluate_eq_error_iff_checks.mpr he] at heval
        cases heval
    | error e =>
        rw [evaluate_eq_error_iff_checks.mp heval]
        simp
  · rw [evaluate_eq_error_iff_checks, List.findSome?_eq_some_iff]
  · -- every operator in the way is too deep by one level, or else unknown
    obtain ⟨p, -, hp⟩ := List.exists_of_findSome?_eq_some (evaluate_eq_error_iff.mp he)
    rcases tooDeep_or_unknown_of_obstacle? hp with rfl | hunknown
    · exact .inl ⟨rfl, rfl⟩
    · exact .inr hunknown
  · rw [evaluate_eq_error_iff_checks, evaluate_eq_error_iff_checks]

/-- A conjunction that its left side already decides fails all the same for the symbol on the
right, whatever the record. Above a chain of a hundred levels an unknown symbol is never looked at,
unless it stands on the left of the chain. -/
theorem evaluate_firstFailure_hidden :
    let decided := binary .and (.operand "0") (operator (.unknown "~") .absent .absent)
    let above := operator (.unknown "~") bareChain .absent
    let beside := binary .and (operator (.unknown "~") .absent .absent) bareChain
    (decided.evaluate .empty = .error (.unknownOperator "~") ∧
      ∀ record, decided.evaluate record = .error (.unknownOperator "~")) ∧
    (above.evaluate .empty = .error (.tooDeep 101) ∧
      ∃ before check after, above.checks [] = before ++ check :: after ∧
        check.failure? = some (.tooDeep 101) ∧ ∀ c ∈ before, c.failure? = none) ∧
    beside.evaluate .empty = .error (.unknownOperator "~") ∧
      ((RuleError.unknownOperator "~" = .tooDeep 101 ∧
          (RuleError.unknownOperator "~").IsInvalidInput) ∨
        ∃ symbol, RuleError.unknownOperator "~" = .unknownOperator symbol) := by
  intro decided above beside
  have hdecided : decided.evaluate .empty = .error (.unknownOperator "~") := by decide +kernel
  have habove : above.evaluate .empty = .error (.tooDeep 101) := by decide +kernel
  have hbeside : beside.evaluate .empty = .error (.unknownOperator "~") := by decide +kernel
  refine ⟨⟨hdecided, fun record => ?_⟩, ⟨habove, ?_⟩, hbeside, ?_⟩
  · exact ((evaluate_firstFailure decided).2.2.2 .empty record _).mp hdecided
  · exact ((evaluate_firstFailure above).2.1 .empty _).mp habove
  · exact (evaluate_firstFailure beside).2.2.1 .empty _ hbeside

end Tree

end Verdict
