import Verdict.Proofs.Evaluation.Trace

/-!
# Evaluation order and obstacles

`Tree.operators` lists the operators of a tree in the order in which they are applied, each with
its level. Whether an evaluation fails, and with which error, is decided by this list alone:
`walk_failure?` says that a walk fails with the first obstacle on it. Two things are obstacles: a
symbol that names no operator, and a place on the last level, since the places below it, missing
or not, are too deep to be visited. No record has a say in it.
-/

namespace Verdict

/-- Whether an error lies in the input alone. -/
def RuleError.IsInvalidInput (e : RuleError) : Prop :=
  e.inputComplaint?.isSome

/-- The error that a walk ended with. -/
def Walk.failure? (walk : Walk) : Option RuleError :=
  match walk.outcome with
  | .error e => some e
  | .ok _ => none

/-- Whether a symbol names an operator. -/
def Symbol.isKnown : Symbol → Bool
  | known _ => true
  | unknown _ => false

namespace Tree

/-- The operators of a tree that stands on a level, in the order in which they are applied, each
with its own level. -/
def operators (level : Nat) : Tree → List (Nat × Symbol)
  | absent => []
  | operand _ => []
  | operator symbol left right =>
    left.operators (level + 1) ++ right.operators (level + 1) ++ [(level, symbol)]

/-- What stands in the way of applying an operator on a level. -/
def obstacle? : Nat × Symbol → Option RuleError
  | (level, symbol) =>
    if maxLevels ≤ level then some (.tooDeep (maxLevels + 1))
    else
      match symbol with
      | .unknown text => some (.unknownOperator text)
      | .known _ => none

/-! ## The levels of operators -/

/-- No operator stands above the level of its tree. -/
theorem level_le_of_mem_operators {t : Tree} {level : Nat} {p : Nat × Symbol}
    (hp : p ∈ t.operators level) : level ≤ p.1 := by
  induction t generalizing level with
  | absent => simp [operators] at hp
  | operand token => simp [operators] at hp
  | operator symbol left right ihl ihr =>
      simp only [operators, List.mem_append, List.mem_singleton] at hp
      rcases hp with (hl | hr) | rfl
      · exact Nat.le_of_succ_le (ihl hl)
      · exact Nat.le_of_succ_le (ihr hr)
      · exact Nat.le_refl _

/-- No operator stands below the levels of its tree. -/
theorem mem_operators_lt {t : Tree} {level : Nat} {p : Nat × Symbol}
    (hp : p ∈ t.operators level) : p.1 < level + t.depth := by
  induction t generalizing level with
  | absent => simp [operators] at hp
  | operand token => simp [operators] at hp
  | operator symbol left right ihl ihr =>
      simp only [operators, List.mem_append, List.mem_singleton] at hp
      simp only [depth]
      rcases hp with (hl | hr) | rfl
      · have := ihl hl
        omega
      · have := ihr hr
        omega
      · show level < _
        omega

/-- From the last level on, whatever operator comes first is an obstacle of the same kind. -/
theorem findSome?_obstacle_of_le {ops : List (Nat × Symbol)} (hne : ops ≠ [])
    (hdeep : ∀ p ∈ ops, maxLevels ≤ p.1) :
    ops.findSome? obstacle? = some (.tooDeep (maxLevels + 1)) := by
  cases ops with
  | nil => exact absurd rfl hne
  | cons p rest =>
      have hp : obstacle? p = some (.tooDeep (maxLevels + 1)) := if_pos (hdeep p List.mem_cons_self)
      rw [List.findSome?_cons, hp]

/-! ## Walks -/

/-- A walk below the last level goes nowhere. -/
theorem walk_of_lt (record : Record) (path : Path) {level : Nat} (h : maxLevels < level)
    (t : Tree) : t.walk record path level = ⟨[], .error (.tooDeep level)⟩ := by
  cases t <;> simp only [walk, if_pos h]

/-- Within the levels, a missing tree is false. -/
theorem walk_absent (record : Record) (path : Path) {level : Nat} (h : level ≤ maxLevels) :
    absent.walk record path level = ⟨[.missing path], .ok (.bool false)⟩ := by
  simp only [walk, if_neg (Nat.not_lt.mpr h)]

/-- Within the levels, an operand comes to the value that it stands for. -/
theorem walk_operand (record : Record) (path : Path) {level : Nat} (h : level ≤ maxLevels)
    (token : String) : (operand token).walk record path level =
      ⟨[.operand path token (record.resolve token)], .ok (record.resolve token)⟩ := by
  simp only [walk, if_neg (Nat.not_lt.mpr h)]

/-- A walk that is not stopped by the levels starts within them. -/
theorem level_le_of_walk {record : Record} {t : Tree} {path : Path} {level : Nat}
    (h : ∀ levels, (t.walk record path level).outcome ≠ .error (.tooDeep levels)) :
    level ≤ maxLevels := by
  refine Nat.not_lt.mp fun hlt => h level ?_
  rw [walk_of_lt record path hlt]

/-- An operator within the levels comes to what it makes of the values of its children, the left
one first. -/
theorem walk_operator_outcome (record : Record) (path : Path) {level : Nat} (h : level ≤ maxLevels)
    (symbol : Symbol) (left right : Tree) :
    ((operator symbol left right).walk record path level).outcome =
      (left.walk record (.left :: path) (level + 1)).outcome.bind fun leftValue =>
        (right.walk record (.right :: path) (level + 1)).outcome.bind fun rightValue =>
          match symbol with
          | .unknown text => .error (.unknownOperator text)
          | .known op => .ok (.bool (op.apply leftValue rightValue)) := by
  simp only [walk, if_neg (Nat.not_lt.mpr h)]
  cases (left.walk record (.left :: path) (level + 1)).outcome with
  | error e => rfl
  | ok leftValue =>
      cases (right.walk record (.right :: path) (level + 1)).outcome with
      | error e => rfl
      | ok rightValue => cases symbol <;> rfl

/-- A walk that is not stopped by the levels comes to the same outcome on every level above,
wherever the tree stands. -/
theorem walk_outcome_of_le {record : Record} {t : Tree} {path path' : Path} {level level' : Nat}
    (hle : level' ≤ level)
    (h : ∀ levels, (t.walk record path level).outcome ≠ .error (.tooDeep levels)) :
    (t.walk record path' level').outcome = (t.walk record path level).outcome := by
  induction t generalizing path path' level level' with
  | absent =>
      have hin := level_le_of_walk h
      rw [walk_absent record path hin, walk_absent record path' (Nat.le_trans hle hin)]
  | operand token =>
      have hin := level_le_of_walk h
      rw [walk_operand record path hin, walk_operand record path' (Nat.le_trans hle hin)]
  | operator symbol left right ihl ihr =>
      have hin := level_le_of_walk h
      have hin' := Nat.le_trans hle hin
      rw [walk_operator_outcome record path hin] at h ⊢
      rw [walk_operator_outcome record path' hin']
      have hl : (left.walk record (.left :: path') (level' + 1)).outcome =
          (left.walk record (.left :: path) (level + 1)).outcome := by
        refine ihl (Nat.succ_le_succ hle) fun levels hleft => h levels ?_
        rw [hleft]
        rfl
      rw [hl]
      cases hlo : (left.walk record (.left :: path) (level + 1)).outcome with
      | error e => rfl
      | ok leftValue =>
          -- the right child is visited only now, so only now its levels count
          have hr : (right.walk record (.right :: path') (level' + 1)).outcome =
              (right.walk record (.right :: path) (level + 1)).outcome := by
            refine ihr (Nat.succ_le_succ hle) fun levels hright => h levels ?_
            rw [hlo, hright]
            rfl
          rw [hr]

/-- A walk that comes to a value is not stopped by the levels. -/
theorem not_tooDeep_of_walk_ok {record : Record} {t : Tree} {path : Path} {level : Nat}
    {value : Value} (h : (t.walk record path level).outcome = .ok value) (levels : Nat) :
    (t.walk record path level).outcome ≠ .error (.tooDeep levels) := by
  rw [h]
  exact nofun

theorem level_le_of_walk_ok {record : Record} {t : Tree} {path : Path} {level : Nat} {value : Value}
    (h : (t.walk record path level).outcome = .ok value) : level ≤ maxLevels :=
  level_le_of_walk (not_tooDeep_of_walk_ok h)

/-- A walk that comes to a value comes to it on every level above, wherever the tree stands. -/
theorem walk_eq_ok_of_le {record : Record} {t : Tree} {path path' : Path} {level level' : Nat}
    {value : Value} (hle : level' ≤ level) (h : (t.walk record path level).outcome = .ok value) :
    (t.walk record path' level').outcome = .ok value := by
  rw [walk_outcome_of_le hle (not_tooDeep_of_walk_ok h), h]

/-- **First obstacle.** A walk fails with the first obstacle among the operators in the order in
which they are applied, and succeeds if there is none. -/
theorem walk_failure? (record : Record) (t : Tree) (path : Path) {level : Nat}
    (h : level ≤ maxLevels) :
    (t.walk record path level).failure? = (t.operators level).findSome? obstacle? := by
  induction t generalizing path level with
  | absent => simp [walk, Nat.not_lt.mpr h, operators, Walk.failure?]
  | operand token => simp [walk, Nat.not_lt.mpr h, operators, Walk.failure?]
  | operator symbol left right ihl ihr =>
      have hin : ¬ maxLevels < level := Nat.not_lt.mpr h
      rcases Nat.lt_or_eq_of_le h with hlt | hlast
      · -- both children are visited: the first error of the three parts counts
        have hl := ihl (.left :: path) hlt
        have hr := ihr (.right :: path) hlt
        have hself : obstacle? (level, symbol) =
            match symbol with
            | .unknown text => some (.unknownOperator text)
            | .known _ => none := if_neg (Nat.not_le.mpr hlt)
        simp only [walk, if_neg hin, operators, List.findSome?_append, ← hl, ← hr]
        simp only [List.findSome?_cons, List.findSome?_nil, hself]
        cases hlo : (left.walk record (.left :: path) (level + 1)).outcome with
        | error e => simp [Walk.failure?, hlo]
        | ok leftValue =>
            cases hro : (right.walk record (.right :: path) (level + 1)).outcome with
            | error e => simp [Walk.failure?, hlo, hro]
            | ok rightValue => cases symbol <;> simp [Walk.failure?, hlo, hro]
      · -- on the last level the left child is refused, and every operator below stands too deep
        subst hlast
        have hbelow := walk_of_lt record (.left :: path) (Nat.lt_succ_self maxLevels) left
        rw [findSome?_obstacle_of_le (by simp [operators]) fun p hp => level_le_of_mem_operators hp]
        simp only [walk, if_neg hin, hbelow, Walk.failure?]

/-- An evaluation fails exactly as the walk from the root does. -/
theorem evaluate_eq_error_iff_failure? {t : Tree} {record : Record} {e : RuleError} :
    t.evaluate record = .error e ↔ (t.walk record [] 1).failure? = some e := by
  rw [evaluate, Executor.evaluate_eq_walkAll]
  simp only [walkAll, Walk.failure?]
  cases (t.walk record [] 1).outcome <;> simp [Except.map]

/-- An evaluation fails exactly with the first obstacle. -/
theorem evaluate_eq_error_iff {t : Tree} {record : Record} {e : RuleError} :
    t.evaluate record = .error e ↔ (t.operators 1).findSome? obstacle? = some e := by
  rw [← walk_failure? record t [] (by decide : 1 ≤ maxLevels), evaluate_eq_error_iff_failure?]

/-- An execution, traced or not, fails exactly with the first obstacle. -/
theorem execute_eq_error_iff {t : Tree} {record : Record} {traced : Bool} {e : RuleError} :
    t.execute traced record = .error e ↔ (t.operators 1).findSome? obstacle? = some e := by
  rw [← walk_failure? record t [] (by decide : 1 ≤ maxLevels), execute,
    Executor.execute_eq_walkAll]
  simp only [walkAll, Walk.failure?]
  cases (t.walk record [] 1).outcome <;> simp [Except.map]

/-! ## Parts of a tree on their own

A part of a tree stands on a lower level than it does alone. -/

section Parts

variable {record : Record} {t left right : Tree}

/-- A tree that is not stopped by the levels when it is a part of another one has the outcome of
the part for its verdict. -/
theorem evaluate_of_walk {path : Path} {level : Nat} (hlevel : 1 ≤ level)
    (h : ∀ levels, (t.walk record path level).outcome ≠ .error (.tooDeep levels)) :
    t.evaluate record = (t.walk record path level).outcome.map Value.isTruthy := by
  unfold evaluate
  rw [Executor.evaluate_eq_walkAll, walkAll, walk_outcome_of_le hlevel h]

theorem evaluate_of_walk_ok {path : Path} {level : Nat} (hlevel : 1 ≤ level) {value : Value}
    (h : (t.walk record path level).outcome = .ok value) :
    t.evaluate record = .ok value.isTruthy := by
  rw [evaluate_of_walk hlevel (not_tooDeep_of_walk_ok h), h]
  rfl

theorem evaluate_of_walk_unknown {path : Path} {level : Nat} (hlevel : 1 ≤ level) {symbol : String}
    (h : (t.walk record path level).outcome = .error (.unknownOperator symbol)) :
    t.evaluate record = .error (.unknownOperator symbol) := by
  rw [evaluate_of_walk hlevel (fun levels => by rw [h]; exact nofun), h]
  rfl

/-- The verdict of an operator comes from the values of its children on the second level. -/
theorem evaluate_binary (op : Operator) (left right : Tree) (record : Record) :
    (binary op left right).evaluate record =
      (left.walk record [.left] 2).outcome.bind fun leftValue =>
        (right.walk record [.right] 2).outcome.bind fun rightValue =>
          .ok (op.apply leftValue rightValue) := by
  unfold evaluate binary
  rw [Executor.evaluate_eq_walkAll, walkAll, walk_operator_outcome record [] (by decide)]
  cases (left.walk record [.left] 2).outcome with
  | error e => rfl
  | ok leftValue => cases (right.walk record [.right] 2).outcome <;> rfl

/-- Under an operator that has a verdict, both children come to a value. -/
theorem evaluate_binary_eq_ok_iff {op : Operator} {verdict : Bool} :
    (binary op left right).evaluate record = .ok verdict ↔
      ∃ leftValue rightValue, (left.walk record [.left] 2).outcome = .ok leftValue ∧
        (right.walk record [.right] 2).outcome = .ok rightValue ∧
        op.apply leftValue rightValue = verdict := by
  rw [evaluate_binary]
  cases (left.walk record [.left] 2).outcome with
  | error e => simp [Except.bind]
  | ok leftValue =>
      cases (right.walk record [.right] 2).outcome with
      | error e => simp [Except.bind]
      | ok rightValue => simp [Except.bind]

end Parts

end Tree

end Verdict
