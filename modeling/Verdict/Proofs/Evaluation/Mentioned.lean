import Mathlib.Control.Monad.Basic
import Verdict.Proofs.Tree.Growth

/-!
# Fields that a tree does not mention

An operand asks a record for the field of its own name and for nothing else. So an evaluation goes
the same way on two records that agree on the names of the operands
(`Executor.evaluateNode_congr`), and no field with another name has any influence on it:
`unmentioned_fields` says this of evaluations with a trace and without one.
-/

namespace Verdict

namespace Record

/-- The record without the field of a name. -/
def erase (name : String) (record : Record) : Record :=
  ⟨record.fields.filter fun field => field.1 != name, record.ascending.filter _⟩

/-- Two records give the same value to each of some names, or both of them give none. -/
def AgreeOn (names : List String) (a b : Record) : Prop :=
  ∀ name ∈ names, a.get? name = b.get? name

/-! ## Changes to one field -/

theorem find?_setField_of_ne {name other : String} (h : other ≠ name) (value : Value)
    (fields : List Field) :
    (setField name value fields).find? (fun field => field.1 == other) =
      fields.find? fun field => field.1 == other := by
  fun_induction setField name value fields with
  | case1 => simp [h.symm]
  | case2 field rest below =>
      rw [List.find?_cons_of_neg]
      simpa using h.symm
  | case3 field rest _ equal =>
      rw [List.find?_cons_of_neg, List.find?_cons_of_neg]
      · simpa [← equal] using h.symm
      · simpa using h.symm
  | case4 field rest _ _ ih =>
      simp only [List.find?_cons, ih]

/-- Setting a field leaves the others as they are. -/
theorem get?_insert_of_ne {name other : String} (h : other ≠ name) (value : Value)
    (record : Record) : (record.insert name value).get? other = record.get? other := by
  unfold get? insert
  rw [find?_setField_of_ne h]

/-- Taking a field away leaves the others as they are. -/
theorem get?_erase_of_ne {name other : String} (h : other ≠ name) (record : Record) :
    (record.erase name).get? other = record.get? other := by
  unfold get? erase
  rw [List.find?_filter]
  congr 2
  funext field
  by_cases hfield : field.1 = other
  · simp [hfield, h]
  · simp [hfield]

/-- Records that differ in one field agree on all other names. -/
theorem agreeOn_insert {names : List String} {name : String} (h : name ∉ names) (value : Value)
    (record : Record) : AgreeOn names record (record.insert name value) := by
  intro other hother
  have hne : other ≠ name := fun heq => h (heq ▸ hother)
  exact (get?_insert_of_ne hne value record).symm

theorem agreeOn_erase {names : List String} {name : String} (h : name ∉ names)
    (record : Record) : AgreeOn names record (record.erase name) := by
  intro other hother
  have hne : other ≠ name := fun heq => h (heq ▸ hother)
  exact (get?_erase_of_ne hne record).symm

theorem resolve_congr {token : String} {a b : Record} (h : a.get? token = b.get? token) :
    a.resolve token = b.resolve token := by
  unfold resolve
  rw [h]

end Record

/-- An evaluation goes the same way on two records that agree on the names of the operands. -/
theorem Executor.evaluateNode_congr (executor : Executor) {a b : Record} {t : Tree}
    (h : Record.AgreeOn t.operands a b) (path : Path) (level : Nat) :
    executor.evaluateNode a path level t = executor.evaluateNode b path level t := by
  induction t generalizing path level with
  | absent => rfl
  | operand token =>
      have hvalue := Record.resolve_congr (h token (List.mem_singleton.mpr rfl))
      simp only [evaluateNode, hvalue]
  | operator symbol left right ihl ihr =>
      have hl : Record.AgreeOn left.operands a b :=
        fun name hname => h name (List.mem_append_left _ hname)
      have hr : Record.AgreeOn right.operands a b :=
        fun name hname => h name (List.mem_append_right _ hname)
      simp only [evaluateNode, ihl hl, ihr hr]

namespace Tree

/-- No evaluation of a tree tells two records apart: with a trace or without one, the verdict or
the error is the same on both, and so are the lines of the trace. -/
def Alike (t : Tree) (a b : Record) : Prop :=
  ∀ executor : Executor,
    executor.evaluate t a = executor.evaluate t b ∧ executor.execute t a = executor.execute t b

theorem alike_of_agreeOn {t : Tree} {a b : Record} (h : Record.AgreeOn t.operands a b) :
    t.Alike a b := by
  intro executor
  unfold Executor.evaluate Executor.execute
  rw [executor.evaluateNode_congr h]
  exact ⟨rfl, rfl⟩

/-- **Fields that are not mentioned.** Records that agree on the names of a tree's operands are
the same for every evaluation of the tree. So it makes no difference to set or to take away a
field of another name. -/
theorem unmentioned_fields (t : Tree) :
    (∀ a b : Record, (∀ name ∈ t.operands, a.get? name = b.get? name) → t.Alike a b) ∧
    ∀ (record : Record) (name : String), name ∉ t.operands →
      (∀ value, t.Alike record (record.insert name value)) ∧
        t.Alike record (record.erase name) := by
  constructor
  · intro a b h
    exact alike_of_agreeOn h
  · intro record name hname
    constructor
    · intro value
      exact alike_of_agreeOn (Record.agreeOn_insert hname value record)
    · exact alike_of_agreeOn (Record.agreeOn_erase hname record)

/-- A rule on the age is the same on records with other fields and without them, but not on
records with another age. -/
theorem unmentioned_fields_age :
    let t := binary .gt (.operand "age") (.operand "30")
    let record := Record.empty.insert "age" (.number (.ofInt 35))
    let other := (record.insert "department" (.string "Sales")).insert "on" (.bool true)
    ((∀ name ∈ t.operands, record.get? name = other.get? name) ∧ t.Alike record other) ∧
      ("department" ∉ t.operands ∧
        t.Alike record (record.insert "department" (.string "Sales")) ∧
        t.Alike other (other.erase "department")) ∧
      t.evaluate record = .ok true ∧
      t.evaluate (record.insert "age" (.number (.ofInt 20))) = .ok false := by
  intro t record other
  have hagree : ∀ name ∈ t.operands, record.get? name = other.get? name := by decide +kernel
  have hname : "department" ∉ t.operands := by decide +kernel
  refine ⟨⟨hagree, (unmentioned_fields t).1 record other hagree⟩, ⟨hname, ?_, ?_⟩, ?_, ?_⟩
  · exact ((unmentioned_fields t).2 record "department" hname).1 (.string "Sales")
  · exact ((unmentioned_fields t).2 other "department" hname).2
  · decide +kernel
  · decide +kernel

end Tree

end Verdict
