import Mathlib.Control.Monad.Basic
import Verdict.Proofs.Evaluation.Order
import Verdict.Proofs.Record.NanFree

/-!
# Comparisons

Two values are compared as numbers or by their texts, whatever their kinds, and the answer from the
other side is the opposite one (`Value.compare?_swap`). So every operator has one that says the same
with the sides exchanged (`Operator.mirror_apply`). An answer is missing only next to `nan`
(`Value.exists_compare?`); between all other values a comparison is the negation of another one
(`Operator.apply_of_negation?`). No tree comes to `nan` on a record without it, whatever stands in
the tree (`Tree.value_ne_nan`), which carries both laws over to trees: `Tree.evaluate_comparison`.
-/

namespace Verdict

/-! ## Values -/

namespace Number

theorem compare?_swap (a b : Number) : b.compare? a = (a.compare? b).map Ordering.swap := by
  unfold compare?
  cases a.place? with
  | none => cases b.place? <;> rfl
  | some p =>
      cases b.place? with
      | none => rfl
      | some q => exact congrArg some Std.OrientedOrd.eq_swap

theorem exists_compare? {a b : Number} (ha : a ≠ .nan) (hb : b ≠ .nan) :
    ∃ o, a.compare? b = some o := by
  cases a with
  | nan => exact absurd rfl ha
  | real negative m =>
      cases b with
      | nan => exact absurd rfl hb
      | real negative' m' => cases negative <;> cases negative' <;> exact ⟨_, rfl⟩

end Number

namespace Value

/-- Seen from the other side, two values stand the other way round. -/
theorem compare?_swap (a b : Value) : b.compare? a = (a.compare? b).map Ordering.swap := by
  have htexts : compareOfLessAndEq b.text a.text = (compareOfLessAndEq a.text b.text).swap :=
    Std.OrientedOrd.eq_swap (α := String)
  cases a with
  | number m =>
      cases b with
      | number n => exact Number.compare?_swap m n
      | _ => exact congrArg some htexts
  | _ => cases b <;> exact congrArg some htexts

/-- Only next to `nan` there is no answer. -/
theorem exists_compare? {a b : Value} (ha : a ≠ .number .nan) (hb : b ≠ .number .nan) :
    ∃ o, a.compare? b = some o := by
  cases a with
  | number m =>
      cases b with
      | number n =>
          exact Number.exists_compare? (fun h => ha (congrArg number h))
            fun h => hb (congrArg number h)
      | _ => exact ⟨_, rfl⟩
  | _ => exact ⟨_, rfl⟩

theorem same_comm (a b : Value) : a.same b = b.same a := by
  cases a <;> cases b <;> try rfl
  · exact BEq.comm
  · next m n =>
      show (m.compare? n == some .eq) = (n.compare? m == some .eq)
      rw [Number.compare?_swap m n]
      cases m.compare? n with
      | none => rfl
      | some o => cases o <;> rfl
  · exact BEq.comm

end Value

/-! ## Operators -/

namespace Operator

/-- The operator that says the same with its sides exchanged. -/
def mirror : Operator → Operator
  | gt => lt
  | lt => gt
  | ge => le
  | le => ge
  | op => op

/-- The comparison that says the opposite. -/
def negation? : Operator → Option Operator
  | gt => some le
  | lt => some ge
  | ge => some lt
  | le => some gt
  | _ => none

theorem mirror_mirror (op : Operator) : op.mirror.mirror = op := by
  cases op <;> rfl

/-- Every operator says the same as its mirror from the other side. -/
theorem mirror_apply (op : Operator) (a b : Value) : op.mirror.apply b a = op.apply a b := by
  have hswap := Value.compare?_swap a b
  cases op with
  | and => exact Bool.and_comm _ _
  | or => exact Bool.or_comm _ _
  | eq => exact Value.same_comm b a
  | gt | lt | ge | le =>
      simp only [mirror, apply, hswap]
      cases a.compare? b with
      | none => rfl
      | some o => cases o <;> rfl

/-- Between values that are not `nan`, a comparison or its negation holds, and never both. -/
theorem apply_of_negation? {op op' : Operator} (h : op.negation? = some op') {a b : Value}
    (ha : a ≠ .number .nan) (hb : b ≠ .number .nan) : op'.apply a b = !op.apply a b := by
  obtain ⟨o, ho⟩ := Value.exists_compare? ha hb
  cases op <;> cases h <;> simp only [apply, ho] <;> cases o <;> rfl

end Operator

/-! ## Trees -/

namespace Tree

variable {record : Record}

/-- On a record without `nan` no tree comes to `nan`: operands do not stand for it, and everything
else comes to a truth value. -/
theorem value_ne_nan (hrecord : record.NanFree) {t : Tree} {path : Path} {level : Nat}
    {value : Value} (h : (t.walk record path level).outcome = .ok value) :
    value ≠ .number .nan := by
  have hlevel : level ≤ maxLevels :=
    level_le_of_walk fun levels htoo => by cases h.symm.trans htoo
  cases t with
  | absent =>
      rw [walk, if_neg (Nat.not_lt.mpr hlevel)] at h
      cases h
      simp
  | operand token =>
      rw [walk, if_neg (Nat.not_lt.mpr hlevel)] at h
      cases h
      exact Record.resolve_ne_nan hrecord token
  | operator symbol left right =>
      rw [walk_operator_outcome record path hlevel] at h
      cases hl : (left.walk record (.left :: path) (level + 1)).outcome with
      | error e =>
          rw [hl] at h
          cases h
      | ok leftValue =>
          cases hr : (right.walk record (.right :: path) (level + 1)).outcome with
          | error e =>
              rw [hl, hr] at h
              cases h
          | ok rightValue =>
              rw [hl, hr] at h
              cases symbol <;> cases h
              simp

/-- What has a verdict under an operator has the same one, exchanged, under its mirror. -/
theorem evaluate_mirror_of_ok {op : Operator} {left right : Tree} {verdict : Bool}
    (h : (binary op left right).evaluate record = .ok verdict) :
    (binary op.mirror right left).evaluate record = .ok verdict := by
  obtain ⟨leftValue, rightValue, hl, hr, hverdict⟩ := evaluate_binary_eq_ok_iff.mp h
  -- each tree now stands on the other side, still on the second level
  have hl' : (left.walk record [.right] 2).outcome = .ok leftValue :=
    walk_eq_ok_of_le (Nat.le_refl 2) hl
  have hr' : (right.walk record [.left] 2).outcome = .ok rightValue :=
    walk_eq_ok_of_le (Nat.le_refl 2) hr
  refine evaluate_binary_eq_ok_iff.mpr ⟨rightValue, leftValue, hr', hl', ?_⟩
  rw [op.mirror_apply, hverdict]

/-- Exchanged trees have the same verdict under the mirror. If both trees fail, the failures may
differ, since the one that stands on the left is met first. -/
theorem evaluate_mirror_eq_ok_iff (op : Operator) (left right : Tree) (verdict : Bool) :
    (binary op.mirror right left).evaluate record = .ok verdict ↔
      (binary op left right).evaluate record = .ok verdict := by
  refine ⟨fun h => ?_, evaluate_mirror_of_ok⟩
  have hback := evaluate_mirror_of_ok h
  rwa [op.mirror_mirror] at hback

/-- A comparison has the opposite verdict of its negation, and it fails where that one fails. -/
theorem evaluate_binary_negation (hrecord : record.NanFree) {op op' : Operator}
    (h : op.negation? = some op') (left right : Tree) :
    (binary op' left right).evaluate record = ((binary op left right).evaluate record).map not := by
  rw [evaluate_binary, evaluate_binary]
  cases hl : (left.walk record [.left] 2).outcome with
  | error e => rfl
  | ok leftValue =>
      cases hr : (right.walk record [.right] 2).outcome with
      | error e => rfl
      | ok rightValue =>
          have hnot := Operator.apply_of_negation? h (value_ne_nan hrecord hl)
            (value_ne_nan hrecord hr)
          exact congrArg Except.ok hnot

/-- **Comparisons.** No record that is decoded from JSON has `nan` in it, and neither has what an
operand stands for on a record without it. On such a record every two trees, whatever they come to,
are either in one order or in its opposite: `>=` is the negation of `<`, and `<=` that of `>`, also
where they fail; and `>` and `>=` have the verdicts of `<` and `<=` on the exchanged trees. -/
theorem evaluate_comparison :
    (∀ text record, Record.ofJsonText text = .ok record → record.NanFree) ∧
    (∀ text json, Json.parse text = .ok json → json.NanFree) ∧
    (∀ json record, json.NanFree → Record.ofJson json = .ok record → record.NanFree) ∧
    ∀ record : Record, record.NanFree →
      (∀ token, record.resolve token ≠ .number .nan) ∧
      ∀ left right : Tree,
        (binary .ge left right).evaluate record =
          ((binary .lt left right).evaluate record).map not ∧
        (binary .le left right).evaluate record =
          ((binary .gt left right).evaluate record).map not ∧
        ∀ verdict,
          ((binary .gt left right).evaluate record = .ok verdict ↔
            (binary .lt right left).evaluate record = .ok verdict) ∧
          ((binary .ge left right).evaluate record = .ok verdict ↔
            (binary .le right left).evaluate record = .ok verdict) := by
  refine ⟨fun text record h => Record.nanFree_of_ofJsonText h,
    fun text json h => Json.hereditary_nanFree.of_parse h,
    fun json record hjson h => Record.nanFree_of_ofJson hjson h, fun record hrecord =>
    ⟨Record.resolve_ne_nan hrecord, fun left right => ⟨?_, ?_, fun verdict => ⟨?_, ?_⟩⟩⟩⟩
  · exact evaluate_binary_negation hrecord rfl left right
  · exact evaluate_binary_negation hrecord rfl left right
  · exact evaluate_mirror_eq_ok_iff .lt right left verdict
  · exact evaluate_mirror_eq_ok_iff .le right left verdict

/-- A number of a record from a text stands against the truth value of a conjunction with a missing
side: they are ordered as the texts `35` and `false`. -/
theorem evaluate_comparison_mixed :
    let text := "\x7b\"age\": 35, \"name\": \"bob\"\x7d"
    let json := Json.ofMembers [("age", .number (.int 35)), ("name", .string "bob")]
    let record := Record.ofList [("age", .number (.ofInt 35)), ("name", .string "bob")]
    let age := operand "age"
    let named := binary .and (operand "name") absent
    (Record.ofJsonText text = .ok record ∧ record.NanFree) ∧
      (Json.parse text = .ok json ∧ json.NanFree) ∧
      (Record.ofJson json = .ok record ∧ record.NanFree) ∧
      record.resolve "nan" ≠ .number .nan ∧
      (binary .lt age named).evaluate record = .ok true ∧
      (binary .ge age named).evaluate record = .ok false ∧
      (binary .gt named age).evaluate record = .ok true := by
  intro text json record age named
  obtain ⟨hofText, hofParse, hofJson, hlaws⟩ := evaluate_comparison
  have htext : Record.ofJsonText text = .ok record := by decide +kernel
  have hparse : Json.parse text = .ok json := by decide +kernel
  have hjson : Record.ofJson json = .ok record := by decide +kernel
  have hparsed := hofParse text json hparse
  have hdecoded := hofJson json record hparsed hjson
  obtain ⟨hresolve, htrees⟩ := hlaws record hdecoded
  have hlt : (binary .lt age named).evaluate record = .ok true := by decide +kernel
  have hge := (htrees age named).1
  have hgt := (((htrees named age).2.2 true).1).mpr hlt
  rw [hlt] at hge
  exact ⟨⟨htext, hofText text record htext⟩, ⟨hparse, hparsed⟩, ⟨hjson, hdecoded⟩,
    hresolve "nan", hlt, hge, hgt⟩

/-- A record with `nan` in it breaks the law: both comparisons are false. -/
example :
    let record := Record.empty.insert "x" (.number .nan)
    ¬ record.NanFree ∧
      (binary .ge (operand "x") (operand "0")).evaluate record = .ok false ∧
      (binary .lt (operand "x") (operand "0")).evaluate record = .ok false := by
  decide +kernel

end Tree

end Verdict
