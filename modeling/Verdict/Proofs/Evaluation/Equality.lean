import Verdict.Proofs.Evaluation.Comparison

/-!
# Equality of values

`Value.same` is equality of kind and content, and `Value.Equals` says which values that are: every
value equals itself, except `nan`, and besides the two zeros equal each other, whose bits differ
(`Value.same_iff_equals`). What an operator sees of a number is its place in the order, its text and
whether it counts as true, and the zeros have all three in common. So equal values may stand for
each other below every operator and on either side: `Operator.eq_congruence`.
-/

namespace Verdict

/-! ## Numbers -/

namespace Number

/-- Equality of floating point numbers: the same bits but for `nan`, or zeros of any signs. -/
inductive Equals : Number → Number → Prop
  | bits (negative : Bool) (m : Magnitude) : Equals (.real negative m) (.real negative m)
  | zeros (negative negative' : Bool) : Equals (.real negative .zero) (.real negative' .zero)

variable {a b : Number}

/-- Equal numbers have the same place in the order. -/
theorem Equals.place?_eq (h : a.Equals b) : ∃ p, a.place? = some p ∧ b.place? = some p := by
  cases h with
  | bits negative m => cases negative <;> exact ⟨_, rfl, rfl⟩
  | zeros negative negative' =>
      refine ⟨0, ?_, ?_⟩
      · cases negative <;> rfl
      · cases negative' <;> rfl

/-- Only the zeros share a place with another number. -/
theorem equals_of_place?_eq {p : Int} (ha : a.place? = some p) (hb : b.place? = some p) :
    a.Equals b := by
  cases a with
  | nan => cases ha
  | real negative m =>
      cases b with
      | nan => cases hb
      | real negative' m' =>
          obtain ⟨rank, hle⟩ := m
          obtain ⟨rank', hle'⟩ := m'
          by_cases hsign : negative = negative'
          · have hrank : rank = rank' := by
              cases negative <;> cases negative' <;> simp [place?] at hsign ha hb <;> omega
            subst hsign hrank
            exact .bits _ _
          · -- ranks of opposite signs meet at zero and nowhere else
            have hzero : rank = 0 ∧ rank' = 0 := by
              cases negative <;> cases negative' <;> simp [place?] at hsign ha hb <;> omega
            obtain ⟨rfl, rfl⟩ := hzero
            exact .zeros _ _

theorem same_iff_equals : a.same b = true ↔ a.Equals b := by
  constructor
  · intro h
    unfold same compare? at h
    cases ha : a.place? with
    | none => simp [ha] at h
    | some p =>
        cases hb : b.place? with
        | none => simp [ha, hb] at h
        | some q =>
            have hpq : p = q := by simpa [ha, hb] using h
            exact equals_of_place?_eq ha (hpq ▸ hb)
  · intro h
    obtain ⟨p, ha, hb⟩ := h.place?_eq
    simp [same, compare?, ha, hb]

theorem Equals.compare?_eq (h : a.Equals b) (c : Number) : a.compare? c = b.compare? c := by
  obtain ⟨p, ha, hb⟩ := h.place?_eq
  simp only [compare?, ha, hb]

theorem Equals.text_eq (h : a.Equals b) : a.text = b.text := by
  cases h <;> rfl

theorem Equals.isTruthy_eq (h : a.Equals b) : a.isTruthy = b.isTruthy := by
  cases h <;> rfl

end Number

/-! ## Values -/

namespace Value

/-- Equality of values: the same kind, and equal contents of this kind. -/
inductive Equals : Value → Value → Prop
  | bool (b : Bool) : Equals (.bool b) (.bool b)
  | number {m n : Number} (h : m.Equals n) : Equals (.number m) (.number n)
  | string (s : String) : Equals (.string s) (.string s)

variable {a b : Value}

theorem same_iff_equals : a.same b = true ↔ a.Equals b := by
  constructor
  · intro h
    cases a with
    | bool x =>
        cases b with
        | bool y =>
            have hxy : x = y := by simpa [same] using h
            subst hxy
            exact .bool x
        | _ => cases h
    | number m =>
        cases b with
        | number n => exact .number (Number.same_iff_equals.mp h)
        | _ => cases h
    | string s =>
        cases b with
        | string t =>
            have hst : s = t := by simpa [same] using h
            subst hst
            exact .string s
        | _ => cases h
  · intro h
    cases h with
    | bool b => simp [same]
    | number h => exact Number.same_iff_equals.mpr h
    | string s => simp [same]

theorem Equals.text_eq (h : a.Equals b) : a.text = b.text := by
  cases h with
  | bool b => rfl
  | number h => exact h.text_eq
  | string s => rfl

theorem Equals.isTruthy_eq (h : a.Equals b) : a.isTruthy = b.isTruthy := by
  cases h with
  | bool b => rfl
  | number h => exact h.isTruthy_eq
  | string s => rfl

/-- Equal values stand in the same way to every other one: numbers do by their place, and to
values of other kinds by their text. -/
theorem Equals.compare?_eq (h : a.Equals b) (c : Value) : a.compare? c = b.compare? c := by
  cases h with
  | bool b => rfl
  | string s => rfl
  | @number m n h =>
      cases c with
      | number k => exact h.compare?_eq k
      | _ =>
          show some (compareOfLessAndEq m.text _) = some (compareOfLessAndEq n.text _)
          rw [h.text_eq]

theorem Equals.same_eq (h : a.Equals b) (c : Value) : a.same c = b.same c := by
  cases h with
  | bool b => rfl
  | string s => rfl
  | @number m n h =>
      cases c with
      | number k =>
          show (m.compare? k == some .eq) = (n.compare? k == some .eq)
          rw [h.compare?_eq]
      | _ => rfl

/-- Every value but `nan` equals itself. -/
theorem equals_self_iff : a.Equals a ↔ a ≠ .number .nan := by
  constructor
  · rintro h rfl
    cases h with
    | number h => cases h
  · intro hnan
    cases a with
    | bool b => exact .bool b
    | string s => exact .string s
    | number n =>
        cases n with
        | nan => exact absurd rfl hnan
        | real negative m => exact .number (.bits negative m)

end Value

/-! ## Operators -/

namespace Operator

variable {a b : Value}

theorem apply_congr_left (h : a.Equals b) (op : Operator) (c : Value) :
    op.apply a c = op.apply b c := by
  have hcompare := h.compare?_eq c
  have htruthy := h.isTruthy_eq
  cases op with
  | eq => exact h.same_eq c
  | and | or => simp only [apply, htruthy]
  | gt | lt | ge | le => simp only [apply, hcompare]

/-- What holds on the left holds on the right, below the operator that says the same with its sides
exchanged. -/
theorem apply_congr_right (h : a.Equals b) (op : Operator) (c : Value) :
    op.apply c a = op.apply c b := by
  rw [← op.mirror_apply, ← op.mirror_apply]
  exact apply_congr_left h op.mirror c

/-- **Equality is a congruence.** Where `=` holds between two values, no operator tells them apart
on either side, they count as true or false alike, and they have the same text. It is symmetric and
transitive, holds between every value and itself but for `nan`, and is the equality of values by
kind and content, in which the two zeros are one number. -/
theorem eq_congruence :
    (∀ a b : Value, eq.apply a b = true →
      (∀ (op : Operator) (c : Value), op.apply a c = op.apply b c ∧ op.apply c a = op.apply c b) ∧
      a.isTruthy = b.isTruthy ∧ a.text = b.text) ∧
    (∀ a b : Value, eq.apply a b = eq.apply b a) ∧
    (∀ a b c : Value, eq.apply a b = true → eq.apply b c = true → eq.apply a c = true) ∧
    (∀ a : Value, eq.apply a a = true ↔ a ≠ .number .nan) ∧
    ∀ a b : Value, eq.apply a b = a.same b ∧ (a.same b = true ↔ a.Equals b) := by
  refine ⟨?_, ?_, ?_, ?_, ?_⟩
  · intro a b hab
    have h : a.Equals b := Value.same_iff_equals.mp hab
    refine ⟨?_, h.isTruthy_eq, h.text_eq⟩
    intro op c
    exact ⟨apply_congr_left h op c, apply_congr_right h op c⟩
  · intro a b
    exact Value.same_comm a b
  · intro a b c hab hbc
    have h : a.Equals b := Value.same_iff_equals.mp hab
    rw [apply_congr_left h eq c]
    exact hbc
  · intro a
    exact Value.same_iff_equals.trans Value.equals_self_iff
  · intro a b
    exact ⟨rfl, Value.same_iff_equals⟩

/-- The zeros have different bits, and yet they stand alike to the text `-0`, which lies below the
text of both. -/
theorem eq_congruence_zeros :
    let zero := Value.number (.real false .zero)
    let negZero := Value.number (.real true .zero)
    let written := Value.string "-0"
    zero ≠ negZero ∧ eq.apply zero negZero = true ∧ eq.apply negZero zero = true ∧
      eq.apply zero zero = true ∧ gt.apply zero written = true ∧
      gt.apply negZero written = true ∧ gt.apply written negZero = false ∧
      negZero.isTruthy = false ∧ negZero.text = "0" := by
  intro zero negZero written
  obtain ⟨hcongr, hsymm, htrans, -, -⟩ := eq_congruence
  have hzeros : eq.apply zero negZero = true := by decide
  have hback : eq.apply negZero zero = true := by
    rw [hsymm]
    exact hzeros
  obtain ⟨hops, htruthy, htext⟩ := hcongr zero negZero hzeros
  obtain ⟨hleft, hright⟩ := hops gt written
  have habove : gt.apply zero written = true := by decide +kernel
  have hbelow : gt.apply written zero = false := by decide +kernel
  refine ⟨by decide, hzeros, hback, htrans zero negZero zero hzeros hback, habove, ?_, ?_, ?_, ?_⟩
  · rw [← hleft]
    exact habove
  · rw [← hright]
    exact hbelow
  · rw [← htruthy]
    rfl
  · rw [← htext]
    rfl

end Operator

end Verdict
