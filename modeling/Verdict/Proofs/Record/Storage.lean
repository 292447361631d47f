import Verdict.Proofs.Evaluation.Equality
import Verdict.Proofs.Record.Decoding

/-!
# Records in storage

The stored form of a record says nothing of kinds: a truth value, a number and a text are told
apart by the shape of what is stored. That is enough to get every scalar back, except that numbers
which are not finite are stored as `null`, and `null` is no scalar (`Value.ofJson?_toJson`). So a
record comes back as it was exactly if its numbers are finite. Decoding yields finite numbers only,
so every record that was decoded once comes back (`Record.ofJson_toJson_of_ofJson`,
`Record.ofJson_toJson_of_ofJsonText`).
-/

namespace Verdict

/-! ## Values -/

/-- The scalar that the stored form of a value holds: the value itself, unless it is a number that
is not finite. -/
theorem Value.ofJson?_toJson (value : Value) :
    ofJson? value.toJson = if value.isFinite then some value else none := by
  cases value with
  | bool b => rfl
  | string s => rfl
  | number n =>
      rw [toJson, isFinite]
      split <;> rfl

theorem Value.same_self {value : Value} (h : value.isFinite) : value.same value = true := by
  cases value with
  | bool b => exact same_iff_equals.mpr (.bool b)
  | string s => exact same_iff_equals.mpr (.string s)
  | number n =>
      cases n with
      | nan => cases h
      | real negative m => exact same_iff_equals.mpr (.number (.bits negative m))

namespace Record

/-! ## Fields -/

/-- The members that store finite fields hold these fields. -/
theorem stores_membersOf : ∀ {fields : List Field}, (∀ field ∈ fields, field.2.isFinite) →
    Stores (membersOf fields) fields
  | [], _ => .nil
  | (name, value) :: rest, h => by
      obtain ⟨hvalue, hrest⟩ := List.forall_mem_cons.mp h
      exact .cons ((Value.ofJson?_toJson value).trans (if_pos hvalue)) (stores_membersOf hrest)

/-- If the members that store fields hold any fields at all, these are finite. -/
theorem isFinite_of_stores_membersOf : ∀ {fields fields' : List Field},
    Stores (membersOf fields) fields' → ∀ field ∈ fields, field.2.isFinite
  | [], _, _ => fun _ hfield => absurd hfield List.not_mem_nil
  | (name, value) :: rest, _, .cons hvalue hrest => by
      refine List.forall_mem_cons.mpr ⟨?_, isFinite_of_stores_membersOf hrest⟩
      rw [Value.ofJson?_toJson] at hvalue
      split at hvalue
      · next hfinite => exact hfinite
      · cases hvalue

theorem all_zip_same : ∀ {fields : List Field}, (∀ field ∈ fields, field.2.isFinite) →
    ((fields.zip fields).all fun (f, g) => f.1 == g.1 && f.2.same g.2) = true
  | [], _ => rfl
  | (name, value) :: rest, h => by
      obtain ⟨hvalue, hrest⟩ := List.forall_mem_cons.mp h
      simp only [List.zip_cons_cons, List.all_cons, all_zip_same hrest, beq_self_eq_true,
        Value.same_self hvalue, Bool.and_self]

/-! ## Records -/

variable {record : Record}

/-- A record of finite numbers equals itself. -/
theorem Finite.same_self (h : record.Finite) : record.same record = true := by
  rw [same, beq_self_eq_true, all_zip_same h]
  rfl

theorem Finite.ofJson_toJson (h : record.Finite) : ofJson record.toJson = .ok record :=
  ofJson_of_stores (stores_membersOf h)

theorem ofJson_toJson_of_not_finite (h : ¬ record.Finite) :
    ofJson record.toJson = .error (.data .noScalar) :=
  ofJson_of_not_stores fun _ hstores => h (isFinite_of_stores_membersOf hstores)

theorem ofJson_toJson_of_ofJson {json : Json} (hjson : json.EveryNumber Json.Num.InRange)
    (h : ofJson json = .ok record) : ofJson record.toJson = .ok record :=
  (finite_of_ofJson hjson h).ofJson_toJson

theorem ofJson_toJson_of_ofJsonText {text : String} (h : ofJsonText text = .ok record) :
    ofJson record.toJson = .ok record := by
  obtain ⟨written, members, -, -, hparse, hstores⟩ := exists_parse_of_ofJsonText h
  exact ofJson_toJson_of_ofJson (Json.everyNumber_inRange_of_parse hparse)
    (ofJson_of_stores hstores)

/-- The stored form of a record is decoded to an equal record exactly if every number in it is
finite; then it is decoded to the record itself, with every name, kind and bit, and otherwise it is
refused. A record that was decoded, from a value or from a text, comes back from its stored form. -/
theorem ofJson_toJson_finite (record : Record) :
    ((∃ decoded, ofJson record.toJson = .ok decoded ∧ decoded.same record = true) ↔
      record.Finite) ∧
    (ofJson record.toJson = .ok record ↔ record.Finite) ∧
    (¬ record.Finite → ofJson record.toJson = .error (.data .noScalar)) ∧
    (∀ json, json.EveryNumber Json.Num.InRange → ofJson json = .ok record →
      ofJson record.toJson = .ok record) ∧
    (∀ text, ofJsonText text = .ok record → ofJson record.toJson = .ok record) := by
  have hrefused : ∀ decoded, ofJson record.toJson = .ok decoded → record.Finite := by
    intro decoded hdecoded
    by_cases hfinite : record.Finite
    · exact hfinite
    · rw [ofJson_toJson_of_not_finite hfinite] at hdecoded
      cases hdecoded
  refine ⟨⟨?_, fun h => ⟨record, h.ofJson_toJson, h.same_self⟩⟩,
    ⟨hrefused record, Finite.ofJson_toJson⟩, ofJson_toJson_of_not_finite,
    fun _ hjson => ofJson_toJson_of_ofJson hjson, fun _ => ofJson_toJson_of_ofJsonText⟩
  rintro ⟨decoded, hdecoded, -⟩
  exact hrefused decoded hdecoded

/-- The negative zero comes back with its sign, and texts that look like numbers stay texts; an
infinite number is refused. The records of a value and of a text come back. -/
theorem ofJson_toJson_finite_zero :
    let kept : Record := ⟨[("", .bool false), ("digits", .string "1"),
      ("zero", .number (.real true .zero))], by decide⟩
    let lost : Record := ⟨[("", .bool false), ("top", .number .infinity)], by decide⟩
    let large : Record := ⟨[("n", .number (.ofInt 9007199254740993))], by decide⟩
    let value : Json := .object (.cons "n" (.number (.int 9007199254740993)) .nil)
    let text := "\x7b\"n\":9007199254740993\x7d"
    ofJson kept.toJson = .ok kept ∧ kept.same kept = true ∧
      ofJson lost.toJson = .error (.data .noScalar) ∧
      ofJson value = .ok large ∧ ofJsonText text = .ok large ∧
      ofJson large.toJson = .ok large := by
  intro kept lost large value text
  have hkept : kept.Finite := by decide
  have hlost : ¬ lost.Finite := by decide
  have hvalue : ofJson value = .ok large := ofJson_of_stores (.cons rfl .nil)
  have hrange : value.EveryNumber Json.Num.InRange := ⟨⟨by decide, by decide⟩, trivial⟩
  have htext : ofJsonText text = .ok large := by decide +kernel
  obtain ⟨decoded, hdecoded, hsame⟩ := (ofJson_toJson_finite kept).1.mpr hkept
  have hback := (ofJson_toJson_finite kept).2.1.mpr hkept
  obtain rfl : decoded = kept := Except.ok.inj (hdecoded.symm.trans hback)
  exact ⟨hback, hsame, (ofJson_toJson_finite lost).2.2.1 hlost, hvalue, htext,
    (ofJson_toJson_finite large).2.2.2.1 value hrange hvalue⟩

end Record

end Verdict
