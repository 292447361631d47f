import Verdict.Evaluation
import Verdict.Proofs.Record.Decoding

/-!
# Records without nan

`nan` is the one number that no comparison has an answer for, and only a record that was put
together by hand can hold it. No numeral stands for it, so it is in no value that comes from a JSON
text (`Json.hereditary_nanFree`), and decoding brings it into no record
(`Record.nanFree_of_ofJson`, `Record.nanFree_of_ofJsonText`). Literals have no spelling for it
either, so on a record without it no operand stands for it (`Record.resolve_ne_nan`).
-/

namespace Verdict

/-! ## Fields -/

namespace Record

/-- No field holds `nan`. -/
def NanFree (record : Record) : Prop :=
  ∀ field ∈ record.fields, field.2 ≠ .number .nan

instance (record : Record) : Decidable record.NanFree :=
  inferInstanceAs (Decidable (∀ field ∈ record.fields, field.2 ≠ .number .nan))

theorem nanFree_empty : NanFree empty :=
  fun _ hfield => absurd hfield List.not_mem_nil

/-- What a name stands for in a record without `nan` is not `nan`. -/
theorem NanFree.get?_ne_nan {record : Record} (h : record.NanFree) {name : String} {value : Value}
    (hvalue : record.get? name = some value) : value ≠ .number .nan := by
  obtain ⟨field, hfield, rfl⟩ := Option.map_eq_some_iff.mp hvalue
  exact h field (List.mem_of_find?_eq_some hfield)

end Record

/-! ## Operands -/

theorem Number.ne_nan_of_ofLiteral? {text : String} {n : Number} (h : ofLiteral? text = some n) :
    n ≠ .nan := by
  unfold ofLiteral? at h
  simp only at h
  split at h
  · cases h
    exact nofun
  · obtain ⟨decimal, -, rfl⟩ := Option.map_eq_some_iff.mp h
    exact nofun

/-- On a record without `nan` no operand stands for it. -/
theorem Record.resolve_ne_nan {record : Record} (h : record.NanFree) (token : String) :
    record.resolve token ≠ .number .nan := by
  unfold resolve
  split
  · next value hvalue => exact h.get?_ne_nan hvalue
  · split
    · next n hn => exact fun heq => Number.ne_nan_of_ofLiteral? hn (Value.number.inj heq)
    · exact nofun

/-! ## Values that come from texts -/

namespace Json

mutual

/-- No number in the value is `nan`. -/
def NanFree : Json → Prop
  | .number n => n ≠ .float .nan
  | .array items => items.NanFree
  | .object members => members.NanFree
  | _ => True

/-- No number in the items is `nan`. -/
def Items.NanFree : Items → Prop
  | .nil => True
  | .cons item rest => item.NanFree ∧ rest.NanFree

/-- No number in the values of the members is `nan`. -/
def Members.NanFree : Members → Prop
  | .nil => True
  | .cons _ value rest => value.NanFree ∧ rest.NanFree

end

theorem Members.NanFree.insert (key : String) {value : Json} (hvalue : value.NanFree) :
    ∀ {members : Members}, members.NanFree → (members.insert key value).NanFree
  | .nil, _ => ⟨hvalue, trivial⟩
  | .cons key' value' rest, h => by
      obtain ⟨hvalue', hrest⟩ := h
      rw [Members.insert]
      split
      · exact ⟨hvalue, hvalue', hrest⟩
      split
      · exact ⟨hvalue, hrest⟩
      · exact ⟨hvalue', NanFree.insert key hvalue hrest⟩

/-- A numeral stands for a whole number or for one with a magnitude. -/
theorem Numeral.ne_nan_of_value? {numeral : Numeral} {n : Num} (h : numeral.value? = some n) :
    n ≠ .float .nan := by
  unfold value? at h
  simp only at h
  split at h
  · split at h
    · cases h
      exact nofun
    · split at h <;> cases h <;> exact nofun
  · obtain ⟨m, -, rfl⟩ := Option.map_eq_some_iff.mp h
    exact nofun

/-- No value that comes from a text has `nan` in it. -/
theorem hereditary_nanFree : Hereditary NanFree Items.NanFree Members.NanFree where
  null := trivial
  bool _ := trivial
  number hn := Numeral.ne_nan_of_value? hn
  string _ := trivial
  array hitems := hitems
  object hmembers := hmembers
  noItems := trivial
  item hitem hrest := ⟨hitem, hrest⟩
  noMembers := trivial
  member key _ _ hvalue hmembers := Members.NanFree.insert key hvalue hmembers

end Json

/-! ## Decoded records -/

/-- A scalar is `nan` only where the value that stores it is. -/
theorem Value.ne_nan_of_ofJson? {json : Json} {value : Value} (hjson : json.NanFree)
    (h : ofJson? json = some value) : value ≠ .number .nan := by
  cases json with
  | number n =>
      cases h
      cases n with
      | int value => exact nofun
      | float value => exact fun heq => hjson (congrArg Json.Num.float (Value.number.inj heq))
  | _ => cases h <;> exact nofun

namespace Record

/-- No record that a value without `nan` stores has `nan` in it. -/
theorem nanFree_of_ofJson {json : Json} {record : Record} (hjson : json.NanFree)
    (h : ofJson json = .ok record) : record.NanFree := by
  cases json with
  | object members =>
      refine forall_of_decodeMembers (P := (· ≠ .number .nan)) (fun hmembers => ?_) hjson
        nanFree_empty h
      exact ⟨fun _ => Value.ne_nan_of_ofJson? hmembers.1, hmembers.2⟩
  | _ => cases h

/-- No record that a text stores has `nan` in it. -/
theorem nanFree_of_ofJsonText {text : String} {record : Record}
    (h : ofJsonText text = .ok record) : record.NanFree := by
  obtain ⟨written, members, -, -, hparse, hstores⟩ := exists_parse_of_ofJsonText h
  exact nanFree_of_ofJson (Json.hereditary_nanFree.of_parse hparse) (ofJson_of_stores hstores)

end Record

end Verdict
