import Verdict.Json.Reader

/-!
# Values from texts

`Json.Hereditary` says of properties of values, items and members that they pass from the parts to
the whole: from the items to an array, from the members to an object, and to numbers from the
numerals that spell them. Such a property holds of every value that comes from a text
(`Json.Hereditary.of_parse`). Members are decoded one by one, each put in its place among those
before it, so it is `Members.insert` that has to keep the property.
-/

namespace Verdict

namespace Json

/-- A whole text is decoded if the value at its head is and only blanks come behind it. -/
theorem Source.decodeWhole_eq_ok_iff {α : Type} {decode : Source → Except Fault α} {text : String}
    {a : α} : decodeWhole decode text = .ok a ↔
      decode (read text).1 = .ok a ∧ (read text).2.all isSpace = true := by
  unfold decodeWhole
  simp only
  cases hdecoded : decode (read text).1 with
  | error e => exact ⟨nofun, fun h => nomatch h.1⟩
  | ok decoded => cases hblank : (read text).2.all isSpace <;> simp

/-- What comes from a whole text comes from the value at its head. -/
theorem Source.decode_of_decodeWhole {α : Type} {decode : Source → Except Fault α} {text : String}
    {a : α} (h : decodeWhole decode text = .ok a) : decode (read text).1 = .ok a :=
  (decodeWhole_eq_ok_iff.mp h).1

/-- Properties of values, items and members that hold of a whole if they hold of its parts. -/
structure Hereditary (P : Json → Prop) (Q : Items → Prop) (R : Members → Prop) : Prop where
  null : P .null
  bool (b : Bool) : P (.bool b)
  number {numeral : Numeral} {n : Num} (h : numeral.value? = some n) : P (.number n)
  string (text : String) : P (.string text)
  array {items : Items} (h : Q items) : P (.array items)
  object {members : Members} (h : R members) : P (.object members)
  noItems : Q .nil
  item {v : Json} {rest : Items} (hv : P v) (hrest : Q rest) : Q (.cons v rest)
  noMembers : R .nil
  member (key : String) {v : Json} {before : Members} (hv : P v) (hbefore : R before) :
    R (before.insert key v)

namespace Hereditary

variable {P : Json → Prop} {Q : Items → Prop} {R : Members → Prop}

mutual

/-- A hereditary property holds of what a part of a text decodes to. -/
theorem of_toJson (H : Hereditary P Q R) : ∀ {source : Source} {room : Nat} {v : Json},
    source.toJson room = .ok v → P v
  | .null, room, v, h => by
      cases h
      exact H.null
  | .bool b, room, v, h => by
      cases h
      exact H.bool b
  | .number numeral, room, v, h => by
      rw [Source.toJson] at h
      split at h <;> cases h
      next hn => exact H.number hn
  | .string (some text), room, v, h => by
      cases h
      exact H.string text
  | .string none, room, v, h => nomatch h
  | .array items, 0, v, h => nomatch h
  | .array items, room + 1, v, h => by
      rw [Source.toJson] at h
      cases hitems : items.toJson room with
      | error e =>
          rw [hitems] at h
          cases h
      | ok values =>
          rw [hitems] at h
          cases h
          exact H.array (of_itemsToJson H hitems)
  | .object members, 0, v, h => nomatch h
  | .object members, room + 1, v, h => by
      rw [Source.toJson] at h
      cases hmembers : members.toJson room .nil with
      | error e =>
          rw [hmembers] at h
          cases h
      | ok decoded =>
          rw [hmembers] at h
          cases h
          exact H.object (of_membersToJson H H.noMembers hmembers)
  | .broken _ _ _, room, v, h => nomatch h

theorem of_itemsToJson (H : Hereditary P Q R) : ∀ {items : Source.Items} {room : Nat}
    {values : Items}, items.toJson room = .ok values → Q values
  | .nil, room, values, h => by
      cases h
      exact H.noItems
  | .fault _, room, values, h => nomatch h
  | .cons item rest, room, values, h => by
      rw [Source.Items.toJson] at h
      split at h
      · cases h
      · next value hitem =>
          cases hrest : rest.toJson room with
          | error e =>
              rw [hrest] at h
              cases h
          | ok later =>
              rw [hrest] at h
              cases h
              exact H.item (of_toJson H hitem) (of_itemsToJson H hrest)

theorem of_membersToJson (H : Hereditary P Q R) : ∀ {members : Source.Members} {room : Nat}
    {before decoded : Members}, R before → members.toJson room before = .ok decoded → R decoded
  | .nil, room, before, decoded, hbefore, h => by
      cases h
      exact hbefore
  | .fault _, room, before, decoded, hbefore, h => nomatch h
  | .stray _, room, before, decoded, hbefore, h => nomatch h
  | .brokenKey _ _, room, before, decoded, hbefore, h => nomatch h
  | .cons none _ _, room, before, decoded, hbefore, h => nomatch h
  | .cons (some key) value rest, room, before, decoded, hbefore, h => by
      rw [Source.Members.toJson] at h
      split at h
      · cases h
      · next value' hvalue =>
          exact of_membersToJson H (H.member key (of_toJson H hvalue) hbefore) h

end

/-- A hereditary property holds of every value that comes from a text. -/
theorem of_parse (H : Hereditary P Q R) {text : String} {v : Json} (h : parse text = .ok v) : P v :=
  H.of_toJson (Source.decode_of_decodeWhole h)

end Hereditary

end Json

end Verdict
