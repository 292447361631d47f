import Verdict.Proofs.Json.Hereditary
import Verdict.Proofs.Json.ReadBack

/-!
# Order of the members

`Json.Ordered` says that the keys of every object in a value ascend, so that each key stands for
one member. The type of values does not carry this order with it: members are put in place by
`Members.insert`, which keeps it (`Members.ordered_insert`), and so every value that comes from a
text has it (`ordered_of_parse`). In ordered members a key is found at its only place, and what is
found there is ordered again.
-/

namespace Verdict

namespace Json

mutual

/-- The keys of every object in the value ascend. -/
def Ordered : Json → Prop
  | .array items => items.Ordered
  | .object members => members.Ordered
  | _ => True

/-- Every item is ordered. -/
def Items.Ordered : Items → Prop
  | .nil => True
  | .cons item rest => item.Ordered ∧ rest.Ordered

/-- Every member is ordered, and its key is below those after it. -/
def Members.Ordered : Members → Prop
  | .nil => True
  | .cons key value rest => (∀ k ∈ rest.keys, key < k) ∧ value.Ordered ∧ rest.Ordered

end

/-! ## Looking up -/

theorem Members.get?_eq_none_iff {name : String} : ∀ {members : Members},
    members.get? name = none ↔ name ∉ members.keys
  | .nil => by simp [get?, keys]
  | .cons key value rest => by
      have hrest : rest.get? name = none ↔ name ∉ rest.keys := get?_eq_none_iff
      rw [get?, keys, List.mem_cons, not_or, ← hrest]
      split
      · next equal =>
          refine ⟨fun h => ?_, fun h => absurd equal h.1⟩
          cases h
      · next differs => exact (and_iff_right differs).symm

/-- No key of ordered members comes again behind its member. -/
theorem Members.Ordered.get?_rest {key : String} {value : Json} {rest : Members}
    (h : (Members.cons key value rest).Ordered) : rest.get? key = none :=
  get?_eq_none_iff.mpr fun hmem => String.lt_irrefl key (h.1 key hmem)

theorem Members.ordered_and_nesting_of_get? {key : String} {part : Json} :
    ∀ {members : Members}, members.Ordered → members.get? key = some part →
    part.Ordered ∧ part.nesting ≤ members.nesting
  | .nil, _, h => nomatch h
  | .cons key' value rest, ⟨_, hvalue, hrest⟩, h => by
      rw [get?] at h
      rw [nesting]
      split at h
      · cases h
        exact ⟨hvalue, Nat.le_max_left _ _⟩
      · obtain ⟨hordered, hnesting⟩ := ordered_and_nesting_of_get? hrest h
        exact ⟨hordered, Nat.le_trans hnesting (Nat.le_max_right _ _)⟩

theorem Items.ordered_and_nesting_of_get? {part : Json} : ∀ {items : Items} {place : Nat},
    items.Ordered → items.toList[place]? = some part →
    part.Ordered ∧ part.nesting ≤ items.nesting
  | .nil, place, _, h => nomatch h
  | .cons item rest, 0, ⟨hitem, _⟩, h => by
      cases h
      rw [nesting]
      exact ⟨hitem, Nat.le_max_left _ _⟩
  | .cons item rest, place + 1, ⟨_, hrest⟩, h => by
      obtain ⟨hordered, hnesting⟩ := ordered_and_nesting_of_get? hrest h
      rw [nesting]
      exact ⟨hordered, Nat.le_trans hnesting (Nat.le_max_right _ _)⟩

/-! ## Values from texts -/

/-- Every key was there before, unless it is the key that was put in. -/
theorem Members.eq_or_mem_of_mem_keys_insert {key k : String} {value : Json} :
    ∀ {members : Members}, k ∈ (members.insert key value).keys → k = key ∨ k ∈ members.keys
  | .nil, h => by
      rw [insert, keys] at h
      exact List.mem_cons.mp h
  | .cons key' value' rest, h => by
      rw [insert] at h
      split at h
      · exact List.mem_cons.mp h
      split at h
      · exact (List.mem_cons.mp h).imp_right (List.mem_cons_of_mem key')
      · obtain rfl | later := List.mem_cons.mp h
        · exact .inr List.mem_cons_self
        · exact (eq_or_mem_of_mem_keys_insert later).imp_right (List.mem_cons_of_mem key')

/-- Putting an ordered member in its place keeps the order. -/
theorem Members.ordered_insert (key : String) {value : Json} (hvalue : value.Ordered) :
    ∀ {members : Members}, members.Ordered → (members.insert key value).Ordered
  | .nil, _ => ⟨fun k hk => absurd hk List.not_mem_nil, hvalue, trivial⟩
  | .cons key' value' rest, h => by
      obtain ⟨hkeys, hvalue', hrest⟩ := h
      rw [insert]
      split
      · next below =>
          refine ⟨fun k hk => ?_, hvalue, hkeys, hvalue', hrest⟩
          obtain rfl | later := List.mem_cons.mp hk
          · exact below
          · exact String.lt_trans below (hkeys k later)
      split
      · next equal =>
          subst equal
          exact ⟨hkeys, hvalue, hrest⟩
      · next notBelow differs =>
          have above : key' < key := by
            by_cases hlt : key' < key
            · exact hlt
            · exact absurd (String.le_antisymm (String.not_lt.mp hlt) (String.not_lt.mp notBelow))
                differs
          refine ⟨fun k hk => ?_, hvalue', ordered_insert key hvalue hrest⟩
          obtain rfl | old := eq_or_mem_of_mem_keys_insert hk
          · exact above
          · exact hkeys k old

theorem hereditary_ordered : Hereditary Ordered Items.Ordered Members.Ordered where
  null := trivial
  bool _ := trivial
  number _ := trivial
  string _ := trivial
  array hitems := hitems
  object hmembers := hmembers
  noItems := trivial
  item hitem hrest := ⟨hitem, hrest⟩
  noMembers := trivial
  member key _ _ hvalue hmembers := Members.ordered_insert key hvalue hmembers

/-- A value that comes from a text is ordered. -/
theorem ordered_of_parse {text : String} {v : Json} (h : parse text = .ok v) : v.Ordered :=
  hereditary_ordered.of_parse h

end Json

end Verdict
