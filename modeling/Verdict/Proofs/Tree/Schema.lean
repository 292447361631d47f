import Verdict.Proofs.Evaluation.Order
import Verdict.Proofs.Json.Nesting
import Verdict.Proofs.Json.Ordered
import Verdict.Proofs.Symbol

/-!
# The schema of stored trees

`NodeOf` says which values store a node and which tree is read off them. A node is an object or a
short array whose parts, the type, the value and the two children, stand under their keys or at
their places; a child may be missing or `null`, and those of an operand must be in order although
the operand drops them. The decoder accepts exactly these values (`decode_eq_ok_iff_childOf`), once
the nesting of the whole value is within the levels, and refuses all others with a JSON error
(`ofJson_schema`).

An object is read member by member, so the parts are followed from what was read before to what is
there after (`Parts.Reads`): a key that comes once is read once.
-/

namespace Verdict

/-! ## The parts of a value -/

namespace Json

/-- The value under a key of an object, or at a place of an array. -/
def part? (key : String) (place : Nat) : Json → Option Json
  | .object members => members.get? key
  | .array items => items.toList[place]?
  | _ => none

/-- Whether a value is an object, or an array of two to four items. -/
def NodeShaped : Json → Prop
  | .object _ => True
  | .array items => 2 ≤ items.toList.length ∧ items.toList.length ≤ 4
  | _ => False

/-- A part of an ordered value is ordered, and it nests less deeply than the value. -/
theorem ordered_and_nesting_of_part? {key : String} {place : Nat} {v part : Json}
    (hordered : v.Ordered) (h : v.part? key place = some part) :
    part.Ordered ∧ part.nesting < v.nesting := by
  cases v with
  | object members =>
      obtain ⟨hpart, hnesting⟩ := Members.ordered_and_nesting_of_get? hordered h
      exact ⟨hpart, Nat.lt_succ_of_le hnesting⟩
  | array items =>
      obtain ⟨hpart, hnesting⟩ := Items.ordered_and_nesting_of_get? hordered h
      exact ⟨hpart, Nat.lt_succ_of_le hnesting⟩
  | null => cases h
  | bool value => cases h
  | number value => cases h
  | string text => cases h

end Json

namespace Tree

/-! ## Node values -/

/-- The name of a kind of nodes. -/
def Kind.name : Kind → String
  | operator => "operator"
  | operand => "operand"

/-- The values that store a kind: its name, or an object that has this name as its only key and
nothing under it. -/
inductive Kind.StoredAs (kind : Kind) : Json → Prop
  | name : StoredAs kind (.string kind.name)
  | tag : StoredAs kind (.object (.cons kind.name .null .nil))

mutual

/-- The node values, each with the tree that is read off it. Whatever else an object holds is
passed over, and an operand drops its children. -/
inductive NodeOf : Json → Tree → Prop
  | operand {v kind : Json} {token : String} {left right : Tree} (hshape : v.NodeShaped)
      (htype : v.part? "type" 0 = some kind) (hkind : Kind.operand.StoredAs kind)
      (hvalue : v.part? "value" 1 = some (.string token))
      (hleft : ChildOf (v.part? "left" 2) left) (hright : ChildOf (v.part? "right" 3) right) :
      NodeOf v (.operand token)
  | operator {v kind : Json} {text : String} {symbol : Symbol} {left right : Tree}
      (hshape : v.NodeShaped)
      (htype : v.part? "type" 0 = some kind) (hkind : Kind.operator.StoredAs kind)
      (hvalue : v.part? "value" 1 = some (.string text)) (hsymbol : Symbol.StandsFor text symbol)
      (hleft : ChildOf (v.part? "left" 2) left) (hright : ChildOf (v.part? "right" 3) right) :
      NodeOf v (.operator symbol left right)

/-- What may stand for a child: nothing, `null` or a node value. -/
inductive ChildOf : Option Json → Tree → Prop
  | missing : ChildOf none .absent
  | null : ChildOf (some .null) .absent
  | node {v : Json} {t : Tree} (h : NodeOf v t) : ChildOf (some v) t

end

/-! ## Reading single parts -/

theorem Kind.ofName_eq_ok_iff {name : String} {kind : Kind} :
    Kind.ofName name = .ok kind ↔ name = kind.name := by
  unfold Kind.ofName
  constructor
  · intro h
    split at h
    · next hoperator =>
        cases h
        exact hoperator
    split at h
    · next hoperand =>
        cases h
        exact hoperand
    · cases h
  · rintro rfl
    cases kind <;> rfl

theorem Kind.decode_eq_ok_iff {v : Json} {kind : Kind} :
    Kind.decode v = .ok kind ↔ kind.StoredAs v := by
  constructor
  · intro h
    unfold Kind.decode at h
    split at h
    · cases Kind.ofName_eq_ok_iff.mp h
      exact .name
    · next name value =>
        split at h
        · cases h
        · next hkind =>
            cases h
            cases Kind.ofName_eq_ok_iff.mp hkind
            exact .tag
        · cases h
    · cases h
    · cases h
  · rintro (_ | _)
    · exact Kind.ofName_eq_ok_iff.mpr rfl
    · simp only [Kind.decode, Kind.ofName_eq_ok_iff.mpr rfl]

theorem decodeText_eq_ok_iff {v : Json} {text : String} :
    decodeText v = .ok text ↔ v = .string text := by
  constructor
  · intro h
    unfold decodeText at h
    split at h <;> cases h
    rfl
  · rintro rfl
    rfl

/-- What there is of a part after its value, if there is one, has been decoded. -/
def Read {α : Type} (decode : Json → Except Json.Fault α) (stored : Option Json)
    (before after : Option α) : Prop :=
  match stored with
  | none => after = before
  | some v => ∃ a, decode v = .ok a ∧ after = some a

section Read

variable {α : Type} {decode : Json → Except Json.Fault α} {v : Json} {a : α}
variable {before after : Option α}

theorem read_some_of_ok (h : decode v = .ok a) :
    Read decode (some v) before after ↔ Read decode none (some a) after := by
  constructor
  · rintro ⟨a', ha', hafter⟩
    rw [h] at ha'
    cases ha'
    exact hafter
  · intro hafter
    exact ⟨a, h, hafter⟩

/-- What was not there before and is there after was stored. -/
theorem exists_of_read {stored : Option Json} (h : Read decode stored none after)
    (hafter : after = some a) : ∃ v, stored = some v ∧ decode v = .ok a := by
  cases stored with
  | none =>
      rw [hafter] at h
      cases h
  | some v =>
      obtain ⟨a', hdecode, ha'⟩ := h
      rw [hafter] at ha'
      cases ha'
      exact ⟨v, rfl, hdecode⟩

theorem not_read_of_error {e : Json.Fault} (h : decode v = .error e) :
    ¬ Read decode (some v) before after := by
  rintro ⟨a, ha, -⟩
  rw [h] at ha
  cases ha

end Read

namespace Parts

/-- What there is of the parts of a node after the values that are stored for them, as far as there
are any, have been decoded. -/
def Reads (before after : Parts) (kind value left right : Option Json) : Prop :=
  Read Kind.decode kind before.kind after.kind ∧
  Read decodeText value before.value after.value ∧
  Read decode left before.left after.left ∧
  Read decode right before.right after.right

/-- What there is of the parts of a node once a value has been read. -/
def ReadFrom (parts : Parts) (v : Json) : Prop :=
  Parts.none.Reads parts (v.part? "type" 0) (v.part? "value" 1) (v.part? "left" 2)
    (v.part? "right" 3)

/-- Where nothing is stored, all stays as it was. -/
theorem reads_none_iff {before after : Parts} :
    before.Reads after .none .none .none .none ↔ before = after := by
  obtain ⟨kind, value, left, right⟩ := before
  obtain ⟨kind', value', left', right'⟩ := after
  constructor
  · rintro ⟨hkind, hvalue, hleft, hright⟩
    cases hkind
    cases hvalue
    cases hleft
    cases hright
    rfl
  · rintro h
    cases h
    exact ⟨rfl, rfl, rfl, rfl⟩

theorem finish_eq_ok_iff {parts : Parts} {t : Tree} :
    parts.finish = .ok t ↔ ∃ kind value, parts.kind = some kind ∧ parts.value = some value ∧
      match kind with
      | .operand => t = .operand value
      | .operator =>
        t = .operator (.ofText value) (parts.left.getD .absent) (parts.right.getD .absent) := by
  obtain ⟨kind, value, left, right⟩ := parts
  constructor
  · intro h
    unfold finish at h
    split at h
    · cases h
    · cases h
    · next value' hkind hvalue =>
        cases h
        exact ⟨.operand, value', hkind, hvalue, rfl⟩
    · next value' hkind hvalue =>
        cases h
        exact ⟨.operator, value', hkind, hvalue, rfl⟩
  · rintro ⟨kind', value', hkind, hvalue, ht⟩
    cases hkind
    cases hvalue
    cases kind' <;> rw [ht] <;> rfl

end Parts

/-! ## Reading objects and arrays -/

/-- Members are read part by part, each under its key. -/
theorem decodeMembers_eq_ok_iff : ∀ {members : Json.Members} {before after : Parts},
    members.Ordered →
    (decodeMembers before members = .ok after ↔
      before.Reads after (members.get? "type") (members.get? "value") (members.get? "left")
        (members.get? "right"))
  | .nil, before, after, _ => by
      rw [decodeMembers, Except.ok.injEq]
      exact Parts.reads_none_iff.symm
  | .cons key v rest, before, after, h => by
      have hkey : rest.get? key = none := h.get?_rest
      have ih : ∀ before' : Parts, decodeMembers before' rest = .ok after ↔
          before'.Reads after (rest.get? "type") (rest.get? "value") (rest.get? "left")
            (rest.get? "right") :=
        fun _ => decodeMembers_eq_ok_iff h.2.2
      rw [decodeMembers]
      by_cases hleft : key = "left"
      · subst hleft
        rw [if_pos rfl]
        cases hv : decode v with
        | error e => simp [Parts.Reads, Json.Members.get?, not_read_of_error hv]
        | ok left => simp [ih, Parts.Reads, Json.Members.get?, read_some_of_ok hv, hkey]
      rw [if_neg hleft]
      by_cases hright : key = "right"
      · subst hright
        rw [if_pos rfl]
        cases hv : decode v with
        | error e => simp [Parts.Reads, Json.Members.get?, not_read_of_error hv]
        | ok right => simp [ih, Parts.Reads, Json.Members.get?, read_some_of_ok hv, hkey]
      rw [if_neg hright]
      by_cases htype : key = "type"
      · subst htype
        rw [if_pos rfl]
        cases hv : Kind.decode v with
        | error e => simp [Parts.Reads, Json.Members.get?, not_read_of_error hv]
        | ok kind => simp [ih, Parts.Reads, Json.Members.get?, read_some_of_ok hv, hkey]
      rw [if_neg htype]
      by_cases hvalue : key = "value"
      · subst hvalue
        rw [if_pos rfl]
        cases hv : decodeText v with
        | error e => simp [Parts.Reads, Json.Members.get?, not_read_of_error hv]
        | ok text => simp [ih, Parts.Reads, Json.Members.get?, read_some_of_ok hv, hkey]
      rw [if_neg hvalue, ih]
      simp only [Json.Members.get?, if_neg (Ne.symm hleft), if_neg (Ne.symm hright),
        if_neg (Ne.symm htype), if_neg (Ne.symm hvalue)]

/-- The item at a place of an array whose items from an earlier place on are given. -/
def itemAt (place : Nat) (items : Json.Items) (i : Nat) : Option Json :=
  if i < place then none else items.toList[i - place]?

theorem itemAt_of_lt {place i : Nat} (h : i < place) (items : Json.Items) :
    itemAt place items i = none :=
  if_pos h

theorem itemAt_nil (place i : Nat) : itemAt place .nil i = none := by
  unfold itemAt
  split <;> rfl

theorem itemAt_cons (place : Nat) (item : Json) (rest : Json.Items) (i : Nat) :
    itemAt place (.cons item rest) i =
      if i = place then some item else itemAt (place + 1) rest i := by
  unfold itemAt
  obtain hlt | rfl | hgt := Nat.lt_trichotomy i place
  · rw [if_pos hlt, if_neg (Nat.ne_of_lt hlt), if_pos (Nat.lt_succ_of_lt hlt)]
  · rw [if_neg (Nat.lt_irrefl i), if_pos rfl, Nat.sub_self]
    rfl
  · have hsub : i - place = i - (place + 1) + 1 := by omega
    rw [if_neg (Nat.lt_asymm hgt), if_neg (Nat.ne_of_gt hgt), if_neg (Nat.not_lt.mpr hgt), hsub]
    rfl

/-- Items are read part by part, each at its place, and there must be two to four of them. -/
theorem decodeItems_eq_ok_iff : ∀ {items : Json.Items} {place : Nat} {before after : Parts},
    place ≤ 4 →
    (decodeItems place before items = .ok after ↔
      (2 ≤ place + items.toList.length ∧ place + items.toList.length ≤ 4) ∧
      before.Reads after (itemAt place items 0) (itemAt place items 1) (itemAt place items 2)
        (itemAt place items 3))
  | .nil, place, before, after, hplace => by
      rw [decodeItems, itemAt_nil, itemAt_nil, itemAt_nil, itemAt_nil, Parts.reads_none_iff]
      show _ ↔ (2 ≤ place ∧ place ≤ 4) ∧ _
      by_cases hshort : place < 2
      · rw [if_pos hshort]
        constructor
        · intro h
          cases h
        · rintro ⟨⟨hlong, -⟩, -⟩
          omega
      · rw [if_neg hshort, Except.ok.injEq]
        exact ⟨fun h => ⟨⟨Nat.not_lt.mp hshort, hplace⟩, h⟩, fun h => h.2⟩
  | .cons item rest, place, before, after, hplace => by
      have hlength : place + (Json.Items.cons item rest).toList.length =
          place + 1 + rest.toList.length := by
        rw [Json.Items.toList, List.length_cons]
        omega
      rw [hlength]
      have ih : place + 1 ≤ 4 → ∀ before' : Parts,
          decodeItems (place + 1) before' rest = .ok after ↔
            (2 ≤ place + 1 + rest.toList.length ∧ place + 1 + rest.toList.length ≤ 4) ∧
            before'.Reads after (itemAt (place + 1) rest 0) (itemAt (place + 1) rest 1)
              (itemAt (place + 1) rest 2) (itemAt (place + 1) rest 3) :=
        fun hnext _ => decodeItems_eq_ok_iff hnext
      match place with
      | 0 =>
          cases hv : Kind.decode item with
          | error e => simp [decodeItems, hv, itemAt_cons, Parts.Reads, not_read_of_error hv]
          | ok kind =>
              simp [decodeItems, hv, ih, itemAt_cons, itemAt_of_lt, Parts.Reads,
                read_some_of_ok hv]
      | 1 =>
          cases hv : decodeText item with
          | error e => simp [decodeItems, hv, itemAt_cons, Parts.Reads, not_read_of_error hv]
          | ok text =>
              simp [decodeItems, hv, ih, itemAt_cons, itemAt_of_lt, Parts.Reads,
                read_some_of_ok hv]
      | 2 =>
          cases hv : decode item with
          | error e => simp [decodeItems, hv, itemAt_cons, Parts.Reads, not_read_of_error hv]
          | ok left =>
              simp [decodeItems, hv, ih, itemAt_cons, itemAt_of_lt, Parts.Reads,
                read_some_of_ok hv]
      | 3 =>
          cases hv : decode item with
          | error e => simp [decodeItems, hv, itemAt_cons, Parts.Reads, not_read_of_error hv]
          | ok right =>
              simp [decodeItems, hv, ih, itemAt_cons, itemAt_of_lt, Parts.Reads,
                read_some_of_ok hv]
      | 4 =>
          rw [decodeItems]
          constructor
          · intro h
            cases h
          · rintro ⟨⟨-, hshort⟩, -⟩
            omega

/-- A value other than `null` decodes to the node of its parts, if it has the shape of a node. -/
theorem decode_eq_ok_iff_parts {v : Json} {t : Tree} (hnull : v ≠ .null) (hordered : v.Ordered) :
    decode v = .ok t ↔
      v.NodeShaped ∧ ∃ parts : Parts, parts.ReadFrom v ∧ parts.finish = .ok t := by
  cases v with
  | null => exact absurd rfl hnull
  | bool value => exact ⟨fun h => (nomatch h), fun h => h.1.elim⟩
  | number value => exact ⟨fun h => (nomatch h), fun h => h.1.elim⟩
  | string text => exact ⟨fun h => (nomatch h), fun h => h.1.elim⟩
  | object members =>
      have hmembers : ∀ parts : Parts, decodeMembers .none members = .ok parts ↔
          parts.ReadFrom (.object members) :=
        fun _ => decodeMembers_eq_ok_iff hordered
      rw [decode]
      constructor
      · intro h
        split at h
        · cases h
        · next parts hparts => exact ⟨trivial, parts, (hmembers parts).mp hparts, h⟩
      · rintro ⟨-, parts, hreads, hfinish⟩
        rw [(hmembers parts).mpr hreads]
        exact hfinish
  | array items =>
      have hitems : ∀ parts : Parts, decodeItems 0 .none items = .ok parts ↔
          (Json.array items).NodeShaped ∧ parts.ReadFrom (.array items) := by
        intro parts
        rw [decodeItems_eq_ok_iff (Nat.zero_le 4), Nat.zero_add]
        rfl
      rw [decode]
      constructor
      · intro h
        split at h
        · cases h
        · next parts hparts =>
            obtain ⟨hshape, hreads⟩ := (hitems parts).mp hparts
            exact ⟨hshape, parts, hreads, h⟩
      · rintro ⟨hshape, parts, hreads, hfinish⟩
        rw [(hitems parts).mpr ⟨hshape, hreads⟩]
        exact hfinish

/-- A child is what was read for it, or missing where nothing was. -/
theorem childOf_iff_read {stored : Option Json} {t : Tree}
    (ih : ∀ v, stored = some v → ∀ t, decode v = .ok t ↔ ChildOf (some v) t) :
    ChildOf stored t ↔ ∃ child, Read decode stored .none child ∧ child.getD .absent = t := by
  cases stored with
  | none =>
      constructor
      · rintro ⟨⟩
        exact ⟨none, rfl, rfl⟩
      · rintro ⟨child, rfl, rfl⟩
        exact .missing
  | some v =>
      rw [← ih v rfl t]
      constructor
      · intro h
        exact ⟨some t, ⟨t, h, rfl⟩, rfl⟩
      · rintro ⟨child, ⟨t', h, rfl⟩, rfl⟩
        exact h

/-- A node value is one whose parts make up the node. -/
theorem nodeOf_iff_parts {v : Json} {t : Tree}
    (ih : ∀ key place v', v.part? key place = some v' →
      ∀ t, decode v' = .ok t ↔ ChildOf (some v') t) :
    NodeOf v t ↔ v.NodeShaped ∧ ∃ parts : Parts, parts.ReadFrom v ∧ parts.finish = .ok t := by
  have hchild : ∀ {key : String} {place : Nat} {child : Tree}, ChildOf (v.part? key place) child ↔
      ∃ read, Read decode (v.part? key place) .none read ∧ read.getD .absent = child :=
    childOf_iff_read (ih _ _)
  constructor
  · intro h
    cases h with
    | @operand _ kind token left right hshape htype hkind hvalue hleft hright =>
        obtain ⟨left', hreadLeft, -⟩ := hchild.mp hleft
        obtain ⟨right', hreadRight, -⟩ := hchild.mp hright
        refine ⟨hshape, ⟨some .operand, some token, left', right'⟩,
          ⟨?_, ?_, hreadLeft, hreadRight⟩, rfl⟩
        · rw [htype]
          exact ⟨.operand, Kind.decode_eq_ok_iff.mpr hkind, rfl⟩
        · rw [hvalue]
          exact ⟨token, rfl, rfl⟩
    | @operator _ kind text symbol left right hshape htype hkind hvalue hsymbol hleft hright =>
        obtain ⟨left', hreadLeft, rfl⟩ := hchild.mp hleft
        obtain ⟨right', hreadRight, rfl⟩ := hchild.mp hright
        cases Symbol.standsFor_iff.mp hsymbol
        refine ⟨hshape, ⟨some .operator, some text, left', right'⟩,
          ⟨?_, ?_, hreadLeft, hreadRight⟩, rfl⟩
        · rw [htype]
          exact ⟨.operator, Kind.decode_eq_ok_iff.mpr hkind, rfl⟩
        · rw [hvalue]
          exact ⟨text, rfl, rfl⟩
  · rintro ⟨hshape, parts, ⟨hkind, hvalue, hleft, hright⟩, hfinish⟩
    obtain ⟨kind, value, hkind', hvalue', ht⟩ := Parts.finish_eq_ok_iff.mp hfinish
    obtain ⟨storedKind, htype, hkind⟩ := exists_of_read hkind hkind'
    obtain ⟨storedValue, hstored, hvalue⟩ := exists_of_read hvalue hvalue'
    cases decodeText_eq_ok_iff.mp hvalue
    have hleft := hchild.mpr ⟨_, hleft, rfl⟩
    have hright := hchild.mpr ⟨_, hright, rfl⟩
    cases kind with
    | operand =>
        cases ht
        exact .operand hshape htype (Kind.decode_eq_ok_iff.mp hkind) hstored hleft hright
    | operator =>
        cases ht
        exact .operator hshape htype (Kind.decode_eq_ok_iff.mp hkind) hstored
          (Symbol.standsFor_ofText value) hleft hright

/-- The decoder takes the node values and `null`, and reads their trees off them. -/
theorem decode_eq_ok_iff_childOf {v : Json} (hordered : v.Ordered) (t : Tree) :
    decode v = .ok t ↔ ChildOf (some v) t := by
  -- the parts of a value nest less deeply than the value
  induction hn : v.nesting using Nat.strongRecOn generalizing v t with
  | _ n ih =>
      by_cases hnull : v = .null
      · subst hnull
        constructor
        · intro h
          cases h
          exact .null
        · rintro (_ | _ | h)
          · rfl
          · cases h with
            | operand hshape => exact hshape.elim
            | operator hshape => exact hshape.elim
      have hnode : ChildOf (some v) t ↔ NodeOf v t := by
        constructor
        · rintro (_ | _ | h)
          · exact absurd rfl hnull
          · exact h
        · exact .node
      rw [hnode, decode_eq_ok_iff_parts hnull hordered, nodeOf_iff_parts]
      intro key place v' hpart t'
      obtain ⟨hordered', hnesting⟩ := Json.ordered_and_nesting_of_part? hordered hpart
      exact ih v'.nesting (hn ▸ hnesting) hordered' t' rfl

/-! ## The schema -/

/-- A text stores a tree if it is the text of `null` or of a node value, and the value nests within
the levels. -/
theorem ofJsonText_eq_ok_iff {text : String} {t : Tree} :
    ofJsonText text = .ok t ↔
      ∃ v, Json.parse text = .ok v ∧ v.nesting ≤ maxLevels ∧ ChildOf (some v) t := by
  unfold ofJsonText
  cases hparse : Json.parse text with
  | error fault =>
      constructor
      · intro h
        cases h
      · rintro ⟨v, h, -⟩
        cases h
  | ok v =>
      have hread : ofJson v = .ok t ↔ v.nesting ≤ maxLevels ∧ ChildOf (some v) t := by
        rw [ofJson_eq_ok_iff, decode_eq_ok_iff_childOf (Json.ordered_of_parse hparse)]
      show ofJson v = .ok t ↔ _
      rw [hread]
      constructor
      · intro h
        exact ⟨v, rfl, h⟩
      · rintro ⟨v', h, hchild⟩
        cases h
        exact hchild

/-- **The schema of stored trees.** A value that nests too deeply is refused with a message that
reports one level more than there may be, whatever else it is. Any other value is read as what it
stores: `null` as the absent tree, a node value as its node, and every other value is refused with
a JSON error. That the keys of its objects ascend, each key once, is how values are kept, and every
value that comes from a text is of this kind (`Json.ordered_of_parse`). -/
theorem ofJson_schema {v : Json} (hordered : v.Ordered) :
    (maxLevels < v.nesting → ofJson v = .error (.tooDeep 101) ∧
      (RuleError.tooDeep 101).IsInvalidInput ∧
      (RuleError.tooDeep 101).message = "无效的规则输入: 规则嵌套层数 101 超过上限 100") ∧
    (v.nesting ≤ maxLevels →
      (v = .null → ofJson v = .ok .absent) ∧
      (∀ t, NodeOf v t → ofJson v = .ok t ∧ t.isAbsent = false) ∧
      (v ≠ .null → (¬ ∃ t, NodeOf v t) → ∃ fault, ofJson v = .error (.json fault))) := by
  refine ⟨fun hdeep => ⟨?_, rfl, by decide +kernel⟩, fun hnesting => ⟨?_, ?_, ?_⟩⟩
  · rw [ofJson_eq, if_pos hdeep]
    rfl
  · rintro rfl
    exact ofJson_eq_ok_iff.mpr ⟨hnesting, rfl⟩
  · intro t hnode
    have hdecode : decode v = .ok t := (decode_eq_ok_iff_childOf hordered t).mpr (.node hnode)
    refine ⟨ofJson_eq_ok_iff.mpr ⟨hnesting, hdecode⟩, ?_⟩
    cases hnode <;> rfl
  · intro hnull hnone
    rw [ofJson_eq, if_neg (Nat.not_lt.mpr hnesting)]
    cases hdecode : decode v with
    | error fault => exact ⟨fault, rfl⟩
    | ok t =>
        obtain _ | _ | hnode := (decode_eq_ok_iff_childOf hordered t).mp hdecode
        · exact absurd rfl hnull
        · exact absurd ⟨t, hnode⟩ hnone

/-- A node written as an object over one written as an array, with a type that is itself an object
and a key that stores nothing. -/
theorem ofJson_schema_mixed :
    let child : Json := .ofItems [.string "operand", .string "a"]
    let v : Json := .object (.cons "left" child (.cons "note" (.bool true)
      (.cons "type" (.object (.cons "operator" .null .nil)) (.cons "value" (.string ">=") .nil))))
    v.Ordered ∧ v.nesting ≤ maxLevels ∧
      NodeOf v (.operator (.known .ge) (.operand "a") .absent) ∧
      ofJson v = .ok (.operator (.known .ge) (.operand "a") .absent) := by
  intro child v
  have hordered : v.Ordered := by
    have hleft : ∀ k ∈ ["note", "type", "value"], "left" < k := by decide
    have hnote : ∀ k ∈ ["type", "value"], "note" < k := by decide
    have htype : ∀ k ∈ ["value"], "type" < k := by decide
    have hlast : ∀ {key : String}, ∀ k ∈ Json.Members.nil.keys, key < k :=
      fun k hk => absurd hk List.not_mem_nil
    exact ⟨hleft, ⟨trivial, trivial, trivial⟩, hnote, trivial, htype, ⟨hlast, trivial, trivial⟩,
      hlast, trivial, trivial⟩
  have hnesting : v.nesting ≤ maxLevels := by decide
  have hchild : NodeOf child (.operand "a") :=
    .operand ⟨by decide, by decide⟩ rfl .name rfl .missing .missing
  have hnode : NodeOf v (.operator (.known .ge) (.operand "a") .absent) :=
    .operator trivial rfl .tag rfl (.known .ge) (.node hchild) .missing
  obtain ⟨-, -, hread, -⟩ := And.imp_right (· hnesting) (ofJson_schema hordered)
  exact ⟨hordered, hnesting, hnode, (hread _ hnode).1⟩

/-- An operand drops its children, but they must be in order all the same. -/
example :
    ofJson (.ofItems [.string "operand", .string "a", .ofItems [.string "operand", .string "b"]]) =
      .ok (.operand "a") ∧
    ofJson (.ofItems [.string "operand", .string "a", .ofItems [.string "operand"]]) =
      .error (.json (.data (.tooShort 1 .node 4))) :=
  ⟨rfl, rfl⟩

end Tree

end Verdict
