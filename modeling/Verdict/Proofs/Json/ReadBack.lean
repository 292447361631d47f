import Verdict.Json.Printer
import Verdict.Json.Reader

/-!
# Reading what was written

A value that is written in any layout is cut into the same parts again: `readValue_render` gives
the parts of the value, `Json.toSource`, and the characters that follow it. Strings come first,
since every character must survive its escape (`readQuote_escapedChar`). Decoding these parts gives
the value, as long as it does not nest too deep (`toJson_toSource`), so `parse_render` reads a text
in any layout back.

Numbers are left out: they are written by rounding, and what holds of them is said elsewhere.
-/

namespace Verdict

namespace Json

namespace Source

/-! ## Strings -/

/-- The escape of a control names its code point. -/
theorem readHex_hexDigitsFixed {n : Nat} (h : n < 0x20) (rest : List Char) :
    readHex (Text.hexDigitsFixed 4 n ++ rest) = .ok (n, rest) := by
  have hall : ∀ n < 0x20, Text.natOfHex? (Text.hexDigitsFixed 4 n) = some n := by decide
  have hvalue := hall n h
  obtain ⟨a, b, c, d, hdigits⟩ : ∃ a b c d, Text.hexDigitsFixed 4 n = [a, b, c, d] :=
    ⟨_, _, _, _, rfl⟩
  rw [hdigits] at hvalue ⊢
  simp only [List.cons_append, List.nil_append, readHex, hvalue]

/-- A character is read back from its escape. -/
theorem readQuote_escapedChar (c : Char) (fuel : Nat) (out rest : List Char) :
    readQuote (fuel + 1) true out (escapedChar c ++ rest) =
      readQuote fuel true (c :: out) rest := by
  by_cases hquote : c = '"'
  · subst hquote
    rfl
  by_cases hslash : c = '\\'
  · subst hslash
    rfl
  by_cases hb : c = '\x08'
  · subst hb
    rfl
  by_cases hf : c = '\x0c'
  · subst hf
    rfl
  by_cases hn : c = '\n'
  · subst hn
    rfl
  by_cases hr : c = '\r'
  · subst hr
    rfl
  by_cases ht : c = '\t'
  · subst ht
    rfl
  have hescaped : escapedChar c =
      if c.toNat < 0x20 then ['\\', 'u'] ++ Text.hexDigitsFixed 4 c.toNat else [c] := by
    simp only [escapedChar, beq_iff_eq, if_neg hquote, if_neg hslash, if_neg hb, if_neg hf,
      if_neg hn, if_neg hr, if_neg ht]
  rw [hescaped]
  by_cases hcontrol : c.toNat < 0x20
  · rw [if_pos hcontrol, List.append_assoc]
    show readQuote (fuel + 1) true out ('\\' :: 'u' :: (Text.hexDigitsFixed 4 c.toNat ++ rest)) = _
    simp only [readQuote, readHex_hexDigitsFixed hcontrol]
    -- a control is no half of a pair
    have hunit : (decide (c.toNat < 0xD800) || decide (0xDFFF < c.toNat)) = true := by
      rw [Bool.or_eq_true, decide_eq_true_eq]
      exact .inl (by omega)
    rw [if_pos hunit, Char.ofNat_toNat]
  · rw [if_neg hcontrol]
    show readQuote (fuel + 1) true out (c :: rest) = _
    rw [readQuote, if_neg hcontrol]
    all_goals simp [hquote, hslash]

theorem escapedChar_ne_nil (c : Char) : escapedChar c ≠ [] := by
  unfold escapedChar
  repeat' split
  all_goals exact List.cons_ne_nil _ _

/-- A text is read back from its string, up to the closing quote. -/
theorem readQuote_escapeOnto (text out rest : List Char) {fuel : Nat}
    (h : (escapeOnto text ('"' :: rest)).length ≤ fuel) :
    readQuote fuel true out (escapeOnto text ('"' :: rest)) =
      .closed (some (String.ofList (out.reverse ++ text))) rest := by
  induction text generalizing fuel out with
  | nil =>
      have hpos : 0 < fuel := Nat.lt_of_lt_of_le (Nat.succ_pos _) h
      obtain ⟨fuel, rfl⟩ : ∃ n, fuel = n + 1 := ⟨fuel - 1, by omega⟩
      rw [List.append_nil]
      rfl
  | cons c text ih =>
      have hpos := List.length_pos_iff.mpr (escapedChar_ne_nil c)
      have hcons : escapeOnto (c :: text) ('"' :: rest) =
          escapedChar c ++ escapeOnto text ('"' :: rest) := rfl
      rw [hcons, List.length_append] at h
      obtain ⟨fuel, rfl⟩ : ∃ n, fuel = n + 1 := ⟨fuel - 1, by omega⟩
      rw [hcons, readQuote_escapedChar, ih (c :: out) (by omega)]
      simp

theorem readString_escapeOnto (text : String) (rest : List Char) (fuel : Nat)
    (h : (escapeOnto text.toList ('"' :: rest)).length ≤ fuel) :
    readString fuel (escapeOnto text.toList ('"' :: rest)) = .closed (some text) rest := by
  rw [readString, readQuote_escapeOnto text.toList [] rest h]
  simp

end Source

/-! ## Plain values and their parts -/

/-- The keys of the members, in order. -/
def Members.keys : Members → List String
  | .nil => []
  | .cons key _ rest => key :: rest.keys

mutual

/-- No number stands in the value; the keys may come in any order, and more than once. -/
def Numberless : Json → Prop
  | .number _ => False
  | .array items => items.Numberless
  | .object members => members.Numberless
  | _ => True

/-- No number stands in any item. -/
def Items.Numberless : Items → Prop
  | .nil => True
  | .cons item rest => item.Numberless ∧ rest.Numberless

/-- No number stands in any member. -/
def Members.Numberless : Members → Prop
  | .nil => True
  | .cons _ value rest => value.Numberless ∧ rest.Numberless

end

mutual

/-- No number stands in the value, and the keys of every object ascend. -/
def Plain : Json → Prop
  | .number _ => False
  | .array items => items.Plain
  | .object members => members.Plain
  | _ => True

/-- Every item is plain. -/
def Items.Plain : Items → Prop
  | .nil => True
  | .cons item rest => item.Plain ∧ rest.Plain

/-- Every member is plain, and its key is below those after it. -/
def Members.Plain : Members → Prop
  | .nil => True
  | .cons key value rest => (∀ k ∈ rest.keys, key < k) ∧ value.Plain ∧ rest.Plain

end

mutual

theorem Plain.numberless : ∀ {v : Json}, v.Plain → v.Numberless
  | .null, _ => trivial
  | .bool _, _ => trivial
  | .number _, h => h
  | .string _, _ => trivial
  | .array _, h => Items.Plain.numberless h
  | .object _, h => Members.Plain.numberless h

theorem Items.Plain.numberless : ∀ {items : Items}, items.Plain → items.Numberless
  | .nil, _ => trivial
  | .cons _ _, h => ⟨h.1.numberless, Items.Plain.numberless h.2⟩

theorem Members.Plain.numberless : ∀ {members : Members}, members.Plain → members.Numberless
  | .nil, _ => trivial
  | .cons _ _ _, h => ⟨h.2.1.numberless, Members.Plain.numberless h.2.2⟩

end

mutual

/-- The parts of a value as it is written; a number is none. -/
def toSource : Json → Source
  | .null => .null
  | .bool value => .bool value
  | .number _ => .broken .plain .malformed .malformed
  | .string text => .string (some text)
  | .array items => .array items.toSource
  | .object members => .object members.toSource

/-- The parts of items. -/
def Items.toSource : Items → Source.Items
  | .nil => .nil
  | .cons item rest => .cons item.toSource rest.toSource

/-- The parts of members. -/
def Members.toSource : Members → Source.Members
  | .nil => .nil
  | .cons key value rest => .cons (some key) value.toSource rest.toSource

end

/-- Only white space stands between the parts. -/
structure Layout.Blank (layout : Layout) : Prop where
  newline : ∀ depth, ∀ c ∈ layout.newline depth, isSpace c
  afterColon : ∀ c ∈ layout.afterColon, isSpace c

theorem Layout.blank_compact : Layout.compact.Blank :=
  ⟨fun _ _ hc => absurd hc List.not_mem_nil, fun _ hc => absurd hc List.not_mem_nil⟩

theorem Layout.blank_pretty : Layout.pretty.Blank := by
  refine ⟨fun depth c hc => ?_, fun c hc => ?_⟩
  · rcases List.mem_cons.mp hc with rfl | hc
    · rfl
    · rw [List.eq_of_mem_replicate hc]
      rfl
  · rw [List.mem_singleton.mp hc]
    rfl

/-! ## Steps of the reader -/

namespace Source

section Steps

variable {blank cs rest : List Char} {c : Char} {fuel : Nat} {first : Bool}

theorem dropWhile_blank (h : ∀ c ∈ blank, isSpace c) (hc : isSpace c = false) :
    (blank ++ c :: cs).dropWhile isSpace = c :: cs := by
  rw [List.dropWhile_append_of_pos h, List.dropWhile_cons_of_neg (by simp [hc])]

theorem readValue_blank (h : ∀ c ∈ blank, isSpace c) :
    readValue fuel (blank ++ cs) = readValue fuel cs := by
  cases fuel with
  | zero => rfl
  | succ fuel => rw [readValue, readValue, List.dropWhile_append_of_pos h]

theorem readValue_quote {text : Option String} (h : readString fuel cs = .closed text rest) :
    readValue (fuel + 1) ('"' :: cs) = (.string text, rest) := by
  rw [readValue, List.dropWhile_cons_of_neg (by decide)]
  simp only [h]

theorem readItems_closing (h : ∀ c ∈ blank, isSpace c) :
    readItems (fuel + 1) first (blank ++ ']' :: rest) = (.nil, rest) := by
  rw [readItems, dropWhile_blank h rfl]
  rfl

/-- The first item is read where a value begins. -/
theorem readItems_first (h : ∀ c ∈ blank, isSpace c) (hc : isSpace c = false) (hclose : c ≠ ']')
    {item : Source} (hitem : readValue fuel (c :: cs) = (item, rest)) :
    readItems (fuel + 1) true (blank ++ c :: cs) =
      (.cons item (readItems fuel false rest).1, (readItems fuel false rest).2) := by
  rw [readItems, dropWhile_blank h hc]
  simp only [if_true, hitem]

theorem readItems_next {item : Source} (hitem : readValue fuel cs = (item, rest)) :
    readItems (fuel + 1) false (',' :: cs) =
      (.cons item (readItems fuel false rest).1, (readItems fuel false rest).2) := by
  rw [readItems, List.dropWhile_cons_of_neg (by decide)]
  show (Items.cons (readValue fuel cs).1 (readItems fuel false (readValue fuel cs).2).1,
    (readItems fuel false (readValue fuel cs).2).2) = _
  rw [hitem]

theorem readMembers_closing (h : ∀ c ∈ blank, isSpace c) :
    readMembers (fuel + 1) first (blank ++ '\x7d' :: rest) = (.nil, rest) := by
  rw [readMembers, dropWhile_blank h rfl]
  rfl

theorem readMembers_first (h : ∀ c ∈ blank, isSpace c) :
    readMembers (fuel + 1) true (blank ++ '"' :: cs) = readMember fuel cs := by
  rw [readMembers, dropWhile_blank h rfl]
  rfl

theorem readMembers_next (h : ∀ c ∈ blank, isSpace c) :
    readMembers (fuel + 1) false (',' :: (blank ++ '"' :: cs)) = readMember fuel cs := by
  rw [readMembers, List.dropWhile_cons_of_neg (by decide)]
  simp only [Bool.false_eq_true, if_false, dropWhile_blank h (show isSpace '"' = false from rfl)]

/-- A member is read as its key, its value and the members after it. -/
theorem readMember_closed {key : Option String} {value : Source} {after : List Char}
    (hkey : readString fuel cs = .closed key (':' :: rest))
    (hvalue : readValue fuel rest = (value, after)) :
    readMember (fuel + 1) cs =
      (.cons key value (readMembers fuel false after).1, (readMembers fuel false after).2) := by
  rw [readMember, hkey]
  simp only [List.dropWhile_cons_of_neg (show ¬ isSpace ':' = true by decide), hvalue]

end Steps

end Source

/-! ## Lengths of what is written -/

theorem length_lt_quoteOnto (text : String) (rest : List Char) :
    rest.length < (quoteOnto text rest).length := by
  have hsuffix : ∀ cs : List Char, ('"' :: rest).length ≤ (escapeOnto cs ('"' :: rest)).length := by
    intro cs
    induction cs with
    | nil => exact Nat.le_refl _
    | cons c cs ih =>
        show _ ≤ (escapedChar c ++ escapeOnto cs ('"' :: rest)).length
        rw [List.length_append]
        omega
  have hcs := hsuffix text.toList
  simp only [quoteOnto, List.length_cons] at hcs ⊢
  omega

mutual

/-- A value that is written is not empty. -/
theorem length_lt_render (layout : Layout) : ∀ (v : Json), v.Numberless → ∀ (depth : Nat)
    (rest : List Char), rest.length < (v.render layout depth rest).length
  | .null, _, _, _ => by simp only [render, List.length_cons]; omega
  | .bool true, _, _, _ => by simp only [render, List.length_cons]; omega
  | .bool false, _, _, _ => by simp only [render, List.length_cons]; omega
  | .number _, h, _, _ => absurd h id
  | .string text, _, _, rest => length_lt_quoteOnto text rest
  | .array .nil, _, _, _ => by simp only [render, List.length_cons]; omega
  | .array (.cons item more), h, depth, rest => by
      have := Items.length_lt_render layout (.cons item more) h depth true rest
      simp only [render, List.length_cons]
      omega
  | .object .nil, _, _, _ => by simp only [render, List.length_cons]; omega
  | .object (.cons key value more), h, depth, rest => by
      have := Members.length_lt_render layout (.cons key value more) h depth true rest
      simp only [render, List.length_cons]
      omega

theorem Items.length_lt_render (layout : Layout) : ∀ (items : Items), items.Numberless →
    ∀ (depth : Nat) (first : Bool) (rest : List Char),
      rest.length < (items.render layout depth first rest).length
  | .nil, _, _, _, _ => by
      simp only [Items.render, List.length_append, List.length_cons]
      omega
  | .cons item more, h, depth, first, rest => by
      have hitem := Json.length_lt_render layout item h.1 (depth + 1)
        (more.render layout depth false rest)
      have hmore := Items.length_lt_render layout more h.2 depth false rest
      simp only [Items.render, List.length_append]
      omega

theorem Members.length_lt_render (layout : Layout) : ∀ (members : Members), members.Numberless →
    ∀ (depth : Nat) (first : Bool) (rest : List Char),
      rest.length < (members.render layout depth first rest).length
  | .nil, _, _, _, _ => by
      simp only [Members.render, List.length_append, List.length_cons]
      omega
  | .cons key value more, h, depth, first, rest => by
      have hvalue := Json.length_lt_render layout value h.1 (depth + 1)
        (more.render layout depth false rest)
      have hmore := Members.length_lt_render layout more h.2 depth false rest
      have hkey := length_lt_quoteOnto key (':' :: layout.afterColon ++
        value.render layout (depth + 1) (more.render layout depth false rest))
      simp only [Members.render, List.length_append, List.length_cons] at hkey ⊢
      omega

end

/-! ## Reading what was written -/

/-- A value begins with a character that is no white space and closes nothing. -/
theorem render_head {v : Json} (h : v.Numberless) (layout : Layout) (depth : Nat)
    (rest : List Char) :
    ∃ c cs, v.render layout depth rest = c :: cs ∧ isSpace c = false ∧ c ≠ ']' := by
  cases v with
  | null => exact ⟨_, _, rfl, by decide, by decide⟩
  | bool value => cases value <;> exact ⟨_, _, rfl, by decide, by decide⟩
  | number _ => exact absurd h id
  | string text => exact ⟨_, _, rfl, by decide, by decide⟩
  | array items => cases items <;> exact ⟨_, _, rfl, by decide, by decide⟩
  | object members => cases members <;> exact ⟨_, _, rfl, by decide, by decide⟩

section Read

open Source (readValue readItems readMembers readMember)

mutual

/-- A value without numbers that is written in any layout is read as its parts, up to what follows
it. -/
theorem readValue_render {layout : Layout} (hlayout : layout.Blank) : ∀ (v : Json), v.Numberless →
    ∀ (fuel depth : Nat) (rest : List Char), 2 * (v.render layout depth rest).length < fuel →
      readValue fuel (v.render layout depth rest) = (v.toSource, rest)
  | v, h, 0, depth, rest, hfuel => absurd hfuel (Nat.not_lt_zero _)
  | .null, _, fuel + 1, depth, rest, hfuel => rfl
  | .bool true, _, fuel + 1, depth, rest, hfuel => rfl
  | .bool false, _, fuel + 1, depth, rest, hfuel => rfl
  | .number _, h, _, _, _, _ => absurd h id
  | .string text, _, fuel + 1, depth, rest, hfuel => by
      simp only [render, quoteOnto, List.length_cons] at hfuel
      exact Source.readValue_quote (Source.readString_escapeOnto text rest fuel (by omega))
  | .array .nil, _, fuel + 1, depth, rest, hfuel => by
      simp only [render, List.length_cons] at hfuel
      obtain ⟨fuel, rfl⟩ : ∃ n, fuel = n + 1 := ⟨fuel - 1, by omega⟩
      rfl
  | .array (.cons item more), h, fuel + 1, depth, rest, hfuel => by
      simp only [render, List.length_cons] at hfuel
      have hread := readItems_render hlayout (.cons item more) h fuel depth true rest (by omega)
      show ((Source.array (readItems fuel true _).1), (readItems fuel true _).2) = _
      rw [hread]
      rfl
  | .object .nil, _, fuel + 1, depth, rest, hfuel => by
      simp only [render, List.length_cons] at hfuel
      obtain ⟨fuel, rfl⟩ : ∃ n, fuel = n + 1 := ⟨fuel - 1, by omega⟩
      rfl
  | .object (.cons key value more), h, fuel + 1, depth, rest, hfuel => by
      simp only [render, List.length_cons] at hfuel
      have hread := readMembers_render hlayout (.cons key value more) h fuel depth true rest
        (by omega)
      show ((Source.object (readMembers fuel true _).1), (readMembers fuel true _).2) = _
      rw [hread]
      rfl

theorem readItems_render {layout : Layout} (hlayout : layout.Blank) : ∀ (items : Items),
    items.Numberless → ∀ (fuel depth : Nat) (first : Bool) (rest : List Char),
      2 * (items.render layout depth first rest).length + 1 < fuel →
      readItems fuel first (items.render layout depth first rest) = (items.toSource, rest)
  | items, _, 0, _, _, _, hfuel => absurd hfuel (Nat.not_lt_zero _)
  | .nil, _, fuel + 1, depth, first, rest, hfuel =>
      Source.readItems_closing (hlayout.newline depth)
  | .cons item more, h, fuel + 1, depth, first, rest, hfuel => by
      have hlength := length_lt_render layout item h.1 (depth + 1)
        (more.render layout depth false rest)
      simp only [Items.render, List.length_append] at hfuel
      have hmore := readItems_render hlayout more h.2 fuel depth false rest (by omega)
      have hitem := readValue_render hlayout item h.1 fuel (depth + 1)
        (more.render layout depth false rest) (by omega)
      cases first with
      | true =>
          -- the reader looks at the head of the value to see that the array has not ended
          obtain ⟨c, cs, hhead, hspace, hclose⟩ := render_head h.1 layout (depth + 1)
            (more.render layout depth false rest)
          show readItems (fuel + 1) true (layout.newline (depth + 1) ++ item.render _ _ _) = _
          rw [hhead] at hitem ⊢
          rw [Source.readItems_first (hlayout.newline (depth + 1)) hspace hclose hitem, hmore]
          rfl
      | false =>
          show readItems (fuel + 1) false (',' :: (layout.newline (depth + 1) ++ _)) = _
          rw [Source.readItems_next ((Source.readValue_blank (hlayout.newline _)).trans hitem),
            hmore]
          rfl

theorem readMembers_render {layout : Layout} (hlayout : layout.Blank) : ∀ (members : Members),
    members.Numberless → ∀ (fuel depth : Nat) (first : Bool) (rest : List Char),
      2 * (members.render layout depth first rest).length + 1 < fuel →
      readMembers fuel first (members.render layout depth first rest) = (members.toSource, rest)
  | members, _, 0, _, _, _, hfuel => absurd hfuel (Nat.not_lt_zero _)
  | .nil, _, fuel + 1, depth, first, rest, hfuel =>
      Source.readMembers_closing (hlayout.newline depth)
  | .cons key value more, h, fuel + 1, depth, first, rest, hfuel => by
      obtain ⟨hvalueFree, hmoreFree⟩ := h
      have hlength := length_lt_render layout value hvalueFree (depth + 1)
        (more.render layout depth false rest)
      have hquote := length_lt_quoteOnto key (':' :: layout.afterColon ++
        value.render layout (depth + 1) (more.render layout depth false rest))
      simp only [Members.render, List.length_append, List.length_cons] at hfuel hquote
      obtain ⟨fuel, rfl⟩ : ∃ n, fuel = n + 1 := ⟨fuel - 1, by omega⟩
      have hmore := readMembers_render hlayout more hmoreFree fuel depth false rest (by omega)
      have hvalue := readValue_render hlayout value hvalueFree fuel (depth + 1)
        (more.render layout depth false rest) (by omega)
      have hkey := Source.readString_escapeOnto key (':' :: layout.afterColon ++
        value.render layout (depth + 1) (more.render layout depth false rest)) fuel
        (by simp only [quoteOnto, List.length_cons] at hfuel; omega)
      -- the first member and the later ones differ only in the comma
      have hmember := Source.readMember_closed hkey
        ((Source.readValue_blank hlayout.afterColon).trans hvalue)
      rw [hmore] at hmember
      cases first with
      | true => exact (Source.readMembers_first (hlayout.newline (depth + 1))).trans hmember
      | false => exact (Source.readMembers_next (hlayout.newline (depth + 1))).trans hmember

end

end Read

/-! ## Decoding what was read -/

/-- Members followed by others. -/
def Members.append : Members → Members → Members
  | .nil, members => members
  | .cons key value rest, members => .cons key value (rest.append members)

theorem Members.append_nil : ∀ (members : Members), members.append .nil = members
  | .nil => rfl
  | .cons key value rest => by rw [append, append_nil rest]

theorem Members.append_cons (key : String) (value : Json) (rest : Members) :
    ∀ (members : Members),
      (members.append (.cons key value .nil)).append rest = members.append (.cons key value rest)
  | .nil => rfl
  | .cons key' value' before => by rw [append, append, append, append_cons key value rest before]

theorem Members.keys_append (members : Members) :
    ∀ (before : Members), (before.append members).keys = before.keys ++ members.keys
  | .nil => rfl
  | .cons key value rest => by rw [append, keys, keys_append members rest]; rfl

theorem Members.insert_nil (key : String) (value : Json) :
    Members.nil.insert key value = .cons key value .nil :=
  rfl

/-- A member is put before the first one with a greater key. -/
theorem Members.insert_front {key key' : String} (value value' : Json) (rest : Members)
    (h : key < key') :
    insert key value (.cons key' value' rest) = .cons key value (.cons key' value' rest) :=
  if_pos h

/-- A member is put behind all those with lesser keys. -/
theorem Members.insert_behind {key key' : String} (value value' : Json) (rest : Members)
    (h : key' < key) :
    insert key value (.cons key' value' rest) = .cons key' value' (insert key value rest) := by
  have hne : key ≠ key' := fun heq => String.lt_irrefl key (heq ▸ h)
  rw [insert, if_neg (String.lt_asymm h), if_neg hne]

/-- A member with the greatest key so far comes last. -/
theorem Members.insert_of_lt {key : String} (value : Json) : ∀ {members : Members},
    (∀ k ∈ members.keys, k < key) → members.insert key value = members.append (.cons key value .nil)
  | .nil, _ => rfl
  | .cons key' value' rest, h => by
      have hlt : key' < key := h key' List.mem_cons_self
      rw [insert_behind value value' rest hlt,
        insert_of_lt value fun k hk => h k (List.mem_cons_of_mem _ hk)]
      rfl

mutual

/-- The parts of a plain value decode to the value, if there is room for its nesting. -/
theorem toJson_toSource : ∀ (v : Json), v.Plain → ∀ (room : Nat), v.nesting ≤ room →
    v.toSource.toJson room = .ok v
  | .null, _, _, _ => rfl
  | .bool _, _, _, _ => rfl
  | .number _, h, _, _ => absurd h id
  | .string _, _, _, _ => rfl
  | .array items, h, 0, hroom => absurd hroom (Nat.not_succ_le_zero _)
  | .array items, h, room + 1, hroom => by
      rw [toSource, Source.toJson, Items.toJson_toSource items h room
        (Nat.le_of_succ_le_succ hroom)]
      rfl
  | .object members, h, 0, hroom => absurd hroom (Nat.not_succ_le_zero _)
  | .object members, h, room + 1, hroom => by
      rw [toSource, Source.toJson, Members.toJson_toSource members h room
        (Nat.le_of_succ_le_succ hroom) .nil (fun _ hk => absurd hk List.not_mem_nil)]
      rfl

theorem Items.toJson_toSource : ∀ (items : Items), items.Plain → ∀ (room : Nat),
    items.nesting ≤ room → items.toSource.toJson room = .ok items
  | .nil, _, _, _ => rfl
  | .cons item rest, h, room, hroom => by
      rw [Items.nesting] at hroom
      rw [Items.toSource, Source.Items.toJson, Json.toJson_toSource item h.1 room (by omega)]
      simp only [Items.toJson_toSource rest h.2 room (by omega)]
      rfl

/-- The members follow those decoded before, if all their keys are greater. -/
theorem Members.toJson_toSource : ∀ (members : Members), members.Plain → ∀ (room : Nat),
    members.nesting ≤ room → ∀ (before : Members),
      (∀ k ∈ before.keys, ∀ k' ∈ members.keys, k < k') →
      members.toSource.toJson room before = .ok (before.append members)
  | .nil, _, _, _, before, _ => by
      rw [Members.toSource, Source.Members.toJson, Members.append_nil]
  | .cons key value rest, h, room, hroom, before, hkeys => by
      obtain ⟨hascend, hvalue, hrest⟩ := h
      rw [Members.nesting] at hroom
      -- the key is greater than all before it and less than all that follow
      have hkey : ∀ k ∈ before.keys, k < key := fun k hk => hkeys k hk key List.mem_cons_self
      have hlater : ∀ k ∈ (before.append (.cons key value .nil)).keys, ∀ k' ∈ rest.keys,
          k < k' := by
        intro k hk k' hk'
        rw [Members.keys_append] at hk
        rcases List.mem_append.mp hk with hk | hk
        · exact hkeys k hk k' (List.mem_cons_of_mem _ hk')
        · rw [List.mem_singleton.mp hk]
          exact hascend k' hk'
      rw [Members.toSource, Source.Members.toJson,
        Json.toJson_toSource value hvalue room (by omega)]
      simp only [Members.insert_of_lt value hkey]
      rw [Members.toJson_toSource rest hrest room (by omega) _ hlater,
        Members.append_cons]

end

/-! ## Whole texts -/

theorem quoteOnto_append (text : String) (rest more : List Char) :
    quoteOnto text (rest ++ more) = quoteOnto text rest ++ more := by
  have hescape : ∀ cs : List Char, escapeOnto cs ('"' :: (rest ++ more)) =
      escapeOnto cs ('"' :: rest) ++ more := by
    intro cs
    induction cs with
    | nil => rfl
    | cons c cs ih =>
        show escapedChar c ++ escapeOnto cs _ = escapedChar c ++ escapeOnto cs _ ++ more
        rw [ih, List.append_assoc]
  exact congrArg ('"' :: ·) (hescape text.toList)

mutual

/-- What follows a value stands behind it as it is. -/
theorem render_append (layout : Layout) : ∀ (v : Json) (depth : Nat) (rest more : List Char),
    v.render layout depth (rest ++ more) = v.render layout depth rest ++ more
  | .null, _, _, _ => rfl
  | .bool true, _, _, _ => rfl
  | .bool false, _, _, _ => rfl
  | .number _, _, _, _ => (List.append_assoc _ _ _).symm
  | .string text, _, rest, more => quoteOnto_append text rest more
  | .array .nil, _, _, _ => rfl
  | .array (.cons item items), depth, rest, more =>
      congrArg ('[' :: ·) (Items.render_append layout (.cons item items) depth true rest more)
  | .object .nil, _, _, _ => rfl
  | .object (.cons key value members), depth, rest, more =>
      congrArg ('\x7b' :: ·)
        (Members.render_append layout (.cons key value members) depth true rest more)

theorem Items.render_append (layout : Layout) : ∀ (items : Items) (depth : Nat) (first : Bool)
    (rest more : List Char), items.render layout depth first (rest ++ more) =
      items.render layout depth first rest ++ more
  | .nil, _, _, _, _ => by simp only [Items.render, List.append_assoc, List.cons_append]
  | .cons item items, depth, first, rest, more => by
      simp only [Items.render, Items.render_append layout items, Json.render_append layout item,
        List.append_assoc]

theorem Members.render_append (layout : Layout) : ∀ (members : Members) (depth : Nat)
    (first : Bool) (rest more : List Char), members.render layout depth first (rest ++ more) =
      members.render layout depth first rest ++ more
  | .nil, _, _, _, _ => by simp only [Members.render, List.append_assoc, List.cons_append]
  | .cons key value members, depth, first, rest, more => by
      simp only [Members.render, Members.render_append layout members,
        Json.render_append layout value, List.append_assoc]
      rw [← List.append_assoc (':' :: layout.afterColon), quoteOnto_append]

end

/-- A value without numbers that is written in any layout, with white space behind it, is cut into
its parts by whoever decodes it. -/
theorem decodeWhole_render {α : Type} (decode : Source → Except Fault α) {layout : Layout}
    (hlayout : layout.Blank) {v : Json} (hfree : v.Numberless) {text : String}
    (htext : text.toList = v.render layout 0 []) {blank : String}
    (hblank : ∀ c ∈ blank.toList, isSpace c) :
    Source.decodeWhole decode (text ++ blank) = decode v.toSource := by
  have hchars : (text ++ blank).toList = v.render layout 0 blank.toList := by
    rw [String.toList_append, htext, ← render_append, List.nil_append]
  have hread : Source.read (text ++ blank) = (v.toSource, blank.toList) := by
    rw [Source.read, hchars]
    refine readValue_render hlayout v hfree _ 0 blank.toList ?_
    rw [← String.length_toList, hchars]
    omega
  simp only [Source.decodeWhole, hread]
  cases decode v.toSource with
  | error e => rfl
  | ok a => exact if_pos (List.all_eq_true.mpr hblank)

/-- A text that is written in any layout is read back, whatever white space follows it. -/
theorem parse_render {layout : Layout} (hlayout : layout.Blank) {v : Json} (hplain : v.Plain)
    (hnesting : v.nesting ≤ Source.maxNesting) {text : String}
    (htext : text.toList = v.render layout 0 []) {blank : String}
    (hblank : ∀ c ∈ blank.toList, isSpace c) :
    parse (text ++ blank) = .ok v := by
  rw [parse, decodeWhole_render _ hlayout hplain.numberless htext hblank]
  exact toJson_toSource v hplain _ hnesting

end Json

end Verdict
