import Verdict.Proofs.Evaluation.LastLevel
import Verdict.Proofs.Timestamp
import Verdict.Proofs.Tree.Storage
import Verdict.Rule

/-!
# Rules in storage

A rule is written as an object whose members come in the order of its parts, or in the order of
their keys if it went through a value before. In its tree the same goes for every node:
`Tree.StoredAs` says what both forms of a tree have in common, and `StoredAs.ofSource_toSource` that
a tree is decoded from either of them while the text around it is being read. The tree stands one
level deeper in the object of its rule than on its own, but a text may nest deeper than a tree has
levels. So every rule that was made from a text comes back from storage
(`Rule.ofJsonText_stored`).
-/

namespace Verdict

open Json (Source)

namespace Tree

/-! ## Trees -/

/-- A form in which trees are stored: no tree is `null`, and a node has its kind, its value and the
forms of its children for members, in some order in which they decode. -/
structure StoredAs (node : String → String → Json → Json → Json) (form : Tree → Json) : Prop where
  absent : form .absent = .null
  operand (token : String) : form (.operand token) = node "operand" token .null .null
  operator (symbol : Symbol) (left right : Tree) :
    form (.operator symbol left right) = node "operator" symbol.text (form left) (form right)
  numberless {left right : Json} (kind value : String) (hleft : left.Numberless)
    (hright : right.Numberless) : (node kind value left right).Numberless
  decodes {left right : Json} {l r : Tree} {room : Nat} (optional : Bool) (kind value : String)
    (hleft : ofSource room true left.toSource = .ok l)
    (hright : ofSource room true right.toSource = .ok r) :
    ofSource (room + 1) optional (node kind value left right).toSource =
      match Kind.ofName kind with
      | .error e => .error e
      | .ok kind => (Parts.mk (some kind) (some value) (some l) (some r)).finish

theorem storedAs_toJson : StoredAs node toJson where
  absent := rfl
  operand _ := rfl
  operator _ _ _ := rfl
  numberless _ _ hleft hright := ⟨hleft, hright, trivial, trivial, trivial⟩
  decodes optional kind value hleft hright := by
    have hnot : ("right" : String) ≠ "left" ∧ "type" ≠ "left" ∧ "type" ≠ "right" ∧
        "value" ≠ "left" ∧ "value" ≠ "right" ∧ "value" ≠ "type" := by decide
    simp only [node, Json.toSource, Json.Members.toSource, ofSource, readMembers, hnot, if_true,
      if_false, Source.once, Parts.none, hleft, hright, Kind.ofSource, Source.toText]
    cases Kind.ofName kind <;> rfl

theorem storedAs_written : StoredAs nodeInOrder written where
  absent := rfl
  operand _ := rfl
  operator _ _ _ := rfl
  numberless _ _ hleft hright := ⟨trivial, trivial, hleft, hright, trivial⟩
  decodes optional kind value hleft hright := by
    have hnot : ("right" : String) ≠ "left" ∧ "type" ≠ "left" ∧ "type" ≠ "right" ∧
        "value" ≠ "left" ∧ "value" ≠ "right" ∧ "value" ≠ "type" := by decide
    simp only [nodeInOrder, Json.toSource, Json.Members.toSource, ofSource, readMembers, hnot,
      if_true, if_false, Source.once, Parts.none, Kind.ofSource, Source.toText]
    cases Kind.ofName kind with
    | error e => rfl
    | ok kind => simp only [hleft, hright]

namespace StoredAs

variable {node : String → String → Json → Json → Json} {form : Tree → Json}

theorem numberless_form (h : StoredAs node form) (t : Tree) : (form t).Numberless := by
  induction t with
  | absent =>
      rw [h.absent]
      trivial
  | operand token =>
      rw [h.operand]
      exact h.numberless _ _ trivial trivial
  | operator symbol left right ihl ihr =>
      rw [h.operator]
      exact h.numberless _ _ ihl ihr

/-- A tree is decoded where it stands in a text, with its symbols recognized, if there is room for
its levels. -/
theorem ofSource_toSource (h : StoredAs node form) {t : Tree} {room : Nat} {optional : Bool}
    (hroom : t.depth ≤ room) (habsent : t.isAbsent = true → optional = true) :
    ofSource room optional (form t).toSource = .ok t.recognized := by
  induction t generalizing room optional with
  | absent =>
      rw [h.absent, habsent rfl]
      rfl
  | operand token =>
      obtain ⟨room, rfl⟩ : ∃ k, room = k + 1 := ⟨room - 1, by rw [depth] at hroom; omega⟩
      rw [h.operand]
      exact h.decodes (l := .absent) (r := .absent) optional _ _ rfl rfl
  | operator symbol left right ihl ihr =>
      rw [depth] at hroom
      obtain ⟨room, rfl⟩ : ∃ k, room = k + 1 := ⟨room - 1, by omega⟩
      have hleft : ofSource room true (form left).toSource = .ok left.recognized :=
        ihl (by omega) fun _ => rfl
      have hright : ofSource room true (form right).toSource = .ok right.recognized :=
        ihr (by omega) fun _ => rfl
      rw [h.operator]
      exact h.decodes optional _ _ hleft hright

end StoredAs

end Tree

namespace Rule

/-! ## The members of a rule -/

section Members

variable {room : Nat} {parts : Parts} {rest : Source.Members}

theorem decodeTimestamp_text (t : Timestamp) : decodeTimestamp (.string (some t.text)) = .ok t := by
  rw [decodeTimestamp, Timestamp.parse_of_text]
  rfl

theorem readMembers_name (text : String) (hfirst : parts.name = none) :
    readMembers room parts (.cons (some "name") (.string (some text)) rest) =
      readMembers room { parts with name := some text } rest := by
  rw [readMembers, if_pos rfl, hfirst]
  rfl

theorem readMembers_description (text : String) (hfirst : parts.description = none) :
    readMembers room parts (.cons (some "description") (.string (some text)) rest) =
      readMembers room { parts with description := some (some text) } rest := by
  rw [readMembers, if_neg (by decide), if_pos rfl, hfirst]
  rfl

theorem readMembers_text (text : String) (hfirst : parts.text = none) :
    readMembers room parts (.cons (some "rule_string") (.string (some text)) rest) =
      readMembers room { parts with text := some text } rest := by
  rw [readMembers, if_neg (by decide), if_neg (by decide), if_pos rfl, hfirst]
  rfl

theorem readMembers_tree {source : Source} {tree : Tree} (hfirst : parts.tree = none)
    (htree : Tree.ofSource room false source = .ok tree) :
    readMembers room parts (.cons (some "ast") source rest) =
      readMembers room { parts with tree := some tree } rest := by
  rw [readMembers, if_neg (by decide), if_neg (by decide), if_neg (by decide), if_pos rfl, hfirst,
    htree]
  rfl

theorem readMembers_created (t : Timestamp) (hfirst : parts.created = none) :
    readMembers room parts (.cons (some "created_at") (.string (some t.text)) rest) =
      readMembers room { parts with created := some t } rest := by
  rw [readMembers, if_neg (by decide), if_neg (by decide), if_neg (by decide), if_neg (by decide),
    if_pos rfl, hfirst, decodeTimestamp_text]
  rfl

theorem readMembers_updated (t : Timestamp) (hfirst : parts.updated = none) :
    readMembers room parts (.cons (some "updated_at") (.string (some t.text)) rest) =
      readMembers room { parts with updated := some t } rest := by
  rw [readMembers, if_neg (by decide), if_neg (by decide), if_neg (by decide), if_neg (by decide),
    if_neg (by decide), if_pos rfl, hfirst, decodeTimestamp_text]
  rfl

end Members

/-! ## Both forms -/

variable {rule : Rule}

/-- The members of a form of a rule have no numbers in them, and they decode to the rule where there
is room for the levels of its tree. -/
structure StoredAs (rule : Rule) (members : Json.Members) : Prop where
  numberless : members.Numberless
  decodes (now : Timestamp) {room : Nat} (hroom : rule.tree.depth ≤ room) :
    ofSource now (room + 1) (.object members.toSource) = .ok rule

/-- The tree of a rule is decoded from its form as it is. -/
theorem ofSource_form {node : String → String → Json → Json → Json} {form : Tree → Json}
    (h : Tree.StoredAs node form) (hknown : rule.tree.Known) (habsent : rule.tree.isAbsent = false)
    (room : Nat) (hroom : rule.tree.depth ≤ room) :
    Tree.ofSource room false (form rule.tree).toSource = .ok rule.tree := by
  have hpresent : rule.tree.isAbsent = true → false = true := fun h => by rw [← h, habsent]
  rw [h.ofSource_toSource hroom hpresent, Tree.recognized_eq_iff.mpr hknown.canonical]

theorem storedAs_written (hknown : rule.tree.Known) (habsent : rule.tree.isAbsent = false) :
    ∃ members, rule.written = .object members ∧ rule.StoredAs members := by
  have hnumberless := Tree.storedAs_written.numberless_form rule.tree
  have htree := ofSource_form Tree.storedAs_written hknown habsent
  cases rule with
  | mk name description text tree created updated =>
  refine ⟨_, rfl, ?_, fun now room hroom => ?_⟩
  · cases description with
    | none => exact ⟨trivial, trivial, hnumberless, trivial, trivial, trivial⟩
    | some _ => exact ⟨trivial, trivial, trivial, hnumberless, trivial, trivial, trivial⟩
  · cases description with
    | none =>
        simp only [ofSource, Json.toSource, Json.Members.toSource]
        rw [readMembers_name _ rfl, readMembers_text _ rfl, readMembers_tree rfl (htree room hroom),
          readMembers_created _ rfl, readMembers_updated _ rfl]
        rfl
    | some _ =>
        simp only [ofSource, Json.toSource, Json.Members.toSource]
        rw [readMembers_name _ rfl, readMembers_description _ rfl, readMembers_text _ rfl,
          readMembers_tree rfl (htree room hroom), readMembers_created _ rfl, readMembers_updated _ rfl]
        rfl

/-- Through a value, the members come in the order of their keys. -/
theorem storedAs_toJson (hknown : rule.tree.Known) (habsent : rule.tree.isAbsent = false) :
    ∃ members, rule.toJson = .object members ∧ rule.StoredAs members := by
  have hnumberless := Tree.storedAs_toJson.numberless_form rule.tree
  have htree := ofSource_form Tree.storedAs_toJson hknown habsent
  cases rule with
  | mk name description text tree created updated =>
  cases description with
  | none =>
      refine ⟨.cons "ast" tree.toJson (.cons "created_at" (.string created.text)
        (.cons "name" (.string name) (.cons "rule_string" (.string text)
          (.cons "updated_at" (.string updated.text) .nil)))), ?_, ?_, fun now room hroom => ?_⟩
      · simp (disch := decide) only [toJson, Json.ofMembers, Json.Members.ofList,
          List.cons_append, List.nil_append, List.append_nil, List.foldl_cons, List.foldl_nil,
          Json.Members.insert_nil, Json.Members.insert_front, Json.Members.insert_behind]
      · exact ⟨hnumberless, trivial, trivial, trivial, trivial, trivial⟩
      · simp only [ofSource, Json.toSource, Json.Members.toSource]
        rw [readMembers_tree rfl (htree room hroom), readMembers_created _ rfl, readMembers_name _ rfl,
          readMembers_text _ rfl, readMembers_updated _ rfl]
        rfl
  | some about =>
      refine ⟨.cons "ast" tree.toJson (.cons "created_at" (.string created.text)
        (.cons "description" (.string about) (.cons "name" (.string name)
          (.cons "rule_string" (.string text) (.cons "updated_at" (.string updated.text) .nil))))),
        ?_, ?_, fun now room hroom => ?_⟩
      · simp (disch := decide) only [toJson, Json.ofMembers, Json.Members.ofList,
          List.cons_append, List.nil_append, List.foldl_cons, List.foldl_nil,
          Json.Members.insert_nil, Json.Members.insert_front, Json.Members.insert_behind]
      · exact ⟨hnumberless, trivial, trivial, trivial, trivial, trivial, trivial⟩
      · simp only [ofSource, Json.toSource, Json.Members.toSource]
        rw [readMembers_tree rfl (htree room hroom), readMembers_created _ rfl,
          readMembers_description _ rfl, readMembers_name _ rfl, readMembers_text _ rfl,
          readMembers_updated _ rfl]
        rfl

/-! ## Whole texts -/

/-- A rule is read back from a text in any layout, if its tree is within the levels: the object of
the rule takes one level of the nesting that a text may have, and there are more than enough. -/
theorem StoredAs.ofJsonText_render {members : Json.Members} (h : rule.StoredAs members)
    (hdepth : rule.tree.depth ≤ maxLevels) {layout : Json.Layout} (hlayout : layout.Blank)
    (later : Timestamp) :
    ofJsonText later (String.ofList ((Json.object members).render layout 0 [])) = .ok rule := by
  have hroom : rule.tree.depth ≤ 126 := Nat.le_trans hdepth (by decide)
  have hblank : ∀ c ∈ "".toList, Json.isSpace c := fun c hc => absurd hc List.not_mem_nil
  have hcut := Json.decodeWhole_render (ofSource later Source.maxNesting) hlayout
    (v := .object members) h.numberless String.toList_ofList hblank
  rw [String.append_empty] at hcut
  rw [ofJsonText, hcut]
  exact h.decodes later hroom

/-- The texts that a rule is stored as: with its members in the order of its parts or in the order
of their keys, on one line or on many. -/
def storedTexts (rule : Rule) : List String :=
  [rule.written.compact, rule.written.pretty, rule.toJson.compact, rule.toJson.pretty]

theorem ofJsonText_of_mem_storedTexts (hknown : rule.tree.Known)
    (habsent : rule.tree.isAbsent = false) (hdepth : rule.tree.depth ≤ maxLevels)
    (later : Timestamp) {text : String} (htext : text ∈ rule.storedTexts) :
    ofJsonText later text = .ok rule := by
  obtain ⟨inOrder, hwritten, hinOrder⟩ := storedAs_written hknown habsent
  obtain ⟨sorted, hvalue, hsorted⟩ := storedAs_toJson hknown habsent
  rw [storedTexts, hwritten, hvalue] at htext
  simp only [List.mem_cons, List.not_mem_nil, or_false] at htext
  rcases htext with rfl | rfl | rfl | rfl
  · exact hinOrder.ofJsonText_render hdepth Json.Layout.blank_compact later
  · exact hinOrder.ofJsonText_render hdepth Json.Layout.blank_pretty later
  · exact hsorted.ofJsonText_render hdepth Json.Layout.blank_compact later
  · exact hsorted.ofJsonText_render hdepth Json.Layout.blank_pretty later

/-- **Rules survive storage.** A rule that was made from a text, with a description or without one,
is read back from every text it is stored as, whenever that happens: with its name, its description,
its text, its tree and its timestamps. What was read back is still the rule of its text, and its
tree evaluates as before on every record. -/
theorem ofJsonText_stored {name text : String} {now : Timestamp} {rule : Rule}
    (hnew : new name text now = .ok rule) (description : Option String) (later : Timestamp)
    {written : String}
    (hwritten : written ∈ (description.elim rule fun about => rule.describe about).storedTexts) :
    ∃ decoded, ofJsonText later written = .ok decoded ∧
      decoded.name = name ∧ decoded.description = description ∧ decoded.text = text ∧
      decoded.tree = rule.tree ∧ decoded.created = now ∧ decoded.updated = now ∧
      Tree.parse decoded.text = .ok decoded.tree ∧
      ∀ record, decoded.tree.evaluate record = rule.tree.evaluate record := by
  cases hparse : Tree.parse text with
  | error e =>
      rw [new, hparse] at hnew
      cases hnew
  | ok tree =>
      rw [new, hparse] at hnew
      cases hnew
      -- the description does not touch the tree
      have hstored : (description.elim (⟨name, none, text, tree, now, now⟩ : Rule) fun about =>
          describe about ⟨name, none, text, tree, now, now⟩) =
          ⟨name, description, text, tree, now, now⟩ := by cases description <;> rfl
      rw [hstored] at hwritten
      exact ⟨_, ofJsonText_of_mem_storedTexts (Tree.known_of_parse hparse)
        (Tree.isAbsent_of_parse hparse) (Tree.depth_le_of_parse hparse) later hwritten,
        rfl, rfl, rfl, rfl, rfl, rfl, hparse, fun _ => rfl⟩

/-- A rule with as many levels as there can be, and a name that has to be escaped. -/
def deepest : Rule :=
  ⟨"\"a\\b\"\n", none, String.ofList Tree.bareConjunctions, Tree.bareChain, default, default⟩

/-- The chain of bare conjunctions has all the levels there are, and it is read back as part of a
rule whose name has to be escaped, without a description and with an empty one. -/
theorem ofJsonText_stored_deepest :
    new "\"a\\b\"\n" (String.ofList Tree.bareConjunctions) default = .ok deepest ∧
      deepest.tree.depth = maxLevels ∧
      ∀ description ∈ [none, some ""], ∀ written ∈
        (description.elim deepest fun about => deepest.describe about).storedTexts,
          ∃ decoded, ofJsonText default written = .ok decoded ∧
            decoded.description = description ∧ decoded.tree = Tree.bareChain := by
  have hnew : new "\"a\\b\"\n" (String.ofList Tree.bareConjunctions) default = .ok deepest := by
    rw [new, Tree.parse_bareConjunctions]
    rfl
  have hdepth : deepest.tree.depth = maxLevels := by decide +kernel
  refine ⟨hnew, hdepth, fun description _ written hwritten => ?_⟩
  obtain ⟨decoded, hdecoded, -, hdescription, -, htree, -⟩ :=
    ofJsonText_stored hnew description default hwritten
  exact ⟨decoded, hdecoded, hdescription, htree⟩

end Rule

end Verdict
