import Verdict.Evaluation
import Verdict.Proofs.Json.Nesting
import Verdict.Proofs.Json.ReadBack
import Verdict.Proofs.Symbol
import Verdict.Proofs.Tree.Growth
import Verdict.Tree.Stored

/-!
# Storing trees

The stored form of a tree nests exactly as deep as the tree has levels (`nesting_toJson`), and
it decodes to the tree, in which a symbol that spells a known operator has become that operator
(`decode_toJson`). A tree of known symbols that is within the levels therefore survives storage,
as a value (`ofJson_toJson`) and as a text (`ofJsonText_pretty`), and exactly the trees within the
levels that keep no operator as an unknown text do (`ofJson_toJson_canonical`). Decoding gives no
other trees, so what has been stored and read once can be stored and read any number of times.
-/

namespace Verdict

namespace Tree

/-! ## The stored form -/

theorem plain_toJson (t : Tree) : t.toJson.Plain := by
  have hleftKey : ∀ k ∈ ["right", "type", "value"], "left" < k := by decide
  have hrightKey : ∀ k ∈ ["type", "value"], "right" < k := by decide
  have htypeKey : ∀ k ∈ ["value"], "type" < k := by decide
  have hnode : ∀ (kind value : String) (left right : Json), left.Plain → right.Plain →
      (node kind value left right).Plain := by
    intro kind value left right hleft hright
    exact ⟨hleftKey, hleft, hrightKey, hright, htypeKey, trivial,
      fun k hk => absurd hk List.not_mem_nil, trivial, trivial⟩
  induction t with
  | absent => trivial
  | operand token => exact hnode _ _ _ _ trivial trivial
  | operator symbol left right ihl ihr => exact hnode _ _ _ _ ihl ihr

/-- The stored form of a tree nests as deep as the tree has levels. -/
theorem nesting_toJson (t : Tree) : t.toJson.nesting = t.depth := by
  induction t with
  | absent => rfl
  | operand token => rfl
  | operator symbol left right ihl ihr =>
      simp only [toJson, node, Json.nesting, Json.Members.nesting, depth, ihl, ihr]
      omega

/-! ## Canonical trees -/

/-- Whether no operator of the tree is kept as a text that names none. -/
def Canonical : Tree → Prop
  | absent => True
  | operand _ => True
  | operator symbol left right => symbol.IsCanonical ∧ left.Canonical ∧ right.Canonical

/-- What a tree becomes when it is stored and read again: the same tree but for the symbols that
name an operator without being known. -/
inductive Becomes : Tree → Tree → Prop
  | absent : Becomes .absent .absent
  | operand (token : String) : Becomes (.operand token) (.operand token)
  | operator {symbol symbol' : Symbol} {left left' right right' : Tree}
      (hsymbol : symbol.Becomes symbol') (hleft : Becomes left left')
      (hright : Becomes right right') :
      Becomes (.operator symbol left right) (.operator symbol' left' right')

/-- Exactly the canonical trees stay as they are. -/
theorem Becomes.eq_iff {t t' : Tree} (h : t.Becomes t') : t' = t ↔ t.Canonical := by
  induction h with
  | absent => exact ⟨fun _ => trivial, fun _ => rfl⟩
  | operand token => exact ⟨fun _ => trivial, fun _ => rfl⟩
  | operator hsymbol _ _ ihl ihr =>
      rw [Tree.operator.injEq, hsymbol.eq_iff, ihl, ihr]
      rfl

/-- The tree in which every symbol that spells a known operator is that operator. -/
def recognized : Tree → Tree
  | absent => absent
  | operand token => operand token
  | operator symbol left right => operator (.ofText symbol.text) left.recognized right.recognized

theorem becomes_recognized (t : Tree) : t.Becomes t.recognized := by
  induction t with
  | absent => exact .absent
  | operand token => exact .operand token
  | operator symbol left right ihl ihr => exact .operator symbol.becomes_ofText ihl ihr

theorem recognized_eq_iff {t : Tree} : t.recognized = t ↔ t.Canonical :=
  t.becomes_recognized.eq_iff

theorem Known.canonical {t : Tree} (h : t.Known) : t.Canonical := by
  induction t with
  | absent => trivial
  | operand token => trivial
  | operator symbol left right ihl ihr =>
      obtain ⟨hsymbol, hleft, hright⟩ := h
      cases symbol with
      | unknown text => exact absurd hsymbol Bool.false_ne_true
      | known op => exact ⟨trivial, ihl hleft, ihr hright⟩

/-- A tree that a value stores is canonical. -/
theorem canonical_of_decode {value : Json} {t : Tree} (h : decode value = .ok t) :
    t.Canonical := by
  have hlayered : Layered fun _ t => t.Canonical := {
    room := fun _ hcanonical => hcanonical
    absent := trivial
    operand := fun _ _ => trivial
    operator := fun text hleft hright => ⟨Symbol.isCanonical_ofText text, hleft, hright⟩ }
  exact hlayered.of_decode h

/-! ## Decoding the stored form -/

/-- A node decodes to what its kind makes of its value and its children. -/
theorem decode_node {kind value : String} {left right : Json} {l r : Tree}
    (hleft : decode left = .ok l) (hright : decode right = .ok r) :
    decode (node kind value left right) =
      match Kind.ofName kind with
      | .error e => .error e
      | .ok kind => (Parts.mk (some kind) (some value) (some l) (some r)).finish := by
  have hnot : ("right" : String) ≠ "left" ∧ "type" ≠ "left" ∧ "type" ≠ "right" ∧
      "value" ≠ "left" ∧ "value" ≠ "right" ∧ "value" ≠ "type" := by decide
  simp only [node, decode, decodeMembers, hnot, if_true, if_false, hleft, hright, Kind.decode,
    decodeText]
  cases Kind.ofName kind <;> rfl

/-- Decoding the stored form of a tree gives the tree with its symbols recognized. -/
theorem decode_toJson (t : Tree) : decode t.toJson = .ok t.recognized := by
  induction t with
  | absent => rfl
  | operand token => exact decode_node rfl rfl
  | operator symbol left right ihl ihr => exact decode_node ihl ihr

/-- Whatever a tree is stored as within the levels comes back recognized. -/
theorem ofJson_toJson_eq_ok_iff {t t' : Tree} :
    ofJson t.toJson = .ok t' ↔ t.depth ≤ maxLevels ∧ t.recognized = t' := by
  rw [ofJson_eq_ok_iff, nesting_toJson, decode_toJson, Except.ok.injEq]

/-- A tree of known symbols within the levels survives storage as a value. -/
theorem ofJson_toJson {t : Tree} (hknown : t.Known) (hdepth : t.depth ≤ maxLevels) :
    ofJson t.toJson = .ok t :=
  ofJson_toJson_eq_ok_iff.mpr ⟨hdepth, recognized_eq_iff.mpr hknown.canonical⟩

/-- **Storing and reading again.** A tree comes back from its stored form as it was exactly if it
is within the levels and canonical. With too many levels it is refused, and within them it comes
back with its operators recognized. A tree that was read from any value is stored and read again
without a change. -/
theorem ofJson_toJson_canonical (t : Tree) :
    (ofJson t.toJson = .ok t ↔ t.depth ≤ maxLevels ∧ t.Canonical) ∧
    (maxLevels < t.depth →
      ofJson t.toJson = .error (.tooDeep 101) ∧ (RuleError.tooDeep 101).IsInvalidInput) ∧
    (t.depth ≤ maxLevels → ∃ t', ofJson t.toJson = .ok t' ∧ t.Becomes t') ∧
    ∀ value, ofJson value = .ok t → ofJson t.toJson = .ok t := by
  have hround : ofJson t.toJson = .ok t ↔ t.depth ≤ maxLevels ∧ t.Canonical := by
    rw [ofJson_toJson_eq_ok_iff, recognized_eq_iff]
  refine ⟨hround, fun hdeep => ⟨?_, rfl⟩, fun hdepth => ?_, fun value hread => ?_⟩
  · rw [ofJson_eq, nesting_toJson, if_pos hdeep]
    rfl
  · exact ⟨t.recognized, ofJson_toJson_eq_ok_iff.mpr ⟨hdepth, rfl⟩, t.becomes_recognized⟩
  · obtain ⟨-, hdecode⟩ := ofJson_eq_ok_iff.mp hread
    exact hround.mpr ⟨depth_le_of_ofJson hread, canonical_of_decode hdecode⟩

/-- An operator that is kept as a text comes back known. -/
example :
    ofJson (Tree.operator (.unknown "AND") (.operator (.unknown "!=") absent absent) absent).toJson =
      .ok (.operator (.known .and) (.operator (.unknown "!=") absent absent) absent) :=
  rfl

/-- A tree of known symbols within the levels survives storage as a text, whatever white space
follows it. -/
theorem ofJsonText_pretty {t : Tree} (hknown : t.Known) (hdepth : t.depth ≤ maxLevels)
    {blank : String} (hblank : ∀ c ∈ blank.toList, Json.isSpace c) :
    ofJsonText (t.toJson.pretty ++ blank) = .ok t := by
  have hroom : t.toJson.nesting ≤ Json.Source.maxNesting := by
    rw [nesting_toJson]
    exact Nat.le_trans hdepth (by decide)
  have hparse : Json.parse (t.toJson.pretty ++ blank) = .ok t.toJson :=
    Json.parse_render Json.Layout.blank_pretty t.plain_toJson hroom String.toList_ofList hblank
  rw [ofJsonText, hparse]
  exact ofJson_toJson hknown hdepth

end Tree

end Verdict
