import Verdict.Operator

/-!
# Symbols and their texts

`Operator.ofSymbol?` finds an operator exactly where its symbol is written, and so a text stands
for one symbol only: for the operator that has this symbol or else, as a text that names none, for
itself (`Symbol.standsFor_iff`). Every text can be had back from its symbol. The other way round, a
symbol can be had back from its text if it is canonical (`Symbol.ofText_text_eq_iff`): a text that
names an operator, kept as if it named none, comes back as the operator (`Symbol.becomes_ofText`).
-/

namespace Verdict

namespace Operator

theorem ofSymbol?_symbol (op : Operator) : ofSymbol? op.symbol = some op := by
  cases op <;> decide

theorem ofSymbol?_eq_some_iff {text : String} {op : Operator} :
    ofSymbol? text = some op ↔ text = op.symbol := by
  constructor
  · intro h
    have hsymbol : op.symbol = text := by
      simpa using List.find?_some h
    exact hsymbol.symm
  · rintro rfl
    exact ofSymbol?_symbol op

theorem ofSymbol?_eq_none_iff {text : String} :
    ofSymbol? text = none ↔ ∀ op : Operator, text ≠ op.symbol := by
  constructor
  · rintro h op rfl
    rw [ofSymbol?_symbol] at h
    cases h
  · intro h
    cases hop : ofSymbol? text with
    | none => rfl
    | some op => exact absurd (ofSymbol?_eq_some_iff.mp hop) (h op)

end Operator

namespace Symbol

/-- What a text stands for where a symbol is due: the operator that has this symbol, or else a text
that names none. -/
inductive StandsFor : String → Symbol → Prop
  | known (op : Operator) : StandsFor op.symbol (.known op)
  | unknown {text : String} (h : ∀ op : Operator, text ≠ op.symbol) :
      StandsFor text (.unknown text)

/-- A text stands for the symbol that it is read as, and for no other. -/
theorem standsFor_iff {text : String} {symbol : Symbol} :
    StandsFor text symbol ↔ symbol = ofText text := by
  unfold ofText
  constructor
  · rintro (op | h)
    · rw [Operator.ofSymbol?_symbol]
    · rw [Operator.ofSymbol?_eq_none_iff.mpr h]
  · rintro rfl
    cases hop : Operator.ofSymbol? text with
    | some op =>
        rw [Operator.ofSymbol?_eq_some_iff.mp hop]
        exact .known op
    | none => exact .unknown (Operator.ofSymbol?_eq_none_iff.mp hop)

theorem standsFor_ofText (text : String) : StandsFor text (ofText text) :=
  standsFor_iff.mpr rfl

/-- A text is the text of the symbol that it stands for. -/
theorem StandsFor.text_eq {text : String} {symbol : Symbol} (h : StandsFor text symbol) :
    symbol.text = text := by
  cases h <;> rfl

theorem text_ofText (text : String) : (ofText text).text = text :=
  (standsFor_ofText text).text_eq

/-! ## Writing and reading again -/

/-- Whether a symbol is the one that its text stands for: no text that names an operator is kept as
one that names none. -/
def IsCanonical : Symbol → Prop
  | known _ => True
  | unknown text => ∀ op : Operator, text ≠ op.symbol

/-- What a symbol becomes when its text is read again: a text that names an operator becomes this
operator, and all else stays. -/
inductive Becomes : Symbol → Symbol → Prop
  | known (op : Operator) : Becomes (.known op) (.known op)
  | recognized (op : Operator) : Becomes (.unknown op.symbol) (.known op)
  | unknown {text : String} (h : ∀ op : Operator, text ≠ op.symbol) :
      Becomes (.unknown text) (.unknown text)

theorem becomes_ofText (symbol : Symbol) : symbol.Becomes (ofText symbol.text) := by
  cases symbol with
  | known op =>
      have hread : ofText (known op).text = .known op := (standsFor_iff.mp (.known op)).symm
      rw [hread]
      exact .known op
  | unknown text =>
      have h := standsFor_ofText text
      show Becomes (.unknown text) (ofText text)
      generalize ofText text = read at h
      cases h with
      | known op => exact .recognized op
      | unknown hnone => exact .unknown hnone

/-- Reading changes the symbols that are not canonical and no others. -/
theorem Becomes.eq_iff {symbol symbol' : Symbol} (h : symbol.Becomes symbol') :
    symbol' = symbol ↔ symbol.IsCanonical := by
  cases h with
  | known op => exact ⟨fun _ => trivial, fun _ => rfl⟩
  | recognized op =>
      constructor
      · intro heq
        cases heq
      · intro hcanonical
        exact absurd rfl (hcanonical op)
  | unknown hnone => exact ⟨fun _ => hnone, fun _ => rfl⟩

theorem ofText_text_eq_iff {symbol : Symbol} :
    ofText symbol.text = symbol ↔ symbol.IsCanonical :=
  (becomes_ofText symbol).eq_iff

/-- What is read is canonical. -/
theorem isCanonical_ofText (text : String) : (ofText text).IsCanonical :=
  ofText_text_eq_iff.mp (congrArg ofText (text_ofText text))

end Symbol

end Verdict
