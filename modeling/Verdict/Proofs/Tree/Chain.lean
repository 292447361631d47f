import Verdict.Proofs.Token.Scan
import Verdict.Proofs.Tree.Assembly

/-!
# Rules without parentheses

A rule without parentheses is a list of words, followed by links: an operator and the words behind
it. `Tree.ofChain` writes its tree down. Every operator stands above all that comes before it, with
the last of its words on the right, and what else stands between two operators is lost; only the
first operator of a rule that begins with it takes its first word as a left child. With every link
the tree gains one level (`Tree.depth_chain`), so the levels of the whole tree decide whether one of
the trees on the way has too many: `Tree.ofTokens_chain`.
-/

namespace Verdict

namespace Token

/-- Neither a parenthesis nor the symbol of an operator. -/
def IsWord (text : String) : Prop :=
  text ≠ "(" ∧ text ≠ ")" ∧ ∀ op : Operator, text ≠ op.symbol

instance (text : String) : Decidable (IsWord text) :=
  decidable_of_iff (text ≠ "(" ∧ text ≠ ")" ∧ Operator.ofSymbol? text = none)
    (and_congr_right' (and_congr_right' Operator.ofSymbol?_eq_none_iff))

theorem IsWord.ofText_eq {text : String} (h : IsWord text) : ofText text = .operand text := by
  obtain ⟨hopening, hclosing, hsymbol⟩ := h
  unfold ofText
  rw [if_neg hopening, if_neg hclosing, Operator.ofSymbol?_eq_none_iff.mpr hsymbol]

/-- The texts of the tokens of links. -/
def linkTexts (links : List (Operator × List String)) : List String :=
  links.flatMap fun link => link.1.symbol :: link.2

/-- The tokens of links. -/
def linkTokens (links : List (Operator × List String)) : List Token :=
  links.flatMap fun link => .operator link.1 :: link.2.map .operand

theorem linkTokens_cons (op : Operator) (words : List String)
    (links : List (Operator × List String)) :
    linkTokens ((op, words) :: links) =
      .operator op :: (words.map .operand ++ linkTokens links) := by
  simp [linkTokens]

theorem map_ofText_words {words : List String} (h : ∀ word ∈ words, IsWord word) :
    words.map ofText = words.map .operand := by
  apply List.map_congr_left
  intro word hword
  exact (h word hword).ofText_eq

theorem map_ofText_linkTexts {links : List (Operator × List String)}
    (h : ∀ link ∈ links, ∀ word ∈ link.2, IsWord word) :
    (linkTexts links).map ofText = linkTokens links := by
  unfold linkTexts linkTokens
  rw [List.map_flatMap]
  apply List.flatMap_congr
  intro link hlink
  rw [List.map_cons, map_ofText_words (h link hlink)]
  exact congrArg (· :: _) (ofText_symbol link.1)

end Token

namespace Tree

/-- The operand of a word, and nothing where there is none. -/
def ofWord? : Option String → Tree
  | none => absent
  | some word => operand word

/-- A tree with links behind it. -/
def chain (t : Tree) : List (Operator × List String) → Tree
  | [] => t
  | (op, words) :: links => chain (operator (.known op) t (ofWord? words.getLast?)) links

/-- The tree of words with links behind them. -/
def ofChain : List String → List (Operator × List String) → Tree
  | [], (op, words) :: links =>
    chain (operator (.known op) (ofWord? words.head?) (ofWord? words.tail.getLast?)) links
  | first, links => chain (ofWord? first.head?) links

variable {t left : Tree}

theorem depth_ofWord?_le (word? : Option String) : (ofWord? word?).depth ≤ 1 := by
  cases word? with
  | none => exact Nat.zero_le 1
  | some word => exact Nat.le_refl 1

theorem depth_pos_of_isAbsent (h : t.isAbsent = false) : 1 ≤ t.depth := by
  cases t with
  | absent => cases h
  | operand word => exact Nat.le_refl 1
  | operator symbol left right => exact Nat.succ_le_succ (Nat.zero_le _)

/-- An operator stands one level above what comes before it, whatever its word. -/
theorem depth_link (h : t.isAbsent = false) (symbol : Symbol) (word? : Option String) :
    (operator symbol t (ofWord? word?)).depth = t.depth + 1 := by
  have hpos := depth_pos_of_isAbsent h
  have hword := depth_ofWord?_le word?
  show max t.depth (ofWord? word?).depth + 1 = t.depth + 1
  omega

theorem depth_chain (h : t.isAbsent = false) (links : List (Operator × List String)) :
    (chain t links).depth = t.depth + links.length := by
  induction links generalizing t with
  | nil => rfl
  | cons link links ih =>
      show (chain (operator (.known link.1) t (ofWord? link.2.getLast?)) links).depth = _
      rw [ih rfl, depth_link h, List.length_cons]
      omega

/-! ## Building words and links -/

variable {outer : List Draft}

/-- Behind an operand all words are lost. -/
theorem assemble_words_operand (word : String) (words : List String) (more : List Token) :
    (Draft.ofTree (operand word)).assemble outer (words.map .operand ++ more) =
      (Draft.ofTree (operand word)).assemble outer more := by
  induction words with
  | nil => rfl
  | cons next words ih => exact ih

/-- Below an operator with a left child, the last word is the right child. -/
theorem assemble_words_operator (hleft : left.isAbsent = false) (hlevels : left.depth < maxLevels)
    (outer : List Draft) (symbol : Symbol) (right? : Option String) (words : List String)
    (more : List Token) :
    (Draft.ofTree (operator symbol left (ofWord? right?))).assemble outer
        (words.map .operand ++ more) =
      (Draft.ofTree (operator symbol left (ofWord? (words.getLast?.or right?)))).assemble outer
        more := by
  induction words generalizing right? with
  | nil => rfl
  | cons word words ih =>
      have hattach : (Draft.ofTree (operator symbol left (ofWord? right?))).attach (.leaf word) =
          .ok (Draft.ofTree (operator symbol left (operand word))) := by
        have hdepth : (operator symbol left (operand word)).depth = left.depth + 1 :=
          depth_link hleft symbol (some word)
        show (Draft.ofTree _).attach (.ofTree (operand word)) = _
        rw [Draft.attach_ofTree, attach_operator hleft]
        exact Draft.checked_ofTree_of_le (by omega)
      have hlast : (word :: words).getLast?.or right? = words.getLast?.or (some word) := by
        rw [List.getLast?_cons]
        cases words.getLast? <;> rfl
      show Except.bind _ _ = _
      rw [hattach, hlast]
      exact ih (some word)

/-- A link puts its operator above the tree, if there is a level left for it. -/
theorem assemble_link (ht : t.isAbsent = false) (op : Operator) (words : List String)
    (more : List Token) :
    (Draft.ofTree t).assemble outer (.operator op :: (words.map .operand ++ more)) =
      if t.depth < maxLevels then
        (Draft.ofTree (operator (.known op) t (ofWord? words.getLast?))).assemble outer more
      else .error (.tooDeep (t.depth + 1)) := by
  have hdepth : (operator (.known op) t absent).depth = t.depth + 1 := depth_link ht _ none
  show ((Draft.ofTree t).pushOperator op).bind _ = _
  rw [Draft.pushOperator_ofTree, Draft.checked_ofTree, hdepth]
  by_cases hlevels : t.depth < maxLevels
  · have hwords := assemble_words_operator ht hlevels outer (.known op) none words more
    rw [Option.or_none] at hwords
    rw [if_neg (by omega), if_pos hlevels]
    exact hwords
  · rw [if_pos (by omega), if_neg hlevels]
    rfl

/-- Links go on until the whole chain has too many levels. -/
theorem assemble_links (ht : t.isAbsent = false) (hlevels : t.depth ≤ maxLevels)
    (links : List (Operator × List String)) :
    (Draft.ofTree t).assemble [] (Token.linkTokens links) =
      if (chain t links).depth ≤ maxLevels then .ok (.ofTree (chain t links))
      else .error (.tooDeep (maxLevels + 1)) := by
  induction links generalizing t with
  | nil =>
      show Except.ok (Draft.ofTree t) = if t.depth ≤ maxLevels then _ else _
      rw [if_pos hlevels]
      rfl
  | cons link links ih =>
      obtain ⟨op, words⟩ := link
      have hdepth := depth_chain ht ((op, words) :: links)
      rw [List.length_cons] at hdepth
      rw [Token.linkTokens_cons, assemble_link ht]
      by_cases hlink : t.depth < maxLevels
      · have hnext := depth_link ht (.known op) words.getLast?
        rw [if_pos hlink]
        exact ih rfl (by omega)
      · have hfull : t.depth = maxLevels := by omega
        rw [if_neg hlink, if_neg (by omega), hfull]

/-- The words and the links of a rule, from nothing. -/
theorem assemble_chain (first : List String) (links : List (Operator × List String)) :
    Draft.empty.assemble [] (first.map .operand ++ Token.linkTokens links) =
      if (ofChain first links).depth ≤ maxLevels then .ok (.ofTree (ofChain first links))
      else .error (.tooDeep (maxLevels + 1)) := by
  have hone : 1 ≤ maxLevels := by decide
  have htwo : 2 ≤ maxLevels := by decide
  cases first with
  | cons word words =>
      show (Draft.ofTree (operand word)).assemble []
        (words.map .operand ++ Token.linkTokens links) = _
      rw [assemble_words_operand]
      exact assemble_links (t := operand word) rfl hone links
  | nil =>
      cases links with
      | nil => rfl
      | cons link links =>
          obtain ⟨op, words⟩ := link
          rw [List.map_nil, List.nil_append, Token.linkTokens_cons]
          show (Draft.ofTree (operator (.known op) absent absent)).assemble [] _ = _
          cases words with
          | nil => exact assemble_links (t := operator (.known op) absent absent) rfl hone links
          | cons word words =>
              -- the first word fills the left place, and the others are words of an operator
              have hleft : (operand word).isAbsent = false := rfl
              have hwords := assemble_words_operator hleft htwo [] (.known op) none words
                (Token.linkTokens links)
              rw [Option.or_none] at hwords
              show (Draft.ofTree (operator (.known op) (operand word) absent)).assemble []
                (words.map .operand ++ Token.linkTokens links) = _
              refine hwords.trans (assemble_links rfl ?_ links)
              rw [depth_link hleft]
              exact htwo

/-- **Rules without parentheses.** Let a rule be words with links behind them, where each link is an
operator and its words, and any of the lists of words may be empty. It is built to the tree that is
written down for it if this tree has no more than `maxLevels` levels, and it fails otherwise, with
an error that lies in the input. -/
theorem ofTokens_chain {first : List String} {links : List (Operator × List String)}
    (hfirst : ∀ word ∈ first, Token.IsWord word)
    (hlinks : ∀ link ∈ links, ∀ word ∈ link.2, Token.IsWord word) :
    (ofTokens ((first ++ Token.linkTexts links).map Token.ofText) =
      if (ofChain first links).depth ≤ maxLevels then .ok (ofChain first links)
      else .error (.tooDeep (maxLevels + 1))) ∧
    (RuleError.tooDeep (maxLevels + 1)).IsInvalidInput := by
  refine ⟨?_, rfl⟩
  rw [List.map_append, Token.map_ofText_words hfirst, Token.map_ofText_linkTexts hlinks,
    ofTokens_eq_assemble, assemble_chain]
  split
  · rfl
  · rfl

/-- The first operator takes two of its three words, the second one the last of two, and the third
one has none to take. -/
theorem ofTokens_chain_leading :
    let links := [(Operator.eq, ["a", "x", "b"]), (.and, ["c", "["]), (.or, [])]
    let t := operator (.known .or)
      (binary .and (binary .eq (.operand "a") (.operand "b")) (.operand "[")) absent
    (∀ link ∈ links, ∀ word ∈ link.2, Token.IsWord word) ∧
      Token.linkTexts links = ["=", "a", "x", "b", "AND", "c", "[", "OR"] ∧
      ofTokens ((Token.linkTexts links).map Token.ofText) = .ok t := by
  intro links t
  have hfirst : ∀ word ∈ ([] : List String), Token.IsWord word := by
    intro word hword
    cases hword
  have hlinks : ∀ link ∈ links, ∀ word ∈ link.2, Token.IsWord word := by decide
  exact ⟨hlinks, rfl, (ofTokens_chain hfirst hlinks).1⟩

end Tree

end Verdict
