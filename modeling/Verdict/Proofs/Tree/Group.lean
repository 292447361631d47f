import Verdict.Proofs.Tree.Growth
import Verdict.Tree.Parse

/-!
# Building groups

`Group.grow` is what building a group comes to without the places: its draft and the tokens that
follow. It has one equation for each kind of token, and the tree of a token list is its tree
(`ofTokens_eq`).

`Grows` is the same as a relation, one rule for each token, and `grow_eq_ok_iff` joins the two: what
every step keeps holds of every group that is built, as in `Grows.built`.

`Token.Nested n` says of a list of tokens that its parentheses pair up and stand at most `n` deep
in one another. Such a list is built as a unit: `grow_append` continues with whatever follows it,
and the number of groups around it makes no difference (`grow_nesting`).
-/

namespace Verdict

/-- Token lists whose parentheses pair up and stand at most so many deep in one another. -/
inductive Token.Nested : Nat → List Token → Prop
  | nil {n : Nat} : Nested n []
  | operator {n : Nat} {op : Operator} {rest : List Token} : Nested n rest →
      Nested n (.operator op :: rest)
  | operand {n : Nat} {text : String} {rest : List Token} : Nested n rest →
      Nested n (.operand text :: rest)
  | group {n : Nat} {inner rest : List Token} : Nested n inner → Nested (n + 1) rest →
      Nested (n + 1) (.opening :: (inner ++ .closing :: rest))

namespace Group

/-- A group without its places: the draft, and the tokens that follow. -/
def content {bound : Nat} (group : Group bound) : Draft × List Token :=
  (group.draft, group.rest)

/-- What building a group on top of a draft comes to. -/
def grow (nesting : Nat) (draft : Draft) (tokens : List Token) :
    Except RuleError (Draft × List Token) :=
  (build nesting 0 draft tokens).map content

/-! ## One equation for each token -/

section Place

variable (nesting place : Nat) (draft : Draft) (rest : List Token)
variable {α : Type} {part : {bound : Nat} → Group bound → α}

-- part of what building gives, which the bound on what follows the group does not change
variable (hpart : ∀ {bound bound' : Nat} (h : bound ≤ bound') (group : Group bound),
  part (group.widen h) = part group)
include hpart

theorem build_operator (op : Operator) :
    (build nesting place draft (.operator op :: rest)).map part =
      (draft.pushOperator op).bind fun d =>
        (build nesting (place + 1) d rest).map part := by
  rw [build]
  cases draft.pushOperator op with
  | error e => rfl
  | ok d =>
      simp only [Except.bind]
      cases build nesting (place + 1) d rest with
      | error e => rfl
      | ok group => exact congrArg Except.ok (hpart _ group)

theorem build_operand (text : String) :
    (build nesting place draft (.operand text :: rest)).map part =
      (draft.attach (.leaf text)).bind fun d =>
        (build nesting (place + 1) d rest).map part := by
  rw [build]
  cases draft.attach (.leaf text) with
  | error e => rfl
  | ok d =>
      simp only [Except.bind]
      cases build nesting (place + 1) d rest with
      | error e => rfl
      | ok group => exact congrArg Except.ok (hpart _ group)

theorem build_opening (h : nesting < maxLevels) :
    (build nesting place draft (.opening :: rest)).map part =
      (build (nesting + 1) (place + 1) .empty rest).bind fun inner =>
        (draft.attach inner.draft).bind fun d =>
          (build nesting (inner.stop + 1) d inner.rest).map part := by
  rw [build, if_neg (Nat.not_lt.mpr h)]
  cases build (nesting + 1) (place + 1) .empty rest with
  | error e => rfl
  | ok inner =>
      simp only [Except.bind]
      cases draft.attach inner.draft with
      | error e => rfl
      | ok d =>
          simp only []
          cases build nesting (inner.stop + 1) d inner.rest with
          | error e => rfl
          | ok group => exact congrArg Except.ok (hpart _ group)

end Place

private theorem content_widen {bound bound' : Nat} (h : bound ≤ bound') (group : Group bound) :
    (group.widen h).content = group.content :=
  rfl

/-- Where a group starts makes no difference to what it holds. -/
private theorem build_place_aux : ∀ (n : Nat) (tokens : List Token), tokens.length ≤ n →
    ∀ (nesting : Nat) (draft : Draft) (place place' : Nat),
      (build nesting place draft tokens).map content =
        (build nesting place' draft tokens).map content := by
  intro n
  induction n with
  | zero =>
      intro tokens hlen nesting draft place place'
      rw [List.length_eq_zero_iff.mp (Nat.le_zero.mp hlen)]
      simp [build, Except.map, content]
  | succ n ih =>
      intro tokens hlen nesting draft place place'
      rcases tokens with _ | ⟨token, rest⟩
      · simp [build, Except.map, content]
      have hlen' : rest.length ≤ n := Nat.le_of_succ_le_succ hlen
      cases token with
      | closing => simp [build, Except.map, content]
      | operator op =>
          rw [build_operator _ _ _ _ content_widen, build_operator _ _ _ _ content_widen]
          congr 1
          funext d
          exact ih rest hlen' nesting d _ _
      | operand text =>
          rw [build_operand _ _ _ _ content_widen, build_operand _ _ _ _ content_widen]
          congr 1
          funext d
          exact ih rest hlen' nesting d _ _
      | opening =>
          by_cases h : nesting < maxLevels
          · rw [build_opening _ _ _ _ content_widen h, build_opening _ _ _ _ content_widen h]
            -- the inner groups differ in the place where they stop, and in nothing else
            have hinner := ih rest hlen' (nesting + 1) .empty (place + 1) (place' + 1)
            revert hinner
            cases build (nesting + 1) (place + 1) .empty rest with
            | error e =>
                cases build (nesting + 1) (place' + 1) .empty rest with
                | error e' => exact id
                | ok inner' =>
                    intro hinner
                    cases hinner
            | ok inner =>
                cases build (nesting + 1) (place' + 1) .empty rest with
                | error e' =>
                    intro hinner
                    cases hinner
                | ok inner' =>
                    intro hinner
                    obtain ⟨draft₁, stop₁, rest₁, hle₁⟩ := inner
                    obtain ⟨draft₂, stop₂, rest₂, hle₂⟩ := inner'
                    obtain ⟨rfl, rfl⟩ : draft₁ = draft₂ ∧ rest₁ = rest₂ :=
                      Prod.mk.inj (Except.ok.inj hinner)
                    simp only [Except.bind]
                    cases draft.attach draft₁ with
                    | error e => rfl
                    | ok d => exact ih rest₁ (Nat.le_trans hle₁ hlen') nesting d _ _
          · simp only [build, if_pos (Nat.lt_succ_of_le (Nat.not_lt.mp h))]

private theorem build_place (nesting : Nat) (draft : Draft) (tokens : List Token)
    (place place' : Nat) : (build nesting place draft tokens).map content =
      (build nesting place' draft tokens).map content :=
  build_place_aux tokens.length tokens (Nat.le_refl _) nesting draft place place'

variable {nesting : Nat} {draft : Draft} {rest : List Token}

@[simp] theorem grow_nil : grow nesting draft [] = .ok (draft, []) := by
  simp [grow, build, Except.map, content]

@[simp] theorem grow_closing : grow nesting draft (.closing :: rest) = .ok (draft, rest) := by
  simp [grow, build, Except.map, content]

theorem grow_operator {op : Operator} :
    grow nesting draft (.operator op :: rest) =
      (draft.pushOperator op).bind fun d => grow nesting d rest := by
  rw [grow, build_operator _ _ _ _ content_widen]
  congr 1
  funext d
  exact build_place nesting d rest _ _

theorem grow_operand {text : String} :
    grow nesting draft (.operand text :: rest) =
      (draft.attach (.leaf text)).bind fun d => grow nesting d rest := by
  rw [grow, build_operand _ _ _ _ content_widen]
  congr 1
  funext d
  exact build_place nesting d rest _ _

theorem grow_opening (h : nesting < maxLevels) :
    grow nesting draft (.opening :: rest) =
      (grow (nesting + 1) .empty rest).bind fun p =>
        (draft.attach p.1).bind fun d => grow nesting d p.2 := by
  rw [grow, build_opening _ _ _ _ content_widen h, grow, build_place _ _ rest 0 (0 + 1)]
  cases build (nesting + 1) (0 + 1) .empty rest with
  | error e => rfl
  | ok inner =>
      simp only [Except.map, Except.bind, content]
      cases draft.attach inner.draft with
      | error e => rfl
      | ok d => exact build_place nesting d inner.rest _ _

theorem grow_opening_of_le (h : maxLevels ≤ nesting) :
    grow nesting draft (.opening :: rest) = .error (.tooDeep (nesting + 1)) := by
  simp only [grow, build, if_pos (Nat.lt_succ_of_le h), Except.map]

/-! ## Groups that are built -/

/-- How a group grows from a draft, inside so many others, to a draft and the tokens that
follow. -/
inductive Grows : Nat → Draft → List Token → Draft → List Token → Prop
  | nil {n : Nat} {d : Draft} : Grows n d [] d []
  | closing {n : Nat} {d : Draft} {rest : List Token} : Grows n d (.closing :: rest) d rest
  | operator {n : Nat} {op : Operator} {d d₁ d₂ : Draft} {rest rest₂ : List Token} :
      d.pushOperator op = .ok d₁ → Grows n d₁ rest d₂ rest₂ →
      Grows n d (.operator op :: rest) d₂ rest₂
  | operand {n : Nat} {text : String} {d d₁ d₂ : Draft} {rest rest₂ : List Token} :
      d.attach (.leaf text) = .ok d₁ → Grows n d₁ rest d₂ rest₂ →
      Grows n d (.operand text :: rest) d₂ rest₂
  | opening {n : Nat} {d inner d₁ d₂ : Draft} {rest rest₁ rest₂ : List Token} :
      n < maxLevels → Grows (n + 1) .empty rest inner rest₁ → d.attach inner = .ok d₁ →
      Grows n d₁ rest₁ d₂ rest₂ → Grows n d (.opening :: rest) d₂ rest₂

/-- What follows a group is what is left of its tokens. -/
theorem Grows.suffix {n : Nat} {d d' : Draft} {tokens rest : List Token}
    (h : Grows n d tokens d' rest) : rest <:+ tokens := by
  induction h with
  | nil => exact List.suffix_refl _
  | closing => exact List.suffix_cons _ _
  | operator _ _ ih => exact ih.trans (List.suffix_cons _ _)
  | operand _ _ ih => exact ih.trans (List.suffix_cons _ _)
  | opening _ _ _ _ ihi ih => exact (ih.trans ihi).trans (List.suffix_cons _ _)

theorem Grows.grow_eq {n : Nat} {d d' : Draft} {tokens rest : List Token}
    (h : Grows n d tokens d' rest) : grow n d tokens = .ok (d', rest) := by
  induction h with
  | nil => exact grow_nil
  | closing => exact grow_closing
  | operator hstep _ ih =>
      rw [grow_operator, hstep]
      exact ih
  | operand hstep _ ih =>
      rw [grow_operand, hstep]
      exact ih
  | opening hn _ hstep _ ihi ih =>
      rw [grow_opening hn, ihi]
      show (Draft.attach _ _).bind _ = _
      rw [hstep]
      exact ih

private theorem grows_of_grow_aux : ∀ (k : Nat) (tokens : List Token), tokens.length ≤ k →
    ∀ {n : Nat} {d d' : Draft} {rest : List Token}, grow n d tokens = .ok (d', rest) →
      Grows n d tokens d' rest := by
  intro k
  induction k with
  | zero =>
      intro tokens hlen n d d' rest h
      obtain rfl := List.length_eq_zero_iff.mp (Nat.le_zero.mp hlen)
      rw [grow_nil] at h
      cases h
      exact .nil
  | succ k ih =>
      intro tokens hlen n d d' rest h
      match tokens with
      | [] =>
          rw [grow_nil] at h
          cases h
          exact .nil
      | .closing :: more =>
          rw [grow_closing] at h
          cases h
          exact .closing
      | .operator op :: more =>
          rw [grow_operator] at h
          obtain ⟨d₁, hstep, hmore⟩ := bind_eq_ok h
          exact .operator hstep (ih more (Nat.le_of_succ_le_succ hlen) hmore)
      | .operand text :: more =>
          rw [grow_operand] at h
          obtain ⟨d₁, hstep, hmore⟩ := bind_eq_ok h
          exact .operand hstep (ih more (Nat.le_of_succ_le_succ hlen) hmore)
      | .opening :: more =>
          have hlen' : more.length ≤ k := Nat.le_of_succ_le_succ hlen
          by_cases hn : n < maxLevels
          · rw [grow_opening hn] at h
            obtain ⟨⟨inner, rest₁⟩, hinner, h⟩ := bind_eq_ok h
            obtain ⟨d₁, hstep, hmore⟩ := bind_eq_ok h
            -- what follows the inner group is no longer than what it began with
            have hgrows := ih more hlen' hinner
            have hle := Nat.le_trans hgrows.suffix.length_le hlen'
            exact .opening hn hgrows hstep (ih rest₁ hle hmore)
          · rw [grow_opening_of_le (Nat.not_lt.mp hn)] at h
            cases h

/-- The relation and the function agree. -/
theorem grow_eq_ok_iff {n : Nat} {d d' : Draft} {tokens rest : List Token} :
    grow n d tokens = .ok (d', rest) ↔ Grows n d tokens d' rest :=
  ⟨grows_of_grow_aux tokens.length tokens (Nat.le_refl _), Grows.grow_eq⟩

/-- A group is built by steps from the operands among its tokens. -/
theorem Grows.built {source : String → Prop} {n : Nat} {d d' : Draft} {tokens rest : List Token}
    (h : Grows n d tokens d' rest) (hd : Draft.Built source d)
    (hsource : ∀ w, Token.operand w ∈ tokens → source w) : Draft.Built source d' := by
  induction h with
  | nil => exact hd
  | closing => exact hd
  | operator hstep _ ih =>
      exact ih (.push hd hstep) fun w hw => hsource w (List.mem_cons_of_mem _ hw)
  | operand hstep _ ih =>
      exact ih (.attach hd (.leaf (hsource _ List.mem_cons_self)) hstep)
        fun w hw => hsource w (List.mem_cons_of_mem _ hw)
  | opening _ hinner hstep _ ihi ih =>
      have hin := ihi .empty fun w hw => hsource w (List.mem_cons_of_mem _ hw)
      exact ih (.attach hd hin hstep)
        fun w hw => hsource w (List.mem_cons_of_mem _ (hinner.suffix.subset hw))

/-! ## Groups of paired parentheses -/

/-- A list of paired parentheses is built as a unit, whatever follows it. -/
theorem grow_append {k : Nat} {tokens : List Token} (h : Token.Nested k tokens) {n : Nat}
    (hn : n + k ≤ maxLevels) (d : Draft) (more : List Token) :
    grow n d (tokens ++ more) = (grow n d tokens).bind fun p => grow n p.1 more := by
  -- by the pairing of the parentheses; no token of the list closes a group around it
  induction h generalizing n d more with
  | nil => rw [grow_nil]; rfl
  | operator _ ih =>
      rw [List.cons_append, grow_operator, grow_operator]
      cases d.pushOperator _ with
      | error e => rfl
      | ok d₁ => exact ih hn d₁ more
  | operand _ ih =>
      rw [List.cons_append, grow_operand, grow_operand]
      cases d.attach (.leaf _) with
      | error e => rfl
      | ok d₁ => exact ih hn d₁ more
  | @group k' inner rest _ _ ihi ih =>
      have hlt : n < maxLevels := by omega
      have hin : n + 1 + k' ≤ maxLevels := by omega
      -- the closing parenthesis ends the inner group in both lists
      rw [List.cons_append, List.append_assoc, List.cons_append, grow_opening hlt,
        grow_opening hlt, ihi hin .empty, ihi hin .empty]
      cases grow (n + 1) .empty _ with
      | error e => rfl
      | ok p =>
          simp only [Except.bind, grow_closing]
          cases d.attach p.1 with
          | error e => rfl
          | ok d₁ => exact ih hn d₁ more

/-- How many groups stand around a list of paired parentheses makes no difference to it, as long
as none is too deep. -/
theorem grow_nesting {k : Nat} {tokens : List Token} (h : Token.Nested k tokens) {n m : Nat}
    (hn : n + k ≤ maxLevels) (hm : m + k ≤ maxLevels) (d : Draft) :
    grow n d tokens = grow m d tokens := by
  induction h generalizing n m d with
  | nil => rw [grow_nil, grow_nil]
  | operator _ ih =>
      rw [grow_operator, grow_operator]
      congr 1
      funext d₁
      exact ih hn hm d₁
  | operand _ ih =>
      rw [grow_operand, grow_operand]
      congr 1
      funext d₁
      exact ih hn hm d₁
  | @group k' inner rest hinner _ ihi ih =>
      have hin : n + 1 + k' ≤ maxLevels := by omega
      have him : m + 1 + k' ≤ maxLevels := by omega
      rw [grow_opening (by omega), grow_opening (by omega), grow_append hinner hin,
        grow_append hinner him, ihi hin him .empty]
      cases grow (m + 1) .empty _ with
      | error e => rfl
      | ok p =>
          simp only [Except.bind, grow_closing]
          cases d.attach p.1 with
          | error e => rfl
          | ok d₁ => exact ih hn hm d₁

end Group

/-- The tree of a token list is that of its outermost group. -/
theorem Tree.ofTokens_eq (tokens : List Token) :
    ofTokens tokens = (Group.grow 0 .empty tokens).map fun p => p.1.tree := by
  unfold ofTokens Group.grow
  cases Group.build 0 0 .empty tokens <;> rfl

end Verdict
