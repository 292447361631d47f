import Verdict.Proofs.Token.Balance
import Verdict.Proofs.Tree.Accepted

/-!
# One pass over the tokens

`Draft.assemble` builds a rule in one pass, with the groups that are still open on a stack: an
opening parenthesis lays the draft on the stack and starts an empty one, a closing parenthesis
attaches the draft to the one it takes from the stack, and at the end the open groups are closed one
after the other. `Token.opened` is the height of the stack. Every step uses the next token and
nothing behind it (`assemble_cons_congr`), so what is said about a list of tokens goes by induction
on the list, whether its parentheses pair up or not.

A group that is built by recursion is continued by the stack around it (`assemble_eq_grow`). So the
tree of a list of tokens is that of the pass that starts from nothing (`Tree.ofTokens_eq_assemble`).
-/

namespace Verdict

namespace Draft

/-- Closes the open groups, the innermost first. -/
def closeAll (draft : Draft) : List Draft → Except RuleError Draft
  | [] => .ok draft
  | enclosing :: outer => (enclosing.attach draft).bind fun d => d.closeAll outer

/-- Goes through the tokens on top of a draft that stands in these open groups. -/
def assemble (draft : Draft) (outer : List Draft) : List Token → Except RuleError Draft
  | [] => draft.closeAll outer
  | .opening :: rest =>
    if maxLevels < outer.length + 1 then .error (.tooDeep (outer.length + 1))
    else assemble .empty (draft :: outer) rest
  | .closing :: rest =>
    match outer with
    | [] => .ok draft
    | enclosing :: outer => (enclosing.attach draft).bind fun d => d.assemble outer rest
  | .operator op :: rest => (draft.pushOperator op).bind fun d => d.assemble outer rest
  | .operand text :: rest => (draft.attach (.leaf text)).bind fun d => d.assemble outer rest

/-- Goes on behind a group that has ended, if there is one around it. -/
def resume (draft : Draft) (outer : List Draft) (rest : List Token) : Except RuleError Draft :=
  match outer with
  | [] => .ok draft
  | enclosing :: outer => (enclosing.attach draft).bind fun d => d.assemble outer rest

variable {draft : Draft} {outer : List Draft} {rest : List Token}

@[simp] theorem assemble_closing :
    draft.assemble outer (.closing :: rest) = draft.resume outer rest := by
  cases outer <;> rfl

/-- Where the tokens end, every open group ends, too. -/
theorem assemble_nil : draft.assemble outer [] = draft.resume outer [] := by
  cases outer <;> rfl

theorem assemble_opening (h : outer.length < maxLevels) :
    draft.assemble outer (.opening :: rest) = assemble .empty (draft :: outer) rest := by
  show (if maxLevels < outer.length + 1 then _ else _) = _
  rw [if_neg (Nat.not_lt.mpr h)]

theorem assemble_of_opening {d : Draft} (h : draft.assemble outer (.opening :: rest) = .ok d) :
    assemble .empty (draft :: outer) rest = .ok d := by
  change (if maxLevels < outer.length + 1 then _ else _) = _ at h
  split at h
  · cases h
  · exact h

/-- What is gone through alike from everywhere that a token may lead to is so behind the token. -/
theorem assemble_cons_congr {token : Token} {s s' : List Token}
    (h : ∀ (d : Draft) (outer' : List Draft),
      Token.opened outer.length [token] = some outer'.length →
        d.assemble outer' s = d.assemble outer' s') :
    draft.assemble outer (token :: s) = draft.assemble outer (token :: s') := by
  cases token with
  | operator op =>
      show (draft.pushOperator op).bind _ = (draft.pushOperator op).bind _
      congr 1
      funext d
      exact h d outer rfl
  | operand text =>
      show (draft.attach (.leaf text)).bind _ = (draft.attach (.leaf text)).bind _
      congr 1
      funext d
      exact h d outer rfl
  | opening =>
      show (if maxLevels < outer.length + 1 then _ else assemble .empty (draft :: outer) s) = _
      rw [h .empty (draft :: outer) rfl]
      rfl
  | closing =>
      cases outer with
      | nil => rfl
      | cons enclosing outer =>
          show (enclosing.attach draft).bind _ = (enclosing.attach draft).bind _
          congr 1
          funext d
          exact h d outer rfl

/-- The pass builds the group that is open, and then goes on in the group around it. -/
theorem assemble_eq_grow (draft : Draft) (outer : List Draft) (tokens : List Token) :
    draft.assemble outer tokens =
      (Group.grow outer.length draft tokens).bind fun p => p.1.resume outer p.2 := by
  match tokens with
  | [] =>
      rw [assemble_nil, Group.grow_nil]
      rfl
  | .closing :: rest =>
      rw [assemble_closing, Group.grow_closing]
      rfl
  | .operator op :: rest =>
      rw [Group.grow_operator]
      show (draft.pushOperator op).bind _ = _
      cases draft.pushOperator op with
      | error e => rfl
      | ok d => exact assemble_eq_grow d outer rest
  | .operand text :: rest =>
      rw [Group.grow_operand]
      show (draft.attach (.leaf text)).bind _ = _
      cases draft.attach (.leaf text) with
      | error e => rfl
      | ok d => exact assemble_eq_grow d outer rest
  | .opening :: rest =>
      by_cases h : outer.length < maxLevels
      · rw [assemble_opening h, Group.grow_opening h, assemble_eq_grow .empty (draft :: outer) rest]
        show (Group.grow (outer.length + 1) .empty rest).bind _ = _
        cases hinner : Group.grow (outer.length + 1) .empty rest with
        | error e => rfl
        | ok p =>
            -- what follows the inner group is no longer than what it began with
            have hle : p.2.length ≤ rest.length :=
              (Group.grow_eq_ok_iff.mp hinner).suffix.length_le
            show (draft.attach p.1).bind _ = ((draft.attach p.1).bind _).bind _
            cases draft.attach p.1 with
            | error e => rfl
            | ok d => exact assemble_eq_grow d outer p.2
      · rw [Group.grow_opening_of_le (Nat.not_lt.mp h)]
        show (if maxLevels < outer.length + 1 then _ else _) = _
        rw [if_pos (Nat.lt_succ_of_le (Nat.not_lt.mp h))]
        rfl
termination_by tokens.length
decreasing_by
  all_goals
    simp only [List.length_cons]
    omega

end Draft

namespace Tree

theorem ofTokens_eq_assemble (tokens : List Token) :
    ofTokens tokens = (Draft.assemble .empty [] tokens).map Draft.tree := by
  rw [ofTokens_eq, Draft.assemble_eq_grow]
  show _ = Except.map _ ((Group.grow 0 .empty tokens).bind fun p => .ok p.1)
  cases Group.grow 0 .empty tokens <;> rfl

/-- The draft that a rule is built to is that of its tree, with nothing else to it. -/
theorem assemble_of_ofTokens {tokens : List Token} {t : Tree}
    (h : ofTokens tokens = .ok t) :
    Draft.assemble .empty [] tokens = .ok (.ofTree t) := by
  obtain ⟨rest, hgrow⟩ := grow_of_ofTokens h
  rw [Draft.assemble_eq_grow]
  show (Group.grow 0 .empty tokens).bind _ = _
  rw [hgrow]
  rfl

end Tree

end Verdict
