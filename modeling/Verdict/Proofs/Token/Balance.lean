import Verdict.Proofs.Tree.Group

/-!
# Counting open groups

`Token.opened` counts the groups that are open behind some tokens. In a balanced list every closing
parenthesis closes a group and no group is left open, which is to say that the parentheses of the
list pair up (`Token.balanced_iff_nested`). `Token.repaired` makes any list balanced: it cuts the
list before the first closing parenthesis that closes nothing, and closes at its end the groups that
are still open. `Token.reached` is the list that is cut and not closed.
-/

namespace Verdict

namespace Token

/-- How many groups are open behind some tokens, from so many before them. There is no answer if a
closing parenthesis among them closes none. -/
def opened (count : Nat) : List Token → Option Nat
  | [] => some count
  | .opening :: rest => opened (count + 1) rest
  | .closing :: rest =>
    match count with
    | 0 => none
    | outer + 1 => opened outer rest
  | .operator _ :: rest => opened count rest
  | .operand _ :: rest => opened count rest

theorem opened_cons (count : Nat) (token : Token) (rest : List Token) :
    opened count (token :: rest) = (opened count [token]).bind fun next => opened next rest := by
  cases token with
  | closing => cases count <;> rfl
  | _ => rfl

/-- Only a closing parenthesis closes nothing. -/
theorem opened_singleton_eq_none {count : Nat} {token : Token} (h : opened count [token] = none) :
    token = .closing ∧ count = 0 := by
  cases token with
  | closing =>
      cases count with
      | zero => exact ⟨rfl, rfl⟩
      | succ outer => cases h
  | _ => cases h

theorem opened_append {count left : Nat} {front : List Token} (h : opened count front = some left)
    (rest : List Token) : opened count (front ++ rest) = opened left rest := by
  induction front generalizing count with
  | nil =>
      cases h
      rfl
  | cons token front ih =>
      rw [opened_cons] at h
      obtain ⟨next, hnext, hfront⟩ := Option.bind_eq_some_iff.mp h
      rw [List.cons_append, opened_cons, hnext]
      exact ih hfront

/-! ## Balanced lists -/

/-- Every closing parenthesis closes a group, and every group is closed. -/
def Balanced (tokens : List Token) : Prop :=
  opened 0 tokens = some 0

instance (tokens : List Token) : Decidable (Balanced tokens) :=
  inferInstanceAs (Decidable (_ = _))

/-- Tokens in parentheses. -/
def grouped (tokens : List Token) : List Token :=
  .opening :: (tokens ++ [.closing])

theorem grouped_append (tokens more : List Token) :
    grouped tokens ++ more = .opening :: (tokens ++ .closing :: more) := by
  simp [grouped]

variable {k : Nat} {tokens : List Token}

theorem Nested.grouped (h : Nested k tokens) : Nested (k + 1) (grouped tokens) :=
  .group h .nil

theorem Nested.mono (h : Nested k tokens) {m : Nat} (hle : k ≤ m) : Nested m tokens := by
  induction h generalizing m with
  | nil => exact .nil
  | operator _ ih => exact .operator (ih hle)
  | operand _ ih => exact .operand (ih hle)
  | group _ _ ihi ih =>
      cases m with
      | zero => omega
      | succ m => exact .group (ihi (by omega)) (ih hle)

theorem Nested.append (h : Nested k tokens) {more : List Token} (hmore : Nested k more) :
    Nested k (tokens ++ more) := by
  induction h with
  | nil => exact hmore
  | operator _ ih => exact .operator (ih hmore)
  | operand _ ih => exact .operand (ih hmore)
  | group hinner _ _ ih =>
      rw [List.cons_append, List.append_assoc, List.cons_append]
      exact .group hinner (ih hmore)

/-- Paired parentheses leave as many groups open as they find. -/
theorem Nested.opened_eq (h : Nested k tokens) (count : Nat) :
    opened count tokens = some count := by
  induction h generalizing count with
  | nil => rfl
  | operator _ ih => exact ih count
  | operand _ ih => exact ih count
  | group _ _ ihi ih =>
      show opened (count + 1) _ = _
      rw [opened_append (ihi (count + 1))]
      exact ih count

/-- Token lists that end so many groups around them: parts of paired parentheses, with the closing
parentheses of these groups between them. -/
inductive EndsGroups : Nat → List Token → Prop
  | last {k : Nat} {part : List Token} : Nested k part → EndsGroups 0 part
  | next {k count : Nat} {part rest : List Token} : Nested k part → EndsGroups count rest →
      EndsGroups (count + 1) (part ++ .closing :: rest)

theorem EndsGroups.append_front {count : Nat} {front : List Token} (hfront : Nested k front)
    (h : EndsGroups count tokens) : EndsGroups count (front ++ tokens) := by
  cases h with
  | @last m _ hpart =>
      exact .last ((hfront.mono (Nat.le_max_left k m)).append (hpart.mono (Nat.le_max_right k m)))
  | @next m count part rest hpart hrest =>
      rw [← List.append_assoc]
      exact .next ((hfront.mono (Nat.le_max_left k m)).append
        (hpart.mono (Nat.le_max_right k m))) hrest

/-- A list that closes all open groups is cut into parts at the parentheses that close them. -/
theorem endsGroups_of_opened {count : Nat} (h : opened count tokens = some 0) :
    EndsGroups count tokens := by
  induction tokens generalizing count with
  | nil =>
      cases h
      exact .last (k := 0) .nil
  | cons token rest ih =>
      cases token with
      | operator op => exact (ih h).append_front (k := 0) (.operator .nil)
      | operand text => exact (ih h).append_front (k := 0) (.operand .nil)
      | closing =>
          cases count with
          | zero => cases h
          | succ count => exact .next (k := 0) .nil (ih h)
      | opening =>
          -- the group that is opened here ends with the first part
          cases ih h with
          | next hpart hrest =>
              rw [← grouped_append]
              exact hrest.append_front hpart.grouped

/-- The parentheses of a list pair up if and only if counting finds nothing amiss. -/
theorem balanced_iff_nested : Balanced tokens ↔ ∃ k, Nested k tokens := by
  constructor
  · intro h
    cases endsGroups_of_opened h with
    | last hnested => exact ⟨_, hnested⟩
  · rintro ⟨k, hnested⟩
    exact hnested.opened_eq 0

/-! ## Repaired lists -/

/-- The tokens before the first closing parenthesis that closes none of so many groups. -/
def reached (count : Nat) : List Token → List Token
  | [] => []
  | token :: rest =>
    match opened count [token] with
    | some next => token :: reached next rest
    | none => []

section Reached

variable (count : Nat) (rest : List Token)

@[simp] theorem reached_nil : reached count [] = [] := rfl

@[simp] theorem reached_operator (op : Operator) :
    reached count (.operator op :: rest) = .operator op :: reached count rest := rfl

@[simp] theorem reached_operand (text : String) :
    reached count (.operand text :: rest) = .operand text :: reached count rest := rfl

@[simp] theorem reached_opening :
    reached count (.opening :: rest) = .opening :: reached (count + 1) rest := rfl

@[simp] theorem reached_zero_closing : reached 0 (.closing :: rest) = [] := rfl

@[simp] theorem reached_succ_closing :
    reached (count + 1) (.closing :: rest) = .closing :: reached count rest := rfl

end Reached

/-- The tokens before the first closing parenthesis that closes none of so many groups, with a
closing parenthesis for every group that is open behind them. -/
def repaired (count : Nat) : List Token → List Token
  | [] => List.replicate count .closing
  | token :: rest =>
    match opened count [token] with
    | some next => token :: repaired next rest
    | none => []

/-- Every list has a front in which each closing parenthesis closes a group. It is the whole list,
or it ends with no group open before a closing parenthesis. -/
theorem exists_front (count : Nat) (tokens : List Token) :
    ∃ front left, opened count front = some left ∧
      (tokens = front ∨ left = 0 ∧ ∃ more, tokens = front ++ .closing :: more) := by
  induction tokens generalizing count with
  | nil => exact ⟨[], count, rfl, .inl rfl⟩
  | cons token rest ih =>
      cases hnext : opened count [token] with
      | none =>
          obtain ⟨rfl, rfl⟩ := opened_singleton_eq_none hnext
          exact ⟨[], 0, rfl, .inr ⟨rfl, rest, rfl⟩⟩
      | some next =>
          obtain ⟨front, left, hfront, hrest⟩ := ih next
          refine ⟨token :: front, left, ?_, ?_⟩
          · rw [opened_cons, hnext]
            exact hfront
          · rcases hrest with rfl | ⟨hleft, more, rfl⟩
            · exact .inl rfl
            · exact .inr ⟨hleft, more, rfl⟩

/-- The front of a list stays as it is. -/
theorem repaired_append {count left : Nat} {front : List Token} (h : opened count front = some left)
    (rest : List Token) : repaired count (front ++ rest) = front ++ repaired left rest := by
  induction front generalizing count with
  | nil =>
      cases h
      rfl
  | cons token front ih =>
      rw [opened_cons] at h
      obtain ⟨next, hnext, hfront⟩ := Option.bind_eq_some_iff.mp h
      show repaired count (token :: (front ++ rest)) = token :: (front ++ repaired left rest)
      rw [repaired, hnext, ← ih hfront]

theorem opened_replicate_closing (count : Nat) :
    opened count (List.replicate count .closing) = some 0 := by
  induction count with
  | zero => rfl
  | succ count ih => exact ih

/-- Whatever was amiss, a repaired list is balanced. -/
theorem balanced_repaired (tokens : List Token) : Balanced (repaired 0 tokens) := by
  obtain ⟨front, left, hfront, rfl | ⟨rfl, more, rfl⟩⟩ := exists_front 0 tokens
  · rw [← List.append_nil tokens, repaired_append hfront]
    show opened 0 (tokens ++ List.replicate left .closing) = some 0
    rw [opened_append hfront]
    exact opened_replicate_closing left
  · rw [repaired_append hfront]
    exact opened_append hfront []

end Token

end Verdict
