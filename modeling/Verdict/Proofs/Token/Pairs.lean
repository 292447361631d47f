import Mathlib.Data.Set.Card
import Verdict.Proofs.Token.Balance

/-!
# Pairs of parentheses

`Token.Pairs` says of two places in a list of tokens that the parenthesis at the second closes the
group that is opened at the first: what stands between them is balanced. With pairs the outcome of
counting has a meaning at every place. As long as `Token.opened` counts on, every closing
parenthesis closes a group (`exists_pairs`), and what it counts at the end are the groups that
nothing closes (`encard_unclosed_of_least`). The first closing parenthesis that stops the count from
nothing is the first one that closes no group (`stopsAt_front`).
-/

namespace Verdict

namespace Token

/-! ## Counting from further out -/

/-- More groups around a list are still around it behind it. -/
theorem opened_add {count left : Nat} {tokens : List Token} (h : opened count tokens = some left)
    (more : Nat) : opened (count + more) tokens = some (left + more) := by
  induction tokens generalizing count with
  | nil => exact congrArg (fun n => some (n + more)) (Option.some.inj h)
  | cons token rest ih =>
      cases token with
      | operator op => exact ih h
      | operand text => exact ih h
      | opening =>
          show opened (count + more + 1) rest = _
          rw [Nat.add_right_comm]
          exact ih h
      | closing =>
          cases count with
          | zero => cases h
          | succ count =>
              rw [Nat.add_right_comm]
              exact ih h

/-- The count goes on through the front of a list. -/
theorem exists_opened_front {count left : Nat} {front rest : List Token}
    (h : opened count (front ++ rest) = some left) :
    ∃ between, opened count front = some between ∧ opened between rest = some left := by
  induction front generalizing count with
  | nil => exact ⟨count, rfl, h⟩
  | cons token front ih =>
      rw [List.cons_append, opened_cons] at h
      obtain ⟨next, hnext, hrest⟩ := Option.bind_eq_some_iff.mp h
      obtain ⟨between, hfront, hrest⟩ := ih hrest
      refine ⟨between, ?_, hrest⟩
      rw [opened_cons, hnext]
      exact hfront

/-- A balanced list behind an opening parenthesis leaves its group open. -/
theorem opened_opening_balanced {count left : Nat} {front inner : List Token}
    (h : opened count (front ++ .opening :: inner) = some left) (hinner : Balanced inner) :
    0 < left := by
  obtain ⟨between, _, hrest⟩ := exists_opened_front h
  have hinner' : opened (0 + (between + 1)) inner = some (0 + (between + 1)) :=
    opened_add hinner (between + 1)
  rw [Nat.zero_add] at hinner'
  have hleft : between + 1 = left := Option.some.inj (hinner'.symm.trans hrest)
  omega

/-- Behind any list a closing parenthesis closes a group of this list, or the list closes all the
groups around it that it does not leave alone. -/
theorem exists_group_or_closes (tokens : List Token) :
    (∃ front inner, tokens = front ++ .opening :: inner ∧ Balanced inner) ∨
      ∃ count, opened count tokens = some 0 := by
  induction tokens with
  | nil => exact .inr ⟨0, rfl⟩
  | cons token rest ih =>
      rcases ih with ⟨front, inner, rfl, hinner⟩ | ⟨count, hcount⟩
      · exact .inl ⟨token :: front, inner, rfl, hinner⟩
      · cases token with
        | operator op => exact .inr ⟨count, hcount⟩
        | operand text => exact .inr ⟨count, hcount⟩
        | closing => exact .inr ⟨count + 1, hcount⟩
        | opening =>
            -- the group that is opened here stays open, or the rest closes it
            cases count with
            | zero => exact .inl ⟨[], rest, rfl, hcount⟩
            | succ count => exact .inr ⟨count, hcount⟩

/-! ## Pairs -/

/-- The group that is opened at the first place is closed at the second. -/
def Pairs (tokens : List Token) (i j : Nat) : Prop :=
  ∃ front inner rest, tokens = front ++ .opening :: (inner ++ .closing :: rest) ∧ Balanced inner ∧
    i = front.length ∧ j = front.length + 1 + inner.length

/-- The places from a start on where groups are opened that nothing closes. -/
def unclosed (tokens : List Token) (start : Nat) : Set Nat :=
  {i | start ≤ i ∧ tokens[i]? = some .opening ∧ ∀ j, ¬ Pairs tokens i j}

/-- Where a group stops that starts at a place: at the first closing parenthesis from there on that
closes no group from there on, or, if there is none, as far behind the end as there are groups from
there on that nothing closes. -/
inductive StopsAt (tokens : List Token) (start : Nat) : Nat → Prop
  | closing {stop : Nat} (hle : start ≤ stop) (hclosing : tokens[stop]? = some .closing)
      (hfree : ∀ i, start ≤ i → ¬ Pairs tokens i stop)
      (hfirst : ∀ j, start ≤ j → j < stop → tokens[j]? = some .closing →
        ∃ i, start ≤ i ∧ Pairs tokens i j) : StopsAt tokens start stop
  | ending {left : Nat}
      (hall : ∀ j, start ≤ j → tokens[j]? = some .closing → ∃ i, start ≤ i ∧ Pairs tokens i j)
      (hleft : (unclosed tokens start).encard = left) : StopsAt tokens start (tokens.length + left)

variable {tokens : List Token} {i j : Nat}

/-- Behind the first token pairs are those of the rest. -/
theorem pairs_cons_iff {token : Token} :
    Pairs (token :: tokens) (i + 1) j ↔ ∃ k, j = k + 1 ∧ Pairs tokens i k := by
  constructor
  · rintro ⟨_ | ⟨first, front⟩, inner, rest, htokens, hinner, hi, hj⟩
    · exact absurd hi (Nat.succ_ne_zero i)
    · obtain ⟨-, rfl⟩ := List.cons.inj htokens
      refine ⟨front.length + 1 + inner.length, ?_, front, inner, rest, rfl, hinner, ?_, rfl⟩
      · rw [List.length_cons] at hj
        omega
      · exact Nat.succ.inj hi
  · rintro ⟨k, rfl, front, inner, rest, rfl, hinner, rfl, rfl⟩
    refine ⟨token :: front, inner, rest, rfl, hinner, rfl, ?_⟩
    rw [List.length_cons]
    omega

/-- Behind a front pairs are those of what follows it. -/
theorem pairs_append_iff {before : List Token} :
    Pairs (before ++ tokens) (before.length + i) j ↔
      ∃ k, j = before.length + k ∧ Pairs tokens i k := by
  induction before generalizing j with
  | nil => simp
  | cons token before ih =>
      rw [List.cons_append, List.length_cons, Nat.add_right_comm, pairs_cons_iff]
      constructor
      · rintro ⟨k, rfl, hrest⟩
        obtain ⟨m, rfl, hpairs⟩ := ih.mp hrest
        exact ⟨m, Nat.add_right_comm _ _ _, hpairs⟩
      · rintro ⟨m, rfl, hpairs⟩
        exact ⟨before.length + m, Nat.add_right_comm _ _ _, ih.mpr ⟨m, rfl, hpairs⟩⟩

/-- A group that is opened first is closed exactly if counting stops behind it. -/
theorem exists_pairs_zero_iff {rest : List Token} :
    (∃ j, Pairs (.opening :: rest) 0 j) ↔ opened 0 rest = none := by
  constructor
  · rintro ⟨j, _ | ⟨first, front⟩, inner, after, htokens, hinner, hi, -⟩
    · obtain ⟨-, rfl⟩ := List.cons.inj htokens
      exact opened_append hinner _
    · exact absurd hi.symm (Nat.succ_ne_zero _)
  · intro hnone
    obtain ⟨front, left, hfront, rfl | ⟨rfl, more, rfl⟩⟩ := exists_front 0 rest
    · rw [hfront] at hnone
      cases hnone
    · exact ⟨_, [], front, more, rfl, hfront, rfl, rfl⟩

/-- Every closing parenthesis that the count comes past closes a group. -/
theorem exists_pairs {left : Nat} (h : opened 0 tokens = some left)
    (hclosing : tokens[j]? = some .closing) : ∃ i, Pairs tokens i j := by
  obtain ⟨hj, hget⟩ := List.getElem?_eq_some_iff.mp hclosing
  have hsplit : tokens.take j ++ .closing :: tokens.drop (j + 1) = tokens := by
    rw [← hget, ← List.drop_eq_getElem_cons hj, List.take_append_drop]
  have hlength : (tokens.take j).length = j := List.length_take_of_le hj.le
  rw [← hsplit] at h
  obtain ⟨between, hfront, hrest⟩ := exists_opened_front h
  rcases exists_group_or_closes (tokens.take j) with ⟨front, inner, heq, hinner⟩ | ⟨count, hcount⟩
  · refine ⟨front.length, front, inner, tokens.drop (j + 1), ?_, hinner, rfl, ?_⟩
    · rw [heq, List.append_assoc, List.cons_append] at hsplit
      exact hsplit.symm
    · rw [heq, List.length_append, List.length_cons] at hlength
      omega
  · -- nothing would be open in front of the parenthesis
    have hmore := opened_add hfront count
    rw [Nat.zero_add, hcount] at hmore
    have hzero : between = 0 := by
      have := Option.some.inj hmore
      omega
    subst hzero
    cases hrest

/-! ## Groups that nothing closes -/

theorem mem_unclosed_iff {start : Nat} :
    i ∈ unclosed tokens start ↔ start ≤ i ∧ tokens[i]? = some .opening ∧ ∀ j, ¬ Pairs tokens i j :=
  Iff.rfl

theorem mem_unclosed_cons_succ {token : Token} :
    i + 1 ∈ unclosed (token :: tokens) 0 ↔ i ∈ unclosed tokens 0 := by
  simp only [mem_unclosed_iff, Nat.zero_le, true_and, List.getElem?_cons_succ, pairs_cons_iff,
    not_exists, not_and]
  exact and_congr_right fun _ => ⟨fun h k => h (k + 1) k rfl, fun h j k _ => h k⟩

theorem zero_mem_unclosed_cons {token : Token} :
    0 ∈ unclosed (token :: tokens) 0 ↔ token = .opening ∧ opened 0 tokens ≠ none := by
  simp only [mem_unclosed_iff, Nat.le_refl, true_and, List.getElem?_cons_zero, Option.some.injEq]
  refine and_congr_right ?_
  rintro rfl
  rw [← not_exists, exists_pairs_zero_iff]

/-- Behind a first token whose group, if it opens one, is closed, as many groups are left open. -/
theorem encard_unclosed_cons (token : Token) (h : token = .opening → opened 0 tokens = none) :
    (unclosed (token :: tokens) 0).encard = (unclosed tokens 0).encard := by
  have hshift : unclosed (token :: tokens) 0 = Nat.succ '' unclosed tokens 0 := by
    ext i
    cases i with
    | zero =>
        rw [zero_mem_unclosed_cons]
        simp only [Set.mem_image, Nat.succ_ne_zero, and_false, exists_false, iff_false, not_and,
          not_not]
        exact h
    | succ i => rw [mem_unclosed_cons_succ, Nat.succ_injective.mem_set_image]
  rw [hshift, Nat.succ_injective.encard_image]

/-- A first group that is not closed is one more. -/
theorem encard_unclosed_opening {left : Nat} (h : opened 0 tokens = some left) :
    (unclosed (.opening :: tokens) 0).encard = (unclosed tokens 0).encard + 1 := by
  have hshift : unclosed (.opening :: tokens) 0 = insert 0 (Nat.succ '' unclosed tokens 0) := by
    ext i
    cases i with
    | zero =>
        rw [zero_mem_unclosed_cons, h]
        simp
    | succ i =>
        rw [mem_unclosed_cons_succ, Set.mem_insert_iff, Nat.succ_injective.mem_set_image]
        simp
  have hnew : 0 ∉ Nat.succ '' unclosed tokens 0 := by
    rintro ⟨i, -, hi⟩
    exact Nat.succ_ne_zero i hi
  rw [hshift, Set.encard_insert_of_notMem hnew, Nat.succ_injective.encard_image]

/-- What is counted to the end, from the fewest groups that the list needs around it, are the groups
that nothing closes. -/
theorem encard_unclosed_of_least {count left : Nat} (h : opened count tokens = some left)
    (hleast : ∀ c < count, opened c tokens = none) : (unclosed tokens 0).encard = left := by
  induction tokens generalizing count left with
  | nil =>
      have hzero : count = 0 := by
        by_contra hpos
        cases hleast 0 (Nat.pos_of_ne_zero hpos)
      have hempty : unclosed [] 0 = ∅ := Set.eq_empty_of_forall_notMem fun i hi => nomatch hi.2.1
      cases h
      rw [hempty, hzero, Set.encard_empty]
      rfl
  | cons token rest ih =>
      cases token with
      | operator op =>
          rw [encard_unclosed_cons (.operator op) fun h => nomatch h]
          exact ih h hleast
      | operand text =>
          rw [encard_unclosed_cons (.operand text) fun h => nomatch h]
          exact ih h hleast
      | closing =>
          rw [encard_unclosed_cons .closing fun h => nomatch h]
          cases count with
          | zero => cases h
          | succ count => exact ih h fun c hc => hleast (c + 1) (Nat.succ_lt_succ hc)
      | opening =>
          change opened (count + 1) rest = some left at h
          cases hrest : opened 0 rest with
          | none =>
              rw [encard_unclosed_cons .opening fun _ => hrest]
              refine ih h fun c hc => ?_
              cases c with
              | zero => exact hrest
              | succ c => exact hleast c (Nat.lt_of_succ_lt_succ hc)
          | some inner =>
              -- nothing in the rest closes the group, so none around it is needed
              have hzero : count = 0 := by
                by_contra hpos
                have hnone := hleast 0 (Nat.pos_of_ne_zero hpos)
                have hsome : opened (0 + 1) rest = some (inner + 1) := opened_add hrest 1
                cases hnone.symm.trans hsome
              subst hzero
              have hleft : left = inner + 1 := Option.some.inj (h.symm.trans (opened_add hrest 1))
              rw [encard_unclosed_opening hrest,
                ih hrest fun c hc => absurd hc (Nat.not_lt_zero c), hleft]
              rfl

/-! ## Where groups stop -/

/-- A group stops at a closing parenthesis behind a balanced front. -/
theorem stopsAt_front {front : List Token} (h : Balanced front) (more : List Token) :
    StopsAt (front ++ .closing :: more) 0 front.length := by
  refine .closing (Nat.zero_le _) ?_ ?_ ?_
  · rw [List.getElem?_append_right (Nat.le_refl _), Nat.sub_self]
    rfl
  · rintro i - ⟨before, inner, rest, heq, hinner, -, hj⟩
    -- the group would be open at the end of the front
    have hfront : front = before ++ .opening :: inner := by
      rw [← List.cons_append, ← List.append_assoc] at heq
      refine (List.append_inj heq ?_).1
      rw [List.length_append, List.length_cons]
      omega
    rw [hfront] at h
    exact Nat.lt_irrefl 0 (opened_opening_balanced h hinner)
  · intro j _ hj hclosing
    rw [List.getElem?_append_left hj] at hclosing
    obtain ⟨i, before, inner, rest, rfl, hinner, hi, hj'⟩ := exists_pairs h hclosing
    exact ⟨i, Nat.zero_le i, before, inner, rest ++ .closing :: more,
      by simp only [List.append_assoc, List.cons_append], hinner, hi, hj'⟩

/-- A group that nothing stops goes on behind the end. -/
theorem stopsAt_end {left : Nat} (h : opened 0 tokens = some left) :
    StopsAt tokens 0 (tokens.length + left) := by
  refine .ending (fun j _ hclosing => ?_) ?_
  · obtain ⟨i, hpairs⟩ := exists_pairs h hclosing
    exact ⟨i, Nat.zero_le i, hpairs⟩
  · exact encard_unclosed_of_least h fun c hc => absurd hc (Nat.not_lt_zero c)

/-- The groups that nothing closes are the same behind a front. -/
theorem unclosed_append (before : List Token) :
    unclosed (before ++ tokens) before.length = (before.length + ·) '' unclosed tokens 0 := by
  ext i
  constructor
  · rintro ⟨hle, hopening, hfree⟩
    obtain ⟨k, rfl⟩ := Nat.exists_eq_add_of_le hle
    rw [List.getElem?_append_right hle, Nat.add_sub_cancel_left] at hopening
    exact ⟨k, ⟨Nat.zero_le k, hopening,
      fun j hpairs => hfree _ (pairs_append_iff.mpr ⟨j, rfl, hpairs⟩)⟩, rfl⟩
  · rintro ⟨k, ⟨-, hopening, hfree⟩, rfl⟩
    refine ⟨Nat.le_add_right _ _, ?_, fun j hpairs => ?_⟩
    · rw [List.getElem?_append_right (Nat.le_add_right _ _), Nat.add_sub_cancel_left]
      exact hopening
    · obtain ⟨m, -, hpairs⟩ := pairs_append_iff.mp hpairs
      exact hfree m hpairs

/-- Groups stop where they stop in the tokens from their start on. -/
theorem StopsAt.append {stop : Nat} (h : StopsAt tokens 0 stop) (before : List Token) :
    StopsAt (before ++ tokens) before.length (before.length + stop) := by
  have hget (k : Nat) : (before ++ tokens)[before.length + k]? = tokens[k]? := by
    rw [List.getElem?_append_right (Nat.le_add_right _ _), Nat.add_sub_cancel_left]
  have hclosed (j : Nat) (h : ∃ i, 0 ≤ i ∧ Pairs tokens i j) :
      ∃ i, before.length ≤ i ∧ Pairs (before ++ tokens) i (before.length + j) := by
    obtain ⟨i, -, hpairs⟩ := h
    exact ⟨before.length + i, Nat.le_add_right _ _, pairs_append_iff.mpr ⟨j, rfl, hpairs⟩⟩
  cases h with
  | closing hle hclosing hfree hfirst =>
      refine .closing (Nat.le_add_right _ _) ((hget _).trans hclosing) ?_ ?_
      · intro i hi hpairs
        obtain ⟨k, rfl⟩ := Nat.exists_eq_add_of_le hi
        obtain ⟨m, hm, hpairs⟩ := pairs_append_iff.mp hpairs
        obtain rfl := Nat.add_left_cancel hm
        exact hfree k (Nat.zero_le k) hpairs
      · intro j hj hlt hget'
        obtain ⟨k, rfl⟩ := Nat.exists_eq_add_of_le hj
        rw [hget] at hget'
        exact hclosed k (hfirst k (Nat.zero_le k) (Nat.lt_of_add_lt_add_left hlt) hget')
  | @ending left hall hleft =>
      rw [← Nat.add_assoc, ← List.length_append]
      refine .ending ?_ ?_
      · intro j hj hget'
        obtain ⟨k, rfl⟩ := Nat.exists_eq_add_of_le hj
        rw [hget] at hget'
        exact hclosed k (hall k (Nat.zero_le k) hget')
      · rw [unclosed_append, (add_right_injective before.length).encard_image]
        exact hleft

end Token

end Verdict
