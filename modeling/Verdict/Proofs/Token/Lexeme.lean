import Verdict.Proofs.Token.Delimiter

/-!
# Lexemes

`Token.lexemes` are the texts of the tokens of a text. They are local: at a bracket or a blank the
text falls into two parts that are cut each for itself (`lexemes_bracket`, `lexemes_blank`). And
they are final: cut once more, every lexeme is a single one (`lexemes_of_mem`), since whatever
kept its ends apart from their surroundings also keeps a new delimiter from appearing at them.
-/

namespace Verdict

namespace Token

/-- The texts of the tokens of a text. -/
def lexemes (cs : List Char) : List (List Char) :=
  cut none 0 [] [] cs

/-! ## Steps of the cut -/

section Steps

variable {before : Option Char} {pending cs : List Char} {out : List (List Char)} {c : Char}

theorem endOperand_eq (pending : List Char) (out : List (List Char)) :
    endOperand pending out = endOperand pending [] ++ out := by
  unfold endOperand
  split <;> rfl

/-- What was found before stays in front of what is found. -/
theorem cut_out (before : Option Char) (owed : Nat) (pending : List Char) (out : List (List Char))
    (cs : List Char) : cut before owed pending out cs =
      out.reverse ++ cut before owed pending [] cs := by
  induction cs generalizing before owed pending out with
  | nil =>
      rw [cut, cut, endOperand_eq]
      simp
  | cons c rest ih =>
      match owed with
      | 1 =>
          simp only [cut]
          rw [ih _ _ _ (_ :: out), ih _ _ _ [_]]
          simp
      | owed + 2 =>
          simp only [cut]
          exact ih _ _ _ out
      | 0 =>
          simp only [cut]
          split
          · rw [endOperand_eq, ih _ _ _ (_ ++ out), ih _ _ _ (endOperand pending [])]
            simp
          · split
            · exact ih _ _ _ out
            · rw [endOperand_eq, ih _ _ _ (_ :: (_ ++ out)), ih _ _ _ (_ :: endOperand pending [])]
              simp
            · rw [endOperand_eq, ih _ _ _ (_ ++ out), ih _ _ _ (endOperand pending [])]
              simp

theorem cut_blank (h : Text.isBlank c) :
    cut before 0 pending out (c :: cs) = cut (some c) 0 [] (endOperand pending out) cs := by
  simp only [cut, if_pos h]

theorem cut_plain (hblank : Text.isBlank c = false) (h : delimiterLength before (c :: cs) = 0) :
    cut before 0 pending out (c :: cs) = cut (some c) 0 (c :: pending) out cs := by
  simp only [cut, hblank, Bool.false_eq_true, if_false, h]

/-- The rest of a delimiter that has begun. -/
theorem cut_owed {s : List Char} (hs : s ≠ []) :
    cut before s.length pending out (s ++ cs) =
      cut (after before s) 0 [] ((pending.reverse ++ s) :: out) cs := by
  induction s generalizing before pending with
  | nil => exact absurd rfl hs
  | cons x s ih =>
      cases s with
      | nil =>
          show cut before 1 pending out (x :: cs) = _
          simp only [cut, List.reverse_cons, after_cons, after_nil]
      | cons y s =>
          show cut before (s.length + 2) pending out (x :: (y :: s ++ cs)) = _
          simp only [cut]
          rw [show s.length + 1 = (y :: s).length from rfl, ih (by simp)]
          simp

theorem cut_delimiter {d rest : List Char} (h : Delimiter before d rest) :
    cut before 0 pending out (d ++ rest) =
      cut (after before d) 0 [] (d :: endOperand pending out) rest := by
  have hblank := h.isBlank_head
  obtain ⟨x, s, rfl⟩ := List.exists_cons_of_ne_nil h.ne_nil
  have hlength := h.delimiterLength_eq
  rw [List.cons_append] at hlength ⊢
  rw [cut, show Text.isBlank x = false from hblank]
  cases s with
  | nil =>
      simp only [Bool.false_eq_true, if_false, hlength]
      rfl
  | cons y s =>
      simp only [Bool.false_eq_true, if_false, hlength, List.length_cons]
      show cut (some x) (y :: s).length [x] _ (y :: s ++ rest) = _
      rw [cut_owed (by simp)]
      rfl

/-- At the head of a text stands a blank, a delimiter, or a character of an operand. -/
theorem head_cases (before : Option Char) (c : Char) (cs : List Char) :
    Text.isBlank c ∨ (∃ d rest, c :: cs = d ++ rest ∧ Delimiter before d rest) ∨
      (Text.isBlank c = false ∧ delimiterLength before (c :: cs) = 0) := by
  cases hblank : Text.isBlank c with
  | true => exact .inl rfl
  | false =>
      by_cases hlength : delimiterLength before (c :: cs) = 0
      · exact .inr (.inr ⟨rfl, hlength⟩)
      · exact .inr (.inl (exists_delimiter hlength))

end Steps

/-! ## Locality -/

/-- A text at whose head an operand before it ends: a blank stands there or a delimiter. -/
def CutBefore (before : Option Char) (cs : List Char) : Prop :=
  (∃ c rest, cs = c :: rest ∧ Text.isBlank c) ∨ ∃ d rest, cs = d ++ rest ∧ Delimiter before d rest

/-- An operand that ends is one lexeme, and the rest is cut for itself. -/
theorem CutBefore.cut_eq {before : Option Char} {pending cs : List Char}
    (h : CutBefore before cs) :
    cut before 0 pending [] cs = endOperand pending [] ++ cut before 0 [] [] cs := by
  have hone : (endOperand pending []).reverse = endOperand pending [] := by
    unfold endOperand
    split <;> rfl
  rcases h with ⟨c, rest, rfl, hc⟩ | ⟨d, rest, rfl, hd⟩
  · rw [cut_blank hc, cut_blank hc, cut_out, hone]
    rfl
  · rw [cut_delimiter hd, cut_delimiter hd, cut_out _ _ _ (d :: endOperand pending []),
      cut_out _ _ _ (d :: endOperand [] [])]
    rw [List.reverse_cons, hone, List.append_assoc]
    rfl

/-- Only whether a word may start tells characters before a text apart. -/
theorem cut_congr {before before' : Option Char} (h : wordStarts before = wordStarts before')
    (cs : List Char) : cut before 0 [] [] cs = cut before' 0 [] [] cs := by
  cases cs with
  | nil => rfl
  | cons c cs =>
      have hlength : delimiterLength before (c :: cs) = delimiterLength before' (c :: cs) := by
        unfold delimiterLength
        rw [h]
      simp only [cut, hlength]

/-- A text falls into two parts at a place where a cut is made and nothing goes on. -/
theorem cut_append_aux {tail : List Char} : ∀ (n : Nat) (a : List Char), a.length ≤ n →
    ∀ (before : Option Char) (pending : List Char), Apart (after before a) tail →
      CutBefore (after before a) tail →
      cut before 0 pending [] (a ++ tail) =
        cut before 0 pending [] a ++ cut (after before a) 0 [] [] tail := by
  intro n
  induction n with
  | zero =>
      intro a hlen before pending _ hcut
      obtain rfl := List.length_eq_zero_iff.mp (Nat.le_zero.mp hlen)
      have hone : cut before 0 pending [] [] = endOperand pending [] := by
        rw [cut, endOperand]
        split <;> rfl
      rw [hone]
      exact hcut.cut_eq
  | succ n ih =>
      intro a hlen before pending hapart hcut
      cases a with
      | nil => exact ih [] (Nat.zero_le _) before pending hapart hcut
      | cons c a =>
          have hlen' : a.length ≤ n := Nat.le_of_succ_le_succ hlen
          -- the head is the same with the tail as without it, so both cuts take one step
          rcases head_cases before c a with hblank | ⟨d, rest, hd, hdelim⟩ | ⟨hblank, hplain⟩
          · rw [List.cons_append, cut_blank hblank, cut_blank hblank, cut_out _ _ _ _ (a ++ tail),
              cut_out _ _ _ _ a, ih a hlen' (some c) [] hapart hcut, List.append_assoc]
            rfl
          · have hle : rest.length ≤ n := by
              have hpos := List.length_pos_iff.mpr hdelim.ne_nil
              have hsum := congrArg List.length hd
              simp only [List.length_cons, List.length_append] at hsum hlen
              omega
            rw [hd] at hapart hcut ⊢
            rw [List.append_assoc, cut_delimiter (hdelim.append hapart), cut_delimiter hdelim]
            rw [after_append] at hapart hcut ⊢
            rw [cut_out _ _ _ _ (rest ++ tail), cut_out _ _ _ _ rest, ih rest hle _ [] hapart hcut,
              List.append_assoc]
          · have hplain' : delimiterLength before (c :: (a ++ tail)) = 0 := by
              rw [← List.cons_append, delimiterLength_append (by simp) hapart, hplain]
            rw [List.cons_append, cut_plain hblank hplain', cut_plain hblank hplain]
            exact ih a hlen' (some c) (c :: pending) hapart hcut

/-- A text falls into two parts at a place where a cut is made and nothing goes on. -/
theorem lexemes_append {a tail : List Char} (hapart : Apart (after none a) tail)
    (hcut : CutBefore (after none a) tail) :
    lexemes (a ++ tail) = lexemes a ++ cut (after none a) 0 [] [] tail :=
  cut_append_aux a.length a (Nat.le_refl _) none [] hapart hcut

/-- A character that neither goes on with a word nor with a sign. -/
theorem apart_of_not_word {c : Char} (hword : Text.isWordChar c = false) (hsign : c ≠ '=')
    (before : Option Char) (rest : List Char) : Apart before (c :: rest) :=
  ⟨.inr (by simp [wordEnds, hword]), fun _ hhead => hsign (Option.some.inj hhead)⟩

/-- A blank is no character of a word. -/
theorem isWordChar_of_isBlank {c : Char} (h : Text.isBlank c) : Text.isWordChar c = false := by
  have hunder : c ≠ '_' := by
    rintro rfl
    exact absurd h (by decide)
  have hcodes : Text.isWordChar c =
      (decide (c.val ≥ 65 ∧ c.val ≤ 90) || c.val ≥ 97 && c.val ≤ 122 || c.val ≥ 48 && c.val ≤ 57 ||
        c == '_') := rfl
  have hval : c.val.toNat = c.toNat := rfl
  simp only [Text.isBlank, Bool.or_eq_true, Bool.and_eq_true, decide_eq_true_eq, beq_iff_eq] at h
  simp only [hcodes, Bool.or_eq_false_iff, beq_eq_false_iff_ne, Bool.and_eq_false_iff,
    decide_eq_false_iff_not, UInt32.le_iff_toNat_le, ge_iff_le, hval, UInt32.reduceToNat]
  refine ⟨⟨⟨?_, ?_⟩, ?_⟩, hunder⟩ <;> omega

/-- At a blank a text falls into two. -/
theorem lexemes_blank {c : Char} (h : Text.isBlank c) (a rest : List Char) :
    lexemes (a ++ c :: rest) = lexemes a ++ lexemes rest := by
  have hword := isWordChar_of_isBlank h
  have hsign : c ≠ '=' := by
    rintro rfl
    exact absurd h (by decide)
  rw [lexemes_append (apart_of_not_word hword hsign _ _) (.inl ⟨c, rest, rfl, h⟩), cut_blank h]
  exact congrArg (lexemes a ++ ·) (cut_congr (by simp [wordStarts, hword]) rest)

/-- At a bracket a text falls into two, with the bracket between them. -/
theorem lexemes_bracket {c : Char} (h : c ∈ ['(', ')', '[', ']']) (a rest : List Char) :
    lexemes (a ++ c :: rest) = lexemes a ++ [c] :: lexemes rest := by
  obtain ⟨hword, hsign, hgt, hlt, hmem⟩ :
      Text.isWordChar c = false ∧ c ≠ '=' ∧ c ≠ '>' ∧ c ≠ '<' ∧ [c] ∈ signs := by
    simp only [List.mem_cons, List.not_mem_nil, or_false] at h
    rcases h with rfl | rfl | rfl | rfl <;> decide
  have hdelim : ∀ before, Delimiter before [c] rest := fun before =>
    .sign hmem fun hangle => by
      rcases hangle with heq | heq
      · exact absurd (List.cons.inj heq).1 hgt
      · exact absurd (List.cons.inj heq).1 hlt
  have hcut : CutBefore (after none a) (c :: rest) := .inr ⟨[c], rest, rfl, hdelim _⟩
  rw [lexemes_append (apart_of_not_word hword hsign _ _) hcut]
  show _ ++ cut _ 0 [] [] ([c] ++ rest) = _
  rw [cut_delimiter (hdelim _), cut_out]
  exact congrArg (lexemes a ++ [c] :: ·) (cut_congr (by simp [wordStarts, hword]) rest)

/-! ## Lexemes are final -/

/-- No character of `w` is a blank or starts a delimiter, in front of `rest`. -/
def Plain (before : Option Char) (rest : List Char) : List Char → Prop
  | [] => True
  | c :: w => Text.isBlank c = false ∧ delimiterLength before (c :: (w ++ rest)) = 0 ∧
      Plain (some c) rest w

theorem Plain.cut_eq {rest w : List Char} {before : Option Char} (h : Plain before rest w)
    (pending : List Char) : cut before 0 pending [] (w ++ rest) =
      cut (after before w) 0 (w.reverse ++ pending) [] rest := by
  induction w generalizing before pending with
  | nil => rfl
  | cons c w ih =>
      obtain ⟨hblank, hplain, hw⟩ := h
      rw [List.cons_append, cut_plain hblank hplain, ih hw]
      simp

/-- An operand is the longest plain text, and a cut is made behind it. -/
theorem exists_plain (before : Option Char) (cs : List Char) :
    ∃ w rest, cs = w ++ rest ∧ Plain before rest w ∧
      (rest = [] ∨ CutBefore (after before w) rest) := by
  induction cs generalizing before with
  | nil => exact ⟨[], [], rfl, trivial, .inl rfl⟩
  | cons c cs ih =>
      rcases head_cases before c cs with hblank | hdelim | ⟨hblank, hplain⟩
      · exact ⟨[], c :: cs, rfl, trivial, .inr (.inl ⟨c, cs, rfl, hblank⟩)⟩
      · exact ⟨[], c :: cs, rfl, trivial, .inr (.inr hdelim)⟩
      · obtain ⟨w, rest, rfl, hw, hcut⟩ := ih (some c)
        exact ⟨c :: w, rest, rfl, ⟨hblank, hplain, hw⟩, hcut⟩

/-- An angle is cut off, alone or with an equals sign. -/
theorem exists_delimiter_angle {c : Char} (h : c = '>' ∨ c = '<') (before : Option Char)
    (rest : List Char) : ∃ d r, c :: rest = d ++ r ∧ Delimiter before d r := by
  by_cases hhead : rest.head? = some '='
  · obtain ⟨r, rfl⟩ := List.head?_eq_some_iff.mp hhead
    refine ⟨[c, '='], r, rfl, .sign ?_ (by simp)⟩
    rcases h with rfl | rfl <;> decide
  · refine ⟨[c], rest, rfl, .sign ?_ fun _ => hhead⟩
    rcases h with rfl | rfl <;> decide

/-- Behind a plain text no sign of two characters goes on. -/
theorem Plain.not_angle {rest w : List Char} {before : Option Char} (h : Plain before rest w)
    (hne : w ≠ []) : ¬ (after before w = some '>' ∨ after before w = some '<') := by
  induction w generalizing before with
  | nil => exact absurd rfl hne
  | cons c w ih =>
      obtain ⟨_, hplain, hw⟩ := h
      cases w with
      | cons c' w => exact ih hw (by simp)
      | nil =>
          intro hlast
          have hangle : c = '>' ∨ c = '<' := hlast.imp Option.some.inj Option.some.inj
          obtain ⟨d, r, hcs, hd⟩ := exists_delimiter_angle hangle before rest
          rw [List.nil_append, hcs] at hplain
          exact hd.delimiterLength_ne_zero hplain

/-- A plain text stays plain without what follows it apart. -/
theorem Plain.of_apart {rest w : List Char} {before : Option Char} (h : Plain before rest w)
    (hapart : Apart (after before w) rest) : Plain before [] w := by
  induction w generalizing before with
  | nil => trivial
  | cons c w ih =>
      obtain ⟨hblank, hplain, hw⟩ := h
      refine ⟨hblank, ?_, ih hw hapart⟩
      rw [← List.cons_append, delimiterLength_append (by simp) hapart] at hplain
      rw [List.append_nil, hplain]

/-- A plain text into which no word goes on is plain by itself. -/
theorem Plain.of_wordApart {w : List Char} {before : Option Char} (h : Plain before [] w)
    (hapart : WordApart before w) : Plain none [] w := by
  cases w with
  | nil => trivial
  | cons c w =>
      obtain ⟨hblank, hplain, hw⟩ := h
      refine ⟨hblank, ?_, hw⟩
      rw [List.append_nil] at hplain ⊢
      -- a delimiter at the head, were there one, would have been there before
      refine Classical.byContradiction fun hlength => ?_
      obtain ⟨d, r, hcs, hd⟩ := exists_delimiter hlength
      rw [hcs] at hplain hapart
      exact (hd.of_wordApart hapart).delimiterLength_ne_zero hplain

/-- An operand, taken out of its text, is a single lexeme. -/
theorem Plain.lexemes_eq {rest w : List Char} {before : Option Char} (h : Plain before rest w)
    (hne : w ≠ []) (hbefore : WordApart before w) (hafter : WordApart (after before w) rest) :
    lexemes w = [w] := by
  have hapart : Apart (after before w) rest :=
    ⟨hafter, fun hangle => absurd hangle (h.not_angle hne)⟩
  have halone := (h.of_apart hapart).of_wordApart hbefore
  have hcut := halone.cut_eq []
  rw [List.append_nil] at hcut
  rw [lexemes, hcut, cut, endOperand]
  simp [hne]

theorem lexemes_of_delimiter : ∀ d ∈ signs ++ words, lexemes d = [d] := by
  decide

theorem Delimiter.lexemes_eq {before : Option Char} {d rest : List Char}
    (h : Delimiter before d rest) : lexemes d = [d] := by
  cases h with
  | sign hd _ => exact lexemes_of_delimiter d (List.mem_append_left _ hd)
  | word hd _ _ => exact lexemes_of_delimiter d (List.mem_append_right _ hd)

theorem CutBefore.wordApart {before : Option Char} {cs : List Char} (h : CutBefore before cs) :
    WordApart before cs := by
  rcases h with ⟨c, rest, rfl, hc⟩ | ⟨d, rest, rfl, hd⟩
  · exact .inr (by simp [wordEnds, isWordChar_of_isBlank hc])
  · exact hd.wordApart_before

/-- How a text falls into lexemes, piece by piece: a blank, a delimiter, or an operand, which
reaches up to the next cut. -/
inductive Lexed : Option Char → List Char → List (List Char) → Prop
  | nil {before : Option Char} : Lexed before [] []
  | blank {before : Option Char} {c : Char} {rest : List Char} {ws : List (List Char)} :
      Text.isBlank c → Lexed (some c) rest ws → Lexed before (c :: rest) ws
  | delimiter {before : Option Char} {d rest : List Char} {ws : List (List Char)} :
      Delimiter before d rest → Lexed (after before d) rest ws → Lexed before (d ++ rest) (d :: ws)
  | operand {before : Option Char} {w rest : List Char} {ws : List (List Char)} :
      w ≠ [] → Plain before rest w → (rest = [] ∨ CutBefore (after before w) rest) →
      Lexed (after before w) rest ws → Lexed before (w ++ rest) (w :: ws)

private theorem lexed_cut_aux : ∀ (n : Nat) (cs : List Char), cs.length ≤ n →
    ∀ before, Lexed before cs (cut before 0 [] [] cs) := by
  intro n
  induction n with
  | zero =>
      intro cs hlen before
      rw [List.length_eq_zero_iff.mp (Nat.le_zero.mp hlen)]
      exact .nil
  | succ n ih =>
      intro cs hlen before
      -- the text is an operand, maybe empty, and then ends or goes on with a cut
      obtain ⟨p, rest, rfl, hplain, hcut⟩ := exists_plain before cs
      by_cases hp : p = []
      · subst hp
        rcases hcut with rfl | ⟨c, r, rfl, hc⟩ | ⟨d, r, rfl, hd⟩
        · exact .nil
        · have hlen' : r.length ≤ n := Nat.le_of_succ_le_succ hlen
          show Lexed before (c :: r) (cut before 0 [] [] (c :: r))
          rw [cut_blank hc]
          exact .blank hc (ih r hlen' _)
        · have hlen' : r.length ≤ n := by
            have hpos := List.length_pos_iff.mpr hd.ne_nil
            simp only [List.nil_append, List.length_append] at hlen
            omega
          rw [after_nil] at hd
          show Lexed before (d ++ r) (cut before 0 [] [] (d ++ r))
          rw [cut_delimiter hd, cut_out]
          exact .delimiter hd (ih r hlen' _)
      · have hlen' : rest.length ≤ n := by
          have hpos := List.length_pos_iff.mpr hp
          simp only [List.length_append] at hlen
          omega
        have hend : cut (after before p) 0 p.reverse [] rest =
            p :: cut (after before p) 0 [] [] rest := by
          have hone : endOperand p.reverse [] = [p] := by
            simp [endOperand, hp]
          rcases hcut with rfl | hcut
          · show (endOperand p.reverse []).reverse = p :: (endOperand [] []).reverse
            rw [hone]
            rfl
          · rw [hcut.cut_eq, hone]
            rfl
        rw [hplain.cut_eq, List.append_nil, hend]
        exact .operand hp hplain hcut (ih rest hlen' _)

/-- A cut text falls into lexemes piece by piece. -/
theorem lexed_cut (before : Option Char) (cs : List Char) :
    Lexed before cs (cut before 0 [] [] cs) :=
  lexed_cut_aux cs.length cs (Nat.le_refl _) before

/-- No word goes on behind an operand. -/
theorem wordApart_of_cut {before : Option Char} {rest : List Char}
    (h : rest = [] ∨ CutBefore before rest) : WordApart before rest := by
  rcases h with rfl | hcut
  · exact .inr rfl
  · exact hcut.wordApart

/-- Where no word goes on into a text, its pieces are single lexemes by themselves. -/
theorem Lexed.lexemes_eq {before : Option Char} {cs : List Char} {ws : List (List Char)}
    (h : Lexed before cs ws) (hbefore : WordApart before cs) : ∀ w ∈ ws, lexemes w = [w] := by
  induction h with
  | nil =>
      intro w hw
      cases hw
  | blank hc _ ih => exact ih (.inl (by simp [wordStarts, isWordChar_of_isBlank hc]))
  | delimiter hd _ ih =>
      intro w hw
      rcases List.mem_cons.mp hw with rfl | hw
      · exact hd.lexemes_eq
      · exact ih hd.wordApart_after w hw
  | @operand before p rest ws hne hplain hcut _ ih =>
      have hafter := wordApart_of_cut hcut
      intro w hw
      rcases List.mem_cons.mp hw with rfl | hw
      · have hstart : WordApart before w := by
          rw [WordApart, ← wordEnds_append hne rest]
          exact hbefore
        exact hplain.lexemes_eq hne hstart hafter
      · exact ih hafter w hw

/-- Cut once more, every lexeme of a text is a single one. -/
theorem lexemes_of_mem {w cs : List Char} (h : w ∈ lexemes cs) : lexemes w = [w] :=
  (lexed_cut none cs).lexemes_eq (.inl rfl) w h

end Token

end Verdict
