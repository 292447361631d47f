import Verdict.Proofs.Evaluation.Order
import Verdict.Proofs.Token.Scan

/-!
# Where a text is cut

`Token.Boundary` says of a place between two adjacent characters, by what stands around it, that
the text is cut there. The tokens of a text are the text without its blanks, and two characters
stand in different tokens exactly if a blank lies between them or, where they are adjacent, if a
boundary does: `scan_cuts`.

The proof follows the pieces of the text (`Lexed`). Between two pieces there is a boundary
(`Delimiter.boundary_end`, `Delimiter.boundary_start`), inside a piece there is none
(`Delimiter.not_boundary`, `Plain.not_boundary`), and no word that makes a boundary reaches from
one piece into the next (`wordBoundary_append`).
-/

namespace Verdict

namespace Token

/-! ## The tokens of characters -/

/-- The characters of a text that are not blank. -/
def solid (cs : List Char) : List Char :=
  cs.filter fun c => !Text.isBlank c

@[simp] theorem solid_append (a b : List Char) : solid (a ++ b) = solid a ++ solid b :=
  List.filter_append a b

theorem solid_cons_of_blank {c : Char} (h : Text.isBlank c) (cs : List Char) :
    solid (c :: cs) = solid cs := by
  simp [solid, h]

theorem solid_cons_of_solid {c : Char} (h : Text.isBlank c = false) (cs : List Char) :
    solid (c :: cs) = c :: solid cs := by
  simp [solid, h]

theorem solid_eq_self {cs : List Char} (h : ∀ c ∈ cs, Text.isBlank c = false) : solid cs = cs := by
  refine List.filter_eq_self.mpr fun c hc => ?_
  simp [h c hc]

/-- The place in a list of tokens, counted from zero, of the token that holds the character before
which so many characters stand in all of them. -/
def tokenAt : List (List Char) → Nat → Nat
  | [], _ => 0
  | t :: ts, n => if n < t.length then 0 else tokenAt ts (n - t.length) + 1

/-- A token ends after so many characters. -/
def EndsAfter (n : Nat) (ts : List (List Char)) : Prop :=
  ∃ us vs, ts = us ++ vs ∧ us.flatten.length = n

section Ends

variable {t : List Char} {ts us vs : List (List Char)} {n : Nat}

theorem endsAfter_head : EndsAfter t.length (t :: ts) :=
  ⟨[t], ts, rfl, by simp⟩

theorem not_endsAfter_within (hpos : 0 < n) (hlt : n < t.length) : ¬ EndsAfter n (t :: ts) := by
  rintro ⟨us, vs, heq, hlen⟩
  cases us with
  | nil =>
      simp at hlen
      omega
  | cons u us =>
      obtain ⟨rfl, -⟩ := List.cons.inj heq
      simp at hlen
      omega

theorem endsAfter_cons : EndsAfter (t.length + (n + 1)) (t :: ts) ↔ EndsAfter (n + 1) ts := by
  constructor
  · rintro ⟨us, vs, heq, hlen⟩
    cases us with
    | nil => simp at hlen
    | cons u us =>
        obtain ⟨rfl, rfl⟩ := List.cons.inj heq
        refine ⟨us, vs, rfl, ?_⟩
        simp only [List.flatten_cons, List.length_append] at hlen
        omega
  · rintro ⟨us, vs, rfl, hlen⟩
    refine ⟨t :: us, vs, rfl, ?_⟩
    simp only [List.flatten_cons, List.length_append]
    omega

theorem tokenAt_lt (h : n < us.flatten.length) : tokenAt (us ++ vs) n < us.length := by
  induction us generalizing n with
  | nil => simp at h
  | cons u us ih =>
      simp only [List.cons_append, tokenAt, List.length_cons]
      simp only [List.flatten_cons, List.length_append] at h
      split
      · omega
      · have := ih (n := n - u.length) (by omega)
        omega

theorem le_tokenAt (h : us.flatten.length ≤ n) : us.length ≤ tokenAt (us ++ vs) n := by
  induction us generalizing n with
  | nil => exact Nat.zero_le _
  | cons u us ih =>
      simp only [List.cons_append, tokenAt, List.length_cons]
      simp only [List.flatten_cons, List.length_append] at h
      split
      · omega
      · have := ih (n := n - u.length) (by omega)
        omega

/-- Characters before and behind the end of a token stand in different ones. -/
theorem EndsAfter.tokenAt_ne {m k : Nat} (h : EndsAfter n ts) (hm : m < n) (hk : n ≤ k) :
    tokenAt ts m ≠ tokenAt ts k := by
  obtain ⟨us, vs, rfl, rfl⟩ := h
  have hbefore : tokenAt (us ++ vs) m < us.length := tokenAt_lt hm
  have hbehind : us.length ≤ tokenAt (us ++ vs) k := le_tokenAt hk
  omega

/-- Two characters that follow one another stand in different tokens exactly if one of the tokens
ends between them. -/
theorem tokenAt_ne_iff (h : n + 1 < ts.flatten.length) :
    tokenAt ts n ≠ tokenAt ts (n + 1) ↔ EndsAfter (n + 1) ts := by
  refine ⟨fun hne => ?_, fun hends => hends.tokenAt_ne (Nat.lt_succ_self n) (Nat.le_refl _)⟩
  induction ts generalizing n with
  | nil => simp at h
  | cons t ts ih =>
      simp only [List.flatten_cons, List.length_append] at h
      rcases Nat.lt_trichotomy (n + 1) t.length with hlt | heq | hgt
      · have hlt' : n < t.length := by omega
        simp [tokenAt, hlt, hlt'] at hne
      · rw [heq]
        exact endsAfter_head
      · obtain ⟨k, rfl⟩ : ∃ k, n = t.length + k := ⟨n - t.length, by omega⟩
        have hfirst : ¬ t.length + k < t.length := by omega
        have hsecond : ¬ t.length + k + 1 < t.length := by omega
        have hrest : t.length + k + 1 - t.length = k + 1 := by omega
        simp only [tokenAt, if_neg hfirst, if_neg hsecond, Nat.add_sub_cancel_left, hrest] at hne
        have hends := ih (n := k) (by omega) (by omega)
        exact endsAfter_cons.mpr hends

end Ends

/-! ## Boundaries -/

/-- The characters that are tokens by themselves wherever they stand. -/
def brackets : List Char := ['(', ')', '[', ']']

/-- The characters of the comparison signs. -/
def comparisons : List Char := ['<', '>', '=']

/-- Two adjacent characters that do not belong to one sign: one of them is a bracket, or one of them
is of a comparison and they are not an angle with an equals sign behind it. -/
def SignBoundary (x y : Char) : Prop :=
  (x ∈ brackets ∨ y ∈ brackets) ∨
    (x ∈ comparisons ∨ y ∈ comparisons) ∧ ¬ ((x = '<' ∨ x = '>') ∧ y = '=')

/-- A conjunction or a disjunction with no ASCII letter, digit or underscore directly before or
behind it. -/
def WholeWord (before : Option Char) (w rest : List Char) : Prop :=
  w ∈ words ∧ (∀ c ∈ before, Text.isWordChar c = false) ∧
    ∀ c ∈ rest.head?, Text.isWordChar c = false

/-- A whole word ends at the one or starts at the other of two adjacent characters, which stand
between `front` and `back`. -/
def WordBoundary (before : Option Char) (front : List Char) (x y : Char) (back : List Char) : Prop :=
  (∃ p w, front ++ [x] = p ++ w ∧ WholeWord (after before p) w (y :: back)) ∨
    ∃ w r, y :: back = w ++ r ∧ WholeWord (some x) w r

/-- The text is cut between two adjacent characters, which stand between `front` and `back`. -/
def Boundary (before : Option Char) (front : List Char) (x y : Char) (back : List Char) : Prop :=
  SignBoundary x y ∨ WordBoundary before front x y back

theorem wholeWord_iff {before : Option Char} {w rest : List Char} :
    WholeWord before w rest ↔ w ∈ words ∧ wordStarts before ∧ wordEnds rest := by
  unfold WholeWord
  have hbefore : (∀ c ∈ before, Text.isWordChar c = false) ↔ wordStarts before = true := by
    cases before <;> simp [wordStarts]
  have hrest : (∀ c ∈ rest.head?, Text.isWordChar c = false) ↔ wordEnds rest = true := by
    cases rest <;> simp [wordEnds]
  rw [hbefore, hrest]

theorem WholeWord.delimiter {before : Option Char} {w rest : List Char}
    (h : WholeWord before w rest) : Delimiter before w rest := by
  obtain ⟨hmem, hstarts, hends⟩ := wholeWord_iff.mp h
  exact .word hmem hstarts hends

section Boundaries

variable {before : Option Char} {front back rest : List Char} {x y : Char}

theorem last_eq {a b : List Char} (h : a ++ [x] = b ++ [y]) : x = y :=
  List.head_eq_of_cons_eq (List.append_inj' h rfl).2

/-- A whole word ends in a character of a word and starts with one. -/
theorem WordBoundary.isWordChar (h : WordBoundary before front x y back) :
    (Text.isWordChar x = true ∧ Text.isWordChar y = false) ∨
      (Text.isWordChar x = false ∧ Text.isWordChar y = true) := by
  rcases h with ⟨p, w, heq, hmem, -, hrest⟩ | ⟨w, r, heq, hmem, hbefore, -⟩
  · obtain ⟨hne, hall⟩ := isWordChar_of_mem_words w hmem
    obtain ⟨w', z, rfl⟩ : ∃ w' z, w = w' ++ [z] :=
      ⟨w.dropLast, w.getLast hne, (List.dropLast_concat_getLast hne).symm⟩
    rw [← List.append_assoc] at heq
    obtain rfl := last_eq heq
    exact .inl ⟨hall x (by simp), hrest y rfl⟩
  · obtain ⟨hne, hall⟩ := isWordChar_of_mem_words w hmem
    obtain ⟨c, w', rfl⟩ := List.exists_cons_of_ne_nil hne
    obtain ⟨rfl, -⟩ := List.cons.inj heq
    exact .inr ⟨hbefore x rfl, hall y List.mem_cons_self⟩

/-- Between the pieces of a text no word makes a boundary further on that starts before it. -/
theorem wordBoundary_append {u : List Char}
    (hapart : WordApart (after before u) (front ++ x :: y :: back)) :
    WordBoundary before (u ++ front) x y back ↔ WordBoundary (after before u) front x y back := by
  refine or_congr ⟨?_, ?_⟩ Iff.rfl
  · rintro ⟨p, w, heq, hword⟩
    rw [List.append_assoc] at heq
    rcases List.append_eq_append_iff.mp heq with ⟨p', rfl, hw⟩ | ⟨s, rfl, rfl⟩
    · rw [after_append] at hword
      exact ⟨p', w, hw, hword⟩
    · by_cases hs : s = []
      · subst hs
        rw [List.append_nil]
        exact ⟨[], front ++ [x], rfl, hword⟩
      · -- the word goes on from `u`, and no word does
        obtain ⟨-, hall⟩ := isWordChar_of_mem_words _ hword.1
        have hstarts : wordStarts (after before (p ++ s)) = false := by
          rw [after_append]
          exact wordStarts_after_of_word hs (fun c hc => hall c (List.mem_append_left _ hc)) _
        have hends : wordEnds (front ++ x :: y :: back) = false := by
          have hhead : ∃ c cs, front ++ [x] = c :: cs := by
            cases front with
            | nil => exact ⟨x, [], rfl⟩
            | cons c cs => exact ⟨c, cs ++ [x], rfl⟩
          obtain ⟨c, cs, hcs⟩ := hhead
          have hc : Text.isWordChar c := hall c (by rw [hcs]; simp)
          have hsplit : front ++ x :: y :: back = (front ++ [x]) ++ y :: back := by simp
          rw [hsplit, hcs]
          simp [wordEnds, hc]
        rcases hapart with h | h
        · rw [hstarts] at h
          cases h
        · rw [hends] at h
          cases h
  · rintro ⟨p, w, heq, hword⟩
    refine ⟨u ++ p, w, ?_, ?_⟩
    · rw [List.append_assoc, List.append_assoc, heq]
    · rw [after_append]
      exact hword

/-! ## Boundaries and pieces -/

/-- A sign is a bracket, a character of a comparison, or an angle with an equals sign. -/
theorem sign_cases {d : List Char} (h : d ∈ signs) :
    (∃ c ∈ brackets, d = [c]) ∨ (∃ c ∈ comparisons, d = [c]) ∨
      ∃ c, (c = '<' ∨ c = '>') ∧ d = [c, '='] := by
  have hall : ∀ d ∈ signs, (d ∈ brackets.map fun c => [c]) ∨ (d ∈ comparisons.map fun c => [c]) ∨
      d = ['<', '='] ∨ d = ['>', '='] := by decide
  rcases hall d h with hbracket | hcomparison | rfl | rfl
  · obtain ⟨c, hc, rfl⟩ := List.mem_map.mp hbracket
    exact .inl ⟨c, hc, rfl⟩
  · obtain ⟨c, hc, rfl⟩ := List.mem_map.mp hcomparison
    exact .inr (.inl ⟨c, hc, rfl⟩)
  · exact .inr (.inr ⟨'<', .inl rfl, rfl⟩)
  · exact .inr (.inr ⟨'>', .inr rfl, rfl⟩)

/-- A bracket or a character of a comparison begins a delimiter wherever it stands. -/
theorem exists_delimiter_of_mem {c : Char} (h : c ∈ brackets ∨ c ∈ comparisons)
    (before : Option Char) (rest : List Char) :
    ∃ d r, c :: rest = d ++ r ∧ Delimiter before d r := by
  by_cases hangle : c = '>' ∨ c = '<'
  · exact exists_delimiter_angle hangle before rest
  · have hmem : [c] ∈ signs := by
      have hall : ∀ c ∈ brackets ++ comparisons, [c] ∈ signs := by
        simp [brackets, comparisons, signs]
      exact hall c (List.mem_append.mpr h)
    refine ⟨[c], rest, rfl, .sign hmem fun hsign => absurd ?_ hangle⟩
    rcases hsign with heq | heq
    · exact .inl (List.head_eq_of_cons_eq heq)
    · exact .inr (List.head_eq_of_cons_eq heq)

/-- No bracket and no character of a comparison is one of a word. -/
theorem isWordChar_of_mem_sign : ∀ c, c ∈ brackets ∨ c ∈ comparisons → Text.isWordChar c = false := by
  have hall : ((brackets ++ comparisons).all fun c => !Text.isWordChar c) = true := by decide
  intro c hc
  have hnot := List.all_eq_true.mp hall c (List.mem_append.mpr hc)
  simpa using hnot

theorem SignBoundary.mem (h : SignBoundary x y) :
    (x ∈ brackets ∨ x ∈ comparisons) ∨ (y ∈ brackets ∨ y ∈ comparisons) := by
  rcases h with (hx | hy) | ⟨hx | hy, -⟩
  · exact .inl (.inl hx)
  · exact .inr (.inl hy)
  · exact .inl (.inr hx)
  · exact .inr (.inr hy)

/-- A text is cut behind a delimiter. -/
theorem Delimiter.boundary_end (h : Delimiter before (front ++ [x]) (y :: back)) :
    Boundary before front x y back := by
  cases h with
  | word hmem hstarts hends =>
      exact .inr (.inl ⟨[], front ++ [x], rfl, wholeWord_iff.mpr ⟨hmem, hstarts, hends⟩⟩)
  | sign hmem hrest =>
      refine .inl ?_
      rcases sign_cases hmem with ⟨c, hc, heq⟩ | ⟨c, hc, heq⟩ | ⟨c, hc, heq⟩
      · obtain rfl := last_eq (show front ++ [x] = [] ++ [c] from heq)
        exact .inl (.inl hc)
      · obtain rfl := last_eq (show front ++ [x] = [] ++ [c] from heq)
        refine .inr ⟨.inl hc, ?_⟩
        rintro ⟨hangle, rfl⟩
        refine hrest ?_ rfl
        rw [heq]
        rcases hangle with rfl | rfl
        · exact .inr rfl
        · exact .inl rfl
      · obtain rfl := last_eq (show front ++ [x] = [c] ++ ['='] from heq)
        exact .inr ⟨.inl (by decide), fun hangle => absurd hangle.1 (by decide)⟩

/-- A text is cut in front of a delimiter, if no angle stands there. -/
theorem Delimiter.boundary_start {d r : List Char} (h : Delimiter (some x) d r)
    (heq : y :: back = d ++ r) (hangle : ¬ (x = '>' ∨ x = '<')) :
    Boundary before front x y back := by
  cases h with
  | word hmem hstarts hends =>
      exact .inr (.inr ⟨d, r, heq, wholeWord_iff.mpr ⟨hmem, hstarts, hends⟩⟩)
  | sign hmem _ =>
      have hnot : ¬ ((x = '<' ∨ x = '>') ∧ y = '=') := fun h => hangle h.1.symm
      refine .inl ?_
      rcases sign_cases hmem with ⟨c, hc, rfl⟩ | ⟨c, hc, rfl⟩ | ⟨c, hc, rfl⟩
      · obtain rfl : y = c := List.head_eq_of_cons_eq heq
        exact .inl (.inr hc)
      · obtain rfl : y = c := List.head_eq_of_cons_eq heq
        exact .inr ⟨.inr hc, hnot⟩
      · obtain rfl : y = c := List.head_eq_of_cons_eq heq
        refine .inr ⟨.inr ?_, hnot⟩
        rcases hc with rfl | rfl
        · decide
        · decide

/-- No text is cut inside a delimiter. -/
theorem Delimiter.not_boundary {s : List Char} (h : Delimiter before (front ++ x :: y :: s) rest) :
    ¬ Boundary before front x y (s ++ rest) := by
  intro hboundary
  cases h with
  | word hmem _ _ =>
      obtain ⟨-, hall⟩ := isWordChar_of_mem_words _ hmem
      have hx : Text.isWordChar x := hall x (by simp)
      have hy : Text.isWordChar y := hall y (by simp)
      rcases hboundary with hsign | hword
      · rcases hsign.mem with hmem | hmem
        · rw [isWordChar_of_mem_sign x hmem] at hx
          cases hx
        · rw [isWordChar_of_mem_sign y hmem] at hy
          cases hy
      · rcases hword.isWordChar with ⟨-, hnot⟩ | ⟨hnot, -⟩
        · rw [hnot] at hy
          cases hy
        · rw [hnot] at hx
          cases hx
  | sign hmem _ =>
      -- only an angle with an equals sign has an inside
      obtain ⟨hangle, rfl⟩ : (x = '<' ∨ x = '>') ∧ y = '=' := by
        rcases sign_cases hmem with ⟨c, -, heq⟩ | ⟨c, -, heq⟩ | ⟨c, hc, heq⟩
        · cases front <;> simp at heq
        · cases front <;> simp at heq
        · cases front with
          | nil =>
              obtain ⟨rfl, htail⟩ := List.cons.inj heq
              exact ⟨hc, List.head_eq_of_cons_eq htail⟩
          | cons z front => cases front <;> simp at heq
      rcases hboundary with (hbracket | ⟨-, hnot⟩) | hword
      · rcases hangle with rfl | rfl
        · exact absurd hbracket (by decide)
        · exact absurd hbracket (by decide)
      · exact hnot ⟨hangle, rfl⟩
      · have hnone : Text.isWordChar x = false ∧ Text.isWordChar '=' = false := by
          rcases hangle with rfl | rfl
          · decide
          · decide
        rcases hword.isWordChar with ⟨hx, -⟩ | ⟨-, hy⟩
        · rw [hnone.1] at hx
          cases hx
        · rw [hnone.2] at hy
          cases hy

/-- Nowhere in a plain text does a delimiter start. -/
theorem Plain.delimiterLength_eq {a b : List Char} (h : Plain before rest (a ++ b)) (hb : b ≠ []) :
    delimiterLength (after before a) (b ++ rest) = 0 := by
  induction a generalizing before with
  | nil =>
      obtain ⟨c, b, rfl⟩ := List.exists_cons_of_ne_nil hb
      exact h.2.1
  | cons c a ih => exact ih h.2.2

/-- No text is cut inside an operand. -/
theorem Plain.not_boundary {s : List Char} (h : Plain before rest (front ++ x :: y :: s)) :
    ¬ Boundary before front x y (s ++ rest) := by
  have hx : delimiterLength (after before front) (x :: (y :: (s ++ rest))) = 0 :=
    h.delimiterLength_eq (List.cons_ne_nil _ _)
  have hy : delimiterLength (some x) (y :: (s ++ rest)) = 0 := by
    have hsplit : front ++ x :: y :: s = (front ++ [x]) ++ y :: s := by simp
    rw [hsplit] at h
    have hlength := h.delimiterLength_eq (List.cons_ne_nil _ _)
    rw [after_append] at hlength
    exact hlength
  rintro (hsign | ⟨p, w, heq, hword⟩ | ⟨w, r, heq, hword⟩)
  · rcases hsign.mem with hmem | hmem
    · obtain ⟨d, r, heq, hd⟩ := exists_delimiter_of_mem hmem (after before front) (y :: (s ++ rest))
      rw [heq] at hx
      exact hd.delimiterLength_ne_zero hx
    · obtain ⟨d, r, heq, hd⟩ := exists_delimiter_of_mem hmem (some x) (s ++ rest)
      rw [heq] at hy
      exact hd.delimiterLength_ne_zero hy
  · -- the word starts inside the operand, too
    have hsplit : front ++ x :: y :: s = p ++ (w ++ y :: s) := by
      rw [← List.append_assoc, ← heq]
      simp
    rw [hsplit] at h
    have hlength := h.delimiterLength_eq (by simp)
    rw [List.append_assoc] at hlength
    exact hword.delimiter.delimiterLength_ne_zero hlength
  · rw [heq] at hy
    exact hword.delimiter.delimiterLength_ne_zero hy

/-! ## The pieces of a text -/

theorem Delimiter.isBlank_eq {d : List Char} (h : Delimiter before d rest) :
    ∀ c ∈ d, Text.isBlank c = false := by
  have hall : ((signs ++ words).all fun d => d.all fun c => !Text.isBlank c) = true := by decide
  have hd : d ∈ signs ++ words := by
    cases h with
    | sign hmem _ => exact List.mem_append_left _ hmem
    | word hmem _ _ => exact List.mem_append_right _ hmem
  intro c hc
  have hnot := List.all_eq_true.mp (List.all_eq_true.mp hall d hd) c hc
  simpa using hnot

theorem Plain.isBlank_eq {w : List Char} (h : Plain before rest w) :
    ∀ c ∈ w, Text.isBlank c = false := by
  induction w generalizing before with
  | nil =>
      intro c hc
      cases hc
  | cons z w ih =>
      obtain ⟨hblank, -, hw⟩ := h
      intro c hc
      rcases List.mem_cons.mp hc with rfl | hc
      · exact hblank
      · exact ih hw c hc

/-- Two adjacent characters stand behind a piece, at its end, or inside it. -/
theorem place_cases {p : List Char} (h : p ++ rest = front ++ x :: y :: back) :
    (∃ front', front = p ++ front' ∧ rest = front' ++ x :: y :: back) ∨
      (p = front ++ [x] ∧ rest = y :: back) ∨
        ∃ s, p = front ++ x :: y :: s ∧ back = s ++ rest := by
  rcases List.append_eq_append_iff.mp h with ⟨front', rfl, hrest⟩ | ⟨s, rfl, hs⟩
  · exact .inl ⟨front', rfl, hrest⟩
  · rcases s with _ | ⟨c, s⟩
    · refine .inl ⟨[], ?_, hs.symm⟩
      rw [List.append_nil, List.append_nil]
    · obtain ⟨rfl, htail⟩ := List.cons.inj hs
      rcases s with _ | ⟨c, s⟩
      · exact .inr (.inl ⟨rfl, htail.symm⟩)
      · obtain ⟨rfl, rfl⟩ := List.cons.inj htail
        exact .inr (.inr ⟨s, rfl, rfl⟩)

/-- One piece more at the head of a text: the tokens end where the boundaries are, if they do so
behind the piece, and a boundary is at the end of the piece and none inside it. -/
theorem endsAfter_piece {p : List Char} {ws : List (List Char)}
    (hsolid : ∀ c ∈ p, Text.isBlank c = false) (hapart : WordApart (after before p) rest)
    (hplace : p ++ rest = front ++ x :: y :: back)
    (hbehind : ∀ front', rest = front' ++ x :: y :: back →
      (EndsAfter ((solid front').length + 1) ws ↔ Boundary (after before p) front' x y back))
    (hend : p = front ++ [x] → rest = y :: back → Boundary before front x y back)
    (hinside : ∀ s, p = front ++ x :: y :: s → back = s ++ rest →
      ¬ Boundary before front x y back) :
    EndsAfter ((solid front).length + 1) (p :: ws) ↔ Boundary before front x y back := by
  rcases place_cases hplace with ⟨front', rfl, rfl⟩ | ⟨rfl, rfl⟩ | ⟨s, rfl, hback⟩
  · have hlength : (solid (p ++ front')).length + 1 = p.length + ((solid front').length + 1) := by
      rw [solid_append, solid_eq_self hsolid, List.length_append]
      omega
    rw [hlength, endsAfter_cons, hbehind front' rfl]
    exact (or_congr Iff.rfl (wordBoundary_append hapart)).symm
  · have hfront : solid front = front :=
      solid_eq_self fun c hc => hsolid c (List.mem_append_left _ hc)
    have hlength : (solid front).length + 1 = (front ++ [x]).length := by
      rw [hfront]
      simp
    rw [hlength]
    exact ⟨fun _ => hend rfl rfl, fun _ => endsAfter_head⟩
  · have hfront : solid front = front :=
      solid_eq_self fun c hc => hsolid c (List.mem_append_left _ hc)
    have hwithin : (solid front).length + 1 < (front ++ x :: y :: s).length := by
      rw [hfront]
      simp
    exact ⟨fun h => absurd h (not_endsAfter_within (Nat.succ_pos _) hwithin),
      fun h => absurd h (hinside s rfl hback)⟩

variable {cs : List Char} {ws : List (List Char)}

theorem Lexed.ne_nil (h : Lexed before cs ws) : ∀ w ∈ ws, w ≠ [] := by
  induction h with
  | nil =>
      intro w hw
      cases hw
  | blank _ _ ih => exact ih
  | delimiter hd _ ih =>
      intro w hw
      rcases List.mem_cons.mp hw with rfl | hw
      · exact hd.ne_nil
      · exact ih w hw
  | operand hne _ _ _ ih =>
      intro w hw
      rcases List.mem_cons.mp hw with rfl | hw
      · exact hne
      · exact ih w hw

/-- The pieces are the text without its blanks. -/
theorem Lexed.flatten_eq (h : Lexed before cs ws) : ws.flatten = solid cs := by
  induction h with
  | nil => rfl
  | blank hc _ ih => rw [solid_cons_of_blank hc, ih]
  | delimiter hd _ ih => rw [List.flatten_cons, solid_append, solid_eq_self hd.isBlank_eq, ih]
  | operand _ hplain _ _ ih =>
      rw [List.flatten_cons, solid_append, solid_eq_self hplain.isBlank_eq, ih]

/-- Between two adjacent characters a token ends exactly if a boundary is there. -/
theorem Lexed.endsAfter_iff (h : Lexed before cs ws) (hcs : cs = front ++ x :: y :: back)
    (hx : Text.isBlank x = false) (hy : Text.isBlank y = false) :
    EndsAfter ((solid front).length + 1) ws ↔ Boundary before front x y back := by
  -- by the pieces of the text; the place moves towards its head
  induction h generalizing front with
  | nil => simp at hcs
  | @blank before c rest ws hc _ ih =>
      cases front with
      | nil =>
          obtain ⟨rfl, -⟩ := List.cons.inj hcs
          rw [hx] at hc
          cases hc
      | cons z front =>
          obtain ⟨rfl, rfl⟩ := List.cons.inj hcs
          have hapart : WordApart (after before [c]) (front ++ x :: y :: back) :=
            .inl (by simp [wordStarts, isWordChar_of_isBlank hc])
          rw [solid_cons_of_blank hc, ih rfl]
          exact (or_congr Iff.rfl (wordBoundary_append hapart)).symm
  | delimiter hd _ ih =>
      refine endsAfter_piece hd.isBlank_eq hd.wordApart_after hcs (fun front' => ih) ?_ ?_
      · rintro rfl rfl
        exact hd.boundary_end
      · rintro s rfl rfl
        exact hd.not_boundary
  | @operand before w rest ws hne hplain hcut _ ih =>
      have hafter := wordApart_of_cut hcut
      refine endsAfter_piece hplain.isBlank_eq hafter hcs (fun front' => ih) ?_ ?_
      · rintro rfl rfl
        have hlast : after before (front ++ [x]) = some x := by
          rw [after_append]
          rfl
        have hangle := hplain.not_angle hne
        rw [hlast] at hcut hangle
        -- the operand ends where it does because a delimiter follows
        rcases hcut with hnil | ⟨c, r, heq, hc⟩ | ⟨d, r, heq, hd⟩
        · cases hnil
        · obtain ⟨rfl, -⟩ := List.cons.inj heq
          rw [hy] at hc
          cases hc
        · refine hd.boundary_start heq fun h => hangle ?_
          exact h.imp (congrArg some) (congrArg some)
      · rintro s rfl rfl
        exact hplain.not_boundary

end Boundaries

/-! ## The tokens of a text -/

/-- The tokens of a text: none is empty, together they are the text without its blanks, characters
with a blank between them stand in different tokens, and adjacent ones do so exactly if the text
is cut between them. -/
structure CutAtBoundaries (cs : List Char) (ts : List (List Char)) : Prop where
  ne_nil : ∀ t ∈ ts, t ≠ []
  flatten_eq : ts.flatten = solid cs
  apart : ∀ (a : List Char) (x : Char) (m : List Char) (y : Char) (b : List Char),
    cs = a ++ x :: (m ++ y :: b) → Text.isBlank x = false → Text.isBlank y = false →
      (∃ c ∈ m, Text.isBlank c) →
        tokenAt ts (solid a).length ≠ tokenAt ts (solid (a ++ x :: m)).length
  adjacent : ∀ (a : List Char) (x y : Char) (b : List Char),
    cs = a ++ x :: y :: b → Text.isBlank x = false → Text.isBlank y = false →
      (tokenAt ts (solid a).length ≠ tokenAt ts (solid (a ++ [x])).length ↔ Boundary none a x y b)

theorem flatten_lexemes (cs : List Char) : (lexemes cs).flatten = solid cs :=
  (lexed_cut none cs).flatten_eq

theorem cutAtBoundaries_lexemes (cs : List Char) : CutAtBoundaries cs (lexemes cs) where
  ne_nil := (lexed_cut none cs).ne_nil
  flatten_eq := flatten_lexemes cs
  apart := by
    rintro a x m y b rfl hx hy ⟨c, hc, hblank⟩
    obtain ⟨m₁, m₂, rfl⟩ := List.append_of_mem hc
    have hsplit : a ++ x :: ((m₁ ++ c :: m₂) ++ y :: b) =
        (a ++ x :: m₁) ++ c :: (m₂ ++ y :: b) := by simp
    -- a token ends at the blank
    have hends : EndsAfter (solid (a ++ x :: m₁)).length
        (lexemes (a ++ x :: ((m₁ ++ c :: m₂) ++ y :: b))) := by
      rw [hsplit, lexemes_blank hblank]
      exact ⟨_, _, rfl, by rw [flatten_lexemes]⟩
    refine hends.tokenAt_ne ?_ ?_
    · rw [solid_append, solid_cons_of_solid hx, List.length_append, List.length_cons]
      omega
    · have hlonger : a ++ x :: (m₁ ++ c :: m₂) = (a ++ x :: m₁) ++ c :: m₂ := by simp
      rw [hlonger, solid_append _ (c :: m₂), List.length_append]
      omega
  adjacent := by
    rintro a x y b hcs hx hy
    have hlength : (solid (a ++ [x])).length = (solid a).length + 1 := by
      rw [solid_append, solid_cons_of_solid hx, List.length_append]
      rfl
    have hinside : (solid a).length + 1 < (lexemes cs).flatten.length := by
      rw [flatten_lexemes, hcs, solid_append, solid_cons_of_solid hx, solid_cons_of_solid hy]
      simp
    rw [hlength, tokenAt_ne_iff hinside]
    exact (lexed_cut none cs).endsAfter_iff hcs hx hy

/-- **Where a text is cut.** A text of blanks is refused, for it holds nothing to read. Every other
text is cut into tokens at its blanks and its boundaries, and nowhere else. -/
theorem scan_cuts (text : String) :
    if text.toList.all Text.isBlank then
      scan text = .error .blankText ∧ RuleError.blankText.IsInvalidInput
    else
      ∃ tokens, scan text = .ok tokens ∧
        CutAtBoundaries text.toList (tokens.map fun token => token.text.toList) := by
  by_cases hblank : text.toList.all Text.isBlank = true
  · rw [if_pos hblank]
    refine ⟨?_, rfl⟩
    rw [scan, if_pos hblank]
  · rw [if_neg hblank]
    have hscan : scan text = .ok (spelled text.toList) :=
      scan_eq_ok_iff.mpr ⟨Bool.eq_false_iff.mpr hblank, rfl⟩
    have htexts : ((spelled text.toList).map fun token => token.text.toList) =
        lexemes text.toList := by
      have hback : ∀ cs : List Char, (ofText (String.ofList cs)).text.toList = cs := fun cs => by
        rw [text_ofText, String.toList_ofList]
      rw [spelled, List.map_map]
      exact (List.map_congr_left fun cs _ => hback cs).trans (List.map_id _)
    refine ⟨_, hscan, ?_⟩
    rw [htexts]
    exact cutAtBoundaries_lexemes text.toList

/-- Letters beyond ASCII bound a word, an underscore does not, and an equals sign belongs to the
angle before it. -/
example : lexemes "éAND x_OR>==".toList =
    ["é".toList, "AND".toList, "x_OR".toList, ">=".toList, "=".toList] := by
  decide +kernel

end Token

end Verdict
