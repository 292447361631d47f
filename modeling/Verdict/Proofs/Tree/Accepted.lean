import Mathlib.Data.List.Forall2
import Verdict.Proofs.Json.Nesting
import Verdict.Proofs.Tree.Group
import Verdict.Tree.Combine

/-!
# Trees that are accepted

A tree is accepted when it is read from a text, joined from several texts or decoded from storage.
Whichever way it came, it is within the levels (`Accepted.depth_le`); what comes from texts alone
holds known operators only.
-/

namespace Verdict

namespace Tree

/-! ## Trees of texts -/

/-- Once a text is cut into tokens, their tree decides. -/
theorem parse_of_scan {text : String} {tokens : List Token} (h : Token.scan text = .ok tokens) :
    parse text = (ofTokens tokens).bind fun t =>
      if t.isAbsent then .error (.noExpression text) else .ok t := by
  show (Token.scan text).bind _ = _
  rw [h]
  rfl

/-- A text is read by cutting it into tokens and building their tree, which must be there. -/
theorem parse_eq_ok_iff {text : String} {t : Tree} :
    parse text = .ok t ↔
      ∃ tokens, Token.scan text = .ok tokens ∧ ofTokens tokens = .ok t ∧ t.isAbsent = false := by
  refine ⟨fun h => ?_, ?_⟩
  · obtain ⟨tokens, hscan, h⟩ := bind_eq_ok h
    obtain ⟨t', hof, h⟩ := bind_eq_ok h
    refine ⟨tokens, hscan, ?_⟩
    cases habsent : t'.isAbsent with
    | true =>
        rw [habsent, if_pos rfl] at h
        cases h
    | false =>
        rw [habsent, if_neg Bool.false_ne_true] at h
        cases h
        exact ⟨hof, habsent⟩
  · rintro ⟨tokens, hscan, hof, habsent⟩
    rw [parse_of_scan hscan, hof]
    show (if t.isAbsent = true then _ else _) = _
    rw [habsent, if_neg Bool.false_ne_true]

/-- Texts of the same tokens have the same tree. -/
theorem parse_eq_ok_congr {text text' : String} (h : Token.scan text = Token.scan text')
    {t : Tree} : parse text = .ok t ↔ parse text' = .ok t := by
  rw [parse_eq_ok_iff, parse_eq_ok_iff, h]

/-- The tree of a token list is that of the outermost group, whose draft keeps nothing beside the
tree but its exact levels. -/
theorem grow_of_ofTokens {tokens : List Token} {t : Tree} (h : ofTokens tokens = .ok t) :
    ∃ rest, Group.grow 0 .empty tokens = .ok (.ofTree t, rest) := by
  rw [ofTokens_eq] at h
  cases hgrow : Group.grow 0 .empty tokens with
  | error e =>
      rw [hgrow] at h
      cases h
  | ok p =>
      rw [hgrow] at h
      cases h
      -- every draft that steps have built is that of its tree
      have hbuilt := (Group.grow_eq_ok_iff.mp hgrow).built .empty fun _ hw => hw
      exact ⟨p.2, congrArg (fun d => Except.ok (d, p.2)) hbuilt.eq_ofTree⟩

/-- The tree of a token list is built by steps from its operands. -/
theorem built_of_ofTokens {tokens : List Token} {t : Tree} (h : ofTokens tokens = .ok t) :
    Draft.Built (fun w => Token.operand w ∈ tokens) (.ofTree t) := by
  obtain ⟨rest, hgrow⟩ := grow_of_ofTokens h
  exact (Group.grow_eq_ok_iff.mp hgrow).built .empty fun _ hw => hw

theorem depth_le_of_parse {text : String} {t : Tree} (h : parse text = .ok t) :
    t.depth ≤ maxLevels := by
  obtain ⟨_, _, hof, _⟩ := parse_eq_ok_iff.mp h
  exact (built_of_ofTokens hof).depth_le

theorem known_of_parse {text : String} {t : Tree} (h : parse text = .ok t) : t.Known := by
  obtain ⟨_, _, hof, _⟩ := parse_eq_ok_iff.mp h
  exact (built_of_ofTokens hof).known

theorem isAbsent_of_parse {text : String} {t : Tree} (h : parse text = .ok t) :
    t.isAbsent = false := by
  obtain ⟨_, _, _, habsent⟩ := parse_eq_ok_iff.mp h
  exact habsent

/-! ## Joined trees -/

/-- Joining one more tree checks the levels of what is joined, when those of the tree so far are
exact. -/
theorem join_cons (joined tree : Tree) (rest : List Tree) :
    join joined joined.depth (tree :: rest) =
      if maxLevels < (binary .or joined tree).depth then
        .error (.tooDeep (binary .or joined tree).depth)
      else join (binary .or joined tree) (binary .or joined tree).depth rest := rfl

/-- What holds of the trees to be joined and is kept by every join within the levels holds of the
joined tree. -/
theorem join_invariant {P : Tree → Prop}
    (hjoin : ∀ a b, P a → P b → (binary .or a b).depth ≤ maxLevels → P (binary .or a b))
    {trees : List Tree} (htrees : ∀ t ∈ trees, P t) {joined t : Tree} (hjoined : P joined)
    (h : join joined joined.depth trees = .ok t) : P t := by
  induction trees generalizing joined with
  | nil =>
      cases h
      exact hjoined
  | cons tree rest ih =>
      rw [join_cons] at h
      split at h
      · cases h
      · next hle =>
          have htree := htrees tree List.mem_cons_self
          exact ih (fun t ht => htrees t (List.mem_cons_of_mem _ ht))
            (hjoin joined tree hjoined htree (Nat.not_lt.mp hle)) h

/-- Reading several texts gives the tree of each, in order. -/
theorem mapM_parse_eq_ok_iff {texts : List String} {trees : List Tree} :
    texts.mapM parse = .ok trees ↔ List.Forall₂ (fun text t => parse text = .ok t) texts trees := by
  induction texts generalizing trees with
  | nil =>
      rw [List.mapM_nil]
      refine ⟨fun h => ?_, fun h => ?_⟩
      · cases h
        exact .nil
      · cases h
        rfl
  | cons text rest ih =>
      rw [List.mapM_cons]
      refine ⟨fun h => ?_, fun h => ?_⟩
      · obtain ⟨t, ht, h⟩ := bind_eq_ok h
        obtain ⟨ts, hts, h⟩ := bind_eq_ok h
        cases h
        exact .cons ht (ih.mp hts)
      · cases h with
        | cons ht hts =>
            rw [ht, ih.mpr hts]
            rfl

/-- Reading several texts fails with the error of the first one that cannot be read. -/
theorem mapM_parse_eq_error {before after : List String} {text : String} {e : RuleError}
    (hbefore : ∀ t ∈ before, ∃ tree, parse t = .ok tree) (h : parse text = .error e) :
    (before ++ text :: after).mapM parse = .error e := by
  induction before with
  | nil =>
      rw [List.nil_append, List.mapM_cons, h]
      rfl
  | cons first before ih =>
      obtain ⟨tree, htree⟩ := hbefore first List.mem_cons_self
      rw [List.cons_append, List.mapM_cons, htree,
        ih fun t ht => hbefore t (List.mem_cons_of_mem _ ht)]
      rfl

/-- Every tree of several texts is the tree of one of them. -/
theorem exists_parse_of_mem {texts : List String} {trees : List Tree}
    (h : List.Forall₂ (fun text t => parse text = .ok t) texts trees) {t : Tree}
    (ht : t ∈ trees) : ∃ text ∈ texts, parse text = .ok t := by
  induction h with
  | nil => cases ht
  | @cons text _ _ _ hhead _ ih =>
      rcases List.mem_cons.mp ht with rfl | ht
      · exact ⟨text, List.mem_cons_self, hhead⟩
      · obtain ⟨text', hmem, hparse⟩ := ih ht
        exact ⟨text', List.mem_cons_of_mem _ hmem, hparse⟩

/-- What holds of every tree of a text and is kept by every join holds of the tree of several
texts. -/
theorem anyOf_invariant {P : Tree → Prop} (hparse : ∀ text t, parse text = .ok t → P t)
    (hjoin : ∀ a b, P a → P b → (binary .or a b).depth ≤ maxLevels → P (binary .or a b))
    {texts : List String} {t : Tree} (h : anyOf texts = .ok t) : P t := by
  obtain ⟨trees, htrees, h⟩ := bind_eq_ok h
  have hall : ∀ t ∈ trees, P t := fun t ht => by
    obtain ⟨text, _, hread⟩ := exists_parse_of_mem (mapM_parse_eq_ok_iff.mp htrees) ht
    exact hparse text t hread
  cases trees with
  | nil => cases h
  | cons first rest =>
      exact join_invariant hjoin (fun t ht => hall t (List.mem_cons_of_mem _ ht))
        (hall first List.mem_cons_self) h

theorem depth_le_of_anyOf {texts : List String} {t : Tree} (h : anyOf texts = .ok t) :
    t.depth ≤ maxLevels :=
  anyOf_invariant (fun _ _ => depth_le_of_parse) (fun _ _ _ _ hle => hle) h

theorem known_of_anyOf {texts : List String} {t : Tree} (h : anyOf texts = .ok t) : t.Known :=
  anyOf_invariant (fun _ _ => known_of_parse) (fun _ _ ha hb _ => ⟨rfl, ha, hb⟩) h

/-! ## All accepted trees -/

/-- The trees that are read from a text, joined from several texts or decoded from storage. -/
inductive Accepted : Tree → Prop
  | parsed {text : String} {t : Tree} : parse text = .ok t → Accepted t
  | joined {texts : List String} {t : Tree} : anyOf texts = .ok t → Accepted t
  | stored {value : Json} {t : Tree} : ofJson value = .ok t → Accepted t

/-- Every accepted tree is within the levels. -/
theorem Accepted.depth_le {t : Tree} (h : t.Accepted) : t.depth ≤ maxLevels := by
  cases h with
  | parsed h => exact depth_le_of_parse h
  | joined h => exact depth_le_of_anyOf h
  | stored h => exact depth_le_of_ofJson h

end Tree

end Verdict
