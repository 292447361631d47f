import Mathlib.Control.Monad.Basic
import Verdict.Proofs.Tree.Accepted

/-!
# Operators on the last level

A tree is accepted with as many levels as are allowed, but the places below an operator are
visited even where the children are missing. So an operator on the last level, which can have no
children, stands in the way of an evaluation: `invalid_iff_operatorOnLastLevel` says that nothing
else makes the evaluation of an accepted tree fail for its input alone, and that it always does.
A tree of known symbols evaluates exactly if all its operators stand above the last level; so does
every complete tree.
-/

namespace Verdict

namespace Tree

/-- An operator stands on the last level, and every operator that is applied before it is
known. -/
def OperatorOnLastLevel (t : Tree) : Prop :=
  ∃ before symbol after, t.operators 1 = before ++ (maxLevels, symbol) :: after ∧
    ∀ p ∈ before, p.2.isKnown

/-! ## The kinds of obstacles -/

theorem obstacle?_of_le {p : Nat × Symbol} (h : maxLevels ≤ p.1) :
    obstacle? p = some (.tooDeep (maxLevels + 1)) :=
  if_pos h

/-- An operator above the last level is in the way only if its symbol is unknown. -/
theorem obstacle?_of_lt {level : Nat} {symbol : Symbol} (h : level < maxLevels) :
    obstacle? (level, symbol) =
      match symbol with
      | .unknown text => some (.unknownOperator text)
      | .known _ => none :=
  if_neg (Nat.not_le.mpr h)

/-- An obstacle that lies in the input alone stands on the last level or below. -/
theorem maxLevels_le_of_obstacle? {p : Nat × Symbol} {e : RuleError} (h : obstacle? p = some e)
    (he : e.IsInvalidInput) : maxLevels ≤ p.1 := by
  refine Nat.not_lt.mp fun hlt => ?_
  obtain ⟨level, symbol⟩ := p
  rw [obstacle?_of_lt hlt] at h
  cases symbol with
  | known op => cases h
  | unknown text =>
      cases h
      exact absurd he (by simp [RuleError.IsInvalidInput, RuleError.inputComplaint?])

/-- What is no obstacle is a known operator. -/
theorem isKnown_of_obstacle? {p : Nat × Symbol} (h : obstacle? p = none) : p.2.isKnown := by
  obtain ⟨level, symbol⟩ := p
  rcases Nat.lt_or_ge level maxLevels with hlt | hle
  · rw [obstacle?_of_lt hlt] at h
    cases symbol with
    | known op => rfl
    | unknown text => cases h
  · rw [obstacle?_of_le hle] at h
    cases h

/-- A known operator is in the way only on the last level or below. -/
theorem obstacle?_of_isKnown {p : Nat × Symbol} (hp : p.2.isKnown) {e : RuleError}
    (h : obstacle? p = some e) : e = .tooDeep (maxLevels + 1) := by
  obtain ⟨level, symbol⟩ := p
  rcases Nat.lt_or_ge level maxLevels with hlt | hle
  · rw [obstacle?_of_lt hlt] at h
    cases symbol with
    | known op => cases h
    | unknown text => cases hp
  · rw [obstacle?_of_le hle] at h
    exact (Option.some.inj h).symm

/-- There are two kinds of obstacles. -/
theorem tooDeep_or_unknown_of_obstacle? {p : Nat × Symbol} {e : RuleError}
    (h : obstacle? p = some e) :
    e = .tooDeep (maxLevels + 1) ∨ ∃ text, e = .unknownOperator text := by
  obtain ⟨level, symbol⟩ := p
  rcases Nat.lt_or_ge level maxLevels with hlt | hle
  · rw [obstacle?_of_lt hlt] at h
    cases symbol with
    | known op => cases h
    | unknown text => exact .inr ⟨text, (Option.some.inj h).symm⟩
  · rw [obstacle?_of_le hle] at h
    exact .inl (Option.some.inj h).symm

/-! ## The first obstacle of a tree within the levels -/

theorem level_le_of_depth_le {t : Tree} (h : t.depth ≤ maxLevels) {p : Nat × Symbol}
    (hp : p ∈ t.operators 1) : p.1 ≤ maxLevels := by
  have := mem_operators_lt hp
  omega

/-- The first obstacle lies in the input alone exactly if it is an operator on the last level. -/
theorem findSome?_obstacle_invalid_iff {t : Tree} (h : t.depth ≤ maxLevels) :
    (∃ e, (t.operators 1).findSome? obstacle? = some e ∧ e.IsInvalidInput) ↔
      t.OperatorOnLastLevel := by
  constructor
  · rintro ⟨e, hfirst, he⟩
    obtain ⟨before, ⟨level, symbol⟩, after, hops, hp, hbefore⟩ :=
      List.findSome?_eq_some_iff.mp hfirst
    have hmem : (level, symbol) ∈ t.operators 1 := by
      rw [hops]
      simp
    -- the obstacle is no unknown symbol, and no operator stands below the last level
    have hlevel : level = maxLevels :=
      Nat.le_antisymm (level_le_of_depth_le h hmem) (maxLevels_le_of_obstacle? hp he)
    rw [hlevel] at hops
    exact ⟨before, symbol, after, hops, fun p hmem => isKnown_of_obstacle? (hbefore p hmem)⟩
  · rintro ⟨before, symbol, after, hops, hbefore⟩
    refine ⟨.tooDeep (maxLevels + 1), ?_, rfl⟩
    rw [hops, List.findSome?_append, List.findSome?_cons, obstacle?_of_le (Nat.le_refl _)]
    -- operators before it that stand on the last level, too, are the same obstacle
    cases hfirst : before.findSome? obstacle? with
    | none => rfl
    | some e =>
        obtain ⟨p, hmem, hp⟩ := List.exists_of_findSome?_eq_some hfirst
        rw [obstacle?_of_isKnown (hbefore p hmem) hp]
        rfl

/-- A tree of known symbols meets no obstacle exactly if all its operators stand above the last
level. -/
theorem findSome?_obstacle_eq_none_iff {t : Tree} (h : t.Known) :
    (t.operators 1).findSome? obstacle? = none ↔ ∀ p ∈ t.operators 1, p.1 < maxLevels := by
  rw [List.findSome?_eq_none_iff]
  constructor
  · intro hnone p hp
    refine Nat.not_le.mp fun hle => ?_
    have hp := hnone p hp
    rw [obstacle?_of_le hle] at hp
    cases hp
  · intro hlt p hp
    have hknown := h.of_mem_operators hp
    have hbelow := hlt p hp
    obtain ⟨level, symbol⟩ := p
    rw [obstacle?_of_lt hbelow]
    cases symbol with
    | known op => rfl
    | unknown text => cases hknown

/-- An operator of a complete tree stands above the last of its levels. -/
theorem Complete.mem_operators_lt {t : Tree} (h : t.Complete) {level : Nat} {p : Nat × Symbol}
    (hp : p ∈ t.operators level) : p.1 + 1 < level + t.depth := by
  induction t generalizing level with
  | absent => exact absurd h id
  | operand token => simp [operators] at hp
  | operator symbol left right ihl ihr =>
      obtain ⟨hl, hr⟩ := h
      simp only [operators, List.mem_append, List.mem_singleton] at hp
      simp only [depth]
      rcases hp with (hp | hp) | rfl
      · have := ihl hl hp
        omega
      · have := ihr hr hp
        omega
      · -- the root has a child, so it does not stand on the last level
        have hpos := hl.depth_pos
        show level + 1 < _
        omega

theorem evaluate_eq_ok_iff {t : Tree} {record : Record} :
    (∃ b, t.evaluate record = .ok b) ↔ (t.operators 1).findSome? obstacle? = none := by
  cases h : t.evaluate record with
  | ok b =>
      refine ⟨fun _ => ?_, fun _ => ⟨b, rfl⟩⟩
      cases hfirst : (t.operators 1).findSome? obstacle? with
      | none => rfl
      | some e =>
          rw [evaluate_eq_error_iff.mpr hfirst] at h
          cases h
  | error e =>
      rw [evaluate_eq_error_iff.mp h]
      exact ⟨fun ⟨_, hok⟩ => (nomatch hok), fun hnone => (nomatch hnone)⟩

/-- **Accepted trees and the last level.** The evaluation of an accepted tree fails for its input
alone exactly if an operator stands on the last level with nothing unknown applied before it,
whatever the record and with or without a trace. What is read from texts evaluates exactly if no
operator stands there, and in a complete tree none does. -/
theorem invalid_iff_operatorOnLastLevel {t : Tree} (h : t.Accepted) (record : Record)
    (traced : Bool) :
    ((∃ e, t.evaluate record = .error e ∧ e.IsInvalidInput) ↔ t.OperatorOnLastLevel) ∧
    ((∃ e, t.execute traced record = .error e ∧ e.IsInvalidInput) ↔ t.OperatorOnLastLevel) ∧
    ((∃ text, parse text = .ok t) ∨ (∃ texts, anyOf texts = .ok t) →
      ((∃ b, t.evaluate record = .ok b) ↔ ∀ p ∈ t.operators 1, p.1 < maxLevels)) ∧
    (t.Complete → ¬ t.OperatorOnLastLevel) := by
  have hfirst := findSome?_obstacle_invalid_iff h.depth_le
  refine ⟨?_, ?_, ?_, ?_⟩
  · simp only [evaluate_eq_error_iff, hfirst]
  · simp only [execute_eq_error_iff, hfirst]
  · intro hread
    have hknown : t.Known := by
      rcases hread with ⟨_, hparse⟩ | ⟨_, hany⟩
      · exact known_of_parse hparse
      · exact known_of_anyOf hany
    rw [evaluate_eq_ok_iff, findSome?_obstacle_eq_none_iff hknown]
  · rintro hcomplete ⟨before, symbol, after, hops, _⟩
    have hmem : (maxLevels, symbol) ∈ t.operators 1 := by
      rw [hops]
      simp
    have hlt := hcomplete.mem_operators_lt hmem
    have hle := h.depth_le
    simp only at hlt
    omega

/-- The characters of as many conjunctions as there are levels, with no operand at all. -/
def bareConjunctions : List Char :=
  (List.replicate maxLevels ['A', 'N', 'D', ' ']).flatten

/-- The tree of `bareConjunctions`: every operator stands on the left of the next one, and all other
children are missing. -/
def bareChain : Tree :=
  (List.range maxLevels).foldl (fun t _ => .operator (.known .and) t .absent) .absent

theorem scan_bareConjunctions :
    Token.scan (String.ofList bareConjunctions) =
      .ok (List.replicate maxLevels (.operator .and)) := by
  have hblank : bareConjunctions.all Text.isBlank = false := by decide +kernel
  have hcut : Token.cut none 0 [] [] bareConjunctions =
      List.replicate maxLevels ['A', 'N', 'D'] := by decide +kernel
  have hword : Token.ofText (String.ofList ['A', 'N', 'D']) = .operator .and := by decide
  rw [Token.scan, String.toList_ofList, hblank, hcut, List.map_replicate, hword]
  rfl

theorem parse_bareConjunctions : parse (String.ofList bareConjunctions) = .ok bareChain :=
  parse_eq_ok_iff.mpr ⟨_, scan_bareConjunctions, by decide +kernel, by decide +kernel⟩

/-- A text may be read and its tree not be evaluated: the missing children of the lowest operator
are too deep. -/
theorem accepted_not_evaluated :
    parse (String.ofList bareConjunctions) = .ok bareChain ∧
      bareChain.evaluate .empty = .error (.tooDeep 101) ∧
      (RuleError.tooDeep 101).IsInvalidInput := by
  refine ⟨parse_bareConjunctions, ?_, rfl⟩
  decide +kernel

/-- The chain of bare conjunctions is accepted, and no evaluation of it succeeds. -/
theorem bareChain_invalid :
    bareChain.Accepted ∧ (∃ text, parse text = .ok bareChain) ∧
      (∃ e, bareChain.evaluate .empty = .error e ∧ e.IsInvalidInput) ∧
      ¬ ∃ b, bareChain.evaluate .empty = .ok b := by
  have haccepted : bareChain.Accepted := .parsed parse_bareConjunctions
  have hread : ∃ text, parse text = .ok bareChain := ⟨_, parse_bareConjunctions⟩
  have hops : bareChain.OperatorOnLastLevel :=
    ⟨[], .known .and, (bareChain.operators 1).drop 1, by decide +kernel, by simp⟩
  have hlast : (maxLevels, Symbol.known .and) ∈ bareChain.operators 1 := by decide +kernel
  obtain ⟨hinvalid, -, hok, -⟩ := invalid_iff_operatorOnLastLevel haccepted .empty false
  refine ⟨haccepted, hread, hinvalid.mpr hops, fun hverdict => ?_⟩
  exact Nat.lt_irrefl _ ((hok (.inl hread)).mp hverdict _ hlast)

end Tree

end Verdict
