import Verdict.Proofs.Token.Scan
import Verdict.Proofs.Tree.Joined

/-!
# Joining texts

What comes of joining several texts, case by case. If all of them are read, their trees stand under
`OR` from left to right, each of them as far down as there are joins above it, so the levels of the
whole are known from those of the parts (`Tree.depth_disjoin`) and decide whether the texts can be
joined. If one of them is not read, the first such text fails the whole, whatever the levels. The
main statement is `Tree.anyOf_outcome`.
-/

namespace Verdict

namespace Tree

/-- The levels of trees under `OR`, from those of the first one and of the others. The first tree
stands below all joins, and any other one below its own join and those that come after it. -/
def joinedLevels (first : Nat) (rest : List Nat) : Nat :=
  (rest.mapIdx fun i levels => levels + (rest.length - i)).foldr max (first + rest.length)

/-- The first two trees count like one tree of the levels of their join. -/
theorem joinedLevels_cons (first second : Nat) (rest : List Nat) :
    joinedLevels first (second :: rest) = joinedLevels (max first second + 1) rest := by
  have hstart : max first second + 1 + rest.length =
      max (first + (rest.length + 1)) (second + (rest.length + 1)) := by
    omega
  unfold joinedLevels
  rw [hstart, List.foldr_assoc, List.mapIdx_cons, List.foldr_cons, Nat.max_comm]
  simp only [List.length_cons, Nat.sub_zero, Nat.add_sub_add_right]

theorem depth_disjoin (first : Tree) (rest : List Tree) :
    (disjoin first rest).depth = joinedLevels first.depth (rest.map depth) := by
  induction rest generalizing first with
  | nil => rfl
  | cons second rest ih =>
      show (disjoin (binary .or first second) rest).depth = _
      rw [ih, List.map_cons, joinedLevels_cons]
      rfl

/-- Trees within the levels whose join is not fail one level too deep. -/
theorem join_eq_error {first : Tree} {rest : List Tree} (hfirst : first.depth ≤ maxLevels)
    (hrest : ∀ t ∈ rest, t.depth ≤ maxLevels) (h : maxLevels < (disjoin first rest).depth) :
    join first first.depth rest = .error (.tooDeep (maxLevels + 1)) := by
  induction rest generalizing first with
  | nil => exact absurd h (Nat.not_lt.mpr hfirst)
  | cons second rest ih =>
      have hsecond := hrest second List.mem_cons_self
      have hdepth : (binary .or first second).depth = max first.depth second.depth + 1 := rfl
      rw [join_cons]
      split
      · next hdeep =>
          have hone : (binary .or first second).depth = maxLevels + 1 := by omega
          rw [hone]
      · next hle =>
          exact ih (Nat.not_lt.mp hle) (fun t ht => hrest t (List.mem_cons_of_mem _ ht)) h

/-- **Joining texts.** No texts are no rules. If some text is not read, the first such text fails
the whole with its own error. If all texts are read, their trees come to stand under `OR` from left
to right, with exactly the levels that theirs make up, if these are no more than `maxLevels`;
otherwise joining fails, and it lies in the input. -/
theorem anyOf_outcome :
    anyOf [] = .error .noRules ∧
    (∀ before text after e, (∀ t ∈ before, ∃ tree, parse t = .ok tree) → parse text = .error e →
      anyOf (before ++ text :: after) = .error e) ∧
    ∀ texts first rest, List.Forall₂ (fun text t => parse text = .ok t) texts (first :: rest) →
      (disjoin first rest).depth = joinedLevels first.depth (rest.map depth) ∧
      (joinedLevels first.depth (rest.map depth) ≤ maxLevels →
        anyOf texts = .ok (disjoin first rest)) ∧
      (maxLevels < joinedLevels first.depth (rest.map depth) →
        anyOf texts = .error (.tooDeep 101) ∧ (RuleError.tooDeep 101).IsInvalidInput) := by
  refine ⟨rfl, ?_, ?_⟩
  · intro before text after e hbefore herror
    show (List.mapM parse _).bind _ = _
    rw [mapM_parse_eq_error hbefore herror]
    rfl
  · intro texts first rest h
    have hany : anyOf texts = any (first :: rest) := by
      show (texts.mapM parse).bind _ = _
      rw [mapM_parse_eq_ok_iff.mpr h]
      rfl
    have hlevels : ∀ t ∈ first :: rest, t.depth ≤ maxLevels := by
      intro t ht
      obtain ⟨text, -, hparse⟩ := exists_parse_of_mem h ht
      exact depth_le_of_parse hparse
    rw [hany, ← depth_disjoin]
    refine ⟨rfl, fun hle => any_eq_ok_iff.mpr ⟨rfl, .inr hle⟩, fun hdeep => ?_⟩
    obtain ⟨hfirst, hrest⟩ := List.forall_mem_cons.mp hlevels
    exact ⟨join_eq_error hfirst hrest hdeep, rfl⟩

/-- The last of three texts makes up the levels of the join. Without an expression in the second
one, that text fails the whole, and not the blank one behind it. A hundred joins are one too many
for operands. -/
theorem anyOf_outcome_triple :
    let third := binary .and (binary .eq (.operand "c") (.operand "1")) (.operand "d")
    let joined := binary .or (binary .or (.operand "a") (.operand "b")) third
    (parse "(c = 1) AND d" = .ok third ∧ joined.depth = 4 ∧
      anyOf ["a", "b", "(c = 1) AND d"] = .ok joined) ∧
    (parse "()" = .error (.noExpression "()") ∧
      anyOf ["a", "()", " "] = .error (.noExpression "()")) ∧
    anyOf (List.replicate 101 "a") = .error (.tooDeep 101) := by
  intro third joined
  have ha : parse "a" = .ok (.operand "a") :=
    parse_eq_ok_iff.mpr ⟨_, Token.scan_of_spelled rfl (by decide +kernel), by decide +kernel, rfl⟩
  have hb : parse "b" = .ok (.operand "b") :=
    parse_eq_ok_iff.mpr ⟨_, Token.scan_of_spelled rfl (by decide +kernel), by decide +kernel, rfl⟩
  have hthird : parse "(c = 1) AND d" = .ok third :=
    parse_eq_ok_iff.mpr ⟨_, Token.scan_of_spelled rfl (by decide +kernel), by decide +kernel, rfl⟩
  have hnone : parse "()" = .error (.noExpression "()") := by
    have hscan : Token.scan "()" = .ok [.opening, .closing] :=
      Token.scan_of_spelled rfl (List.cons_ne_nil _ _)
    rw [parse_of_scan hscan, show ofTokens _ = .ok .absent by decide +kernel]
    rfl
  have hmany : List.Forall₂ (fun text t => parse text = .ok t) (List.replicate 101 "a")
      (.operand "a" :: List.replicate 100 (.operand "a")) := by
    refine List.forall₂_iff_zip.mpr ⟨rfl, fun {text t} hmem => ?_⟩
    rw [← List.replicate_succ, List.zip_replicate', List.mem_replicate] at hmem
    cases hmem.2
    exact ha
  obtain ⟨-, hfailing, hread⟩ := anyOf_outcome
  have hthree := hread _ _ _ (.cons ha (.cons hb (.cons hthird .nil)))
  exact ⟨⟨hthird, hthree.1, hthree.2.1 (by decide)⟩,
    ⟨hnone, hfailing ["a"] "()" [" "] _ (by simpa using ⟨_, ha⟩) hnone⟩,
    ((hread _ _ _ hmany).2.2 (by decide +kernel)).1⟩

end Tree

end Verdict
