import Verdict.Proofs.Survey
import Verdict.Proofs.Tree.Unlimited

/-!
# The levels beside a tree

A draft does not look at its tree to know the levels: every step reads and writes numbers that are kept
beside it, and chooses the place of a new child a second time to do so. Here the numbers are compared
with what is really in the tree. `Tree.HasLevels` counts the nodes of a tree from a list, one after the
other; `Draft.Part` are the parts that steps build out of nothing, in any number and order, from
operands and from other parts. On all of them the numbers are those of the count, and a step fails
exactly if the tree that it forms has too many levels (`Draft.levels_kept`).
-/

namespace Verdict

namespace Tree

/-! ## Counting nodes -/

/-- The children of the root that are there. -/
def children (t : Tree) : List Tree :=
  [t.left, t.right].filter fun child => !child.isAbsent

theorem depth_eq_zero {t : Tree} (h : t.isAbsent = true) : t.depth = 0 := by
  rw [eq_absent_of_isAbsent h]
  rfl

/-- A missing child adds nothing to the levels of the other one. -/
theorem foldr_max_present (left right : Tree) :
    (([left, right].filter fun child => !child.isAbsent).map depth).foldr max 0 =
      max left.depth right.depth := by
  cases hleft : left.isAbsent <;> cases hright : right.isAbsent <;>
    simp [hleft, hright, depth_eq_zero]

theorem depth_eq {t : Tree} (h : t.isAbsent = false) :
    t.depth = (t.children.map depth).foldr max 0 + 1 := by
  cases t with
  | absent => cases h
  | operand token => rfl
  | operator symbol left right => exact congrArg (· + 1) (foldr_max_present left right).symm

/-- The nodes of a tree as its levels. -/
def nodes : Levels Tree where
  IsLevel := fun t => t.isAbsent = false
  inside := children
  levels := depth
  levels_eq_zero := fun h => depth_eq_zero (Bool.not_eq_false _ ▸ h)
  levels_eq := depth_eq

/-- How many levels there are to keep for a tree: none for a missing one, and else as many as a count
of all its nodes comes to. -/
inductive HasLevels : Tree → Nat → Prop
  | absent : HasLevels .absent 0
  | counted {t : Tree} {n : Nat} (hpresent : t.isAbsent = false)
      (hcounts : nodes.Counts (fun _ => False) t n) : HasLevels t n

/-- The count and the recursion agree. -/
theorem hasLevels_iff {t : Tree} {n : Nat} : t.HasLevels n ↔ n = t.depth := by
  constructor
  · intro h
    cases h with
    | absent => rfl
    | counted _ hcounts => exact hcounts.unique (nodes.counts_of_never t)
  · rintro rfl
    cases hpresent : t.isAbsent with
    | true =>
        rw [eq_absent_of_isAbsent hpresent]
        exact .absent
    | false => exact .counted hpresent (nodes.counts_of_never t)

end Tree

namespace Draft

/-! ## Steps -/

/-- A step of building: an operator above the tree, or a part attached to it. -/
inductive Step
  | operator (op : Operator)
  | part (child : Draft)

namespace Step

/-- Takes the step from a draft. -/
def apply (d : Draft) : Step → Except RuleError Draft
  | operator op => d.pushOperator op
  | part child => d.attach child

/-- The tree that the step forms out of a tree. -/
def formed (t : Tree) : Step → Tree
  | operator op => .operator (.known op) t .absent
  | part child => t.receive child.tree

end Step

/-- The parts that can be attached: one operand, or what any steps build out of nothing, where
whatever they attach is such a part, too. -/
inductive Part : Draft → Prop
  | leaf (token : String) : Part (.leaf token)
  | built {steps : List Step} {d : Draft} (hparts : ∀ child, .part child ∈ steps → Part child)
      (hrun : steps.foldlM Step.apply .empty = .ok d) : Part d

/-- What steps build on a built draft is built. -/
theorem Built.foldlM {source : String → Prop} {steps : List Step} {d d' : Draft}
    (hd : Built source d) (hparts : ∀ child, .part child ∈ steps → Built source child)
    (h : steps.foldlM Step.apply d = .ok d') : Built source d' := by
  induction steps generalizing d with
  | nil =>
      cases h
      exact hd
  | cons step steps ih =>
      rw [List.foldlM_cons] at h
      obtain ⟨next, hstep, hrest⟩ := bind_eq_ok h
      have hparts' : ∀ child, .part child ∈ steps → Built source child :=
        fun child hmem => hparts child (List.mem_cons_of_mem _ hmem)
      cases step with
      | operator op => exact ih (.push hd hstep) hparts' hrest
      | part child => exact ih (.attach hd (hparts child List.mem_cons_self) hstep) hparts' hrest

theorem Part.built_any {d : Draft} (h : Part d) : Built (fun _ => True) d := by
  induction h with
  | leaf token => exact .leaf trivial
  | built _ hrun ih => exact Built.empty.foldlM ih hrun

/-- A step from exact numbers forms its tree and has it checked, and exact numbers come with it. -/
theorem Step.apply_ofTree (t : Tree) (step : Step)
    (hpart : ∀ child, step = .part child → child = ofTree child.tree) :
    step.apply (ofTree t) = (ofTree (step.formed t)).checked := by
  cases step with
  | operator op => exact pushOperator_ofTree op t
  | part child =>
      show (ofTree t).attach child = (ofTree (t.receive child.tree)).checked
      rw [hpart child rfl, attach_ofTree, Tree.attach_eq_receive]
      rfl

/-- **The levels are kept.** After any steps from nothing, as long as none has failed, the numbers
beside the tree are the levels of its two children, and the draft knows the levels of its tree; what
is missing has none. Counting the nodes of a tree comes to what recursion comes to, one level more
than the larger number of its children. And the next step fails if and only if the tree that it
forms has more than `maxLevels` levels; otherwise it leaves that tree. -/
theorem levels_kept {steps : List Step} {d : Draft}
    (hparts : ∀ child, .part child ∈ steps → Part child)
    (hrun : steps.foldlM Step.apply .empty = .ok d) :
    (d.tree.left.HasLevels d.leftDepth ∧ d.tree.right.HasLevels d.rightDepth ∧
      d.tree.HasLevels d.depth) ∧
    (∀ (t : Tree) (n : Nat), t.HasLevels n ↔ n = t.depth) ∧
    (∀ (symbol : Symbol) (left right : Tree) (l r : Nat), left.HasLevels l → right.HasLevels r →
      (Tree.operator symbol left right).HasLevels (1 + max l r)) ∧
    ∀ next : Step, (∀ child, next = .part child → Part child) →
      ((∃ e, next.apply d = .error e) ↔ maxLevels < (next.formed d.tree).depth) ∧
      ∀ d', next.apply d = .ok d' → d'.tree = next.formed d.tree := by
  have hexact : d = ofTree d.tree := (Part.built hparts hrun).built_any.eq_ofTree
  refine ⟨⟨?_, ?_, ?_⟩, fun t n => Tree.hasLevels_iff, ?_, fun next hnext => ?_⟩
  · exact Tree.hasLevels_iff.mpr (congrArg Draft.leftDepth hexact)
  · exact Tree.hasLevels_iff.mpr (congrArg Draft.rightDepth hexact)
  · exact Tree.hasLevels_iff.mpr ((congrArg Draft.depth hexact).trans (depth_ofTree d.tree))
  · intro symbol left right l r hleft hright
    rw [Tree.hasLevels_iff] at hleft hright ⊢
    rw [hleft, hright, Nat.add_comm]
    rfl
  · have hstep : next.apply d = (ofTree (next.formed d.tree)).checked := by
      conv_lhs => rw [hexact]
      exact Step.apply_ofTree d.tree next fun child hchild => (hnext child hchild).built_any.eq_ofTree
    rw [hstep, checked_ofTree]
    by_cases hdeep : maxLevels < (next.formed d.tree).depth
    · rw [if_pos hdeep]
      exact ⟨⟨fun _ => hdeep, fun _ => ⟨_, rfl⟩⟩, fun d' h => nomatch h⟩
    · rw [if_neg hdeep]
      refine ⟨⟨fun ⟨e, h⟩ => (nomatch h), fun h => absurd h hdeep⟩, fun d' h => ?_⟩
      rw [← Except.ok.inj h]
      rfl

/-- A group with two levels fills the right place, and an empty one takes the place over: its levels
are gone, the tree has a missing child again, and the next step is within the limit. -/
theorem levels_kept_emptied :
    let inner : List Step := [.part (.leaf "b"), .operator .gt, .part (.leaf "c")]
    let deep : Draft := ⟨.operator (.known .gt) (.operand "b") (.operand "c"), 1, 1⟩
    let steps : List Step :=
      [.part (.leaf "a"), .operator .eq, .part deep, .part .empty]
    let d : Draft := ⟨.operator (.known .eq) (.operand "a") .absent, 1, 0⟩
    (∀ child, .part child ∈ steps → Part child) ∧ inner.foldlM Step.apply .empty = .ok deep ∧
      steps.foldlM Step.apply .empty = .ok d ∧
      (d.tree.left.HasLevels 1 ∧ d.tree.right.HasLevels 0 ∧ d.tree.HasLevels 2) ∧
      ¬ ∃ e, (Step.operator .and).apply d = .error e := by
  intro inner deep steps d
  have hrunInner : inner.foldlM Step.apply .empty = .ok deep := rfl
  have hdeep : Part deep := by
    refine .built (fun child hmem => ?_) hrunInner
    simp only [inner, List.mem_cons, Step.part.injEq, List.not_mem_nil, or_false, reduceCtorEq,
      false_or] at hmem
    rcases hmem with rfl | rfl
    · exact .leaf "b"
    · exact .leaf "c"
  have hrunEmpty : ([] : List Step).foldlM Step.apply .empty = .ok .empty := rfl
  have hempty : Part .empty := .built (fun child hmem => absurd hmem List.not_mem_nil) hrunEmpty
  have hparts : ∀ child, .part child ∈ steps → Part child := by
    intro child hmem
    simp only [steps, List.mem_cons, Step.part.injEq, List.not_mem_nil, or_false, reduceCtorEq,
      false_or] at hmem
    rcases hmem with rfl | rfl | rfl
    · exact .leaf "a"
    · exact hdeep
    · exact hempty
  have hrun : steps.foldlM Step.apply .empty = .ok d := rfl
  obtain ⟨hlevels, -, -, hnext⟩ := levels_kept hparts hrun
  refine ⟨hparts, hrunInner, hrun, hlevels, fun hfail => ?_⟩
  have hbeyond := (hnext (.operator .and) fun child h => nomatch h).1.mp hfail
  exact absurd hbeyond (by decide)

end Draft

end Verdict
