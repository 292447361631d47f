import Verdict.Proofs.Evaluation.Order
import Verdict.Proofs.Steps
import Verdict.Tree.Draft

/-!
# How trees grow

The levels that a draft keeps beside its tree are those of the children, whatever steps it took
to come about. So every draft is the `Draft.ofTree` of its tree, and the steps on drafts are steps
on trees with a check of the levels behind them: `pushOperator_ofTree` and `attach_ofTree`.

`Draft.Built` lists the ways in which a draft comes about. What holds of the empty draft and of
single operands and is kept by the two steps holds of every tree that is read from a text.
-/

namespace Verdict

namespace Tree

/-- Every symbol of the tree names an operator. -/
def Known : Tree → Prop
  | absent => True
  | operand _ => True
  | operator symbol left right => symbol.isKnown ∧ left.Known ∧ right.Known

/-- No child is missing, and neither is the tree. -/
def Complete : Tree → Prop
  | absent => False
  | operand _ => True
  | operator _ left right => left.Complete ∧ right.Complete

/-- The operand tokens of a tree from left to right. -/
def operands : Tree → List String
  | absent => []
  | operand token => [token]
  | operator _ left right => left.operands ++ right.operands

/-- The operators of a tree of known symbols are known. -/
theorem Known.of_mem_operators {t : Tree} (h : t.Known) {level : Nat} {p : Nat × Symbol}
    (hp : p ∈ t.operators level) : p.2.isKnown := by
  induction t generalizing level with
  | absent => simp [operators] at hp
  | operand token => simp [operators] at hp
  | operator symbol left right ihl ihr =>
      obtain ⟨hs, hl, hr⟩ := h
      simp only [operators, List.mem_append, List.mem_singleton] at hp
      rcases hp with (hp | hp) | rfl
      · exact ihl hl hp
      · exact ihr hr hp
      · exact hs

theorem Known.attach {t child : Tree} (ht : t.Known) (hc : child.Known) :
    (t.attach child).Known := by
  cases t with
  | absent => exact hc
  | operand token => exact ht
  | operator symbol left right =>
      obtain ⟨hs, hl, hr⟩ := ht
      cases left with
      | absent => exact ⟨hs, hc, hr⟩
      | operand _ => exact ⟨hs, hl, hc⟩
      | operator _ _ _ => exact ⟨hs, hl, hc⟩

/-- Attaching brings in no operand but those of the child. -/
theorem mem_operands_attach {t child : Tree} {w : String} (h : w ∈ (t.attach child).operands) :
    w ∈ t.operands ∨ w ∈ child.operands := by
  cases t with
  | absent => exact .inr h
  | operand token => exact .inl h
  | operator symbol left right =>
      cases left <;> simp only [Tree.attach, operands, List.mem_append] at h ⊢
      · rcases h with h | h
        · exact .inr h
        · exact .inl (.inr h)
      all_goals
        rcases h with h | h
        · exact .inl (.inl h)
        · exact .inr h

/-- Below an operator with a left child, the right place takes what is attached. -/
theorem attach_operator {symbol : Symbol} {left right child : Tree}
    (h : left.isAbsent = false) :
    (operator symbol left right).attach child = operator symbol left child := by
  cases left with
  | absent => exact absurd h (by decide)
  | operand _ => rfl
  | operator _ _ _ => rfl

theorem eq_absent_of_isAbsent {t : Tree} (h : t.isAbsent = true) : t = absent := by
  cases t with
  | absent => rfl
  | operand token => cases h
  | operator symbol left right => cases h

/-- With a part attached there is a tree, unless there was none on either side. -/
theorem isAbsent_attach (t child : Tree) :
    (t.attach child).isAbsent = (t.isAbsent && child.isAbsent) := by
  cases t with
  | absent => rfl
  | operand token => rfl
  | operator symbol left right => cases left <;> rfl

/-- A complete tree has a level. -/
theorem Complete.depth_pos {t : Tree} (h : t.Complete) : 0 < t.depth := by
  cases t with
  | absent => exact absurd h id
  | operand _ => exact Nat.one_pos
  | operator _ _ _ => exact Nat.succ_pos _

theorem Complete.isAbsent {t : Tree} (h : t.Complete) : t.isAbsent = false := by
  cases t with
  | absent => exact absurd h id
  | operand _ => rfl
  | operator _ _ _ => rfl

end Tree

namespace Draft

/-! ## Steps on drafts are steps on trees -/

/-- The draft of a tree, with the levels of the children beside it. -/
def ofTree (t : Tree) : Draft := ⟨t, t.left.depth, t.right.depth⟩

@[simp] theorem depth_ofTree (t : Tree) : (ofTree t).depth = t.depth := by
  cases t <;> rfl

theorem checked_ofTree (t : Tree) :
    (ofTree t).checked =
      if maxLevels < t.depth then .error (.tooDeep t.depth) else .ok (ofTree t) := by
  simp only [checked, depth_ofTree]

theorem checked_ofTree_of_le {t : Tree} (h : t.depth ≤ maxLevels) :
    (ofTree t).checked = .ok (ofTree t) := by
  rw [checked_ofTree, if_neg (Nat.not_lt.mpr h)]

theorem pushOperator_ofTree (op : Operator) (t : Tree) :
    (ofTree t).pushOperator op = (ofTree (.operator (.known op) t .absent)).checked := by
  show checked ⟨_, (ofTree t).depth, 0⟩ = _
  rw [depth_ofTree]
  rfl

theorem attach_ofTree (t child : Tree) :
    (ofTree t).attach (ofTree child) = (ofTree (t.attach child)).checked := by
  cases t with
  | absent => rfl
  | operand token => rfl
  | operator symbol left right =>
      cases left with
      | absent =>
          show checked ⟨_, (ofTree child).depth, right.depth⟩ = _
          rw [depth_ofTree]
          rfl
      | operand token =>
          show checked ⟨_, 1, (ofTree child).depth⟩ = _
          rw [depth_ofTree]
          rfl
      | operator symbol' l r =>
          show checked ⟨_, (Tree.operator symbol' l r).depth, (ofTree child).depth⟩ = _
          rw [depth_ofTree]
          rfl

/-- The first part of a draft becomes its tree. -/
theorem empty_attach {t : Tree} (h : t.depth ≤ maxLevels) :
    empty.attach (ofTree t) = .ok (ofTree t) :=
  checked_ofTree_of_le h

/-- What a check lets through is the draft itself, and its tree is within the levels. -/
theorem checked_ofTree_eq_ok {t : Tree} {d : Draft} (h : (ofTree t).checked = .ok d) :
    d = ofTree t ∧ t.depth ≤ maxLevels := by
  rw [checked_ofTree] at h
  split at h
  · cases h
  · exact ⟨(Except.ok.inj h).symm, by omega⟩

/-! ## The trees of steps -/

/-- A step that succeeds leaves the tree that it has formed. -/
theorem tree_of_checked {d d' : Draft} (h : d.checked = .ok d') : d'.tree = d.tree := by
  unfold checked at h
  split at h
  · cases h
  · cases h
    rfl

theorem tree_of_pushOperator {op : Operator} {d d' : Draft} (h : d.pushOperator op = .ok d') :
    d'.tree = .operator (.known op) d.tree .absent :=
  tree_of_checked h

theorem tree_of_attach {d child d' : Draft} (h : d.attach child = .ok d') :
    d'.tree = d.tree.attach child.tree := by
  unfold attach at h
  cases htree : d.tree with
  | absent =>
      rw [htree] at h
      exact tree_of_checked h
  | operand token =>
      rw [htree] at h
      cases h
      exact htree
  | operator symbol left right =>
      rw [htree] at h
      simp only at h
      split at h
      · exact tree_of_checked h
      · exact tree_of_checked h

/-! ## Drafts that steps have built -/

/-- The drafts that steps build up from operands of a source. -/
inductive Built (source : String → Prop) : Draft → Prop
  | empty : Built source .empty
  | leaf {token : String} : source token → Built source (.leaf token)
  | push {d d' : Draft} {op : Operator} : Built source d → d.pushOperator op = .ok d' →
      Built source d'
  | attach {d c d' : Draft} : Built source d → Built source c → d.attach c = .ok d' →
      Built source d'

namespace Built

variable {source : String → Prop} {d : Draft}

/-- What holds of the trees at the start and is kept by every step holds of every built tree,
and the levels kept beside it are exact. -/
theorem invariant {P : Tree → Prop} (h : Built source d) (habsent : P .absent)
    (hleaf : ∀ token, source token → P (.operand token))
    (hpush : ∀ op t, P t → (Tree.operator (.known op) t .absent).depth ≤ maxLevels →
      P (.operator (.known op) t .absent))
    (hattach : ∀ t c, P t → P c → (t.attach c).depth ≤ maxLevels → P (t.attach c)) :
    d = ofTree d.tree ∧ P d.tree := by
  -- the levels beside the tree are part of the invariant: each step reads them
  induction h with
  | empty => exact ⟨rfl, habsent⟩
  | leaf hs => exact ⟨rfl, hleaf _ hs⟩
  | push _ hstep ih =>
      obtain ⟨hd, hP⟩ := ih
      rw [hd, pushOperator_ofTree] at hstep
      obtain ⟨rfl, hle⟩ := checked_ofTree_eq_ok hstep
      exact ⟨rfl, hpush _ _ hP hle⟩
  | attach _ _ hstep ihd ihc =>
      obtain ⟨hd, hPd⟩ := ihd
      obtain ⟨hc, hPc⟩ := ihc
      rw [hd, hc, attach_ofTree] at hstep
      obtain ⟨rfl, hle⟩ := checked_ofTree_eq_ok hstep
      exact ⟨rfl, hattach _ _ hPd hPc hle⟩

/-- The levels kept beside a built tree are those of its children. -/
theorem eq_ofTree (h : Built source d) : d = ofTree d.tree :=
  (h.invariant (P := fun _ => True) trivial (fun _ _ => trivial) (fun _ _ _ _ => trivial)
    (fun _ _ _ _ _ => trivial)).1

/-- A built tree is within the levels. -/
theorem depth_le (h : Built source d) : d.tree.depth ≤ maxLevels :=
  (h.invariant (P := fun t => t.depth ≤ maxLevels) (by decide)
    (fun _ _ => show 1 ≤ maxLevels by decide) (fun _ _ _ hle => hle) (fun _ _ _ _ hle => hle)).2

/-- A built tree holds known operators only. -/
theorem known (h : Built source d) : d.tree.Known :=
  (h.invariant (P := Tree.Known) trivial (fun _ _ => trivial)
    (fun _ _ ht _ => ⟨rfl, ht, trivial⟩) (fun _ _ ht hc _ => ht.attach hc)).2

/-- The operands of a built tree are operands of the source. -/
theorem operands (h : Built source d) : ∀ w ∈ d.tree.operands, source w := by
  refine (h.invariant (P := fun t => ∀ w ∈ t.operands, source w) ?_ ?_ ?_ ?_).2
  · intro w hw
    simp [Tree.operands] at hw
  · intro token hs w hw
    rw [List.mem_singleton.mp hw]
    exact hs
  · intro op t ht _ w hw
    simp only [Tree.operands, List.append_nil] at hw
    exact ht w hw
  · intro t c ht hc _ w hw
    rcases Tree.mem_operands_attach hw with hw | hw
    · exact ht w hw
    · exact hc w hw

end Built

end Draft

end Verdict
