import Mathlib.Control.Monad.Basic
import Verdict.Proofs.Evaluation.Connective

/-!
# The logical skeleton of a tree

Seen from the root, a tree is a formula as far as connectives reach: its skeleton. What stands at
the leaves of the skeleton, a comparison or an operand, counts by its verdict alone, and a missing
child counts as false (`Tree.evaluate_eq_skeleton`).

A `Place` is a way down through connectives. The verdict of the whole depends on the tree at a
place through the verdict of that tree (`Place.evaluate_fill`) and grows with it
(`Place.response_mono`). So it makes no difference to put a tree of the same verdict there, to swap
two joined trees or to rearrange a run of one connective. The main statement is
`Tree.evaluate_skeleton`.
-/

namespace Verdict

/-- The connective that a symbol names. -/
def Symbol.connective? : Symbol → Option Connective
  | .known .and => some .and
  | .known .or => some .or
  | _ => none

theorem Symbol.eq_of_connective? {symbol : Symbol} {c : Connective}
    (h : symbol.connective? = some c) : symbol = .known c.operator := by
  unfold connective? at h
  split at h
  · cases h
    rfl
  · cases h
    rfl
  · cases h

/-- A formula of connectives over trees. -/
inductive Formula where
  | missing
  | leaf (tree : Tree)
  | join (c : Connective) (left right : Formula)
deriving DecidableEq, Repr

namespace Formula

/-- The truth of a formula, given the truth of its leaves. -/
def value (truth : Tree → Bool) : Formula → Bool
  | missing => false
  | leaf tree => truth tree
  | join c left right => c.apply (left.value truth) (right.value truth)

/-- The trees at the leaves from left to right. -/
def leaves : Formula → List Tree
  | missing => []
  | leaf tree => [tree]
  | join _ left right => left.leaves ++ right.leaves

/-- More truth at the leaves never makes a formula false. -/
theorem value_mono {truth truth' : Tree → Bool} {f : Formula}
    (h : ∀ s ∈ f.leaves, truth s = true → truth' s = true) (hf : f.value truth = true) :
    f.value truth' = true := by
  induction f with
  | missing => exact hf
  | leaf tree => exact h tree (List.mem_singleton.mpr rfl) hf
  | join c left right ihl ihr =>
      have hl := ihl fun s hs => h s (List.mem_append_left _ hs)
      have hr := ihr fun s hs => h s (List.mem_append_right _ hs)
      exact c.apply_mono hl hr hf

end Formula

namespace Tree

/-- Whether a tree has the verdict that it is true. -/
def holds (record : Record) (t : Tree) : Bool :=
  match t.evaluate record with
  | .ok verdict => verdict
  | .error _ => false

theorem holds_of_evaluate {t : Tree} {record : Record} {b : Bool} (h : t.evaluate record = .ok b) :
    t.holds record = b := by
  unfold holds
  rw [h]

/-! ## Skeletons -/

/-- The formula of the connectives that are reached from the root through connectives. -/
def skeleton : Tree → Formula
  | absent => .missing
  | operand token => .leaf (operand token)
  | operator symbol left right =>
    match symbol.connective? with
    | some c => .join c left.skeleton right.skeleton
    | none => .leaf (operator symbol left right)

/-- A tree that has a verdict may stand for itself in a formula. -/
theorem leaf_of_evaluate {t : Tree} {record : Record} {b : Bool} (h : t.evaluate record = .ok b) :
    (∀ s ∈ (Formula.leaf t).leaves, s.evaluate record = .ok (s.holds record)) ∧
      b = (Formula.leaf t).value (holds record) := by
  have hb := holds_of_evaluate h
  refine ⟨fun s hs => ?_, hb.symm⟩
  rw [List.mem_singleton.mp hs, hb]
  exact h

/-- **Skeleton.** The verdict of a tree is the truth of its skeleton under the verdicts of the
leaves, which all have one. -/
theorem evaluate_eq_skeleton {t : Tree} {record : Record} {b : Bool}
    (h : t.evaluate record = .ok b) :
    (∀ s ∈ t.skeleton.leaves, s.evaluate record = .ok (s.holds record)) ∧
      b = t.skeleton.value (holds record) := by
  induction t generalizing b with
  | absent =>
      cases h
      exact ⟨nofun, rfl⟩
  | operand token => exact leaf_of_evaluate h
  | operator symbol left right ihl ihr =>
      unfold skeleton
      cases hc : symbol.connective? with
      | none => exact leaf_of_evaluate h
      | some c =>
          obtain rfl := Symbol.eq_of_connective? hc
          obtain ⟨x, y, hl, hr, hb⟩ := evaluate_join_eq_ok h
          obtain ⟨hleft, hx⟩ := ihl hl
          obtain ⟨hright, hy⟩ := ihr hr
          refine ⟨fun s hs => ?_, ?_⟩
          · rcases List.mem_append.mp hs with hs | hs
            · exact hleft s hs
            · exact hright s hs
          · rw [hb, hx, hy]
            rfl

/-! ## Runs of one connective -/

/-- The trees that a run of one connective joins, however it is associated. -/
def parts (c : Connective) : Tree → List Tree
  | operator symbol left right =>
    if symbol = .known c.operator then left.parts c ++ right.parts c
    else [operator symbol left right]
  | t => [t]

/-- A run of one connective holds if all of its parts do, or if any of them does. -/
def HoldsOf (c : Connective) (record : Record) (ts : List Tree) : Prop :=
  match c with
  | .and => ∀ t ∈ ts, t.holds record = true
  | .or => ∃ t ∈ ts, t.holds record = true

theorem holdsOf_singleton {c : Connective} {record : Record} {t : Tree} :
    HoldsOf c record [t] ↔ t.holds record = true := by
  cases c <;> simp [HoldsOf]

theorem holdsOf_append {c : Connective} {record : Record} {a b : List Tree} {x y : Bool}
    (ha : x = true ↔ HoldsOf c record a) (hb : y = true ↔ HoldsOf c record b) :
    c.apply x y = true ↔ HoldsOf c record (a ++ b) := by
  cases c with
  | and =>
      show (x && y) = true ↔ ∀ t ∈ a ++ b, _
      rw [Bool.and_eq_true, ha, hb, List.forall_mem_append]
      rfl
  | or =>
      show (x || y) = true ↔ ∃ t ∈ a ++ b, _
      rw [Bool.or_eq_true, ha, hb]
      simp only [HoldsOf, List.mem_append, or_and_right, exists_or]

/-- In what order the parts come makes no difference. -/
theorem holdsOf_perm {c : Connective} {record : Record} {a b : List Tree} (h : a.Perm b) :
    HoldsOf c record a ↔ HoldsOf c record b := by
  cases c <;> simp only [HoldsOf, h.mem_iff]

/-- The verdict of a run of one connective comes from its parts alone. -/
theorem evaluate_parts (c : Connective) {t : Tree} {record : Record} {b : Bool}
    (h : t.evaluate record = .ok b) : b = true ↔ HoldsOf c record (t.parts c) := by
  have hself : ∀ {t : Tree} {b : Bool}, t.evaluate record = .ok b →
      (b = true ↔ HoldsOf c record [t]) := by
    intro t b h
    rw [holdsOf_singleton, holds_of_evaluate h]
  induction t generalizing b with
  | absent => exact hself h
  | operand token => exact hself h
  | operator symbol left right ihl ihr =>
      by_cases hsymbol : symbol = .known c.operator
      · subst hsymbol
        obtain ⟨x, y, hl, hr, rfl⟩ := evaluate_join_eq_ok h
        rw [parts, if_pos rfl]
        exact holdsOf_append (ihl hl) (ihr hr)
      · rw [parts, if_neg hsymbol]
        exact hself h

end Tree

/-! ## Places -/

/-- A place in a tree to which only connectives lead: the root, or a place on one side of a
connective that has another tree on its other side. -/
inductive Place where
  | here
  | under (c : Connective) (side : Side) (other : Tree) (place : Place)
deriving DecidableEq, Repr

namespace Place

/-- The tree that has a given tree at a place. -/
def fill : Place → Tree → Tree
  | here, t => t
  | under c .left other place, t => c.join (place.fill t) other
  | under c .right other place, t => c.join other (place.fill t)

/-- The verdict of the whole for a verdict at a place. -/
def response (record : Record) : Place → Bool → Bool
  | here, x => x
  | under c _ other place, x => c.apply (place.response record x) (other.holds record)

/-- More truth at a place never makes the whole false. -/
theorem response_mono (place : Place) (record : Record) {x y : Bool} (h : x = true → y = true)
    (hx : place.response record x = true) : place.response record y = true := by
  induction place with
  | here => exact h hx
  | under c side other place ih => exact c.apply_mono ih id hx

/-- The whole has a verdict only if the tree at the place has one, and then it is the response to
that one. -/
theorem evaluate_fill {place : Place} {t : Tree} {record : Record} {b : Bool}
    (h : (place.fill t).evaluate record = .ok b) :
    ∃ x, t.evaluate record = .ok x ∧ b = place.response record x := by
  induction place generalizing b with
  | here => exact ⟨b, h, rfl⟩
  | under c side other place ih =>
      cases side with
      | left =>
          obtain ⟨y, z, hfill, hother, rfl⟩ := Tree.evaluate_join_eq_ok h
          obtain ⟨x, hx, rfl⟩ := ih hfill
          refine ⟨x, hx, ?_⟩
          rw [response, Tree.holds_of_evaluate hother]
      | right =>
          obtain ⟨z, y, hother, hfill, rfl⟩ := Tree.evaluate_join_eq_ok h
          obtain ⟨x, hx, rfl⟩ := ih hfill
          refine ⟨x, hx, ?_⟩
          rw [response, Tree.holds_of_evaluate hother, c.apply_comm]

/-- Below a comparison the verdict of a tree is not enough, so no place leads there. -/
example :
    (Tree.operand "1").holds .empty = (Tree.operand "2").holds .empty ∧
      (Tree.binary .eq (.operand "1") (.operand "1")).holds .empty = true ∧
      (Tree.binary .eq (.operand "2") (.operand "1")).holds .empty = false := by
  decide +kernel

end Place

namespace Tree

/-- Every leaf of the skeleton stands at a place. -/
theorem exists_place_of_mem_leaves {t s : Tree} (h : s ∈ t.skeleton.leaves) :
    ∃ place : Place, place.fill s = t := by
  induction t with
  | absent => cases h
  | operand token => exact ⟨.here, List.mem_singleton.mp h⟩
  | operator symbol left right ihl ihr =>
      unfold skeleton at h
      cases hc : symbol.connective? with
      | none =>
          rw [hc] at h
          exact ⟨.here, List.mem_singleton.mp h⟩
      | some c =>
          rw [hc] at h
          obtain rfl := Symbol.eq_of_connective? hc
          rcases List.mem_append.mp h with h | h
          · obtain ⟨place, rfl⟩ := ihl h
            exact ⟨.under c .left right place, rfl⟩
          · obtain ⟨place, rfl⟩ := ihr h
            exact ⟨.under c .right left place, rfl⟩

/-- **The logical skeleton.** A tree that has a verdict holds exactly if its skeleton is true
under the verdicts of the leaves, all of which have one and stand at places; on a record on which
no leaf is less true it holds, too. Of two trees that differ at one place and have verdicts, both
have the same one if the trees at the place have, or if they are two joined trees and the same
ones swapped, or if they are runs of one connective with the same parts in any order and
association. If the verdict at the place turns from false to true, that of the whole does not turn
from true to false. -/
theorem evaluate_skeleton (record : Record) :
    (∀ t b, t.evaluate record = .ok b →
      b = t.skeleton.value (holds record) ∧
      (∀ s ∈ t.skeleton.leaves, s.evaluate record = .ok (s.holds record) ∧
        ∃ place : Place, place.fill s = t) ∧
      ∀ record' b', t.evaluate record' = .ok b' →
        (∀ s ∈ t.skeleton.leaves, s.holds record = true → s.holds record' = true) →
        b = true → b' = true) ∧
    ∀ (place : Place) (s s' : Tree) (b b' : Bool),
      (place.fill s).evaluate record = .ok b → (place.fill s').evaluate record = .ok b' →
      (s.evaluate record = s'.evaluate record → b = b') ∧
      (∀ c left right, s = Connective.join c left right → s' = Connective.join c right left →
        b = b') ∧
      (∀ c, (s.parts c).Perm (s'.parts c) → b = b') ∧
      (s.evaluate record = .ok false → s'.evaluate record = .ok true → b = true → b' = true) := by
  refine ⟨fun t b h => ?_, fun place s s' b b' h h' => ?_⟩
  · obtain ⟨hleaves, hb⟩ := evaluate_eq_skeleton h
    refine ⟨hb, fun s hs => ⟨hleaves s hs, exists_place_of_mem_leaves hs⟩, ?_⟩
    intro record' b' h' hmore htrue
    obtain ⟨-, hb'⟩ := evaluate_eq_skeleton h'
    rw [hb] at htrue
    rw [hb']
    exact Formula.value_mono hmore htrue
  · obtain ⟨x, hx, rfl⟩ := Place.evaluate_fill h
    obtain ⟨y, hy, rfl⟩ := Place.evaluate_fill h'
    refine ⟨fun hsame => ?_, fun c left right hs hs' => ?_, fun c hperm => ?_, fun hs hs' => ?_⟩
    · rw [hx, hy] at hsame
      rw [Except.ok.inj hsame]
    · subst hs hs'
      obtain ⟨l, r, hl, hr, rfl⟩ := evaluate_join_eq_ok hx
      obtain ⟨r', l', hr', hl', rfl⟩ := evaluate_join_eq_ok hy
      rw [hl] at hl'
      rw [hr] at hr'
      cases hl'
      cases hr'
      rw [c.apply_comm]
    · have hiff : x = true ↔ y = true := by
        rw [evaluate_parts c hx, evaluate_parts c hy, holdsOf_perm hperm]
      rw [Bool.eq_iff_iff.mpr hiff]
    · rw [hy] at hs'
      cases hs'
      exact place.response_mono record fun _ => rfl

/-- A disjunction of three, one of them missing, beside an adult's age: rearranged it has the same
parts and the same verdict, and the leaves of its skeleton have the verdicts that make it true. -/
theorem evaluate_skeleton_rearranged :
    let record := Record.empty.insert "age" (.number (.ofInt 35))
    let adult := binary .ge (.operand "age") (.operand "18")
    let minor := binary .lt (.operand "age") (.operand "18")
    let place := Place.under .and .right adult .here
    let run := Connective.or.join (Connective.or.join minor absent) (.operand "age")
    let run' := Connective.or.join (.operand "age") (Connective.or.join absent minor)
    (place.fill run).evaluate record = .ok true ∧ (place.fill run').evaluate record = .ok true ∧
      (place.fill run).skeleton = .join .and (.leaf adult)
        (.join .or (.join .or (.leaf minor) .missing) (.leaf (.operand "age"))) ∧
      true = (place.fill run).skeleton.value (holds record) ∧
      (run.parts .or).Perm (run'.parts .or) ∧
      (∀ b b', (place.fill run).evaluate record = .ok b →
        (place.fill run').evaluate record = .ok b' → b = b') ∧
      (minor.evaluate record = .ok false ∧ adult.evaluate record = .ok true) ∧
      ∀ b b', (place.fill minor).evaluate record = .ok b →
        (place.fill adult).evaluate record = .ok b' → b = true → b' = true := by
  intro record adult minor place run run'
  have hrun : (place.fill run).evaluate record = .ok true := by decide +kernel
  have hrun' : (place.fill run').evaluate record = .ok true := by decide +kernel
  have hperm : (run.parts .or).Perm (run'.parts .or) := by decide +kernel
  have hminor : minor.evaluate record = .ok false := by decide +kernel
  have hadult : adult.evaluate record = .ok true := by decide +kernel
  refine ⟨hrun, hrun', rfl, ((evaluate_skeleton record).1 _ _ hrun).1, hperm, ?_,
    ⟨hminor, hadult⟩, ?_⟩
  · intro b b' h h'
    exact ((evaluate_skeleton record).2 place run run' b b' h h').2.2.1 .or hperm
  · intro b b' h h'
    exact ((evaluate_skeleton record).2 place minor adult b b' h h').2.2.2 hminor hadult

end Tree

end Verdict
