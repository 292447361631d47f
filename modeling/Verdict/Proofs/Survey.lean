import Mathlib.Logic.Hydra
import Mathlib.Logic.Relation

/-!
# Counting levels from a list

The levels of values that stand in one another can be counted without recursion. Values wait, each
with the number of levels around it; one of them is taken up at a time, and what stands in it waits
from then on, one level further in. The innermost level met so far is kept, and the count may be
broken off once that is enough. Which of the waiting values is taken up next is left open: they are
a multiset, so what is shown here holds of every order.

One round keeps `Survey.Sound`: what has been found, together with what still waits, comes to the
levels of the value at the start, and every level that was found was found with the count still
going. So a survey finds all levels, or breaks off at the very first number that is enough
(`Levels.counts_of_never`, `Levels.counts_min`), and no order of rounds goes on for ever.
-/

namespace Verdict

/-- Values that stand in one another: which of them are levels, what stands directly in a level, and
how many levels there are from a value inwards. -/
structure Levels (α : Type) where
  IsLevel : α → Prop
  inside : α → List α
  levels : α → Nat
  levels_eq_zero : ∀ {value : α}, ¬ IsLevel value → levels value = 0
  levels_eq : ∀ {value : α}, IsLevel value →
    levels value = ((inside value).map levels).foldr max 0 + 1

/-- A count under way: the innermost level met so far, and the values that wait with the number of
levels around them. -/
structure Survey (α : Type) where
  found : Nat
  waiting : Multiset (α × Nat)

/-- The count that begins with one value. -/
def Survey.of {α : Type} (value : α) : Survey α := ⟨0, {(value, 0)}⟩

namespace Levels

variable {α : Type}

/-- One round: some value is taken up. A level is counted and its parts wait in its place, any other
value is passed over. There is no round once enough has been found. -/
inductive Round (L : Levels α) (enough : Nat → Prop) : Survey α → Survey α → Prop
  | level {found around : Nat} {value : α} {rest : Multiset (α × Nat)} (hgoing : ¬ enough found)
      (hlevel : L.IsLevel value) :
      Round L enough ⟨found, (value, around) ::ₘ rest⟩
        ⟨max found (around + 1), (L.inside value).map (fun part => (part, around + 1)) + rest⟩
  | other {found around : Nat} {value : α} {rest : Multiset (α × Nat)} (hgoing : ¬ enough found)
      (hother : ¬ L.IsLevel value) :
      Round L enough ⟨found, (value, around) ::ₘ rest⟩ ⟨found, rest⟩

/-- A survey has ended when nothing waits or enough has been found. -/
def Ended (enough : Nat → Prop) (s : Survey α) : Prop :=
  s.waiting = 0 ∨ enough s.found

/-- The surveys that rounds lead to from a value. -/
def Reaches (L : Levels α) (enough : Nat → Prop) (value : α) (s : Survey α) : Prop :=
  Relation.ReflTransGen (L.Round enough) (.of value) s

/-- A survey of the value counts so many levels: it comes to an end whatever is taken up in which
order, and then it has found this number. -/
structure Counts (L : Levels α) (enough : Nat → Prop) (value : α) (n : Nat) : Prop where
  ends : Acc (Function.swap (L.Round enough)) (.of value)
  exists_ended : ∃ s, L.Reaches enough value s ∧ Ended enough s
  found_eq : ∀ {s : Survey α}, L.Reaches enough value s → Ended enough s → s.found = n

variable {L : Levels α} {enough : Nat → Prop} {s s' : Survey α} {value : α}

theorem levels_pos (h : L.IsLevel value) : 0 < L.levels value := by
  rw [L.levels_eq h]
  exact Nat.succ_pos _

theorem levels_lt (h : L.IsLevel value) {part : α} (hpart : part ∈ L.inside value) :
    L.levels part < L.levels value := by
  rw [L.levels_eq h]
  exact Nat.lt_succ_of_le (List.le_max_of_le (List.mem_map_of_mem hpart) (Nat.le_refl _))

/-- A greatest number is one of the numbers. -/
theorem foldr_max_mem_or_zero (ns : List Nat) : ns.foldr max 0 = 0 ∨ ns.foldr max 0 ∈ ns := by
  induction ns with
  | nil => exact .inl rfl
  | cons n ns ih =>
      rw [List.foldr_cons]
      rcases Nat.le_total (ns.foldr max 0) n with hle | hle
      · rw [Nat.max_eq_left hle]
        exact .inr List.mem_cons_self
      · rw [Nat.max_eq_right hle]
        exact ih.imp_right (List.mem_cons_of_mem n)

/-- A level is the innermost one, or the innermost one stands in one of its parts. -/
theorem innermost (h : L.IsLevel value) :
    L.levels value = 1 ∨ ∃ part ∈ L.inside value, L.levels value = L.levels part + 1 := by
  rw [L.levels_eq h]
  rcases foldr_max_mem_or_zero ((L.inside value).map L.levels) with hzero | hmem
  · exact .inl (congrArg (· + 1) hzero)
  · obtain ⟨part, hpart, heq⟩ := List.mem_map.mp hmem
    exact .inr ⟨part, hpart, congrArg (· + 1) heq.symm⟩

/-! ## Rounds come to an end -/

/-- In a round a value gives way to values of fewer levels. -/
theorem Round.cutExpand (h : L.Round enough s s') :
    Relation.CutExpand (InvImage (· < ·) fun p : α × Nat => L.levels p.1) s'.waiting s.waiting := by
  cases h with
  | @level found around value rest _ hlevel =>
      refine ⟨(L.inside value).map fun part => (part, around + 1), (value, around), ?_, ?_⟩
      · intro p hp
        obtain ⟨part, hpart, rfl⟩ := List.mem_map.mp (Multiset.mem_coe.mp hp)
        exact L.levels_lt hlevel hpart
      · rw [← Multiset.singleton_add, add_comm, add_comm _ rest, add_assoc]
  | @other found around value rest _ _ =>
      refine ⟨0, (value, around), fun p hp => absurd hp (Multiset.notMem_zero p), ?_⟩
      rw [← Multiset.singleton_add, add_comm, add_zero]

/-- No sequence of rounds goes on for ever. -/
theorem wellFounded_round (L : Levels α) (enough : Nat → Prop) :
    WellFounded (Function.swap (L.Round enough)) := by
  have hlevels : WellFounded (InvImage (· < ·) fun p : α × Nat => L.levels p.1) :=
    InvImage.wf _ Nat.lt_wfRel.wf
  exact Subrelation.wf (fun h => Round.cutExpand h) (InvImage.wf Survey.waiting hlevels.cutExpand)

/-- A survey that has not ended goes on. -/
theorem exists_round (h : ¬ Ended enough s) : ∃ s', L.Round enough s s' := by
  obtain ⟨found, waiting⟩ := s
  obtain ⟨hwaiting, hgoing⟩ := not_or.mp h
  obtain ⟨⟨value, around⟩, hmem⟩ := Multiset.exists_mem_of_ne_zero hwaiting
  obtain ⟨rest, rfl⟩ := Multiset.exists_cons_of_mem hmem
  by_cases hlevel : L.IsLevel value
  · exact ⟨_, .level hgoing hlevel⟩
  · exact ⟨_, .other hgoing hlevel⟩

/-- From every survey rounds lead to an end. -/
theorem exists_ended (L : Levels α) (enough : Nat → Prop) (s : Survey α) :
    ∃ s', Relation.ReflTransGen (L.Round enough) s s' ∧ Ended enough s' := by
  induction s using (L.wellFounded_round enough).induction with
  | _ s ih =>
      by_cases hended : Ended enough s
      · exact ⟨s, .refl, hended⟩
      · obtain ⟨next, hround⟩ := L.exists_round hended
        obtain ⟨s', hreaches, hended'⟩ := ih next hround
        exact ⟨s', .head hround hreaches, hended'⟩

/-! ## What rounds keep -/

/-- What has been found and what waits come to so many levels in all. -/
structure Sound (L : Levels α) (enough : Nat → Prop) (total : Nat) (s : Survey α) : Prop where
  /-- The levels around a waiting value have been met. -/
  around_le : ∀ p ∈ s.waiting, p.2 ≤ s.found
  waiting_le : ∀ p ∈ s.waiting, p.2 + L.levels p.1 ≤ total
  found_le : s.found ≤ total
  /-- The innermost level has been met, or a value that holds it waits. -/
  reached : s.found = total ∨ ∃ p ∈ s.waiting, p.2 + L.levels p.1 = total
  /-- Nothing before what was found was enough. -/
  going : ∀ k < s.found, ¬ enough k

theorem sound_of (value : α) : Sound L enough (L.levels value) (.of value) where
  around_le := by
    intro p hp
    rw [Multiset.mem_singleton.mp hp]
    exact Nat.le_refl 0
  waiting_le := by
    intro p hp
    rw [Multiset.mem_singleton.mp hp]
    exact (Nat.zero_add _).le
  found_le := Nat.zero_le _
  reached := .inr ⟨(value, 0), Multiset.mem_singleton_self _, Nat.zero_add _⟩
  going := fun k hk => absurd hk (Nat.not_lt_zero k)

variable {total : Nat}

section Rounds

variable {found around : Nat} {rest : Multiset (α × Nat)}

/-- The parts of a level wait one level further in. -/
theorem mem_parts_iff {p : α × Nat} :
    p ∈ ((L.inside value).map fun part => (part, around + 1) : Multiset (α × Nat)) ↔
      ∃ part ∈ L.inside value, (part, around + 1) = p := by
  rw [Multiset.mem_coe, List.mem_map]

/-- Counting a level keeps what has been found and what waits together. -/
theorem Sound.level (h : Sound L enough total ⟨found, (value, around) ::ₘ rest⟩)
    (hgoing : ¬ enough found) (hlevel : L.IsLevel value) :
    Sound L enough total
      ⟨max found (around + 1), (L.inside value).map (fun part => (part, around + 1)) + rest⟩ := by
  have haround : around ≤ found := h.around_le _ (Multiset.mem_cons_self _ _)
  have hvalue : around + L.levels value ≤ total := h.waiting_le _ (Multiset.mem_cons_self _ _)
  have hfound : found ≤ total := h.found_le
  have hpos := L.levels_pos hlevel
  refine ⟨fun p hp => ?_, fun p hp => ?_, ?_, ?_, fun k hk => ?_⟩
  · show p.2 ≤ max found (around + 1)
    rcases Multiset.mem_add.mp hp with hp | hp
    · obtain ⟨part, _, rfl⟩ := mem_parts_iff.mp hp
      exact Nat.le_max_right _ _
    · exact Nat.le_trans (h.around_le p (Multiset.mem_cons_of_mem hp)) (Nat.le_max_left _ _)
  · rcases Multiset.mem_add.mp hp with hp | hp
    · obtain ⟨part, hpart, rfl⟩ := mem_parts_iff.mp hp
      have hlt := L.levels_lt hlevel hpart
      show around + 1 + L.levels part ≤ total
      omega
    · exact h.waiting_le p (Multiset.mem_cons_of_mem hp)
  · show max found (around + 1) ≤ total
    omega
  · -- the innermost level was met before, waits elsewhere, is this one or waits in it
    show max found (around + 1) = total ∨ _
    rcases h.reached with hmet | ⟨p, hp, htotal⟩
    · have hmet' : found = total := hmet
      exact .inl (by omega)
    rcases Multiset.mem_cons.mp hp with rfl | hp
    · have htotal' : around + L.levels value = total := htotal
      rcases L.innermost hlevel with hone | ⟨part, hpart, hlevels⟩
      · exact .inl (by omega)
      · refine .inr ⟨(part, around + 1), Multiset.mem_add.mpr (.inl ?_), ?_⟩
        · exact mem_parts_iff.mpr ⟨part, hpart, rfl⟩
        · show around + 1 + L.levels part = total
          omega
    · exact .inr ⟨p, Multiset.mem_add.mpr (.inr hp), htotal⟩
  · -- the count was going on, and it has come at most one level further
    have hk' : k < max found (around + 1) := hk
    rcases Nat.lt_or_ge k found with hlt | hge
    · exact h.going k hlt
    · have hlast : k = found := by omega
      exact hlast ▸ hgoing

/-- So does passing over a value that is no level: the levels around it are all there are. -/
theorem Sound.other (h : Sound L enough total ⟨found, (value, around) ::ₘ rest⟩)
    (hother : ¬ L.IsLevel value) : Sound L enough total ⟨found, rest⟩ := by
  refine ⟨fun p hp => h.around_le p (Multiset.mem_cons_of_mem hp),
    fun p hp => h.waiting_le p (Multiset.mem_cons_of_mem hp), h.found_le, ?_, h.going⟩
  rcases h.reached with hmet | ⟨p, hp, htotal⟩
  · exact .inl hmet
  rcases Multiset.mem_cons.mp hp with rfl | hp
  · have haround : around ≤ found := h.around_le _ (Multiset.mem_cons_self _ _)
    have hfound : found ≤ total := h.found_le
    have htotal' : around + L.levels value = total := htotal
    have hzero := L.levels_eq_zero hother
    exact .inl (show found = total by omega)
  · exact .inr ⟨p, hp, htotal⟩

end Rounds

theorem Sound.of_reaches (h : L.Reaches enough value s) : Sound L enough (L.levels value) s := by
  induction h with
  | refl => exact L.sound_of value
  | tail _ hround ih =>
      cases hround with
      | level hgoing hlevel => exact ih.level hgoing hlevel
      | other _ hother => exact ih.other hother

/-- At its end a survey has met every level, or it has met just enough. -/
theorem found_of_ended (h : L.Reaches enough value s) (hended : Ended enough s) :
    s.found ≤ L.levels value ∧ (s.found = L.levels value ∨ enough s.found) ∧
      ∀ k < s.found, ¬ enough k := by
  have hsound := Sound.of_reaches h
  refine ⟨hsound.found_le, ?_, hsound.going⟩
  rcases hended with hnone | henough
  · rcases hsound.reached with hmet | ⟨p, hp, _⟩
    · exact .inl hmet
    · rw [hnone] at hp
      exact absurd hp (Multiset.notMem_zero p)
  · exact .inr henough

/-! ## What is counted -/

/-- A survey that is never broken off counts every level. -/
theorem counts_of_never (L : Levels α) (value : α) :
    L.Counts (fun _ => False) value (L.levels value) where
  ends := (L.wellFounded_round _).apply _
  exists_ended := L.exists_ended _ _
  found_eq := fun h hended => (found_of_ended h hended).2.1.resolve_right id

/-- A survey that is broken off at a limit counts no further than the limit, and up to it every
level. -/
theorem counts_min (L : Levels α) (limit : Nat) (value : α) :
    L.Counts (limit ≤ ·) value (min (L.levels value) limit) where
  ends := (L.wellFounded_round _).apply _
  exists_ended := L.exists_ended _ _
  found_eq := by
    intro s h hended
    obtain ⟨hle, hfound, hgoing⟩ := found_of_ended h hended
    have hlimit : s.found ≤ limit := by
      by_contra hbeyond
      exact hgoing limit (Nat.not_le.mp hbeyond) (Nat.le_refl limit)
    rcases hfound with hall | henough
    · omega
    · have hat : limit ≤ s.found := henough
      omega

/-- There is one number that surveys count. -/
theorem Counts.unique {n m : Nat} (h : L.Counts enough value n) (h' : L.Counts enough value m) :
    n = m := by
  obtain ⟨s, hreaches, hended⟩ := h.exists_ended
  exact (h.found_eq hreaches hended).symm.trans (h'.found_eq hreaches hended)

end Levels

end Verdict
