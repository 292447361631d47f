import Mathlib.Data.List.Induction
import Verdict.Settings

/-!
# Parts of layers

A layer is laid over the settings so far entry by entry. Its `Part`s say what is laid at which
name: the entries themselves at the names of the top, and the entries of a table at the names of a
section. What is found under a key at the end is what the parts at that very key make, one laid over
the other (`Key.lookup_foldl`); all other parts leave it as it is. If it is a scalar, the last part
that gives a value gave it (`value?_of_foldl_laidOver`).
-/

namespace Verdict

/-! ## Tables -/

namespace Setting

theorem Entries.get?_set (name key : String) (value : Setting) : ∀ (entries : Entries),
    (entries.set key value).get? name = if name = key then some value else entries.get? name
  | .nil => rfl
  | .cons key' value' rest => by
      rw [set]
      split
      · next h =>
          subst h
          rw [get?, get?]
          split <;> rfl
      · next h =>
          rw [get?, get?, get?_set name key value rest]
          split
          · next h' =>
              subst h'
              rw [if_neg (Ne.symm h)]
          · rfl

theorem entriesOf_orEmpty (below : Option Setting) :
    entriesOf (orEmpty below) = entriesOf below := by
  rcases below with _ | _ | _ | _ | _ | _ | _ | _ <;> rfl

end Setting

namespace Settings

open Setting (Entries layAt entriesOf)

/-! ## Parts -/

/-- What is laid at a name, or below it at a path. -/
structure Part where
  name : String
  path : List Setting.Step
  value : Setting
deriving DecidableEq, Repr

/-- The entries of a table as parts at its names. -/
def partsOf : Entries → List Part
  | .nil => []
  | .cons name value rest => ⟨name, [], value⟩ :: partsOf rest

namespace Part

/-- What the part makes of the setting at its name. -/
def laidOver (below : Option Setting) (part : Part) : Option Setting :=
  some (layAt part.path part.value below)

/-- Lays the part over the entries of a table. -/
def put (entries : Entries) (part : Part) : Entries :=
  entries.set part.name (layAt part.path part.value (entries.get? part.name))

/-- The part is a table, or leads into one. -/
def isTable (part : Part) : Bool :=
  match part.path, part.value with
  | [], .table _ => true
  | .name _ :: _, _ => true
  | _, _ => false

/-- The parts at the names of a section that a part at the top consists of. -/
def inSection (heading : String) (part : Part) : List Part :=
  if part.name = heading then
    match part.path, part.value with
    | [], .table entries => partsOf entries
    | .name key :: path, value => [⟨key, path, value⟩]
    | _, _ => []
  else []

/-- The value that the part gives to its name; a table gives none, and neither does what is laid
below the name. -/
def value? (part : Part) : Option Setting :=
  match part.path, part.value with
  | [], .table _ => none
  | [], value => some value
  | _, _ => none

theorem get?_put (name : String) (entries : Entries) (part : Part) :
    (put entries part).get? name =
      if part.name = name then part.laidOver (entries.get? name) else entries.get? name := by
  rw [put, Entries.get?_set]
  by_cases h : part.name = name
  · rw [if_pos h.symm, if_pos h, h, laidOver]
  · rw [if_neg (Ne.symm h), if_neg h]

/-- Parts at other names do not matter for what is found at a name. -/
theorem get?_foldl_put (name : String) (parts : List Part) (entries : Entries) :
    (parts.foldl put entries).get? name =
      (parts.filter (·.name = name)).foldl laidOver (entries.get? name) := by
  induction parts generalizing entries with
  | nil => rfl
  | cons part parts ih =>
      rw [List.foldl_cons, ih, get?_put, List.filter_cons]
      by_cases h : part.name = name <;> simp [h]

end Part

theorem lay_eq_foldl : ∀ (entries below : Entries),
    entries.lay below = (partsOf entries).foldl Part.put below
  | .nil, below => by rw [Entries.lay, partsOf, List.foldl_nil]
  | .cons name value rest, below => by
      rw [Entries.lay, partsOf, List.foldl_cons, lay_eq_foldl rest]
      rfl

/-! ## Sections -/

/-- The entries of a section. -/
def sectionOf (heading : String) (entries : Entries) : Entries :=
  entriesOf (entries.get? heading)

/-- The section is not there, or it is a table. -/
def Opens (heading : String) (entries : Entries) : Prop :=
  entries.get? heading = none ∨ ∃ table, entries.get? heading = some (.table table)

section Sections

variable {heading : String} {part : Part}

/-- A part is a table in one of two ways. -/
theorem Part.isTable_cases (h : part.isTable) :
    (∃ name entries, part = ⟨name, [], .table entries⟩) ∨
      ∃ name key path value, part = ⟨name, .name key :: path, value⟩ := by
  rcases part with ⟨name, path, value⟩
  rcases path with _ | ⟨step, path⟩
  · cases value with
    | table entries => exact .inl ⟨name, entries, rfl⟩
    | _ => cases h
  · cases step with
    | name key => exact .inr ⟨name, key, path, value, rfl⟩
    | place index => cases h

/-- A table that is laid over a section is laid over its entries. -/
theorem sectionOf_put (entries : Entries) (htable : part.name = heading → part.isTable) :
    sectionOf heading (part.put entries) =
      (part.inSection heading).foldl Part.put (sectionOf heading entries) := by
  rw [sectionOf, Part.get?_put, Part.inSection]
  by_cases h : part.name = heading
  · rw [if_pos h, if_pos h]
    obtain ⟨name, table, rfl⟩ | ⟨name, key, path, value, rfl⟩ := Part.isTable_cases (htable h)
    · cases table with
      | nil => exact Setting.entriesOf_orEmpty _
      | cons key value rest => exact lay_eq_foldl _ _
    · rfl
  · rw [if_neg h, if_neg h]
    rfl

theorem opens_put {entries : Entries} (hopens : Opens heading entries)
    (htable : part.name = heading → part.isTable) : Opens heading (part.put entries) := by
  rw [Opens, Part.get?_put]
  by_cases h : part.name = heading
  · rw [if_pos h]
    refine .inr ?_
    obtain ⟨name, table, rfl⟩ | ⟨name, key, path, value, rfl⟩ := Part.isTable_cases (htable h)
    · cases table with
      | nil =>
          obtain hnone | ⟨below, hbelow⟩ := hopens
          · exact ⟨.nil, by rw [hnone]; rfl⟩
          · exact ⟨below, by rw [hbelow]; rfl⟩
      | cons key value rest => exact ⟨_, rfl⟩
    · exact ⟨_, rfl⟩
  · rw [if_neg h]
    exact hopens

theorem sectionOf_foldl_put (parts : List Part) (entries : Entries)
    (htables : ∀ part ∈ parts, part.name = heading → part.isTable) :
    sectionOf heading (parts.foldl Part.put entries) =
      (parts.flatMap (Part.inSection heading)).foldl Part.put (sectionOf heading entries) := by
  induction parts generalizing entries with
  | nil => rfl
  | cons part parts ih =>
      obtain ⟨htable, htables⟩ := List.forall_mem_cons.mp htables
      rw [List.foldl_cons, ih _ htables, sectionOf_put entries htable, List.flatMap_cons,
        List.foldl_append]

theorem opens_foldl_put {parts : List Part} {entries : Entries} (hopens : Opens heading entries)
    (htables : ∀ part ∈ parts, part.name = heading → part.isTable) :
    Opens heading (parts.foldl Part.put entries) := by
  induction parts generalizing entries with
  | nil => exact hopens
  | cons part parts ih =>
      obtain ⟨htable, htables⟩ := List.forall_mem_cons.mp htables
      exact ih (opens_put hopens htable) htables

end Sections

/-! ## Keys -/

/-- Where a setting is found: at a name of the top or of a section. -/
structure Key where
  heading : Option String
  name : String
deriving DecidableEq, Repr

namespace Key

/-- The setting under a key. -/
def lookup (entries : Entries) : Key → Option Setting
  | ⟨none, name⟩ => entries.get? name
  | ⟨some heading, name⟩ => (sectionOf heading entries).get? name

/-- Those of some parts at the top, and of the parts that they consist of, that stand at a key. -/
def partsAt (parts : List Part) : Key → List Part
  | ⟨none, name⟩ => parts.filter (·.name = name)
  | ⟨some heading, name⟩ => (parts.flatMap (Part.inSection heading)).filter (·.name = name)

/-- Where there is a section, what is laid over it is a table. -/
def Respects (parts : List Part) (key : Key) : Prop :=
  ∀ heading ∈ key.heading, ∀ part ∈ parts, part.name = heading → part.isTable

/-- Only the parts at a key matter for what is found under it. -/
theorem lookup_foldl {key : Key} {parts : List Part} (h : key.Respects parts) :
    key.lookup (parts.foldl Part.put .nil) = (key.partsAt parts).foldl Part.laidOver none := by
  rcases key with ⟨_ | heading, name⟩
  · exact Part.get?_foldl_put name parts .nil
  · rw [lookup, sectionOf_foldl_put parts .nil (h heading rfl), Part.get?_foldl_put]
    rfl

end Key

/-! ## Values -/

/-- A setting that is neither a list nor a table. -/
def IsScalar : Setting → Prop
  | .list _ => False
  | .table _ => False
  | _ => True

/-- What is left of an empty table is a scalar only if the scalar was there before. -/
theorem eq_of_orEmpty {below : Option Setting} {value : Setting} (hscalar : IsScalar value)
    (h : Setting.orEmpty below = value) : below = some value := by
  subst h
  rcases below with _ | _ | _ | _ | _ | _ | _ | _
  case none => exact hscalar.elim
  case some.nothing => exact hscalar.elim
  all_goals rfl

/-- If a part makes a scalar, it gives this value, or it gives none and the scalar was there
before. -/
theorem Part.value?_of_laidOver {part : Part} {below : Option Setting} {value : Setting}
    (hscalar : IsScalar value) (h : part.laidOver below = some value) :
    part.value? = some value ∨ part.value? = none ∧ below = some value := by
  rcases part with ⟨name, path, laid⟩
  have hover : layAt path laid below = value := Option.some.inj h
  rcases path with _ | ⟨_ | _, path⟩
  · cases laid with
    | table entries =>
        cases entries with
        | nil => exact .inr ⟨rfl, eq_of_orEmpty hscalar hover⟩
        | cons key laid rest =>
            subst hover
            exact hscalar.elim
    | _ => exact .inl (congrArg some hover)
  · subst hover
    exact hscalar.elim
  · subst hover
    exact hscalar.elim

/-- A scalar that the parts at a name make is the value of the last part that gives one. -/
theorem value?_of_foldl_laidOver {parts : List Part} {value : Setting} (hscalar : IsScalar value)
    (h : parts.foldl Part.laidOver none = some value) :
    parts.reverse.findSome? Part.value? = some value := by
  induction parts using List.reverseRecOn with
  | nil => cases h
  | append_singleton parts part ih =>
      rw [List.foldl_append] at h
      rw [List.reverse_append, List.reverse_singleton, List.singleton_append, List.findSome?_cons]
      obtain hgiven | ⟨hnone, hbelow⟩ := Part.value?_of_laidOver hscalar h
      · rw [hgiven]
      · rw [hnone]
        exact ih hbelow

/-- Where nothing is found, no part was laid. -/
theorem eq_nil_of_foldl_laidOver {parts : List Part} (h : parts.foldl Part.laidOver none = none) :
    parts = [] := by
  obtain rfl | ⟨front, last, rfl⟩ := List.eq_nil_or_concat parts
  · rfl
  · rw [List.concat_eq_append, List.foldl_append] at h
    cases h

end Settings

end Verdict
