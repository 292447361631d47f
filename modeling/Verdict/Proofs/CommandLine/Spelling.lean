import Verdict.Proofs.CommandLine.Level

/-!
# Spelling options

`Gives` says which words give an option its value: `--rule=v`, `--rule v`, `-r v`, `-r=v`, `-rv`, and
the letter may stand behind letters of flags, as in `-tr v`. `GivenIn` says that such words stand
among some arguments, in front of the two dashes that end the options.

Character by character, an argument that names an option is its name or its letter with something
behind it (`Spells.shape`), and the other way round (`spells_of_long`, `spells_of_short`).
-/

namespace Verdict

namespace CommandLine

/-! ## Spelling options -/

namespace ValueOption

/-- The letter of an option. -/
def letter : ValueOption → Char
  | .logLevel => 'l'
  | .rule => 'r'
  | .tree => 'a'
  | .data => 'd'

/-- The long name of an option. -/
def name : ValueOption → String
  | .logLevel => "log-level"
  | .rule => "rule"
  | .tree => "ast"
  | .data => "data"

/-- The letter of an option behind a single dash, perhaps after flags. -/
def OpensShort (option : ValueOption) (opening : String) : Prop :=
  ∃ flags, opening.toList = '-' :: (List.replicate flags 't' ++ [option.letter])

/-- An option by its long name or by its letter. -/
def Opens (option : ValueOption) (opening : String) : Prop :=
  opening = "--" ++ option.name ∨ option.OpensShort opening

end ValueOption

/-- One argument that names an option: with the value, behind an equals sign or right behind the
letter, or without it. -/
inductive Spells (option : ValueOption) : Option String → String → Prop where
  | bare {opening : String} (hopening : option.Opens opening) : Spells option none opening
  | attached {opening : String} (value : String) (hopening : option.Opens opening) :
    Spells option (some value) (opening ++ "=" ++ value)
  | joined {opening value : String} (hopening : option.OpensShort opening) (hvalue : Joins value) :
    Spells option (some value) (opening ++ value)

/-- The words that give an option its value: one argument, or the option and the argument that
follows it. -/
inductive Gives (option : ValueOption) (value : String) : List String → Prop where
  | together {text : String} (htext : Spells option (some value) text) : Gives option value [text]
  | apart {opening : String} (hopening : Spells option none opening) (hvalue : IsValue value) :
    Gives option value [opening, value]

/-- An option is given a value before the options end. -/
def GivenIn (arguments : List String) (option : ValueOption) (value : String) : Prop :=
  ∃ before words after, arguments = before ++ words ++ after ∧ "--" ∉ before ∧
    Gives option value words

/-! ## Names and letters -/

theorem short?_letter (option : ValueOption) :
    short? .evaluate option.letter = some (.valued option) := by
  cases option <;> rfl

theorem long?_name (option : ValueOption) :
    long? .evaluate option.name = some (.valued option) := by
  cases option <;> rfl

/-- A letter is that of its option. -/
theorem letter_of_short? {place : Place} {letter : Char} {option : ValueOption}
    (h : short? place letter = some (.valued option)) : letter = option.letter := by
  unfold short? at h
  split at h
  · cases h
  · cases h
  · cases h
    rfl
  · split at h
    · split at h <;> cases h <;> rfl
    · cases h

/-- Only one letter is that of the flag. -/
theorem eq_of_short?_trace {place : Place} {letter : Char} (h : short? place letter = some .trace) :
    letter = 't' := by
  unfold short? at h
  split at h
  · cases h
  · cases h
  · cases h
  · split at h
    · split at h <;> cases h
      rfl
    · cases h

/-- A long name is that of its option. -/
theorem name_of_long? {place : Place} {name : String} {option : ValueOption}
    (h : long? place name = some (.valued option)) : name = option.name := by
  unfold long? at h
  split at h
  · cases h
  · cases h
  · cases h
    rfl
  · split at h
    · split at h <;> cases h <;> rfl
    · cases h

theorem letter_ne_dash (option : ValueOption) : option.letter ≠ '-' := by
  cases option <;> decide

theorem name_ne_nil (option : ValueOption) : option.name.toList ≠ [] := by
  cases option <;> decide

theorem equals_notMem_name (option : ValueOption) : '=' ∉ option.name.toList := by
  cases option <;> decide

/-! ## Behind the name of an option -/

/-- What stands behind the name or the letter of an option in the same argument. Only a letter may
have its value right behind it. -/
inductive Behind : Bool → Option String → List Char → Prop where
  | nothing {short : Bool} : Behind short none []
  | equals {short : Bool} (value : String) : Behind short (some value) ('=' :: value.toList)
  | joined {value : String} (hvalue : Joins value) : Behind true (some value) value.toList

theorem exists_behind (rest : List Char) : ∃ attached, Behind true attached rest := by
  cases rest with
  | nil => exact ⟨none, .nothing⟩
  | cons c cs =>
      by_cases hc : c = '='
      · refine ⟨some (String.ofList cs), ?_⟩
        have hequals : Behind true _ _ := .equals (String.ofList cs)
        rwa [String.toList_ofList, ← hc] at hequals
      · refine ⟨some (String.ofList (c :: cs)), ?_⟩
        have hjoins : Joins (String.ofList (c :: cs)) := ⟨c, cs, String.toList_ofList, hc⟩
        have hjoined := Behind.joined hjoins
        rwa [String.toList_ofList] at hjoined

/-- What follows two dashes is a name, or a name and a value behind an equals sign. -/
theorem exists_name (cs : List Char) :
    ∃ name attached rest, cs = name ++ rest ∧ '=' ∉ name ∧ Behind false attached rest := by
  induction cs with
  | nil => exact ⟨[], none, [], rfl, List.not_mem_nil, .nothing⟩
  | cons c cs ih =>
      by_cases hc : c = '='
      · refine ⟨[], some (String.ofList cs), c :: cs, rfl, List.not_mem_nil, ?_⟩
        have hequals : Behind false _ _ := .equals (String.ofList cs)
        rwa [String.toList_ofList, ← hc] at hequals
      · obtain ⟨name, attached, rest, rfl, hname, hrest⟩ := ih
        refine ⟨c :: name, attached, rest, rfl, ?_, hrest⟩
        rw [List.mem_cons, not_or]
        exact ⟨Ne.symm hc, hname⟩

section Spelled

variable {option : ValueOption} {attached : Option String} {text : String}

theorem spells_of_long {rest : List Char} (hrest : Behind false attached rest)
    (htext : text.toList = '-' :: '-' :: (option.name.toList ++ rest)) :
    Spells option attached text := by
  cases hrest with
  | nothing =>
      refine .bare (.inl (String.toList_injective ?_))
      rw [htext, List.append_nil, String.toList_append]
      rfl
  | equals value =>
      obtain rfl : text = "--" ++ option.name ++ "=" ++ value := by
        refine String.toList_injective ?_
        rw [htext]
        simp only [String.toList_append, List.append_assoc]
        rfl
      exact .attached value (.inl rfl)

theorem spells_of_short {flags : Nat} {rest : List Char} (hrest : Behind true attached rest)
    (htext : text.toList = '-' :: (List.replicate flags 't' ++ option.letter :: rest)) :
    Spells option attached text := by
  let opening := String.ofList ('-' :: (List.replicate flags 't' ++ [option.letter]))
  have hopening : option.OpensShort opening := ⟨flags, String.toList_ofList⟩
  have htext' : text.toList = opening.toList ++ rest := by
    rw [htext, String.toList_ofList]
    simp
  cases hrest with
  | nothing =>
      rw [List.append_nil] at htext'
      rw [String.toList_injective htext']
      exact .bare (.inr hopening)
  | equals value =>
      obtain rfl : text = opening ++ "=" ++ value := by
        refine String.toList_injective ?_
        rw [htext', String.toList_append, String.toList_append, List.append_assoc]
        rfl
      exact .attached value (.inr hopening)
  | joined hvalue =>
      rw [← String.toList_append] at htext'
      rw [String.toList_injective htext']
      exact .joined hopening hvalue

/-- The characters of an argument that names an option. -/
theorem Spells.shape (h : Spells option attached text) :
    (∃ rest, Behind false attached rest ∧
      text.toList = '-' :: '-' :: (option.name.toList ++ rest)) ∨
    ∃ flags rest, Behind true attached rest ∧
      text.toList = '-' :: (List.replicate flags 't' ++ option.letter :: rest) := by
  cases h with
  | bare hopening =>
      rcases hopening with rfl | ⟨flags, hflags⟩
      · refine .inl ⟨[], .nothing, ?_⟩
        rw [List.append_nil, String.toList_append]
        rfl
      · exact .inr ⟨flags, [], .nothing, hflags⟩
  | attached value hopening =>
      rcases hopening with rfl | ⟨flags, hflags⟩
      · refine .inl ⟨_, .equals value, ?_⟩
        simp only [String.toList_append, List.append_assoc]
        rfl
      · refine .inr ⟨flags, _, .equals value, ?_⟩
        rw [String.toList_append, String.toList_append, hflags]
        simp
  | joined hopening hvalue =>
      obtain ⟨flags, hflags⟩ := hopening
      refine .inr ⟨flags, _, .joined hvalue, ?_⟩
      rw [String.toList_append, hflags]
      simp

theorem Spells.exists_dash (h : Spells option attached text) : ∃ cs, text.toList = '-' :: cs := by
  rcases h.shape with ⟨rest, -, htext⟩ | ⟨flags, rest, -, htext⟩
  · exact ⟨_, htext⟩
  · exact ⟨_, htext⟩

theorem Spells.ne_dashes (h : Spells option attached text) : text ≠ "--" := by
  rintro rfl
  rcases h.shape with ⟨rest, -, htext⟩ | ⟨flags, rest, -, htext⟩
  · obtain ⟨-, htext⟩ := List.cons.inj htext
    obtain ⟨-, htext⟩ := List.cons.inj htext
    exact name_ne_nil option (List.append_eq_nil_iff.mp htext.symm).1
  · obtain ⟨-, htext⟩ := List.cons.inj htext
    cases flags with
    | zero => exact letter_ne_dash option (List.cons.inj htext).1.symm
    | succ flags => cases htext

end Spelled

end CommandLine

end Verdict
