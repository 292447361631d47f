import Verdict.Proofs.CommandLine.Options
import Verdict.Proofs.Program.Outcome

/-!
# Evaluating what is given

Arguments that make an evaluation give it either a rule or a file and not both, and give it data,
wherever the options stand and however they are spelled (`Program.evaluates_given`). Before the name
of the command no option but the level can stand, and behind it what is read is what is given. So
the program never evaluates without anything to evaluate, and never drops a file for a rule.
-/

namespace Verdict

namespace CommandLine

/-! ## Before the name of the command -/

section Front

variable {reading next : Reading} {option : ValueOption} {attached : Option String}
  {value text : String} {texts front rest words : List String} {invocation : Invocation}

/-- Before the name of a command there is no option but the level. -/
theorem not_take_program_of_spells (h : Spells option attached text) (hoption : option ≠ .logLevel)
    (hended : reading.optionsEnded = false) : take .program reading text ≠ .ok next := by
  intro htake
  rcases h.shape with ⟨rest, hrest, htext⟩ | ⟨flags, rest, hrest, htext⟩
  · have hlong : long? .program option.name = none := by
      cases option with
      | logLevel => exact absurd rfl hoption
      | _ => rfl
    rw [take_dashes hended (List.append_ne_nil_of_left_ne_nil (name_ne_nil option) rest) htext,
      takeLong_behind _ _ (equals_notMem_name option) hrest, String.ofList_toList, hlong] at htake
    cases htake
  · have hshort : short? .program option.letter = none := by
      cases option with
      | logLevel => exact absurd rfl hoption
      | _ => rfl
    rw [take_letters hended (letter_ne_dash option) htext] at htake
    obtain ⟨flagged, -, hletter⟩ := bind_eq_ok htake
    simp only [takeLetters, hshort] at hletter
    cases hletter

/-- Once the options have ended before the name of a command, there is no command. -/
theorem not_takeProgram_of_ended (hended : reading.optionsEnded = true) :
    takeProgram reading texts ≠ .ok invocation := by
  intro h
  cases texts with
  | nil =>
      obtain ⟨settled, -, h⟩ := bind_eq_ok h
      cases h
  | cons text rest =>
      rw [takeProgram, hended, Bool.true_or, if_pos rfl] at h
      obtain ⟨next, htake, -⟩ := bind_eq_ok h
      unfold take at htake
      rw [if_pos hended] at htake
      cases htake

/-- Arguments name a command, and it makes an invocation of what follows its name. Before the name
all arguments are taken without ending the options. -/
def NamesCommand (texts : List String) (invocation : Invocation) : Prop :=
  ∃ front name rest before place, texts = front ++ name :: rest ∧ placeOf? name = some place ∧
    takeCommand before place rest = .ok invocation ∧ "--" ∉ front ∧
    ∀ text ∈ front, ∃ reading next : Reading,
      reading.optionsEnded = false ∧ take .program reading text = .ok next

theorem NamesCommand.cons (h : NamesCommand texts invocation)
    (hended : reading.optionsEnded = false) (htake : take .program reading text = .ok next)
    (htext : text ≠ "--") : NamesCommand (text :: texts) invocation := by
  obtain ⟨front, name, rest, before, place, rfl, hname, hcommand, hdashes, hfront⟩ := h
  refine ⟨text :: front, name, rest, before, place, rfl, hname, hcommand, ?_, ?_⟩
  · rw [List.mem_cons, not_or]
    exact ⟨Ne.symm htext, hdashes⟩
  · rintro word (_ | ⟨_, hword⟩)
    · exact ⟨reading, next, hended, htake⟩
    · exact hfront word hword

theorem namesCommand_of_takeProgram (hended : reading.optionsEnded = false)
    (h : takeProgram reading texts = .ok invocation) : NamesCommand texts invocation := by
  induction texts generalizing reading with
  | nil =>
      obtain ⟨settled, -, h⟩ := bind_eq_ok h
      cases h
  | cons text texts ih =>
      have htaken (h : take .program reading text >>= (takeProgram · texts) = .ok invocation) :
          NamesCommand (text :: texts) invocation := by
        obtain ⟨next, htake, hrest⟩ := bind_eq_ok h
        have hnext : next.optionsEnded = false :=
          Bool.eq_false_iff.mpr fun htrue => not_takeProgram_of_ended htrue hrest
        exact (ih hnext hrest).cons hended htake (ne_dashes_of_take hended htake hnext)
      rw [takeProgram] at h
      split at h
      · exact htaken h
      · split at h
        · cases h
        · split at h
          · next place hplace =>
              exact ⟨[], text, texts, reading, place, rfl, hplace, h, List.not_mem_nil,
                fun _ hword => absurd hword List.not_mem_nil⟩
          · exact htaken h

theorem Gives.exists_spells (h : Gives option value words) :
    ∃ text more attached, words = text :: more ∧ Spells option attached text := by
  cases h with
  | together htext => exact ⟨_, _, _, rfl, htext⟩
  | apart hopening _ => exact ⟨_, _, _, rfl, hopening⟩

/-- Arguments that do not name an option may stand in front. -/
theorem givenIn_append_iff (hfront : ∀ text ∈ front, ∀ attached, ¬ Spells option attached text)
    (hdashes : "--" ∉ front) :
    GivenIn (front ++ rest) option value ↔ GivenIn rest option value := by
  constructor
  · rintro ⟨before, words, after, htexts, hbefore, hwords⟩
    rw [List.append_assoc] at htexts
    rcases List.append_eq_append_iff.mp htexts with ⟨more, rfl, rfl⟩ | ⟨more, rfl, hrest⟩
    · refine ⟨more, words, after, (List.append_assoc _ _ _).symm, ?_, hwords⟩
      exact fun hmore => hbefore (List.mem_append_right _ hmore)
    · cases more with
      | nil =>
          refine ⟨[], words, after, ?_, List.not_mem_nil, hwords⟩
          rw [List.nil_append]
          exact hrest.symm
      | cons word more =>
          -- the first of the words would stand in front
          obtain ⟨text, others, attached, rfl, htext⟩ := hwords.exists_spells
          obtain ⟨rfl, -⟩ := List.cons.inj hrest
          refine absurd htext (hfront _ ?_ attached)
          exact List.mem_append_right _ List.mem_cons_self
  · rintro ⟨before, words, after, rfl, hbefore, hwords⟩
    refine ⟨front ++ before, words, after, by simp only [List.append_assoc], ?_, hwords⟩
    rw [List.mem_append, not_or]
    exact ⟨hdashes, hbefore⟩

end Front

/-! ## Arguments of an evaluation -/

section Evaluation

variable {rule tree level : Option String} {data : String} {trace : Bool} {arguments : List String}

/-- An evaluation has data, and a rule or a file and not both. -/
theorem commandOf_eq_evaluate {place : Place} {reading : Reading}
    (h : commandOf place reading = .ok (.evaluate rule tree data trace)) :
    place = .evaluate ∧ reading.rule = rule ∧ reading.tree = tree ∧ reading.data = some data ∧
      ((∃ text, rule = some text ∧ tree = none) ∨ ∃ path, rule = none ∧ tree = some path) := by
  cases place with
  | program => cases h
  | parse =>
      simp only [commandOf] at h
      split at h <;> cases h
  | combine =>
      simp only [commandOf] at h
      split at h <;> cases h
  | evaluate =>
      simp only [commandOf] at h
      cases hrule : reading.rule with
      | none =>
          cases htree : reading.tree with
          | none => simp [hrule, htree] at h
          | some path =>
              cases hdata : reading.data with
              | none => simp [hrule, htree, hdata] at h
              | some text =>
                  simp only [hrule, htree, hdata] at h
                  cases h
                  exact ⟨rfl, rfl, rfl, rfl, .inr ⟨path, rfl, rfl⟩⟩
      | some text =>
          cases htree : reading.tree with
          | some path => simp [hrule, htree] at h
          | none =>
              cases hdata : reading.data with
              | none => simp [hrule, htree, hdata] at h
              | some value =>
                  simp only [hrule, htree, hdata] at h
                  cases h
                  exact ⟨rfl, rfl, rfl, rfl, .inl ⟨text, rfl, rfl⟩⟩

theorem eq_evaluate_of_placeOf? {name : String} (h : placeOf? name = some .evaluate) :
    name = "evaluate" := by
  unfold placeOf? at h
  split at h
  · cases h
  · cases h
  · rfl
  · cases h

/-- Arguments that make an evaluation give it what it has, and nothing else. -/
theorem given_of_parse
    (h : Invocation.parse arguments = .ok ⟨level, .evaluate rule tree data trace⟩) :
    ((∃ text, rule = some text ∧ tree = none) ∨ ∃ path, rule = none ∧ tree = some path) ∧
      (∀ text, rule = some text ↔ GivenIn arguments .rule text) ∧
      (∀ path, tree = some path ↔ GivenIn arguments .tree path) ∧
      ∀ text, data = text ↔ GivenIn arguments .data text := by
  obtain ⟨front, name, rest, before, place, rfl, hname, hcommand, hdashes, hfront⟩ :=
    namesCommand_of_takeProgram rfl h
  obtain ⟨last, hlast, hcommand⟩ := bind_eq_ok hcommand
  obtain ⟨command, hof, hcommand⟩ := bind_eq_ok hcommand
  obtain ⟨settled, -, hcommand⟩ := bind_eq_ok hcommand
  cases hcommand
  obtain ⟨rfl, hrule, htree, hdata, hone⟩ := commandOf_eq_evaluate hof
  obtain rfl := eq_evaluate_of_placeOf? hname
  -- what stands up to the name of the command gives no option but the level
  have hgiven (option : ValueOption) (hoption : option ≠ .logLevel) (value : String) :
      last.value? option = some value ↔ GivenIn (front ++ "evaluate" :: rest) option value := by
    rw [takeAll_value?_iff hlast, List.append_cons, givenIn_append_iff]
    · intro text htext attached hspells
      rcases List.mem_append.mp htext with htext | htext
      · obtain ⟨reading, next, hended, htake⟩ := hfront text htext
        exact not_take_program_of_spells hspells hoption hended htake
      · rw [List.mem_singleton.mp htext] at hspells
        obtain ⟨cs, hdash⟩ := hspells.exists_dash
        cases hdash
    · simp [hdashes]
  refine ⟨hone, fun text => ?_, fun path => ?_, fun text => ?_⟩
  · rw [← hgiven .rule (by decide), ← hrule]
    rfl
  · rw [← hgiven .tree (by decide), ← htree]
    rfl
  · rw [← hgiven .data (by decide), ← Option.some_inj, ← hdata]
    rfl

end Evaluation

end CommandLine

/-! ## Nothing to evaluate -/

namespace Command

theorem treeOf_eq_nothing_iff (files : Files) {rule path : Option String} :
    treeOf files rule path = .error .nothingToEvaluate ↔ rule = none ∧ path = none := by
  constructor
  · intro h
    cases rule with
    | some text => exact absurd h (mapError_ne fun e he => by cases he)
    | none =>
        cases path with
        | none => exact ⟨rfl, rfl⟩
        | some path =>
            simp only [treeOf, loadTree] at h
            split at h
            · cases h
            · exact absurd h (mapError_ne fun e he => by cases he)
  · rintro ⟨rfl, rfl⟩
    rfl

theorem verdict_ne_nothing (tree : Tree) (record : Record) (traced : Bool) :
    verdict tree record traced ≠ .error .nothingToEvaluate := by
  unfold verdict
  split
  · exact map_ne_error (mapError_ne fun e he => by cases he)
  · exact map_ne_error (mapError_ne fun e he => by cases he)

/-- An evaluation has nothing to evaluate only if neither a rule nor a file is given. -/
theorem result_eq_nothing_iff {files : Files} {rule path : Option String} {data : String}
    {traced : Bool} :
    (runEvaluate files rule path data traced).result = .error .nothingToEvaluate ↔
      rule = none ∧ path = none := by
  rw [← treeOf_eq_nothing_iff files, runEvaluate_result]
  constructor
  · intro h
    cases htree : treeOf files rule path with
    | error e =>
        rw [htree] at h
        cases h
        rfl
    | ok tree =>
        rw [htree] at h
        cases hrecord : Record.ofJsonText data with
        | error fault =>
            rw [hrecord] at h
            cases h
        | ok record =>
            rw [hrecord] at h
            exact absurd h (verdict_ne_nothing tree record traced)
  · intro h
    rw [h]
    rfl

end Command

namespace Program

open CommandLine (GivenIn)

/-- **Evaluating what is given.** Arguments that make an evaluation give it a rule or a file and not
both, and they give it data; each of these is in the invocation exactly if the arguments give it. So
the program does not fail for want of anything to evaluate, and where a file is given, the program
comes to what the tree that the file stores comes to on the data. -/
theorem evaluates_given {arguments : List String} {level rule tree : Option String} {data : String}
    {trace : Bool}
    (h : Invocation.parse arguments = .ok ⟨level, .evaluate rule tree data trace⟩) :
    ((∃ text, rule = some text ∧ tree = none) ∨ ∃ path, rule = none ∧ tree = some path) ∧
      (∀ text, rule = some text ↔ GivenIn arguments .rule text) ∧
      (∀ path, tree = some path ↔ GivenIn arguments .tree path) ∧
      (∀ text, data = text ↔ GivenIn arguments .data text) ∧
      ∀ (files : Files) (vars : Variables) (moment : String), ∃ finished,
        run files vars moment arguments = .ok finished ∧
        finished.result ≠ .error .nothingToEvaluate ∧
        ∀ path, GivenIn arguments .tree path → finished.result =
          Command.loadTree files path >>= fun stored =>
            (Record.ofJsonText data).mapError .record >>= fun record =>
              Command.verdict stored record (trace || (settingsOf files vars).2.traceEnabled) := by
  obtain ⟨hone, hrule, htree, hdata⟩ := CommandLine.given_of_parse h
  refine ⟨hone, hrule, htree, hdata, fun files vars moment => ?_⟩
  refine ⟨finish files vars moment ⟨level, .evaluate rule tree data trace⟩, ?_, ?_, ?_⟩
  · rw [run, h]
    rfl
  · rw [finish_result]
    intro hnothing
    obtain ⟨rfl, rfl⟩ := Command.result_eq_nothing_iff.mp hnothing
    rcases hone with ⟨text, hsome, -⟩ | ⟨path, -, hsome⟩ <;> cases hsome
  · intro path hpath
    obtain rfl := (htree path).mpr hpath
    rcases hone with ⟨text, -, hnone⟩ | ⟨path, rfl, hsome⟩
    · cases hnone
    · rw [finish_result, Command.run, Command.runEvaluate_result]
      rfl

/-- A level that is called like the command, and a path behind the letter of a flag. -/
theorem evaluates_given_bundled :
    let arguments := ["-l", "evaluate", "evaluate", "-ta=tree.json", "--data", "\x7b\x7d"]
    Invocation.parse arguments =
        .ok ⟨some "evaluate", .evaluate none (some "tree.json") "\x7b\x7d" true⟩ ∧
      GivenIn arguments .tree "tree.json" ∧ GivenIn arguments .data "\x7b\x7d" ∧
      ∀ text, ¬ GivenIn arguments .rule text := by
  intro arguments
  have hparse : Invocation.parse arguments =
      .ok ⟨some "evaluate", .evaluate none (some "tree.json") "\x7b\x7d" true⟩ := by
    decide +kernel
  obtain ⟨-, hrule, htree, hdata, -⟩ := evaluates_given hparse
  refine ⟨hparse, (htree _).mp rfl, (hdata _).mp rfl, fun text hgiven => ?_⟩
  cases (hrule text).mpr hgiven

end Program

end Verdict
