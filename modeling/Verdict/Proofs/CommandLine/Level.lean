import Mathlib.Logic.Relation
import Verdict.CommandLine
import Verdict.Proofs.Steps

/-!
# The level in the arguments

The level of the log is read, stored and handed on, and nothing else depends on it. Two readings are
alike if they are equal once their levels are hidden (`Reading.hidden`); every argument leads from
alike readings to alike readings. So arguments that differ in the spelled level only, wherever that
stands and however it is spelled, make the same command or make none (`commandOf?_of_levelChanged`).
-/

namespace Verdict

namespace CommandLine

/-! ## Hiding the level -/

/-- What has been begun, without the level that it may hold. -/
def Pending.hidden : Pending → Pending
  | .option .logLevel (some _) => .option .logLevel (some "")
  | pending => pending

/-- What has been read, without the level. -/
def Reading.hidden (reading : Reading) : Reading :=
  { reading with
    logLevel := reading.logLevel.map fun _ => ""
    pending := reading.pending.hidden }

@[simp] theorem Pending.hidden_hidden (pending : Pending) :
    pending.hidden.hidden = pending.hidden := by
  rcases pending with _ | ⟨_ | _ | _ | _, _ | _⟩ | _ <;> rfl

namespace Reading

variable (reading : Reading)

theorem hidden_hidden : reading.hidden.hidden = reading.hidden := by
  simp [hidden, Function.comp_def]

/-- What starts from a hidden reading ends as if it had not been hidden, up to the level; so it is
for every step below. -/
theorem store_hidden (option : ValueOption) (value : String) :
    (reading.hidden.store option value).map hidden = (reading.store option value).map hidden := by
  cases option with
  | logLevel => cases h : reading.logLevel <;> simp [store, value?, hidden, Except.map, h]
  | rule =>
    cases h : reading.rule <;> simp [store, value?, hidden, Except.map, h, Function.comp_def]
  | data =>
    cases h : reading.data <;> simp [store, value?, hidden, Except.map, h, Function.comp_def]
  | tree =>
    by_cases hvalue : value = "" <;> cases h : reading.tree <;>
      simp [store, value?, hidden, Except.map, h, hvalue, Function.comp_def]

/-- Which level is stored does not show. -/
theorem store_level (value value' : String) :
    (reading.store .logLevel value).map hidden = (reading.store .logLevel value').map hidden := by
  cases h : reading.logLevel <;> simp [store, value?, hidden, Except.map, h]

theorem settle_hidden : reading.hidden.settle.map hidden = reading.settle.map hidden := by
  cases h : reading.pending with
  | nothing => simp [settle, hidden, Pending.hidden, h, Except.map, Function.comp_def]
  | plain values => simp [settle, hidden, Pending.hidden, h, Except.map, Function.comp_def]
  | option option value =>
      cases value with
      | none =>
        cases option <;> simp [settle, hidden, Pending.hidden, h, Except.map]
      | some value =>
        have hstore := store_hidden { reading with pending := .nothing } option value
        cases option with
        | logLevel =>
          -- the hidden level is stored in the place of the one that was begun
          simp only [settle, hidden, Pending.hidden, h] at hstore ⊢
          exact (store_level _ "" value).trans hstore
        | _ => simpa only [settle, hidden, Pending.hidden, h] using hstore

theorem valued_hidden (option : ValueOption) (attached : Option String) :
    (reading.hidden.valued option attached).map hidden =
      (reading.valued option attached).map hidden := by
  refine map_bind_hidden reading.settle_hidden fun settled => ?_
  cases attached with
  | none => simp [hidden, Except.map, Function.comp_def]
  | some value => exact settled.store_hidden option value

theorem valued_level (level level' : String) :
    (reading.valued .logLevel (some level)).map hidden =
      (reading.valued .logLevel (some level')).map hidden :=
  map_bind_of_ok fun settled _ => settled.store_level level level'

theorem flag_hidden (argument : Argument) :
    (reading.hidden.flag argument).map hidden = (reading.flag argument).map hidden := by
  refine map_bind_hidden reading.settle_hidden fun settled => ?_
  cases argument with
  | help => rfl
  | version => rfl
  | _ => cases h : settled.trace <;> simp [hidden, Except.map, h, Function.comp_def]

theorem awaiting?_hidden : reading.hidden.awaiting? = reading.awaiting? := by
  rcases h : reading.pending with _ | ⟨_ | _ | _ | _, _ | _⟩ | _ <;>
    simp [awaiting?, hidden, Pending.hidden, h]

end Reading

/-! ## Taking arguments -/

variable (place : Place) (reading : Reading)

theorem takeLetters_hidden (letters : List Char) :
    (takeLetters place reading.hidden letters).map Reading.hidden =
      (takeLetters place reading letters).map Reading.hidden := by
  induction letters generalizing reading with
  | nil => simp [takeLetters, Except.map, Reading.hidden_hidden]
  | cons letter rest ih =>
      cases hshort : short? place letter with
      | none => simp [takeLetters, hshort]
      | some argument =>
          cases argument with
          | valued option =>
            cases rest with
            | nil => simpa [takeLetters, hshort] using reading.valued_hidden option none
            | cons c rest =>
              simp only [takeLetters, hshort]
              split
              · next h => cases h
              · exact reading.valued_hidden option _
              · exact reading.valued_hidden option _
          | _ =>
            simp only [takeLetters, hshort]
            exact map_bind_hidden (reading.flag_hidden _) fun reading => ih reading

theorem takeLong_hidden (cs : List Char) :
    (takeLong place reading.hidden cs).map Reading.hidden =
      (takeLong place reading cs).map Reading.hidden := by
  unfold takeLong
  cases hlong : long? place (String.ofList (cs.takeWhile (· != '='))) with
  | none => simp only [hlong]
  | some argument =>
      cases argument with
      | valued option =>
        simp only [hlong]
        exact reading.valued_hidden option _
      | _ =>
        simp only [hlong]
        split
        · simpa using reading.flag_hidden _
        · rfl

theorem takePlain_hidden (text : String) :
    (takePlain place reading.hidden text).map Reading.hidden =
      (takePlain place reading text).map Reading.hidden := by
  -- the first plain argument settles what was begun before it
  have hfirst : (do .ok { (← reading.hidden.settle) with pending := .plain [text] } :
      Except Usage Reading).map Reading.hidden =
        (do .ok { (← reading.settle) with pending := .plain [text] }).map Reading.hidden :=
    map_bind_hidden reading.settle_hidden fun settled => by
      simp [Reading.hidden, Pending.hidden, Except.map, Function.comp_def]
  cases place with
  | program => rfl
  | evaluate => rfl
  | combine =>
      rcases h : reading.pending with _ | ⟨_ | _ | _ | _, _ | _⟩ | _
      case plain =>
        simp [takePlain, Reading.hidden, Pending.hidden, h, Except.map, Function.comp_def]
      all_goals simpa only [takePlain, Reading.hidden, Pending.hidden, h] using hfirst
  | parse =>
      rcases h : reading.pending with _ | ⟨_ | _ | _ | _, _ | _⟩ | _
      case plain => simp only [takePlain, Reading.hidden, Pending.hidden, h]
      all_goals
        simp only [takePlain, Reading.hidden, Pending.hidden, h] at hfirst ⊢
        split
        · rfl
        · exact hfirst

theorem take_hidden (text : String) :
    (take place reading.hidden text).map Reading.hidden =
      (take place reading text).map Reading.hidden := by
  have hended : reading.hidden.optionsEnded = reading.optionsEnded := rfl
  unfold take
  rw [hended, reading.awaiting?_hidden]
  split
  · exact takePlain_hidden place reading text
  · split
    · simp [Reading.hidden, Except.map, Function.comp_def]
    · exact takeLong_hidden place reading _
    · exact takeLetters_hidden place reading _
    · split
      · simp [Reading.hidden, Except.map, Function.comp_def]
      · exact takePlain_hidden place reading text

theorem takeAll_hidden (texts : List String) :
    (takeAll place reading.hidden texts).map Reading.hidden =
      (takeAll place reading texts).map Reading.hidden := by
  induction texts generalizing reading with
  | nil => exact reading.settle_hidden
  | cons text rest ih => exact map_bind_hidden (take_hidden place reading text) ih

theorem commandOf_hidden : commandOf place reading.hidden = commandOf place reading := by
  cases place <;> rfl

/-- Only the command is compared from here on: the level of an invocation may differ. -/
theorem takeCommand_hidden (texts : List String) :
    (takeCommand reading.hidden place texts).map Invocation.command =
      (takeCommand reading place texts).map Invocation.command := by
  refine map_bind_of_ok fun read _ => map_bind_of_ok fun command _ => ?_
  exact map_bind_congr reading.settle_hidden fun _ _ _ => rfl

theorem takeProgram_hidden (texts : List String) :
    (takeProgram reading.hidden texts).map Invocation.command =
      (takeProgram reading texts).map Invocation.command := by
  induction texts generalizing reading with
  | nil =>
      refine map_bind_hidden reading.settle_hidden fun settled => ?_
      cases h : settled.logLevel <;> simp [Reading.hidden, h]
  | cons text rest ih =>
      have htake := map_bind_hidden (f := (takeProgram · rest))
        (take_hidden .program reading text) ih
      have hended : reading.hidden.optionsEnded = reading.optionsEnded := rfl
      unfold takeProgram
      rw [hended, reading.awaiting?_hidden]
      split
      · exact htake
      · split
        · rfl
        · split
          · exact takeCommand_hidden _ reading rest
          · exact htake

/-! ## The end of the options -/

/-- Where the reading succeeds, options have ended or not as the flag says. -/
def Keeps (ended : Bool) (result : Except Usage Reading) : Prop :=
  ∀ next, result = .ok next → next.optionsEnded = ended

namespace Keeps

variable {ended : Bool} {place : Place} {reading : Reading}

theorem error (e : Usage) : Keeps ended (.error e) :=
  fun _ h => nomatch h

theorem ok (h : reading.optionsEnded = ended) : Keeps ended (.ok reading) :=
  fun _ hnext => Except.ok.inj hnext ▸ h

theorem bind {x : Except Usage Reading} {f : Reading → Except Usage Reading} (hx : Keeps ended x)
    (hf : ∀ next, next.optionsEnded = ended → Keeps ended (f next)) : Keeps ended (x >>= f) := by
  cases x with
  | error e => exact error e
  | ok next => exact hf next (hx next rfl)

theorem store (h : reading.optionsEnded = ended) (option : ValueOption) (value : String) :
    Keeps ended (reading.store option value) := by
  unfold Reading.store
  split
  · exact error _
  · split
    · exact ok h
    · exact ok h
    · split
      · exact error _
      · exact ok h
    · exact ok h

theorem settle (h : reading.optionsEnded = ended) : Keeps ended reading.settle := by
  unfold Reading.settle
  split
  · exact ok h
  · exact error _
  · have hcleared : ({ reading with pending := .nothing } : Reading).optionsEnded = ended := h
    exact store hcleared _ _
  · exact ok h

theorem valued (h : reading.optionsEnded = ended) (option : ValueOption)
    (attached : Option String) : Keeps ended (reading.valued option attached) := by
  refine bind (settle h) fun settled hsettled => ?_
  cases attached with
  | none => exact ok hsettled
  | some value => exact store hsettled option value

theorem flag (h : reading.optionsEnded = ended) (argument : Argument) :
    Keeps ended (reading.flag argument) := by
  refine bind (settle h) fun settled hsettled => ?_
  split
  · exact error _
  · exact error _
  · split
    · exact error _
    · exact ok hsettled

theorem takeLetters (h : reading.optionsEnded = ended) (letters : List Char) :
    Keeps ended (takeLetters place reading letters) := by
  induction letters generalizing reading with
  | nil => exact ok h
  | cons letter rest ih =>
      unfold CommandLine.takeLetters
      split
      · exact error _
      · split
        · exact valued h _ _
        · exact valued h _ _
        · exact valued h _ _
      · exact bind (flag h _) fun _ hnext => ih hnext

theorem takeLong (h : reading.optionsEnded = ended) (cs : List Char) :
    Keeps ended (takeLong place reading cs) := by
  unfold CommandLine.takeLong
  dsimp only
  split
  · exact error _
  · exact valued h _ _
  · split
    · split
      · exact error _
      · exact flag h _
    · exact error _

theorem takePlain (h : reading.optionsEnded = ended) (text : String) :
    Keeps ended (takePlain place reading text) := by
  unfold CommandLine.takePlain
  split
  · exact ok h
  · exact bind (settle h) fun _ hnext => ok hnext
  · exact error _
  · split
    · exact error _
    · exact bind (settle h) fun _ hnext => ok hnext
  · exact error _
  · exact error _

/-- Only two dashes end the options. -/
theorem take (h : reading.optionsEnded = false) {text : String} (htext : text ≠ "--") :
    Keeps false (take place reading text) := by
  unfold CommandLine.take
  rw [h]
  split
  · next htrue => cases htrue
  · split
    · next hdashes => exact absurd (String.toList_injective hdashes) htext
    · exact takeLong h _
    · exact takeLetters h _
    · split
      · exact ok rfl
      · exact takePlain h text

end Keeps

/-! ## Spelling the level -/

/-- The letter of the option behind a single dash, perhaps after flags. -/
def OpensShort (opening : String) : Prop :=
  ∃ flags, opening.toList = '-' :: (List.replicate flags 't' ++ ['l'])

/-- The option by its long name or by its letter. -/
def Opens (opening : String) : Prop :=
  opening = "--log-level" ∨ OpensShort opening

/-- A text that can stand right behind the letter of its option. -/
def Joins (text : String) : Prop :=
  ∃ c cs, text.toList = c :: cs ∧ c ≠ '='

/-- A text that an option takes for its value from the next argument, as it does not look like an
option itself. -/
def IsValue (text : String) : Prop :=
  ∀ cs, text.toList = '-' :: cs → cs = []

/-- The same spelling of two levels: in the argument that follows the option, in the same argument
behind an equals sign, or right behind the letter. -/
inductive Respelled : List String → List String → Prop where
  | apart {opening level level' : String} (hopening : Opens opening) (hlevel : IsValue level)
    (hlevel' : IsValue level') : Respelled [opening, level] [opening, level']
  | attached {opening : String} (level level' : String) (hopening : Opens opening) :
    Respelled [opening ++ "=" ++ level] [opening ++ "=" ++ level']
  | joined {opening level level' : String} (hopening : OpensShort opening) (hlevel : Joins level)
    (hlevel' : Joins level') : Respelled [opening ++ level] [opening ++ level']

theorem Respelled.symm {words words' : List String} (h : Respelled words words') :
    Respelled words' words := by
  cases h with
  | apart hopening hlevel hlevel' => exact .apart hopening hlevel' hlevel
  | attached level level' hopening => exact .attached level' level hopening
  | joined hopening hlevel hlevel' => exact .joined hopening hlevel' hlevel

/-- One level in the arguments, before the two dashes that end the options, is replaced by another
one. -/
inductive LevelChanged : List String → List String → Prop where
  | mk (before : List String) {words words' : List String} (after : List String) (hbefore : "--" ∉ before)
    (hwords : Respelled words words') :
    LevelChanged (before ++ words ++ after) (before ++ words' ++ after)

section Words

variable {place : Place} {reading : Reading}

/-- Flags are taken one by one, and then the letters behind them. -/
theorem takeLetters_flags (flags : Nat) (letters : List Char) :
    takeLetters place reading (List.replicate flags 't' ++ letters) =
      takeLetters place reading (List.replicate flags 't') >>= (takeLetters place · letters) := by
  induction flags generalizing reading with
  | zero => rfl
  | succ flags ih =>
      cases place with
      | evaluate =>
          show (reading.flag .trace >>= fun flagged =>
              takeLetters .evaluate flagged (List.replicate flags 't' ++ letters)) =
            (reading.flag .trace >>= fun flagged =>
              takeLetters .evaluate flagged (List.replicate flags 't')) >>= _
          rw [bind_assoc]
          exact bind_congr fun flagged => ih
      | _ => rfl

/-- Behind a single dash there are letters. -/
theorem take_dash {text : String} {letter : Char} {letters : List Char}
    (hended : reading.optionsEnded = false) (hletter : letter ≠ '-')
    (htext : text.toList = '-' :: letter :: letters) :
    take place reading text = takeLetters place reading (letter :: letters) := by
  unfold take
  rw [hended, htext]
  split
  · next htrue => cases htrue
  · split
    · next h => cases h; exact absurd rfl hletter
    · next h => cases h; exact absurd rfl hletter
    · next h => cases h; rfl
    · next h => exact absurd rfl (h letter letters)

theorem take_letters {text : String} {flags : Nat} {letter : Char} {rest : List Char}
    (hended : reading.optionsEnded = false) (hletter : letter ≠ '-')
    (htext : text.toList = '-' :: (List.replicate flags 't' ++ letter :: rest)) :
    take place reading text =
      takeLetters place reading (List.replicate flags 't') >>=
        (takeLetters place · (letter :: rest)) := by
  rw [← takeLetters_flags]
  cases flags with
  | zero => exact take_dash hended hletter htext
  | succ flags => exact take_dash hended (by decide) htext

theorem takeLong_level (place : Place) (reading : Reading) :
    takeLong place reading "log-level".toList = reading.valued .logLevel none := by
  cases place <;> rfl

theorem takeLong_level_attached (place : Place) (reading : Reading) (level : String) :
    takeLong place reading ("log-level".toList ++ '=' :: level.toList) =
      reading.valued .logLevel (some level) := by
  have hname : ("log-level".toList ++ '=' :: level.toList).takeWhile (· != '=') =
      "log-level".toList := rfl
  have hlong : long? place "log-level" = some (.valued .logLevel) := by cases place <;> rfl
  simp only [takeLong, hname, List.drop_left, String.ofList_toList, hlong]

/-- An option is begun, or takes its value, after the flags before it. -/
theorem take_opening (place : Place) {opening : String} (hopening : Opens opening)
    (hended : reading.optionsEnded = false) :
    ∃ flagged : Except Usage Reading,
      take place reading opening = flagged >>= (·.valued .logLevel none) ∧
      (∀ level, take place reading (opening ++ "=" ++ level) =
        flagged >>= (·.valued .logLevel (some level))) ∧
      (OpensShort opening → ∀ level, Joins level →
        take place reading (opening ++ level) = flagged >>= (·.valued .logLevel (some level))) := by
  rcases hopening with rfl | ⟨flags, hflags⟩
  · refine ⟨.ok reading, ?_, fun level => ?_, ?_⟩
    · unfold take
      rw [hended]
      exact takeLong_level place reading
    · unfold take
      rw [hended, String.toList_append, String.toList_append]
      exact takeLong_level_attached place reading level
    · rintro ⟨_ | flags, hflags⟩ <;> cases hflags
  · refine ⟨takeLetters place reading (List.replicate flags 't'), ?_,
      fun level => ?_, fun _ level hjoins => ?_⟩
    · rw [take_letters hended (by decide) hflags]
      rfl
    · have htext : (opening ++ "=" ++ level).toList =
          '-' :: (List.replicate flags 't' ++ 'l' :: '=' :: level.toList) := by
        rw [String.toList_append, String.toList_append, hflags]
        simp
      rw [take_letters hended (by decide) htext]
      refine bind_congr fun flagged => ?_
      rw [takeLetters]
      show flagged.valued _ (some (String.ofList level.toList)) = _
      rw [String.ofList_toList]
    · obtain ⟨c, cs, hlevel, hc⟩ := hjoins
      have htext : (opening ++ level).toList =
          '-' :: (List.replicate flags 't' ++ 'l' :: c :: cs) := by
        rw [String.toList_append, hflags, hlevel]
        simp
      rw [take_letters hended (by decide) htext]
      refine bind_congr fun flagged => ?_
      have hvalue : String.ofList (c :: cs) = level := by rw [← hlevel, String.ofList_toList]
      rw [← hvalue]
      simp only [takeLetters, short?]
      split
      · next h => cases h
      · next h => cases h; exact absurd rfl hc
      · rfl

/-- The option that was begun takes the next argument for its value. -/
theorem take_value {option : ValueOption} {text : String} (hended : reading.optionsEnded = false)
    (hawaiting : reading.awaiting? = some option) (htext : IsValue text) :
    take place reading text = .ok { reading with pending := .option option (some text) } := by
  unfold take
  rw [hended, hawaiting]
  split
  · next htrue => cases htrue
  · split
    · next hdashes => cases htext _ hdashes
    · next hdashes => cases htext _ hdashes
    · next hdash => cases htext _ hdash
    · rfl

theorem Opens.ne_dashes {opening : String} (h : Opens opening) : opening ≠ "--" := by
  rintro rfl
  rcases h with h | ⟨_ | flags, hflags⟩
  · exact absurd h (by decide)
  · cases hflags
  · cases hflags

/-- After the option, its value is awaited. -/
theorem awaiting?_of_take {opening : String} (hopening : Opens opening)
    (hended : reading.optionsEnded = false) {next : Reading}
    (h : take place reading opening = .ok next) : next.awaiting? = some .logLevel := by
  obtain ⟨flagged, hbegun, -, -⟩ := take_opening place hopening hended
  rw [hbegun] at h
  cases flagged with
  | error e => cases h
  | ok flagged =>
      change flagged.valued _ none = _ at h
      unfold Reading.valued at h
      cases hsettle : flagged.settle with
      | error e =>
          rw [hsettle] at h
          cases h
      | ok settled =>
          rw [hsettle] at h
          cases h
          rfl

/-- The same spelling of two levels leads to alike readings. -/
theorem take_respelled {words words' : List String} (h : Respelled words words')
    (hended : reading.optionsEnded = false) :
    (words.foldlM (take place) reading).map Reading.hidden =
      (words'.foldlM (take place) reading).map Reading.hidden := by
  have hvalued : ∀ (flagged : Except Usage Reading) (level level' : String),
      (flagged >>= (·.valued .logLevel (some level))).map Reading.hidden =
        (flagged >>= (·.valued .logLevel (some level'))).map Reading.hidden := by
    intro flagged level level'
    exact map_bind_of_ok fun reading _ => reading.valued_level level level'
  cases h with
  | attached level level' hopening =>
      obtain ⟨flagged, -, hattached, -⟩ := take_opening place hopening hended
      simp only [List.foldlM_cons, List.foldlM_nil, bind_pure, hattached]
      exact hvalued flagged level level'
  | joined hopening hlevel hlevel' =>
      obtain ⟨flagged, -, -, hjoined⟩ := take_opening place (.inr hopening) hended
      simp only [List.foldlM_cons, List.foldlM_nil, bind_pure, hjoined hopening _ hlevel,
        hjoined hopening _ hlevel']
      exact hvalued flagged _ _
  | apart hopening hlevel hlevel' =>
      simp only [List.foldlM_cons, List.foldlM_nil, bind_pure]
      refine map_bind_of_ok fun begun hbegun => ?_
      have hended' := Keeps.take hended hopening.ne_dashes begun hbegun
      have hawaiting := awaiting?_of_take hopening hended hbegun
      rw [take_value hended' hawaiting hlevel, take_value hended' hawaiting hlevel']
      rfl

end Words

/-! ## All arguments -/

/-- The command of an invocation, if there is one. -/
def commandOf? (result : Except Usage Invocation) : Option Command :=
  (result.map Invocation.command).toOption

theorem takeAll_append (place : Place) (reading : Reading) (texts after : List String) :
    takeAll place reading (texts ++ after) =
      texts.foldlM (take place) reading >>= (takeAll place · after) := by
  induction texts generalizing reading with
  | nil => rfl
  | cons text texts ih =>
      rw [List.foldlM_cons, bind_assoc]
      exact bind_congr fun next => ih next

variable {words words' before : List String}

theorem takeAll_respelled (hwords : Respelled words words') (hbefore : "--" ∉ before)
    (place : Place) {reading : Reading} (hended : reading.optionsEnded = false)
    (after : List String) :
    (takeAll place reading (before ++ words ++ after)).map Reading.hidden =
      (takeAll place reading (before ++ words' ++ after)).map Reading.hidden := by
  induction before generalizing reading with
  | nil =>
      rw [List.nil_append, List.nil_append, takeAll_append, takeAll_append]
      exact map_bind_hidden (take_respelled hwords hended) fun next =>
        takeAll_hidden place next after
  | cons text before ih =>
      simp only [List.mem_cons, not_or] at hbefore
      obtain ⟨htext, hbefore⟩ := hbefore
      refine map_bind_of_ok fun next hnext => ?_
      exact ih hbefore (Keeps.take hended (Ne.symm htext) next hnext)

theorem takeCommand_respelled (hwords : Respelled words words') (hbefore : "--" ∉ before)
    (place : Place) (reading : Reading) (after : List String) :
    (takeCommand reading place (before ++ words ++ after)).map Invocation.command =
      (takeCommand reading place (before ++ words' ++ after)).map Invocation.command := by
  refine map_bind_congr (takeAll_respelled hwords hbefore place rfl after)
    fun read read' hread => ?_
  have hcommand : commandOf place read = commandOf place read' := by
    rw [← commandOf_hidden place read, hread, commandOf_hidden]
  rw [hcommand]
  refine map_bind_of_ok fun command _ => ?_
  exact map_bind_of_ok fun _ _ => rfl

/-- An argument that begins with a dash is no name of a command. -/
theorem takeProgram_dash {reading : Reading} {text : String} {cs : List Char}
    (htext : text.toList = '-' :: cs) (after : List String) :
    takeProgram reading (text :: after) =
      take .program reading text >>= (takeProgram · after) := by
  have hhelp : text ≠ "help" := fun h => by
    rw [h] at htext
    cases htext
  have hname : placeOf? text = none := by
    unfold placeOf?
    split
    · cases htext
    · cases htext
    · cases htext
    · rfl
  rw [takeProgram, if_neg hhelp, hname]
  split <;> rfl

theorem takeProgram_awaiting {reading : Reading} {option : ValueOption}
    (hawaiting : reading.awaiting? = some option) (text : String) (after : List String) :
    takeProgram reading (text :: after) =
      take .program reading text >>= (takeProgram · after) := by
  rw [takeProgram, hawaiting, Option.isSome_some, Bool.or_true, if_pos rfl]

theorem Opens.exists_dash {opening : String} (h : Opens opening) :
    ∃ cs, opening.toList = '-' :: cs := by
  rcases h with rfl | ⟨flags, hflags⟩
  · exact ⟨_, rfl⟩
  · exact ⟨_, hflags⟩

/-- Before the name of a command, the words of a level are taken like any arguments. -/
theorem takeProgram_words (hwords : Respelled words words') {reading : Reading}
    (hended : reading.optionsEnded = false) (after : List String) :
    takeProgram reading (words ++ after) =
      words.foldlM (take .program) reading >>= (takeProgram · after) := by
  cases hwords with
  | @attached opening level level' hopening =>
      obtain ⟨cs, hdash⟩ := hopening.exists_dash
      simp only [List.foldlM_cons, List.foldlM_nil, bind_pure]
      have htext : (opening ++ "=" ++ level).toList = '-' :: (cs ++ '=' :: level.toList) := by
        rw [String.toList_append, String.toList_append, hdash, List.append_assoc]
        rfl
      exact takeProgram_dash htext after
  | @joined opening level _ hopening _ _ =>
      obtain ⟨cs, hdash⟩ := Opens.exists_dash (.inr hopening)
      simp only [List.foldlM_cons, List.foldlM_nil, bind_pure]
      have htext : (opening ++ level).toList = '-' :: (cs ++ level.toList) := by
        rw [String.toList_append, hdash, List.cons_append]
      exact takeProgram_dash htext after
  | apart hopening hlevel hlevel' =>
      obtain ⟨cs, hdash⟩ := hopening.exists_dash
      simp only [List.foldlM_cons, List.foldlM_nil, bind_pure, bind_assoc, List.cons_append,
        List.nil_append]
      rw [takeProgram_dash hdash]
      cases hbegun : take .program reading _ with
      | error e => rfl
      | ok begun =>
          exact takeProgram_awaiting (awaiting?_of_take hopening hended hbegun) _ after

theorem takeProgram_respelled (hwords : Respelled words words') (hbefore : "--" ∉ before)
    {reading : Reading} (hended : reading.optionsEnded = false) (after : List String) :
    commandOf? (takeProgram reading (before ++ words ++ after)) =
      commandOf? (takeProgram reading (before ++ words' ++ after)) := by
  induction before generalizing reading with
  | nil =>
      rw [List.nil_append, List.nil_append, takeProgram_words hwords hended,
        takeProgram_words hwords.symm hended]
      exact congrArg Except.toOption (map_bind_hidden (take_respelled hwords hended) fun next =>
        takeProgram_hidden next after)
  | cons text before ih =>
      simp only [List.mem_cons, not_or] at hbefore
      obtain ⟨htext, hbefore⟩ := hbefore
      have htake : commandOf? (take .program reading text >>=
            (takeProgram · (before ++ words ++ after))) =
          commandOf? (take .program reading text >>=
            (takeProgram · (before ++ words' ++ after))) := by
        cases hnext : take .program reading text with
        | error e => rfl
        | ok next => exact ih hbefore (Keeps.take hended (Ne.symm htext) next hnext)
      simp only [List.cons_append, takeProgram]
      split
      · exact htake
      · split
        · rfl
        · split
          · exact congrArg Except.toOption (takeCommand_respelled hwords hbefore _ reading after)
          · exact htake

/-- Arguments that differ in a level only make the same command, or none of them makes one. -/
theorem commandOf?_of_levelChanged {arguments arguments' : List String}
    (h : LevelChanged arguments arguments') :
    commandOf? (Invocation.parse arguments) = commandOf? (Invocation.parse arguments') := by
  obtain ⟨before, after, hbefore, hwords⟩ := h
  exact takeProgram_respelled hwords hbefore rfl after

/-- Arguments that differ in any number of levels make the same command. -/
theorem exists_parse_of_levelsChanged {arguments arguments' : List String}
    (h : Relation.ReflTransGen LevelChanged arguments arguments') {invocation : Invocation}
    (hparse : Invocation.parse arguments = .ok invocation) :
    ∃ invocation', Invocation.parse arguments' = .ok invocation' ∧
      invocation'.command = invocation.command := by
  have hsame : commandOf? (Invocation.parse arguments') = some invocation.command := by
    induction h with
    | refl =>
        rw [hparse]
        rfl
    | tail _ hchanged ih => rw [← commandOf?_of_levelChanged hchanged, ih]
  cases hparse' : Invocation.parse arguments' with
  | error e =>
      rw [hparse'] at hsame
      cases hsame
  | ok invocation' =>
      rw [hparse'] at hsame
      exact ⟨invocation', rfl, Option.some.inj hsame⟩

end CommandLine

end Verdict
