import Verdict.Proofs.CommandLine.Spelling

/-!
# Options in the arguments

Behind the name of the command that evaluates, what is read is what the arguments give
(`takeAll_value?_iff`). `Taken` lists what one argument can do there, and `take_cases` says that it
does nothing else. From that come the two facts that everything else rests on: which values the
options hold behind an argument, stored or just begun (`take_holds_iff`), and which option awaits its
value there (`take_awaits_iff`).
-/

namespace Verdict

namespace CommandLine

/-! ## Values of options -/

namespace Reading

/-- An option has a value, which is stored or has just been read. -/
def Holds (reading : Reading) (option : ValueOption) (value : String) : Prop :=
  reading.value? option = some value ∨ reading.pending = .option option (some value)

variable {reading next : Reading} {option : ValueOption} {value : String}

/-- An option that is stored had no value before, and all others keep theirs. -/
theorem store_eq_ok (h : reading.store option value = .ok next) :
    next.pending = reading.pending ∧ reading.value? option = none ∧
      ∀ other, next.value? other = if other = option then some value else reading.value? other := by
  unfold store at h
  split at h
  · cases h
  · next hsome =>
      have hnone : reading.value? option = none := Option.not_isSome_iff_eq_none.mp hsome
      cases option with
      | tree =>
          split at h
          · next heq => cases heq
          · next heq => cases heq
          · split at h
            · cases h
            · cases h
              exact ⟨rfl, hnone, fun other => by cases other <;> rfl⟩
          · next heq => cases heq
      | _ =>
          cases h
          exact ⟨rfl, hnone, fun other => by cases other <;> rfl⟩

theorem holds_of_pending (h : reading.pending = .nothing) :
    reading.Holds option value ↔ reading.value? option = some value := by
  simp [Holds, h]

theorem store_holds (hpending : reading.pending = .nothing)
    (h : reading.store option value = .ok next) (other : ValueOption) (text : String) :
    next.Holds other text ↔ reading.Holds other text ∨ (other = option ∧ value = text) := by
  obtain ⟨hnext, hnone, hvalue⟩ := store_eq_ok h
  rw [holds_of_pending (hnext.trans hpending), holds_of_pending hpending, hvalue]
  split
  · next heq =>
      subst heq
      simp [hnone]
  · next hne => simp [hne]

/-- Settling keeps all values, and nothing is left begun. -/
theorem settle_eq_ok (h : reading.settle = .ok next) :
    next.pending = .nothing ∧
      ∀ option value, next.Holds option value ↔ reading.Holds option value := by
  unfold settle at h
  split at h
  · next hpending =>
      cases h
      exact ⟨hpending, fun _ _ => Iff.rfl⟩
  · cases h
  · next begun text hpending =>
      have hcleared : ({ reading with pending := .nothing } : Reading).pending = .nothing := rfl
      refine ⟨(store_eq_ok h).1, fun option value => ?_⟩
      rw [store_holds hcleared h, holds_of_pending hcleared, Holds, hpending]
      refine or_congr Iff.rfl ?_
      simp [eq_comm]
  · next values hpending =>
      cases h
      refine ⟨rfl, fun option value => ?_⟩
      cases option <;> simp [Holds, value?, hpending]

/-- A flag is settled behind what was begun before it. -/
theorem flag_eq_ok {argument : Argument} (h : reading.flag argument = .ok next) :
    argument ≠ .help ∧ argument ≠ .version ∧ next.pending = .nothing ∧
      ∀ option value, next.Holds option value ↔ reading.Holds option value := by
  obtain ⟨settled, hsettle, h⟩ := bind_eq_ok h
  obtain ⟨hpending, hholds⟩ := settle_eq_ok hsettle
  split at h
  · cases h
  · cases h
  · next hhelp hversion =>
      split at h
      · cases h
      · cases h
        refine ⟨fun h => hhelp h, fun h => hversion h, hpending, fun option value => ?_⟩
        rw [← hholds]
        cases option <;> rfl

/-- What an option with a value does: the value is stored, or it is awaited. -/
theorem valued_eq_ok {attached : Option String} (h : reading.valued option attached = .ok next) :
    (attached = none → next.awaiting? = some option) ∧
      (attached ≠ none → next.pending = .nothing) ∧
      ∀ other text, next.Holds other text ↔
        reading.Holds other text ∨ (other = option ∧ attached = some text) := by
  obtain ⟨settled, hsettle, h⟩ := bind_eq_ok h
  obtain ⟨hpending, hholds⟩ := settle_eq_ok hsettle
  cases attached with
  | none =>
      cases h
      refine ⟨fun _ => rfl, fun hne => absurd rfl hne, fun other text => ?_⟩
      rw [← hholds, holds_of_pending hpending]
      cases other <;> simp [Holds, value?]
  | some value =>
      refine ⟨fun hnone => absurd hnone (Option.some_ne_none value),
        fun _ => (store_eq_ok h).1.trans hpending, fun other text => ?_⟩
      rw [store_holds hpending h, hholds, Option.some.injEq]

end Reading

/-! ## One argument -/

section Take

variable {place : Place} {reading next : Reading} {option : ValueOption} {text value : String}
  {attached : Option String} {rest : List Char}

/-- What is made of the option behind a name, with the value that stands behind the name. -/
def takeNamed (reading : Reading) (attached : Option String) :
    Option Argument → Except Usage Reading
  | none => .error .unknownArgument
  | some (.valued option) => reading.valued option attached
  | some argument => if attached.isSome then .error .surplusValue else reading.flag argument

theorem takeLong_behind (place : Place) (reading : Reading) {name : List Char} (hname : '=' ∉ name)
    (hrest : Behind false attached rest) :
    takeLong place reading (name ++ rest) =
      takeNamed reading attached (long? place (String.ofList name)) := by
  have hall : ∀ c ∈ name, (c != '=') = true := fun c hc => by
    rw [bne_iff_ne]
    rintro rfl
    exact hname hc
  have hfront : (name ++ rest).takeWhile (· != '=') = name := by
    rw [List.takeWhile_append_of_pos hall]
    cases hrest <;> exact List.append_nil name
  simp only [takeLong, hfront, List.drop_left]
  cases hrest with
  | nothing => rfl
  | equals value =>
      simp only [String.ofList_toList]
      rfl

/-- An option takes what stands behind its letter. -/
theorem takeLetters_behind (reading : Reading) {letter : Char}
    (hletter : short? place letter = some (.valued option)) (hrest : Behind true attached rest) :
    takeLetters place reading (letter :: rest) = reading.valued option attached := by
  cases hrest with
  | nothing => simp only [takeLetters, hletter]
  | equals value => simp only [takeLetters, hletter, String.ofList_toList]
  | @joined value hvalue =>
      obtain ⟨c, cs, hlist, hc⟩ := hvalue
      have hjoined : String.ofList (c :: cs) = value := by rw [← hlist, String.ofList_toList]
      rw [hlist]
      simp only [takeLetters, hletter]
      split
      · next h => cases h
      · next h => cases h; exact absurd rfl hc
      · rw [hjoined]

/-- Behind two dashes there is a name. -/
theorem take_dashes {cs : List Char} (hended : reading.optionsEnded = false) (hcs : cs ≠ [])
    (htext : text.toList = '-' :: '-' :: cs) :
    take place reading text = takeLong place reading cs := by
  unfold take
  rw [hended, htext]
  split
  · next htrue => cases htrue
  · split
    · next h => cases h; exact absurd rfl hcs
    · next h => cases h; rfl
    · next hnot h => cases h; exact absurd rfl hnot
    · next h => exact absurd rfl (h '-' cs)

/-- An argument that names an option is taken for it, after the flags before it. -/
theorem take_spelled (h : Spells option attached text) (hended : reading.optionsEnded = false) :
    ∃ flags, take .evaluate reading text =
      takeLetters .evaluate reading (List.replicate flags 't') >>= (·.valued option attached) := by
  rcases h.shape with ⟨rest, hrest, htext⟩ | ⟨flags, rest, hrest, htext⟩
  · refine ⟨0, ?_⟩
    rw [take_dashes hended (List.append_ne_nil_of_left_ne_nil (name_ne_nil option) rest) htext,
      takeLong_behind _ _ (equals_notMem_name option) hrest, String.ofList_toList, long?_name]
    rfl
  · refine ⟨flags, ?_⟩
    rw [take_letters hended (letter_ne_dash option) htext]
    exact bind_congr fun flagged => takeLetters_behind flagged (short?_letter option) hrest

/-- Letters are flags, and then perhaps the letter of an option with what stands behind it. -/
theorem letters_cases {letters : List Char} (h : takeLetters .evaluate reading letters = .ok next) :
    ∃ flags flagged, takeLetters .evaluate reading (List.replicate flags 't') = .ok flagged ∧
      ((letters = List.replicate flags 't' ∧ flagged = next) ∨
        ∃ option attached rest, letters = List.replicate flags 't' ++ option.letter :: rest ∧
          Behind true attached rest ∧ flagged.valued option attached = .ok next) := by
  induction letters generalizing reading with
  | nil =>
      refine ⟨0, reading, rfl, .inl ⟨rfl, ?_⟩⟩
      exact Except.ok.inj h
  | cons letter rest ih =>
      cases hletter : short? .evaluate letter with
      | none =>
          simp only [takeLetters, hletter] at h
          cases h
      | some argument =>
          cases argument with
          | valued option =>
              obtain ⟨attached, hrest⟩ := exists_behind rest
              rw [takeLetters_behind reading hletter hrest] at h
              refine ⟨0, reading, rfl, .inr ⟨option, attached, rest, ?_, hrest, h⟩⟩
              rw [letter_of_short? hletter]
              rfl
          | trace =>
              obtain rfl := eq_of_short?_trace hletter
              obtain ⟨flagged, hflag, h⟩ := bind_eq_ok h
              obtain ⟨flags, last, hlast, hcases⟩ := ih h
              have hflags : takeLetters .evaluate reading (List.replicate (flags + 1) 't') =
                  .ok last := by
                show (reading.flag .trace >>= fun r => takeLetters .evaluate r _) = _
                rw [hflag]
                exact hlast
              refine ⟨flags + 1, last, hflags, ?_⟩
              rcases hcases with ⟨rfl, rfl⟩ | ⟨option, attached, more, rfl, hmore, hvalued⟩
              · exact .inl ⟨rfl, rfl⟩
              · exact .inr ⟨option, attached, more, rfl, hmore, hvalued⟩
          | help =>
              simp only [takeLetters, hletter] at h
              obtain ⟨_, hflag, -⟩ := bind_eq_ok h
              exact absurd rfl (Reading.flag_eq_ok hflag).1
          | version =>
              simp only [takeLetters, hletter] at h
              obtain ⟨_, hflag, -⟩ := bind_eq_ok h
              exact absurd rfl (Reading.flag_eq_ok hflag).2.1

/-- What one argument behind the name of the command can do. -/
inductive Taken (reading : Reading) (text : String) (next : Reading) : Prop where
  /-- It ends the options. -/
  | dashes (htext : text = "--") (hnext : next = { reading with optionsEnded := true })
  /-- It is the value that is awaited. -/
  | value {option : ValueOption} (hawaiting : reading.awaiting? = some option)
    (htext : IsValue text) (hnext : next = { reading with pending := .option option (some text) })
  /-- It sets flags. -/
  | flags {count : Nat}
    (hflags : takeLetters .evaluate reading (List.replicate (count + 1) 't') = .ok next)
  /-- It names an option behind any number of flags. -/
  | spelled {count : Nat} {flagged : Reading} {option : ValueOption} {attached : Option String}
    (hflags : takeLetters .evaluate reading (List.replicate count 't') = .ok flagged)
    (htext : Spells option attached text) (hnext : flagged.valued option attached = .ok next)

/-- Behind two dashes there is the flag or an option. -/
theorem taken_of_takeLong {cs : List Char} (htext : text.toList = '-' :: '-' :: cs)
    (h : takeLong .evaluate reading cs = .ok next) : Taken reading text next := by
  obtain ⟨name, attached, rest, rfl, hname, hrest⟩ := exists_name cs
  rw [takeLong_behind _ _ hname hrest] at h
  unfold takeNamed at h
  split at h
  · cases h
  · next option hlong =>
      have hflags : takeLetters .evaluate reading (List.replicate 0 't') = .ok reading := rfl
      refine .spelled hflags (spells_of_long hrest ?_) h
      rw [htext, ← name_of_long? hlong, String.toList_ofList]
  · next argument hvalued hlong =>
      split at h
      · cases h
      · obtain ⟨hhelp, hversion, -⟩ := Reading.flag_eq_ok h
        cases argument with
        | help => exact absurd rfl hhelp
        | version => exact absurd rfl hversion
        | valued option => exact (hvalued option rfl).elim
        | trace =>
            have hflags : takeLetters .evaluate reading (List.replicate (0 + 1) 't') = .ok next := by
              show (reading.flag .trace >>= fun r => takeLetters .evaluate r []) = _
              rw [h]
              rfl
            exact .flags hflags

theorem taken_of_takeLetters {letter : Char} {letters : List Char}
    (htext : text.toList = '-' :: letter :: letters)
    (h : takeLetters .evaluate reading (letter :: letters) = .ok next) :
    Taken reading text next := by
  obtain ⟨flags, flagged, hflags, hcases⟩ := letters_cases h
  rcases hcases with ⟨hletters, rfl⟩ | ⟨option, attached, rest, hletters, hrest, hnext⟩
  · cases flags with
    | zero => cases hletters
    | succ count => exact .flags hflags
  · rw [hletters] at htext
    exact .spelled hflags (spells_of_short hrest htext) hnext

/-- Every argument that is taken does one of these things. -/
theorem take_cases (hended : reading.optionsEnded = false)
    (h : take .evaluate reading text = .ok next) : Taken reading text next := by
  unfold take at h
  rw [if_neg (Bool.not_eq_true _ ▸ hended)] at h
  split at h
  · next htext =>
      cases h
      exact .dashes (String.toList_injective htext) rfl
  · next htext => exact taken_of_takeLong htext h
  · next htext => exact taken_of_takeLetters htext h
  · next hplain =>
      split at h
      · next option hawaiting =>
          cases h
          refine .value hawaiting (fun cs hcs => ?_) rfl
          cases cs with
          | nil => rfl
          | cons letter letters => exact absurd hcs (hplain letter letters)
      · cases h

/-- Flags change no value. -/
theorem flags_eq_ok {count : Nat}
    (h : takeLetters .evaluate reading (List.replicate count 't') = .ok next) :
    (0 < count → next.pending = .nothing) ∧
      ∀ option value, next.Holds option value ↔ reading.Holds option value := by
  induction count generalizing reading with
  | zero =>
      cases h
      exact ⟨fun hlt => absurd hlt (Nat.lt_irrefl 0), fun _ _ => Iff.rfl⟩
  | succ count ih =>
      obtain ⟨flagged, hflag, h⟩ := bind_eq_ok h
      obtain ⟨-, -, hpending, hholds⟩ := Reading.flag_eq_ok hflag
      obtain ⟨hnext, hkept⟩ := ih h
      refine ⟨fun _ => ?_, fun option value => (hkept option value).trans (hholds option value)⟩
      cases count with
      | zero =>
          cases h
          exact hpending
      | succ count => exact hnext count.succ_pos

/-- Once the options have ended, no argument is taken. -/
theorem optionsEnded_of_take (htake : take .evaluate reading text = .ok next) :
    reading.optionsEnded = false := by
  refine Bool.eq_false_iff.mpr fun hended => ?_
  unfold take at htake
  rw [if_pos hended] at htake
  cases htake

/-- Only two dashes end the options. -/
theorem ne_dashes_of_take (hended : reading.optionsEnded = false)
    (htake : take place reading text = .ok next) (hnext : next.optionsEnded = false) :
    text ≠ "--" := by
  rintro rfl
  unfold take at htake
  rw [hended] at htake
  cases htake
  cases hnext

/-- No argument takes a value away. -/
theorem holds_of_take (htake : take .evaluate reading text = .ok next)
    (h : reading.Holds option value) : next.Holds option value := by
  cases take_cases (optionsEnded_of_take htake) htake with
  | dashes htext hnext =>
      subst hnext
      cases option <;> exact h
  | value hawaiting htext hnext =>
      subst hnext
      rcases h with hvalue | hpending
      · refine .inl ?_
        cases option <;> exact hvalue
      · -- what awaits its value holds none
        rw [Reading.awaiting?, hpending] at hawaiting
        cases hawaiting
  | flags hflags => exact ((flags_eq_ok hflags).2 option value).mpr h
  | spelled hflags htext hnext =>
      refine ((Reading.valued_eq_ok hnext).2.2 option value).mpr (.inl ?_)
      exact ((flags_eq_ok hflags).2 option value).mpr h

/-- Behind an argument, an option has the value that it had before, or one that the argument gives
it: with the option, or as the value that the option awaits. -/
theorem take_holds_iff (htake : take .evaluate reading text = .ok next) :
    next.Holds option value ↔ reading.Holds option value ∨ Spells option (some value) text ∨
      (reading.awaiting? = some option ∧ IsValue text ∧ text = value) := by
  have hended := optionsEnded_of_take htake
  constructor
  · intro h
    cases take_cases hended htake with
    | dashes htext hnext =>
        subst hnext
        refine .inl ?_
        cases option <;> exact h
    | value hawaiting htext hnext =>
        subst hnext
        rcases h with hvalue | hpending
        · refine .inl (.inl ?_)
          cases option <;> exact hvalue
        · obtain ⟨rfl, hgiven⟩ := Pending.option.inj hpending
          exact .inr (.inr ⟨hawaiting, htext, Option.some.inj hgiven⟩)
    | flags hflags => exact .inl (((flags_eq_ok hflags).2 option value).mp h)
    | spelled hflags htext hnext =>
        rcases ((Reading.valued_eq_ok hnext).2.2 option value).mp h with hold | ⟨rfl, rfl⟩
        · exact .inl (((flags_eq_ok hflags).2 option value).mp hold)
        · exact .inr (.inl htext)
  · rintro (h | htext | ⟨hawaiting, htext, rfl⟩)
    · exact holds_of_take htake h
    · obtain ⟨flags, hspelled⟩ := take_spelled htext hended
      obtain ⟨flagged, -, hnext⟩ := bind_eq_ok (hspelled.symm.trans htake)
      exact ((Reading.valued_eq_ok hnext).2.2 option value).mpr (.inr ⟨rfl, rfl⟩)
    · rw [take_value hended hawaiting htext] at htake
      cases htake
      exact .inr rfl

/-- As long as the options have not ended, an option awaits its value exactly behind the argument
that names it without one. -/
theorem take_awaits_iff (htake : take .evaluate reading text = .ok next)
    (hnext : next.optionsEnded = false) :
    next.awaiting? = some option ↔ Spells option none text := by
  have hended := optionsEnded_of_take htake
  constructor
  · intro h
    cases take_cases hended htake with
    | dashes htext _ => exact absurd htext (ne_dashes_of_take hended htake hnext)
    | value _ _ hvalue =>
        subst hvalue
        cases h
    | flags hflags =>
        rw [Reading.awaiting?, (flags_eq_ok hflags).1 (Nat.succ_pos _)] at h
        cases h
    | @spelled _ _ _ attached _ htext hvalued =>
        obtain ⟨hawaited, hstored, -⟩ := Reading.valued_eq_ok hvalued
        cases attached with
        | none =>
            obtain rfl := Option.some.inj ((hawaited rfl).symm.trans h)
            exact htext
        | some value =>
            rw [Reading.awaiting?, hstored (Option.some_ne_none value)] at h
            cases h
  · intro htext
    obtain ⟨flags, hspelled⟩ := take_spelled htext hended
    obtain ⟨flagged, -, hvalued⟩ := bind_eq_ok (hspelled.symm.trans htake)
    exact (Reading.valued_eq_ok hvalued).1 rfl

end Take

/-! ## All arguments -/

section TakeAll

variable {place : Place} {reading next last : Reading} {option : ValueOption}
  {value text : String} {seen words texts : List String}

theorem GivenIn.append (h : GivenIn seen option value) (more : List String) :
    GivenIn (seen ++ more) option value := by
  obtain ⟨before, words, after, rfl, hbefore, hwords⟩ := h
  exact ⟨before, words, after ++ more, by simp only [List.append_assoc], hbefore, hwords⟩

/-- What has been read was given by the arguments so far, and the option that awaits its value is
the last of them. -/
structure Tracked (seen : List String) (reading : Reading) : Prop where
  given : ∀ option value, reading.Holds option value → GivenIn seen option value
  unended : reading.optionsEnded = false → "--" ∉ seen
  begun : reading.optionsEnded = false → ∀ option, reading.awaiting? = some option →
    ∃ front opening, seen = front ++ [opening] ∧ Spells option none opening

theorem Tracked.start : Tracked [] .start where
  given option value h := by cases option <;> rcases h with h | h <;> cases h
  unended _ := List.not_mem_nil
  begun _ option h := nomatch h

theorem Tracked.take (h : Tracked seen reading) (htake : take .evaluate reading text = .ok next) :
    Tracked (seen ++ [text]) next := by
  have hended := optionsEnded_of_take htake
  have hdashes := h.unended hended
  refine ⟨fun option value hholds => ?_, fun hnext => ?_, fun hnext option hawaiting => ?_⟩
  · rcases (take_holds_iff htake).mp hholds with hold | htext | ⟨hawaiting, htext, rfl⟩
    · exact (h.given option value hold).append [text]
    · exact ⟨seen, [text], [], (List.append_nil _).symm, hdashes, .together htext⟩
    · obtain ⟨front, opening, rfl, hopening⟩ := h.begun hended option hawaiting
      refine ⟨front, [opening, text], [], ?_, ?_, .apart hopening htext⟩
      · simp
      · exact fun hfront => hdashes (List.mem_append_left _ hfront)
  · simp only [List.mem_append, List.mem_singleton, not_or]
    exact ⟨hdashes, Ne.symm (ne_dashes_of_take hended htake hnext)⟩
  · exact ⟨seen, text, rfl, (take_awaits_iff htake hnext).mp hawaiting⟩

/-- Behind all arguments, every value was given. -/
theorem Tracked.takeAll (h : Tracked seen reading)
    (hlast : takeAll .evaluate reading texts = .ok last) (hvalue : last.value? option = some value) :
    GivenIn (seen ++ texts) option value := by
  induction texts generalizing seen reading with
  | nil =>
      rw [List.append_nil]
      exact h.given option value (((Reading.settle_eq_ok hlast).2 option value).mp (.inl hvalue))
  | cons text texts ih =>
      obtain ⟨next, hnext, hrest⟩ := bind_eq_ok hlast
      have happend := ih (h.take hnext) hrest
      rwa [List.append_assoc, List.singleton_append] at happend

/-- A value that is held is there behind all arguments. -/
theorem value?_of_holds (hlast : takeAll .evaluate reading texts = .ok last)
    (h : reading.Holds option value) : last.value? option = some value := by
  induction texts generalizing reading with
  | nil =>
      obtain ⟨hpending, hholds⟩ := Reading.settle_eq_ok hlast
      exact (Reading.holds_of_pending hpending).mp ((hholds option value).mpr h)
  | cons text texts ih =>
      obtain ⟨next, hnext, hrest⟩ := bind_eq_ok hlast
      exact ih hrest (holds_of_take hnext h)

/-- Words that give an option its value leave it with this value. -/
theorem holds_of_gives (h : Gives option value words) (hended : reading.optionsEnded = false)
    (hwords : words.foldlM (take .evaluate) reading = .ok next) : next.Holds option value := by
  cases h with
  | together htext =>
      simp only [List.foldlM_cons, List.foldlM_nil, bind_pure] at hwords
      exact (take_holds_iff hwords).mpr (.inr (.inl htext))
  | apart hopening hvalue =>
      simp only [List.foldlM_cons, List.foldlM_nil, bind_pure] at hwords
      obtain ⟨begun, hbegun, hnext⟩ := bind_eq_ok hwords
      have hunended := Keeps.take hended hopening.ne_dashes begun hbegun
      have hawaiting := (take_awaits_iff hbegun hunended).mpr hopening
      exact (take_holds_iff hnext).mpr (.inr (.inr ⟨hawaiting, hvalue, rfl⟩))

/-- Arguments without the two dashes do not end the options. -/
theorem Keeps.foldlM (hended : reading.optionsEnded = false) (htexts : "--" ∉ texts) :
    Keeps false (texts.foldlM (CommandLine.take place) reading) := by
  induction texts generalizing reading with
  | nil => exact .ok hended
  | cons text texts ih =>
      simp only [List.mem_cons, not_or] at htexts
      rw [List.foldlM_cons]
      exact .bind (.take hended (Ne.symm htexts.1)) fun next hnext => ih hnext htexts.2

/-- An option that is given has its value behind all arguments. -/
theorem value?_of_givenIn (h : GivenIn texts option value) (hended : reading.optionsEnded = false)
    (hlast : takeAll .evaluate reading texts = .ok last) : last.value? option = some value := by
  obtain ⟨before, words, after, rfl, hbefore, hwords⟩ := h
  rw [List.append_assoc, takeAll_append] at hlast
  obtain ⟨first, hfirst, hlast⟩ := bind_eq_ok hlast
  rw [takeAll_append] at hlast
  obtain ⟨second, hsecond, hlast⟩ := bind_eq_ok hlast
  exact value?_of_holds hlast
    (holds_of_gives hwords (Keeps.foldlM hended hbefore first hfirst) hsecond)

/-- Behind the name of the command, an option has the value that the arguments give it. -/
theorem takeAll_value?_iff (hlast : takeAll .evaluate .start texts = .ok last)
    (option : ValueOption) (value : String) :
    last.value? option = some value ↔ GivenIn texts option value :=
  ⟨Tracked.start.takeAll hlast, fun h => value?_of_givenIn h rfl hlast⟩

end TakeAll

end CommandLine

end Verdict
