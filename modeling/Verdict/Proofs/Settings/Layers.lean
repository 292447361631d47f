import Verdict.Proofs.Settings.Parts
import Verdict.Proofs.Steps

/-!
# Layered settings

Four layers are laid over what is handed in (`layersOf`): the file for all environments, that of the
environment, that of the service, and the variables. Where the two sections are tables, each setting
is read from its own key (`decode_of_opens`), and what is found there is made by the parts at this
key alone (`ofLayers_eq`). So a setting has the value that the last layer gives it, and no setting
depends on what the layers say of another one (`loadFrom_layered`).
-/

namespace Verdict

namespace Settings

open Setting (Entries layAt entriesOf)

/-! ## The parts of layers -/

/-- The parts of a layer at the names of the top. -/
def Layer.parts (layer : Layer) : List Part :=
  layer.filterMap fun entry =>
    match pathOf entry.1 with
    | .name key :: path => some ⟨key, path, entry.2⟩
    | _ => none

theorem exists_readName? {cs rest : List Char} {step : Setting.Step}
    (h : readName? cs = some (step, rest)) : ∃ name, step = .name name := by
  unfold readName? at h
  dsimp only at h
  split at h
  · cases h
  · cases h
    exact ⟨_, rfl⟩

theorem exists_readPath? {cs : List Char} {path : List Setting.Step}
    (h : readPath? cs = some path) : ∃ name steps, path = .name name :: steps := by
  unfold readPath? at h
  cases hfirst : readName? cs with
  | none =>
      rw [hfirst] at h
      cases h
  | some first =>
      obtain ⟨step, rest⟩ := first
      rw [hfirst] at h
      obtain ⟨name, rfl⟩ := exists_readName? hfirst
      obtain ⟨steps, -, rfl⟩ := Option.map_eq_some_iff.mp h
      exact ⟨name, steps, rfl⟩

/-- Every path begins with a name, also that of a key which spells no path. -/
theorem exists_pathOf (key : String) : ∃ name path, pathOf key = .name name :: path := by
  unfold pathOf
  cases h : readPath? key.toList with
  | none => exact ⟨key, [], rfl⟩
  | some path => exact exists_readPath? h

/-- A layer is laid over the settings so far part by part. -/
theorem entriesOf_layOver (below : Option Setting) (layer : Layer) :
    entriesOf (layOver below layer) = layer.parts.foldl Part.put (entriesOf below) := by
  induction layer generalizing below with
  | nil => rfl
  | cons entry layer ih =>
      obtain ⟨name, path, hpath⟩ := exists_pathOf entry.1
      have hparts : Layer.parts (entry :: layer) =
          ⟨name, path, entry.2⟩ :: Layer.parts layer := by
        rw [Layer.parts, List.filterMap_cons, hpath]
        rfl
      rw [hparts, List.foldl_cons, layOver, List.foldl_cons, hpath]
      exact ih _

theorem entriesOf_foldl_layOver (layers : List Layer) :
    entriesOf (layers.foldl layOver none) = (layers.flatMap Layer.parts).foldl Part.put .nil := by
  have h : ∀ below, entriesOf (layers.foldl layOver below) =
      (layers.flatMap Layer.parts).foldl Part.put (entriesOf below) := by
    induction layers with
    | nil => exact fun _ => rfl
    | cons layer layers ih =>
        intro below
        rw [List.foldl_cons, ih, entriesOf_layOver, List.flatMap_cons, List.foldl_append]
  exact h none

/-! ## The last value -/

/-- The parts of a layer at a key. -/
def Layer.partsAt (key : Key) (layer : Layer) : List Part :=
  key.partsAt layer.parts

/-- The value that a layer gives to a key: that of its last part there which gives one. -/
def Layer.value? (key : Key) (layer : Layer) : Option Setting :=
  (layer.partsAt key).reverse.findSome? Part.value?

/-- The value that the last layer gives to a key, of those layers that give it one. -/
def lastValue? (key : Key) (layers : List Layer) : Option Setting :=
  layers.reverse.findSome? (Layer.value? key)

/-- A layer keeps to the sections: whatever it says of `engine` and `observability` is a table. -/
def Layer.Sectioned (layer : Layer) : Prop :=
  ∀ part ∈ layer.parts, part.name ∈ ["engine", "observability"] → part.isTable

instance (layer : Layer) : Decidable layer.Sectioned :=
  inferInstanceAs (Decidable (∀ part ∈ layer.parts, _ → _))

theorem partsAt_flatMap (key : Key) (layers : List Layer) :
    key.partsAt (layers.flatMap Layer.parts) = layers.flatMap (Layer.partsAt key) := by
  rcases key with ⟨_ | heading, name⟩
  · exact List.filter_flatMap
  · rw [Key.partsAt, List.flatMap_assoc, List.filter_flatMap]
    rfl

theorem findSome?_flatMap {α β γ : Type} (f : α → List β) (g : β → Option γ) (xs : List α) :
    (xs.flatMap f).findSome? g = xs.findSome? fun x => (f x).findSome? g := by
  induction xs with
  | nil => rfl
  | cons x xs ih =>
      rw [List.flatMap_cons, List.findSome?_append, ih, List.findSome?_cons]
      cases (f x).findSome? g <;> rfl

theorem lastValue?_eq (key : Key) (layers : List Layer) :
    lastValue? key layers =
      (layers.flatMap (Layer.partsAt key)).reverse.findSome? Part.value? := by
  rw [List.reverse_flatMap, findSome?_flatMap]
  rfl

theorem lastValue?_cons (key : Key) (layer : Layer) (layers : List Layer) :
    lastValue? key (layer :: layers) = (lastValue? key layers).or (layer.value? key) := by
  rw [lastValue?, List.reverse_cons, List.findSome?_append, List.findSome?_singleton]
  rfl

/-! ## Decoding -/

namespace Key

/-- The key of the name of the service. -/
def serviceName : Key := ⟨none, "service_name"⟩

/-- The key of the environment. -/
def environment : Key := ⟨none, "environment"⟩

/-- The key of the flag for traces. -/
def traceEnabled : Key := ⟨some "engine", "trace_enabled"⟩

/-- The key of the level of the log. -/
def logLevel : Key := ⟨some "observability", "log_level"⟩

/-- The key of the form of the log. -/
def logFormat : Key := ⟨some "observability", "log_format"⟩

/-- The keys of all settings. -/
def all : List Key := [serviceName, environment, traceEnabled, logLevel, logFormat]

end Key

/-- The settings that are found under their keys. -/
def ofFound (found : Key → Option Setting) : Except SettingsFault Settings := do
  .ok {
    serviceName := ← textOr "" "service_name" (found .serviceName)
    environment := ← textOr "" "environment" (found .environment)
    traceEnabled := ← flagOf "engine.trace_enabled" (found .traceEnabled)
    logLevel := ← textOr "info" "observability.log_level" (found .logLevel)
    logFormat := ← textOr "pretty" "observability.log_format" (found .logFormat) }

theorem member?_of_opens {heading : String} {entries : Entries} (h : Opens heading entries)
    (key name : String) (place : Nat) :
    member? (entries.get? heading) key name place =
      .ok ((sectionOf heading entries).get? name) := by
  obtain hnone | ⟨table, htable⟩ := h
  · rw [sectionOf, hnone]
    rfl
  · rw [sectionOf, htable]
    rfl

/-- Where the sections are tables, every setting is read from its own key. -/
theorem decode_of_opens {merged : Option Setting} (hengine : Opens "engine" (entriesOf merged))
    (hobservability : Opens "observability" (entriesOf merged)) :
    decode merged = ofFound fun key => key.lookup (entriesOf merged) := by
  simp only [decode, member?_of_opens hengine, member?_of_opens hobservability]
  rfl

/-! ## Reading -/

/-- A setting is decided by layers: it has the value that the last layer gives to its key, as it is
read, or its default if no layer gives one. -/
structure Resolved {α : Type} (layers : List Layer) (key : Key) (read : Setting → Option α)
    (default value : α) : Prop where
  ofSome : ∀ {setting}, lastValue? key layers = some setting → read setting = some value
  ofNone : lastValue? key layers = none → value = default

theorem isScalar_of_toText? {setting : Setting} {text : String} (h : setting.toText? = some text) :
    IsScalar setting := by
  cases setting with
  | list items => cases h
  | table entries => cases h
  | _ => trivial

theorem isScalar_of_toBool? {setting : Setting} {value : Bool} (h : setting.toBool? = some value) :
    IsScalar setting := by
  cases setting with
  | list items => cases h
  | table entries => cases h
  | _ => trivial

/-- What was found was read, or nothing was found and the default is taken. -/
def ReadAs {α : Type} (found : Option Setting) (read : Setting → Option α) (default value : α) :
    Prop :=
  found = none ∧ value = default ∨ ∃ setting, found = some setting ∧ read setting = some value

/-- What is taken from a setting was read from it, if a setting that cannot be read is refused. -/
theorem readAs_of_eq_ok {α : Type} {take : Option Setting → Except SettingsFault α}
    {read : Setting → Option α} {default value : α} {found : Option Setting} (key : String)
    (h : take found = .ok value) (hnone : take none = .ok default)
    (hsome : ∀ setting, take (some setting) = (read setting).elim (.error (.wrongKind key)) .ok) :
    ReadAs found read default value := by
  cases found with
  | none => exact .inl ⟨rfl, Except.ok.inj (h.symm.trans hnone)⟩
  | some setting =>
      rw [hsome] at h
      cases hread : read setting with
      | none =>
          rw [hread] at h
          cases h
      | some taken =>
          rw [hread] at h
          cases h
          exact .inr ⟨setting, rfl, hread⟩

theorem readAs_of_textOr {other key text : String} {found : Option Setting}
    (h : textOr other key found = .ok text) : ReadAs found Setting.toText? other text := by
  refine readAs_of_eq_ok key h rfl fun setting => ?_
  rw [textOr]
  cases setting.toText? <;> rfl

theorem readAs_of_flagOf {key : String} {value : Bool} {found : Option Setting}
    (h : flagOf key found = .ok value) : ReadAs found Setting.toBool? false value := by
  refine readAs_of_eq_ok key h rfl fun setting => ?_
  rw [flagOf]
  cases setting.toBool? <;> rfl

theorem readAs_of_ofFound {found : Key → Option Setting} {settings : Settings}
    (h : ofFound found = .ok settings) :
    ReadAs (found .serviceName) Setting.toText? "" settings.serviceName ∧
    ReadAs (found .environment) Setting.toText? "" settings.environment ∧
    ReadAs (found .traceEnabled) Setting.toBool? false settings.traceEnabled ∧
    ReadAs (found .logLevel) Setting.toText? "info" settings.logLevel ∧
    ReadAs (found .logFormat) Setting.toText? "pretty" settings.logFormat := by
  obtain ⟨_, hservice, h⟩ := bind_eq_ok h
  obtain ⟨_, henvironment, h⟩ := bind_eq_ok h
  obtain ⟨_, htrace, h⟩ := bind_eq_ok h
  obtain ⟨_, hlevel, h⟩ := bind_eq_ok h
  obtain ⟨_, hformat, h⟩ := bind_eq_ok h
  cases h
  exact ⟨readAs_of_textOr hservice, readAs_of_textOr henvironment, readAs_of_flagOf htrace,
    readAs_of_textOr hlevel, readAs_of_textOr hformat⟩

/-- Where a scalar is found, the last layer gave it; where nothing is found, no layer did. -/
theorem resolved_of_readAs {α : Type} {layers : List Layer} {key : Key}
    {read : Setting → Option α} {default value : α}
    (hscalar : ∀ {setting value}, read setting = some value → IsScalar setting)
    (h : ReadAs ((layers.flatMap (Layer.partsAt key)).foldl Part.laidOver none) read default
      value) :
    Resolved layers key read default value := by
  obtain ⟨hnone, hdefault⟩ | ⟨setting, hfound, hread⟩ := h
  · have hlast : lastValue? key layers = none := by
      rw [lastValue?_eq, eq_nil_of_foldl_laidOver hnone]
      rfl
    exact ⟨fun hsome => absurd (hlast.symm.trans hsome) nofun, fun _ => hdefault⟩
  · have hlast : lastValue? key layers = some setting := by
      rw [lastValue?_eq]
      exact value?_of_foldl_laidOver (hscalar hread) hfound
    refine ⟨fun hsome => ?_, fun hnone => absurd (hlast.symm.trans hnone) nofun⟩
    rw [← Option.some.inj (hlast.symm.trans hsome)]
    exact hread

/-! ## What is handed in -/

/-- The layer that is handed in: it names the service and the environment. -/
def given (environment service : String) : Layer :=
  [("service_name", .text service), ("environment", .text environment)]

theorem parts_given (environment service : String) :
    Layer.parts (given environment service) =
      [⟨"service_name", [], .text service⟩, ⟨"environment", [], .text environment⟩] := by
  have hservice : pathOf "service_name" = [.name "service_name"] := by decide
  have henvironment : pathOf "environment" = [.name "environment"] := by decide
  simp only [Layer.parts, given, List.filterMap_cons, List.filterMap_nil, hservice, henvironment]

/-- What is handed in says something at two keys only. -/
theorem value?_given {environment service : String} (key : Key) :
    Layer.value? key (given environment service) =
      if key = .serviceName then some (.text service)
      else if key = .environment then some (.text environment)
      else none := by
  rw [Layer.value?, Layer.partsAt, parts_given]
  rcases key with ⟨_ | heading, name⟩
  · by_cases hservice : name = "service_name"
    · subst hservice
      rfl
    · by_cases henvironment : name = "environment"
      · subst henvironment
        rfl
      · simp [Key.partsAt, Key.serviceName, Key.environment, hservice, henvironment,
          Ne.symm hservice, Ne.symm henvironment]
  · simp [Key.partsAt, Key.serviceName, Key.environment, Part.inSection]

theorem sectioned_given (environment service : String) :
    Layer.Sectioned (given environment service) := by
  intro part hpart hsection
  rw [parts_given] at hpart
  simp only [List.mem_cons, List.not_mem_nil, or_false] at hpart
  rcases hpart with rfl | rfl <;> simp at hsection

section Given

variable {α : Type} {layer : Layer} {layers : List Layer} {key : Key}

theorem resolved_of_cons_none {read : Setting → Option α} {default value : α}
    (hnone : layer.value? key = none) (h : Resolved (layer :: layers) key read default value) :
    Resolved layers key read default value := by
  have hlast : lastValue? key (layer :: layers) = lastValue? key layers := by
    rw [lastValue?_cons, hnone, Option.or_none]
  exact ⟨fun hsome => h.ofSome (hlast.trans hsome), fun hnone => h.ofNone (hlast.trans hnone)⟩

/-- What is handed in is a default for what the layers above it say. -/
theorem resolved_of_cons_text {default text value : String}
    (htext : layer.value? key = some (.text text))
    (h : Resolved (layer :: layers) key Setting.toText? default value) :
    Resolved layers key Setting.toText? text value := by
  have hlast : lastValue? key (layer :: layers) =
      (lastValue? key layers).or (some (.text text)) := by rw [lastValue?_cons, htext]
  constructor
  · intro setting hsome
    rw [hsome] at hlast
    exact h.ofSome hlast
  · intro hnone
    rw [hnone] at hlast
    exact (Option.some.inj (h.ofSome hlast)).symm

end Given

/-! ## Loading -/

/-- The layers that are gathered, the later ones above the earlier: the file for all environments,
that of the environment, that of the service, and the variables. -/
def layersOf (files : Files) (vars : Variables) (directory environment service : String) :
    Except SettingsFault (List Layer) := do
  let general ← fileLayer files (below directory "default.toml")
  let ofEnvironment ← fileLayer files (below directory (environment ++ ".toml"))
  let ofService ← fileLayer files (below directory (service ++ ".toml"))
  .ok [general, ofEnvironment, ofService, variableLayer vars]

/-- The settings that layers make above what is handed in. -/
def ofLayers (environment service : String) (layers : List Layer) :
    Except SettingsFault Settings :=
  decode ((given environment service :: layers).foldl layOver none)

/-- Loading lays the layers over what is handed in. -/
theorem loadFrom_eq (files : Files) (vars : Variables) (directory environment service : String) :
    loadFrom files vars directory environment service =
      layersOf files vars directory environment service >>= ofLayers environment service := by
  rw [loadFrom, fileNames, layersOf]
  simp only [List.mapM_cons, List.mapM_nil, bind_assoc, pure_bind]
  rfl

theorem ofFound_congr {found found' : Key → Option Setting}
    (h : ∀ key ∈ Key.all, found key = found' key) : ofFound found = ofFound found' := by
  have hservice := h .serviceName (by decide)
  have henvironment := h .environment (by decide)
  have htrace := h .traceEnabled (by decide)
  have hlevel := h .logLevel (by decide)
  have hformat := h .logFormat (by decide)
  simp only [ofFound, hservice, henvironment, htrace, hlevel, hformat]

/-- Every setting is made by the parts at its own key. -/
theorem ofLayers_eq {environment service : String} {layers : List Layer}
    (hsectioned : ∀ layer ∈ layers, layer.Sectioned) :
    ofLayers environment service layers = ofFound fun key =>
      ((given environment service :: layers).flatMap (Layer.partsAt key)).foldl Part.laidOver
        none := by
  have htables : ∀ heading ∈ ["engine", "observability"],
      ∀ part ∈ (given environment service :: layers).flatMap Layer.parts,
        part.name = heading → part.isTable := by
    intro heading hsection part hpart hname
    obtain ⟨layer, hlayer, hpart⟩ := List.mem_flatMap.mp hpart
    rcases List.mem_cons.mp hlayer with rfl | hlayer
    · exact sectioned_given environment service part hpart (hname ▸ hsection)
    · exact hsectioned layer hlayer part hpart (hname ▸ hsection)
  have hopens : ∀ heading ∈ ["engine", "observability"],
      Opens heading (entriesOf ((given environment service :: layers).foldl layOver none)) := by
    intro heading hsection
    rw [entriesOf_foldl_layOver]
    exact opens_foldl_put (.inl rfl) (htables heading hsection)
  rw [ofLayers, decode_of_opens (hopens _ (by decide)) (hopens _ (by decide))]
  refine ofFound_congr fun key hkey => ?_
  have hsections : ∀ key ∈ Key.all, ∀ heading ∈ key.heading,
      heading ∈ ["engine", "observability"] := by decide
  have hrespects : key.Respects ((given environment service :: layers).flatMap Layer.parts) :=
    fun heading hsection => htables heading (hsections key hkey heading hsection)
  rw [entriesOf_foldl_layOver, Key.lookup_foldl hrespects, partsAt_flatMap]

/-- **Each setting is resolved on its own.** Let four layers be given in which `engine` and
`observability`, where they are mentioned, are tables, and let the settings be gathered from them.
Then each of the five settings has the value that the last of these layers gives to its key; if none
gives one, the names of the service and of the environment are those that were handed in, and the
others have their defaults. Whatever else is in the layers changes nothing: any other files and
variables with the same parts at the five keys make the same settings. -/
theorem loadFrom_layered {files : Files} {vars : Variables} {directory environment service : String}
    {layers : List Layer} (hlayers : layersOf files vars directory environment service = .ok layers)
    (hsectioned : ∀ layer ∈ layers, layer.Sectioned) {settings : Settings}
    (hload : loadFrom files vars directory environment service = .ok settings) :
    Resolved layers .serviceName Setting.toText? service settings.serviceName ∧
    Resolved layers .environment Setting.toText? environment settings.environment ∧
    Resolved layers .traceEnabled Setting.toBool? false settings.traceEnabled ∧
    Resolved layers .logLevel Setting.toText? "info" settings.logLevel ∧
    Resolved layers .logFormat Setting.toText? "pretty" settings.logFormat ∧
    ∀ files' vars' directory' layers',
      layersOf files' vars' directory' environment service = .ok layers' →
      (∀ layer ∈ layers', layer.Sectioned) →
      (∀ key ∈ Key.all,
        layers'.flatMap (Layer.partsAt key) = layers.flatMap (Layer.partsAt key)) →
      loadFrom files' vars' directory' environment service = .ok settings := by
  have hmade : ofLayers environment service layers = .ok settings := by
    rw [loadFrom_eq, hlayers] at hload
    exact hload
  have hfound := hmade
  rw [ofLayers_eq hsectioned] at hfound
  obtain ⟨hservice, henvironment, htrace, hlevel, hformat⟩ := readAs_of_ofFound hfound
  refine ⟨resolved_of_cons_text ?_ (resolved_of_readAs isScalar_of_toText? hservice),
    resolved_of_cons_text ?_ (resolved_of_readAs isScalar_of_toText? henvironment),
    resolved_of_cons_none ?_ (resolved_of_readAs isScalar_of_toBool? htrace),
    resolved_of_cons_none ?_ (resolved_of_readAs isScalar_of_toText? hlevel),
    resolved_of_cons_none ?_ (resolved_of_readAs isScalar_of_toText? hformat), ?_⟩
  · exact value?_given .serviceName
  · exact value?_given .environment
  · exact value?_given .traceEnabled
  · exact value?_given .logLevel
  · exact value?_given .logFormat
  · intro files' vars' directory' layers' hlayers' hsectioned' hsame
    rw [loadFrom_eq, hlayers']
    show ofLayers environment service layers' = _
    rw [ofLayers_eq hsectioned', ← hfound]
    refine ofFound_congr fun key hkey => ?_
    rw [List.flatMap_cons, List.flatMap_cons, hsame key hkey]

/-- A variable without a section names its key. -/
theorem variableLayer_environment (value : String) :
    variableLayer [("RULES_ENVIRONMENT", value)] = [("environment", ofVariable value)] := by
  have hname : "RULES_ENVIRONMENT".toLower.toList = "rules_environment".toList := by decide +kernel
  have hsplit : "environment".splitOn "__" = ["environment"] := by
    rw [String.splitOn, if_neg (by decide)]
    iterate 11
      rw [String.splitOnAux, if_neg (by decide +kernel), if_neg (by decide +kernel)]
    rw [String.splitOnAux, if_pos (by decide +kernel)]
    decide +kernel
  have hkey : String.ofList ("rules_environment".toList.drop variableStart.length) =
      "environment" := by decide +kernel
  have hstart : variableStart.isPrefixOf "rules_environment".toList = true := by decide +kernel
  simp only [variableLayer, List.filterMap_cons, List.filterMap_nil, hname, hstart, if_true, hkey,
    hsplit]
  rfl

/-- The level comes from the file of the environment, the form from the first file, whose section it
leaves alone, the flag from the file of the service, and the environment from a variable. -/
theorem loadFrom_layered_production :
    let files : Files := fun path =>
      if path = "cfg/default.toml" then
        .ok "[observability]\nlog_level = \"warn\"\nlog_format = \"json\"\n".toUTF8
      else if path = "cfg/production.toml" then
        .ok "[observability]\nlog_level = \"error\"\n".toUTF8
      else if path = "cfg/rule-engine.toml" then .ok "[engine]\ntrace_enabled = true\n".toUTF8
      else .error .missing
    ∃ layers,
      layersOf files [("RULES_ENVIRONMENT", "staging")] "cfg" "production" "rule-engine" =
        .ok layers ∧
      (∀ layer ∈ layers, layer.Sectioned) ∧
      loadFrom files [("RULES_ENVIRONMENT", "staging")] "cfg" "production" "rule-engine" =
        .ok ⟨"rule-engine", "staging", true, "error", "json"⟩ ∧
      Resolved layers .environment Setting.toText? "production" "staging" ∧
      Resolved layers .traceEnabled Setting.toBool? false true ∧
      Resolved layers .logLevel Setting.toText? "info" "error" ∧
      Resolved layers .logFormat Setting.toText? "pretty" "json" := by
  intro files
  have hvariables := variableLayer_environment "staging"
  let layers : List Layer := [
    [("observability", .table
      (.cons "log_level" (.text "warn") (.cons "log_format" (.text "json") .nil)))],
    [("observability", .table (.cons "log_level" (.text "error") .nil))],
    [("engine", .table (.cons "trace_enabled" (.bool true) .nil))],
    [("environment", .text "staging")]]
  have hlayers : layersOf files [("RULES_ENVIRONMENT", "staging")] "cfg" "production"
      "rule-engine" = .ok layers := by
    rw [layersOf, hvariables]
    decide +kernel
  have hsectioned : ∀ layer ∈ layers, layer.Sectioned := by decide +kernel
  have hload : loadFrom files [("RULES_ENVIRONMENT", "staging")] "cfg" "production"
      "rule-engine" = .ok ⟨"rule-engine", "staging", true, "error", "json"⟩ := by
    rw [loadFrom_eq, hlayers]
    decide +kernel
  obtain ⟨-, henvironment, htrace, hlevel, hformat, -⟩ := loadFrom_layered hlayers hsectioned hload
  exact ⟨layers, hlayers, hsectioned, hload, henvironment, htrace, hlevel, hformat⟩

end Settings

end Verdict
