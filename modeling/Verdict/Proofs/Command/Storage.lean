import Mathlib.Control.Monad.Basic
import Verdict.Command
import Verdict.Proofs.Tree.Accepted
import Verdict.Proofs.Tree.Storage

/-!
# Evaluating what was printed

Two commands print a tree. `Command.StandsFor` says of a printed text that it is as good as its
tree: a file that holds the text evaluates like the tree, with the same output and the same
failures, and so does the stored form of the tree. `printed_standsFor` shows this of everything
that the two commands print.
-/

namespace Verdict

/-- A file that holds a text is read as this text. -/
theorem Files.text_of_toUTF8 {files : Files} {path text : String}
    (h : files path = .ok text.toUTF8) : files.text path = .ok text := by
  -- the bytes of a text are valid by construction
  have hvalid : String.fromUTF8? text.toUTF8 = some text := dif_pos text.isValidUTF8
  rw [Files.text, h]
  simp only [hvalid]

namespace Command

/-- What it comes to to evaluate a tree on the text of a record. -/
def outcome (tree : Tree) (data : String) (traced : Bool) : Except CommandError String :=
  match Record.ofJsonText data with
  | .error fault => .error (.record fault)
  | .ok record => verdict tree record traced

/-- A text is as good as a tree: evaluating a file that holds the text, white space behind it or
not, is evaluating the tree, and so is evaluating its stored form. -/
def StandsFor (text : String) (tree : Tree) : Prop :=
  (∀ (files : Files) (path blank : String), (∀ c ∈ blank.toList, Json.isSpace c) →
    files path = .ok (text ++ blank).toUTF8 → ∀ (traceAll trace : Bool) (data : String),
      (run files traceAll (.evaluate none (some path) data trace)).result =
        outcome tree data (trace || traceAll)) ∧
  ∀ data : Json, Tree.evaluateStored tree.toJson data =
    match Record.ofJson data with
    | .error fault => .error (.json fault)
    | .ok record => tree.evaluate record

/-! ## Evaluating -/

/-- Once the tree is found, a command evaluates it on its data. -/
theorem result_evaluate {files : Files} {rule path : Option String} {tree : Tree}
    (h : treeOf files rule path = .ok tree) (traceAll trace : Bool) (data : String) :
    (run files traceAll (.evaluate rule path data trace)).result =
      outcome tree data (trace || traceAll) := by
  simp only [run, runEvaluate, h, outcome]
  cases Record.ofJsonText data <;> rfl

/-- A printed tree of known symbols within the levels is as good as the tree. -/
theorem standsFor_pretty {tree : Tree} (hknown : tree.Known) (hdepth : tree.depth ≤ maxLevels) :
    StandsFor tree.toJson.pretty tree := by
  constructor
  · intro files path blank hblank hfile traceAll trace data
    have hload : treeOf files none (some path) = .ok tree := by
      rw [treeOf, loadTree, Files.text_of_toUTF8 hfile]
      simp only [Tree.ofJsonText_pretty hknown hdepth hblank]
      rfl
    exact result_evaluate hload traceAll trace data
  · intro data
    cases hrecord : Record.ofJson data <;>
      simp only [Tree.evaluateStored, Tree.ofJson_toJson hknown hdepth, hrecord]

/-! ## Printing -/

/-- A result whose success is worked on comes from a success. -/
private theorem map_mapError_eq_ok_iff {ε ε' α β : Type} {x : Except ε α} {f : ε → ε'} {g : α → β}
    {b : β} : (x.mapError f).map g = .ok b ↔ ∃ a, x = .ok a ∧ g a = b := by
  cases x with
  | error e => exact ⟨fun h => (nomatch h), fun ⟨_, h, _⟩ => (nomatch h)⟩
  | ok a =>
      refine ⟨fun h => ⟨a, rfl, Except.ok.inj h⟩, ?_⟩
      rintro ⟨_, h, hb⟩
      cases h
      exact congrArg Except.ok hb

theorem result_runParse {rule text : String} :
    (runParse rule).result = .ok text ↔
      ∃ tree, Tree.parse rule = .ok tree ∧ tree.toJson.pretty = text :=
  map_mapError_eq_ok_iff

theorem result_runCombine {rules : List String} {text : String} :
    (runCombine rules).result = .ok text ↔
      ∃ tree, Tree.anyOf rules = .ok tree ∧ tree.toJson.pretty = text :=
  map_mapError_eq_ok_iff

/-- **Storing never changes a verdict.** What is printed of a rule is as good as its tree, and so
as the rule itself, and what is printed of several rules is as good as their joined tree. -/
theorem printed_standsFor :
    (∀ rule text : String, (runParse rule).result = .ok text →
      ∃ tree, Tree.parse rule = .ok tree ∧ StandsFor text tree ∧
        ∀ (files : Files) (traceAll trace : Bool) (data : String),
          (run files traceAll (.evaluate (some rule) none data trace)).result =
            outcome tree data (trace || traceAll)) ∧
    ∀ (rules : List String) (text : String), (runCombine rules).result = .ok text →
      ∃ tree, Tree.anyOf rules = .ok tree ∧ StandsFor text tree := by
  constructor
  · intro rule text h
    obtain ⟨tree, hparse, rfl⟩ := result_runParse.mp h
    refine ⟨tree, hparse,
      standsFor_pretty (Tree.known_of_parse hparse) (Tree.depth_le_of_parse hparse), ?_⟩
    intro files traceAll trace data
    refine result_evaluate ?_ traceAll trace data
    rw [treeOf, hparse]
    rfl
  · intro rules text h
    obtain ⟨tree, hany, rfl⟩ := result_runCombine.mp h
    exact ⟨tree, hany, standsFor_pretty (Tree.known_of_anyOf hany) (Tree.depth_le_of_anyOf hany)⟩

/-- An operand of a quote, a backslash, a control and a letter is printed, and the file that holds
the output, with a line break behind it, evaluates like the rule. -/
theorem printed_standsFor_escapes :
    let rule := "a=\"\\\x01é"
    let tree := Tree.binary .eq (.operand "a") (.operand "\"\\\x01é")
    let joined := Tree.binary .or tree tree
    let files : Files := fun _ => .ok (tree.toJson.pretty ++ "\n").toUTF8
    (runParse rule).result = .ok tree.toJson.pretty ∧
      (run files true (.evaluate none (some "tree.json") "\x7b\x7d" false)).result =
        outcome tree "\x7b\x7d" true ∧
      outcome tree "\x7b\x7d" false = .ok "\x7b\n  \"result\": false\n\x7d" ∧
      (runCombine [rule, rule]).result = .ok joined.toJson.pretty ∧
      StandsFor joined.toJson.pretty joined := by
  intro rule tree joined files
  have hparse : Tree.parse rule = .ok tree := by
    refine Tree.parse_eq_ok_iff.mpr
      ⟨[.operand "a", .operator .eq, .operand "\"\\\x01é"], ?_, ?_, rfl⟩
    all_goals decide +kernel
  have hany : Tree.anyOf [rule, rule] = .ok joined := by
    show (List.mapM Tree.parse [rule, rule]).bind _ = _
    simp only [List.mapM_cons, hparse]
    decide +kernel
  have hblank : ∀ c ∈ "\n".toList, Json.isSpace c := List.all_eq_true.mp rfl
  have hprinted := result_runParse.mpr ⟨tree, hparse, rfl⟩
  have hcombined := result_runCombine.mpr ⟨joined, hany, rfl⟩
  obtain ⟨tree', hparse', hstands, -⟩ := printed_standsFor.1 rule _ hprinted
  obtain ⟨joined', hany', hstands'⟩ := printed_standsFor.2 [rule, rule] _ hcombined
  obtain rfl : tree = tree' := Except.ok.inj (hparse.symm.trans hparse')
  obtain rfl : joined = joined' := Except.ok.inj (hany.symm.trans hany')
  exact ⟨hprinted, hstands.1 files "tree.json" "\n" hblank rfl true false "\x7b\x7d",
    by decide +kernel, hcombined, hstands'⟩

end Command

end Verdict
