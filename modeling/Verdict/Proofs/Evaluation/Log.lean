import Mathlib.Data.List.Nodup
import Verdict.Proofs.Evaluation.FirstFailure

/-!
# The trace as a log

A trace that is kept is a log of the whole evaluation. `Tree.visits` lists the positions of a tree,
missing children included, in post-order. `Tree.Means` gives the value of a tree by rules that know
neither levels nor traces, and `Tree.Line` says from it how the line of a position reads. An
evaluation that succeeds has written exactly these lines, in this order. Every line has the path of
its position for its label, and no two positions have the same path (`Path.text_injective`). The
main statement is `Tree.execute_log`.
-/

namespace Verdict

/-! ## Labels -/

/-- The characters before the first colon with a space behind it. -/
def beforeColon : List Char → List Char
  | [] => []
  | c :: rest => if [':', ' '].isPrefixOf (c :: rest) then [] else c :: beforeColon rest

/-- The label of a line: what stands before the first colon with a space behind it. -/
def label (line : String) : String :=
  String.ofList (beforeColon line.toList)

theorem beforeColon_append {front : List Char} (h : ':' ∉ front) (rest : List Char) :
    beforeColon (front ++ ':' :: ' ' :: rest) = front := by
  induction front with
  | nil => rfl
  | cons c front ih =>
      obtain ⟨hc, hfront⟩ := List.ne_and_not_mem_of_not_mem_cons h
      have hnot : ¬ [':', ' '].isPrefixOf (c :: (front ++ ':' :: ' ' :: rest)) = true := by
        simp [List.isPrefixOf, hc]
      rw [List.cons_append, beforeColon, if_neg hnot, ih hfront]

namespace Path

theorem colon_notMem_text (path : Path) : ':' ∉ path.text.toList := by
  induction path with
  | nil => decide
  | cons side path ih => cases side <;> simp [text, Side.text, ih]

/-- A line that begins with a path has it for its label, whatever the line says. -/
theorem label_text_append (path : Path) (finding : String) :
    label (path.text ++ ": " ++ finding) = path.text := by
  have hchars : (path.text ++ ": " ++ finding).toList =
      path.text.toList ++ ':' :: ' ' :: finding.toList := by
    simp
  rw [label, hchars, beforeColon_append path.colon_notMem_text, String.ofList_toList]

/-- The text of a path tells its last turn. -/
theorem head?_eq_of_text_eq {p q : Path} (h : text p = text q) : p.head? = q.head? := by
  -- the texts root, left and right differ in the last character but one
  have hend := congrArg (fun text => text.toList.reverse.take 2) h
  cases p with
  | nil =>
      cases q with
      | nil => rfl
      | cons side q => cases side <;> simp [text, Side.text] at hend
  | cons side p =>
      cases q with
      | nil => cases side <;> simp [text, Side.text] at hend
      | cons side' q => cases side <;> cases side' <;> simp [text, Side.text] at hend ⊢

theorem text_injective : Function.Injective text := by
  intro p q h
  have hhead := head?_eq_of_text_eq h
  induction p generalizing q with
  | nil => exact (List.head?_eq_none_iff.mp hhead.symm).symm
  | cons side p ih =>
      obtain ⟨q, rfl⟩ := List.head?_eq_some_iff.mp hhead.symm
      have htext : text p = text q := by
        simpa [text] using h
      rw [ih htext (head?_eq_of_text_eq htext)]

end Path

namespace Tree

/-! ## Positions -/

/-- The child of an operator on a side, there or missing. -/
def child? (side : Side) : Tree → Option Tree
  | operator _ left right =>
    match side with
    | .left => some left
    | .right => some right
  | _ => none

/-- What stands at a position of a tree, if the path leads to one. -/
def at? (t : Tree) : Path → Option Tree
  | [] => some t
  | side :: path => (t.at? path).bind (child? side)

/-- The positions of a tree that stands at a path, each with what stands there, in post-order: the
positions of the left child, those of the right child, and its own. -/
def visits (path : Path) : Tree → List (Path × Tree)
  | absent => [(path, absent)]
  | operand token => [(path, operand token)]
  | operator symbol left right =>
    left.visits (.left :: path) ++ right.visits (.right :: path) ++
      [(path, operator symbol left right)]

/-- The first turn of a path leads to a child, and the others lead on from there. -/
theorem at?_append_singleton (t : Tree) (below : Path) (side : Side) :
    t.at? (below ++ [side]) = (t.child? side).bind fun child => child.at? below := by
  induction below with
  | nil => exact (Option.bind_fun_some (t.child? side)).symm
  | cons turn below ih =>
      show (t.at? (below ++ [side])).bind (child? turn) = _
      rw [ih, Option.bind_assoc]
      rfl

/-- What stands in a tree is the tree itself or stands in one of its children. -/
theorem exists_at?_iff {t s : Tree} {path p : Path} :
    (∃ below, p = below ++ path ∧ t.at? below = some s) ↔
      (p = path ∧ t = s) ∨ ∃ side child, t.child? side = some child ∧
        ∃ below, p = below ++ side :: path ∧ child.at? below = some s := by
  constructor
  · rintro ⟨below, rfl, hat⟩
    rcases List.eq_nil_or_concat below with rfl | ⟨below, side, rfl⟩
    · exact .inl ⟨rfl, Option.some.inj hat⟩
    · rw [List.concat_eq_append, at?_append_singleton] at hat
      obtain ⟨child, hchild, hat⟩ := Option.bind_eq_some_iff.mp hat
      exact .inr ⟨side, child, hchild, below, by simp, hat⟩
  · rintro (⟨rfl, rfl⟩ | ⟨side, child, hchild, below, rfl, hat⟩)
    · exact ⟨[], rfl, rfl⟩
    · refine ⟨below ++ [side], by simp, ?_⟩
      rw [at?_append_singleton, hchild]
      exact hat

/-- The positions that are listed are those to which a path leads. -/
theorem mem_visits_iff {t s : Tree} {path p : Path} :
    (p, s) ∈ t.visits path ↔ ∃ below, p = below ++ path ∧ t.at? below = some s := by
  induction t generalizing path with
  | absent =>
      rw [exists_at?_iff]
      simp [visits, child?, eq_comm]
  | operand token =>
      rw [exists_at?_iff]
      simp [visits, child?, eq_comm]
  | operator symbol left right ihl ihr =>
      rw [exists_at?_iff]
      simp only [visits, List.mem_append, List.mem_singleton, ihl, ihr, Prod.mk.injEq]
      constructor
      · rintro ((hleft | hright) | ⟨rfl, rfl⟩)
        · exact .inr ⟨.left, left, rfl, hleft⟩
        · exact .inr ⟨.right, right, rfl, hright⟩
        · exact .inl ⟨rfl, rfl⟩
      · rintro (⟨rfl, rfl⟩ | ⟨side, child, hchild, hbelow⟩)
        · exact .inr ⟨rfl, rfl⟩
        · cases side with
          | left =>
              cases hchild
              exact .inl (.inl hbelow)
          | right =>
              cases hchild
              exact .inl (.inr hbelow)

theorem mem_visits_nil_iff {t s : Tree} {path : Path} :
    (path, s) ∈ t.visits [] ↔ t.at? path = some s := by
  rw [mem_visits_iff]
  simp

theorem length_visits (t : Tree) (path : Path) (level : Nat) :
    (t.visits path).length = 2 * (t.operators level).length + 1 := by
  induction t generalizing path level with
  | absent => rfl
  | operand token => rfl
  | operator symbol left right ihl ihr =>
      simp only [visits, operators, List.length_append, List.length_singleton,
        ihl _ (level + 1), ihr _ (level + 1)]
      omega

/-- The tree itself comes last. -/
theorem exists_visits_eq (t : Tree) (path : Path) :
    ∃ before, t.visits path = before ++ [(path, t)] := by
  cases t with
  | absent => exact ⟨[], rfl⟩
  | operand token => exact ⟨[], rfl⟩
  | operator symbol left right => exact ⟨_, rfl⟩

theorem suffix_of_mem_visits {t : Tree} {path p : Path}
    (h : p ∈ (t.visits path).map Prod.fst) : path <:+ p := by
  obtain ⟨⟨p, s⟩, hmem, rfl⟩ := List.mem_map.mp h
  obtain ⟨below, rfl, -⟩ := mem_visits_iff.mp hmem
  exact List.suffix_append below path

/-- No position is listed twice. -/
theorem nodup_visits (t : Tree) (path : Path) : ((t.visits path).map Prod.fst).Nodup := by
  induction t generalizing path with
  | absent => exact List.nodup_singleton _
  | operand token => exact List.nodup_singleton _
  | operator symbol left right ihl ihr =>
      simp only [visits, List.map_append, List.map_cons, List.map_nil]
      refine ((ihl _).append (ihr _) ?_).append (List.nodup_singleton _) ?_
      · -- the two sides part at the turn below the operator
        intro p hl hr
        have hsuffix := List.suffix_of_suffix_length_le (suffix_of_mem_visits hl)
          (suffix_of_mem_visits hr) (Nat.le_refl _)
        cases hsuffix.eq_of_length rfl
      · intro p hp hroot
        rw [List.mem_singleton.mp hroot] at hp
        rcases List.mem_append.mp hp with hl | hr
        · exact Nat.not_succ_le_self _ (suffix_of_mem_visits hl).length_le
        · exact Nat.not_succ_le_self _ (suffix_of_mem_visits hr).length_le

/-! ## Values and lines -/

/-- The value of a tree on a record: an operand has the value that it stands for, an operator what
it makes of the values of its children, and a missing tree is false. -/
inductive Means (record : Record) : Tree → Value → Prop
  | missing : Means record absent (.bool false)
  | operand (token : String) : Means record (operand token) (record.resolve token)
  | operator {op : Operator} {left right : Tree} {leftValue rightValue : Value} :
      Means record left leftValue → Means record right rightValue →
      Means record (operator (.known op) left right) (.bool (op.apply leftValue rightValue))

/-- How the line of a position reads. The line of an operator shows the values of its children and
whether it holds of them. -/
inductive Line (record : Record) (path : Path) : Tree → String → Prop
  | missing : Line record path absent (path.text ++ ": " ++ "节点缺失 => false")
  | operand {token : String} {value : Value} : Means record (operand token) value →
      Line record path (operand token)
        (path.text ++ ": " ++ (token ++ " => " ++ value.text ++ " (" ++ value.kind ++ ")"))
  | matched {op : Operator} {left right : Tree} {leftValue rightValue : Value} :
      Means record left leftValue → Means record right rightValue →
      op.apply leftValue rightValue = true →
      Line record path (operator (.known op) left right)
        (path.text ++ ": " ++ (leftValue.text ++ " " ++ op.symbol ++ " " ++ rightValue.text ++
          " => " ++ "MATCHED"))
  | notMatched {op : Operator} {left right : Tree} {leftValue rightValue : Value} :
      Means record left leftValue → Means record right rightValue →
      op.apply leftValue rightValue = false →
      Line record path (operator (.known op) left right)
        (path.text ++ ": " ++ (leftValue.text ++ " " ++ op.symbol ++ " " ++ rightValue.text ++
          " => " ++ "NOT_MATCHED"))

variable {record : Record} {t : Tree}

/-- A tree has one value at most. -/
theorem Means.unique {value value' : Value} (h : Means record t value)
    (h' : Means record t value') : value = value' := by
  induction h generalizing value' with
  | missing =>
      cases h'
      rfl
  | operand token =>
      cases h'
      rfl
  | operator _ _ ihl ihr =>
      cases h' with
      | operator hl hr => rw [ihl hl, ihr hr]

theorem Line.label_eq {path : Path} {line : String} (h : Line record path t line) :
    label line = path.text := by
  cases h <;> exact path.label_text_append _

/-! ## Walks -/

/-- A walk that comes to a value above an operator has come to the values of both children, and
ends with a step for the operator. -/
theorem walk_operator_of_ok {symbol : Symbol} {left right : Tree} {path : Path} {level : Nat}
    {value : Value}
    (h : ((operator symbol left right).walk record path level).outcome = .ok value) :
    ∃ op leftValue rightValue, symbol = .known op ∧
      (left.walk record (.left :: path) (level + 1)).outcome = .ok leftValue ∧
      (right.walk record (.right :: path) (level + 1)).outcome = .ok rightValue ∧
      value = .bool (op.apply leftValue rightValue) ∧
      ((operator symbol left right).walk record path level).steps =
        (left.walk record (.left :: path) (level + 1)).steps ++
          (right.walk record (.right :: path) (level + 1)).steps ++
          [.operator path op leftValue rightValue (op.apply leftValue rightValue)] := by
  have hlevel : ¬ maxLevels < level := Nat.not_lt.mpr (level_le_of_walk_ok h)
  simp only [walk, if_neg hlevel] at h ⊢
  cases hleft : (left.walk record (.left :: path) (level + 1)).outcome with
  | error e => simp [hleft] at h
  | ok leftValue =>
      cases hright : (right.walk record (.right :: path) (level + 1)).outcome with
      | error e => simp [hleft, hright] at h
      | ok rightValue =>
          cases symbol with
          | unknown text => simp [hleft, hright] at h
          | known op =>
              simp only [hleft, hright, Except.ok.injEq] at h
              exact ⟨op, leftValue, rightValue, rfl, rfl, rfl, h.symm, rfl⟩

/-- A walk comes to no other value than that of the tree. -/
theorem means_of_walk {path : Path} {level : Nat} {value : Value}
    (h : (t.walk record path level).outcome = .ok value) : Means record t value := by
  induction t generalizing path level value with
  | absent =>
      rw [walk_absent record path (level_le_of_walk_ok h)] at h
      cases h
      exact .missing
  | operand token =>
      rw [walk_operand record path (level_le_of_walk_ok h)] at h
      cases h
      exact .operand token
  | operator symbol left right ihl ihr =>
      obtain ⟨op, leftValue, rightValue, rfl, hleft, hright, rfl, -⟩ := walk_operator_of_ok h
      exact .operator (ihl hleft) (ihr hright)

/-- The step of an operator is written as the line of its position. -/
theorem line_of_operator (op : Operator) {left right : Tree} {leftValue rightValue : Value}
    (path : Path) (hleft : Means record left leftValue) (hright : Means record right rightValue) :
    Line record path (operator (.known op) left right)
      (Step.operator path op leftValue rightValue (op.apply leftValue rightValue)).text := by
  cases hmatched : op.apply leftValue rightValue with
  | true => exact .matched hleft hright hmatched
  | false => exact .notMatched hleft hright hmatched

/-- The steps of a walk that comes to a value are written as the lines of the positions, in
post-order. -/
theorem lines_of_walk {path : Path} {level : Nat} {value : Value}
    (h : (t.walk record path level).outcome = .ok value) :
    List.Forall₂ (fun visit line => Line record visit.1 visit.2 line) (t.visits path)
      ((t.walk record path level).steps.map Step.text) := by
  induction t generalizing path level value with
  | absent =>
      rw [walk_absent record path (level_le_of_walk_ok h)]
      exact .cons .missing .nil
  | operand token =>
      rw [walk_operand record path (level_le_of_walk_ok h)]
      exact .cons (.operand (.operand token)) .nil
  | operator symbol left right ihl ihr =>
      obtain ⟨op, leftValue, rightValue, rfl, hleft, hright, -, hsteps⟩ := walk_operator_of_ok h
      have hself := line_of_operator op path (means_of_walk hleft) (means_of_walk hright)
      rw [hsteps, List.map_append, List.map_append]
      exact List.rel_append (List.rel_append (ihl hleft) (ihr hright)) (.cons hself .nil)

/-- A walk that comes to a value has come to one at every position on its way. -/
theorem walk_of_mem_visits {s : Tree} {path p : Path} {value : Value}
    (h : (t.walk record path path.level).outcome = .ok value) (hs : (p, s) ∈ t.visits path) :
    ∃ v, (s.walk record p p.level).outcome = .ok v := by
  induction t generalizing path value with
  | absent =>
      cases List.mem_singleton.mp hs
      exact ⟨value, h⟩
  | operand token =>
      cases List.mem_singleton.mp hs
      exact ⟨value, h⟩
  | operator symbol left right ihl ihr =>
      obtain ⟨op, leftValue, rightValue, rfl, hleft, hright, -⟩ := walk_operator_of_ok h
      simp only [visits, List.mem_append, List.mem_singleton] at hs
      rcases hs with (hl | hr) | hself
      · exact ihl hleft hl
      · exact ihr hright hr
      · cases hself
        exact ⟨value, h⟩

/-- An execution succeeds exactly if the walk comes to a value, and reports what it came past. -/
theorem execute_eq_ok_iff {traced : Bool} {report : Report} :
    t.execute traced record = .ok report ↔
      ∃ value, (t.walk record [] 1).outcome = .ok value ∧ report = ⟨value.isTruthy,
        if traced then (t.walk record [] 1).steps.map Step.text else []⟩ := by
  rw [execute, Executor.execute_eq_walkAll]
  simp only [walkAll]
  cases (t.walk record [] 1).outcome <;> simp [Except.map, eq_comm]

/-! ## Logs -/

/-- What a complete log of a tree on a record is: one line for each position, in post-order, under
distinct labels, the last one for the tree itself. -/
structure Log (record : Record) (t : Tree) (trace : List String) : Prop where
  lines : List.Forall₂ (fun visit line => Line record visit.1 visit.2 line) (t.visits []) trace
  count : trace.length = 2 * (t.operators 1).length + 1
  labels : trace.map label = ((t.visits []).map Prod.fst).map Path.text
  distinct : (trace.map label).Nodup
  last : ∃ before line, trace = before ++ [line] ∧ Line record [] t line

/-- The lines alone make a log complete. -/
theorem log_of_lines {trace : List String}
    (h : List.Forall₂ (fun visit line => Line record visit.1 visit.2 line) (t.visits []) trace) :
    Log record t trace := by
  have hlabels : ((t.visits []).map Prod.fst).map Path.text = trace.map label := by
    rw [List.map_map, ← List.forall₂_eq_eq_eq, List.forall₂_map_left_iff,
      List.forall₂_map_right_iff]
    exact h.imp fun _ _ hline => hline.label_eq.symm
  refine ⟨h, ?_, hlabels.symm, ?_, ?_⟩
  · rw [← h.length_eq, length_visits]
  · rw [← hlabels]
    exact (nodup_visits t []).map Path.text_injective
  · obtain ⟨before, hvisits⟩ := exists_visits_eq t []
    rw [hvisits] at h
    have hlast := List.forall₂_drop_append trace before _ h.flip
    obtain ⟨line, rest, hline, hrest, htrace⟩ := List.forall₂_cons_right_iff.mp hlast
    cases hrest
    exact ⟨trace.take before.length, line, by rw [← htrace, List.take_append_drop], hline⟩

/-- **The trace as a log.** The positions that are listed are those to which a path leads. If an
execution that keeps a trace succeeds, its trace is a complete log, and its verdict is the truth of
the value of the tree; every position has one value, and it is what an evaluation of what stands
there comes to. Without a trace to be kept no line is written. -/
theorem execute_log (t : Tree) (record : Record) :
    (∀ path s, (path, s) ∈ t.visits [] ↔ t.at? path = some s) ∧
    (∀ report, t.execute true record = .ok report →
      Log record t report.trace ∧
      (∃ value, Means record t value ∧ report.matched = value.isTruthy) ∧
      ∀ path s, t.at? path = some s → ∃ value,
        (∀ executor : Executor,
          Evaluating.outcome (executor.evaluateNode record path path.level s) = .ok value) ∧
        ∀ v, Means record s v ↔ v = value) ∧
    ∀ report, t.execute false record = .ok report → report.trace = [] := by
  refine ⟨fun path s => mem_visits_nil_iff, fun report h => ?_, fun report h => ?_⟩
  · obtain ⟨value, hwalk, rfl⟩ := execute_eq_ok_iff.mp h
    refine ⟨log_of_lines (lines_of_walk hwalk), ⟨value, means_of_walk hwalk, rfl⟩,
      fun path s hat => ?_⟩
    obtain ⟨v, hv⟩ := walk_of_mem_visits hwalk (mem_visits_nil_iff.mpr hat)
    refine ⟨v, fun executor => ?_, fun v' => ⟨fun hv' => hv'.unique (means_of_walk hv), ?_⟩⟩
    · rw [Executor.outcome_evaluateNode, hv]
    · rintro rfl
      exact means_of_walk hv
  · obtain ⟨value, -, rfl⟩ := execute_eq_ok_iff.mp h
    rfl

/-- A token may look like the beginning of a line. Its position still gives the line its label, and
a missing child has a line of its own. -/
theorem execute_log_colon :
    let t := binary .or (binary .gt (.operand "root: a") .absent) (.operand "7")
    let trace := [
      "root.left.left: root: a => root: a (string)",
      "root.left.right: 节点缺失 => false",
      "root.left: root: a > false => MATCHED",
      "root.right: 7 => 7 (number)",
      "root: true OR 7 => MATCHED"]
    (t.execute true .empty = .ok ⟨true, trace⟩ ∧ Log .empty t trace ∧
      (∃ value, Means .empty t value ∧ true = value.isTruthy) ∧
      t.at? [.right, .left] = some .absent ∧ ∃ value,
        (∀ executor : Executor, Evaluating.outcome
          (executor.evaluateNode .empty [.right, .left] 3 .absent) = .ok value) ∧
        ∀ v, Means .empty .absent v ↔ v = value) ∧
    ∃ report, t.execute false .empty = .ok report ∧ report.trace = [] := by
  intro t trace
  have htraced : t.execute true .empty = .ok ⟨true, trace⟩ := by decide +kernel
  have hplain : t.execute false .empty = .ok ⟨true, []⟩ := by decide +kernel
  obtain ⟨-, hlog, hnone⟩ := execute_log t .empty
  obtain ⟨hlines, hverdict, hvalues⟩ := hlog _ htraced
  exact ⟨⟨htraced, hlines, hverdict, rfl, hvalues [.right, .left] .absent rfl⟩, _, hplain,
    hnone _ hplain⟩

end Tree

end Verdict
