import Mathlib.Logic.Relation
import Verdict.Proofs.Steps
import Verdict.Proofs.Token.Pairs

/-!
# Places of groups

`Group.build` counts places and never reads at one: it takes the tokens apart. `Group.step` is the
same building with one list of tokens that is read by place, and with the groups around the current
one as calls that wait for it. A call goes on at the place behind the one where the inner group
stopped, which may be behind the end of the list.

Every run of these steps ends with what `Group.called` says, which is `Group.build` behind the check
of the nesting (`leads_called`); on the way the calls that wait started further in front from call
to call, and nothing is read behind the end (`Stage.Sound.of_leads`). Where a group stops is said by
its parentheses alone, as `Token.StopsAt` has it (`called_stopsAt`).
-/

namespace Verdict

namespace Group

open Relation (ReflTransGen)

/-! ## Where groups end -/

/-- Where a group ends that starts at a place, and what follows it. The tokens are balanced up to the
parenthesis that closes it, or no parenthesis closes it. -/
inductive Ends (place : Nat) (tokens : List Token) : Nat → List Token → Prop
  | closing {front rest : List Token} : tokens = front ++ .closing :: rest → Token.Balanced front →
      Ends place tokens (place + front.length) rest
  | ending {left : Nat} : Token.opened 0 tokens = some left →
      Ends place tokens (place + (tokens.length + left)) []

namespace Ends

variable {place stop stop' : Nat} {tokens rest more more' : List Token}

/-- An operator or an operand in front does not end a group. -/
theorem cons {token : Token} (htoken : ∀ tokens, Token.opened 0 (token :: tokens) =
    Token.opened 0 tokens) (h : Ends (place + 1) rest stop more) :
    Ends place (token :: rest) stop more := by
  cases h with
  | @closing front _ hrest hfront =>
      rw [Nat.add_assoc, Nat.add_comm 1, hrest]
      exact .closing List.cons_append.symm ((htoken front).trans hfront)
  | @ending left hleft =>
      have hlength : place + 1 + (rest.length + left) = place + ((token :: rest).length + left) := by
        rw [List.length_cons]
        omega
      rw [hlength]
      exact .ending ((htoken rest).trans hleft)

/-- A group in front ends in its turn, and then the group around it. -/
theorem group (hinner : Ends (place + 1) rest stop more) (h : Ends (stop + 1) more stop' more') :
    Ends place (.opening :: rest) stop' more' := by
  cases hinner with
  | @closing front _ hrest hfront =>
      have hopened (after : List Token) :
          Token.opened 0 (.opening :: (front ++ .closing :: after)) = Token.opened 0 after :=
        Token.opened_append (Token.opened_add hfront 1) (.closing :: after)
      subst hrest
      cases h with
      | @closing front' _ hmore hfront' =>
          have hstop : place + 1 + front.length + 1 + front'.length =
              place + (Token.opening :: (front ++ .closing :: front')).length := by
            simp only [List.length_cons, List.length_append]
            omega
          rw [hstop]
          refine .closing ?_ ((hopened front').trans hfront')
          rw [hmore, List.cons_append, List.append_assoc, List.cons_append]
      | @ending left hleft =>
          have hstop : place + 1 + front.length + 1 + (more.length + left) =
              place + ((Token.opening :: (front ++ .closing :: more)).length + left) := by
            simp only [List.length_cons, List.length_append]
            omega
          rw [hstop]
          exact .ending ((hopened more).trans hleft)
  | @ending left hleft =>
      -- nothing follows the inner group, so the group around it is left open, too
      cases h with
      | @closing front' _ hmore _ => exact absurd hmore (by simp)
      | @ending left' hleft' =>
          obtain rfl : left' = 0 := (Option.some.inj hleft').symm
          have hstop : place + 1 + (rest.length + left) + 1 + (([] : List Token).length + 0) =
              place + ((Token.opening :: rest).length + (left + 1)) := by
            simp only [List.length_cons, List.length_nil]
            omega
          rw [hstop]
          exact .ending (Token.opened_add hleft 1)

/-- What follows a group stands behind the place where it stops. -/
theorem rest_eq (h : Ends place (tokens.drop place) stop rest) : rest = tokens.drop (stop + 1) := by
  cases h with
  | @closing front _ htokens _ =>
      rw [Nat.add_assoc, ← List.drop_drop, htokens, ← List.drop_drop, List.drop_left]
      rfl
  | @ending left _ =>
      refine (List.drop_eq_nil_of_le ?_).symm
      rw [List.length_drop]
      omega

/-- Where a group ends is where its parentheses stop it. -/
theorem stopsAt (hle : place ≤ tokens.length) (h : Ends place (tokens.drop place) stop rest) :
    Token.StopsAt tokens place stop := by
  have hlength : (tokens.take place).length = place := List.length_take_of_le hle
  have hstops (k : Nat) (hk : Token.StopsAt (tokens.drop place) 0 k) :
      Token.StopsAt tokens place (place + k) := by
    have happend := hk.append (tokens.take place)
    rwa [List.take_append_drop, hlength] at happend
  cases h with
  | closing htokens hfront =>
      refine hstops _ ?_
      rw [htokens]
      exact Token.stopsAt_front hfront _
  | ending hleft => exact hstops _ (Token.stopsAt_end hleft)

end Ends

/-- A group that is built ends where it stops. -/
theorem ends_of_build {nesting place : Nat} {draft : Draft} {tokens : List Token}
    {group : Group tokens.length} (h : build nesting place draft tokens = .ok group) :
    Ends place tokens group.stop group.rest := by
  fun_induction build nesting place draft tokens with
  | case1 nesting place draft =>
      cases h
      exact @Ends.ending place [] 0 rfl
  | case2 nesting place draft rest =>
      cases h
      exact .closing (List.nil_append _).symm rfl
  | case5 nesting place draft op rest d _ built hbuilt ih =>
      cases h
      exact .cons (fun _ => rfl) (ih hbuilt)
  | case8 nesting place draft text rest d _ built hbuilt ih =>
      cases h
      exact .cons (fun _ => rfl) (ih hbuilt)
  | case13 nesting place draft rest _ inner hinner d _ _ built hbuilt ihi ih =>
      cases h
      exact .group (ihi hinner) (ih hbuilt)
  | _ => cases h

/-! ## Building by place -/

/-- A call of the builder: where its group starts, the place it looks at, and its draft. -/
structure Call where
  start : Nat
  place : Nat
  draft : Draft

/-- Where building stands. The calls that wait are those of the groups around the current one, the
innermost first. -/
inductive Stage
  /-- A group is to be built from a place on. -/
  | enter (start : Nat) (waiting : List Call)
  /-- A call looks at its next place. -/
  | look (call : Call) (waiting : List Call)
  /-- A call is over. It has a draft and the place where it stopped, or it failed. -/
  | left (result : Except RuleError (Draft × Nat)) (waiting : List Call)
  /-- A token was read where there is none. -/
  | astray (place : Nat)

namespace Call

/-- A call with a changed draft looks at a place; where the change failed, the call is over. -/
def goOn (call : Call) (waiting : List Call) (place : Nat) : Except RuleError Draft → Stage
  | .ok draft => .look ⟨call.start, place, draft⟩ waiting
  | .error e => .left (.error e) waiting

/-- What a call makes of the token that it looks at. -/
def read (call : Call) (waiting : List Call) : Token → Stage
  | .opening => .enter (call.place + 1) (call :: waiting)
  | .closing => .left (.ok (call.draft, call.place)) waiting
  | .operator op => call.goOn waiting (call.place + 1) (call.draft.pushOperator op)
  | .operand text => call.goOn waiting (call.place + 1) (call.draft.attach (.leaf text))

end Call

/-- A group without what follows it: the draft, and the place where it stopped. -/
def placed {bound : Nat} (group : Group bound) : Draft × Nat :=
  (group.draft, group.stop)

section Steps

variable (tokens : List Token) (nesting : Nat)

/-- What follows a stage of building, where the outermost group has so many groups around it. -/
def step : Stage → Option Stage
  | .enter start waiting =>
    let inside := nesting + waiting.length
    if maxLevels < inside then some (.left (.error (.tooDeep inside)) waiting)
    else some (.look ⟨start, start, .empty⟩ waiting)
  | .look call waiting =>
    if call.place < tokens.length then
      match tokens[call.place]? with
      | none => some (.astray call.place)
      | some token => some (call.read waiting token)
    else some (.left (.ok (call.draft, call.place)) waiting)
  | .left (.ok (inner, stop)) (call :: waiting) =>
    some (call.goOn waiting (stop + 1) (call.draft.attach inner))
  | .left (.error e) (_ :: waiting) => some (.left (.error e) waiting)
  | .left _ [] => none
  | .astray _ => none

/-- One stage leads to another in any number of steps. -/
def Leads : Stage → Stage → Prop :=
  ReflTransGen fun before after => step tokens nesting before = some after

/-- What a group comes to that starts at a place: its draft and the place where it stops. -/
def called (start : Nat) : Except RuleError (Draft × Nat) :=
  if maxLevels < nesting then .error (.tooDeep nesting)
  else (build nesting start .empty (tokens.drop start)).map placed

end Steps

variable {tokens : List Token} {nesting : Nat}

/-- The tree of a token list is what the group comes to that starts in front. -/
theorem ofTokens_eq_called :
    Tree.ofTokens tokens = (called tokens 0 0).map fun result => result.1.tree := by
  unfold Tree.ofTokens called
  rw [if_neg (Nat.not_lt_zero _), List.drop_zero]
  cases build 0 0 .empty tokens <;> rfl

/-- A group that is nested too deeply is not built. -/
theorem step_enter_of_lt {start : Nat} {waiting : List Call}
    (h : maxLevels < nesting + waiting.length) :
    step tokens nesting (.enter start waiting) =
      some (.left (.error (.tooDeep (nesting + waiting.length))) waiting) :=
  if_pos h

/-- Any other group is built on top of nothing. -/
theorem step_enter_of_not_lt {start : Nat} {waiting : List Call}
    (h : ¬ maxLevels < nesting + waiting.length) :
    step tokens nesting (.enter start waiting) = some (.look ⟨start, start, .empty⟩ waiting) :=
  if_neg h

/-- A call reads the token at its place. -/
theorem step_look_of_lt {call : Call} (h : call.place < tokens.length) (waiting : List Call) :
    step tokens nesting (.look call waiting) = some (call.read waiting tokens[call.place]) := by
  show (if call.place < tokens.length then _ else _) = _
  rw [if_pos h, List.getElem?_eq_getElem h]

/-- A call that has no more tokens is over. -/
theorem step_look_of_le {call : Call} (h : tokens.length ≤ call.place) (waiting : List Call) :
    step tokens nesting (.look call waiting) = some (.left (.ok (call.draft, call.place)) waiting) :=
  if_neg (Nat.not_lt.mpr h)

/-- A call reads what its rest of the tokens begins with. -/
theorem step_look_of_drop (call : Call) {token : Token} {rest : List Token}
    (h : token :: rest = tokens.drop call.place) (waiting : List Call) :
    step tokens nesting (.look call waiting) = some (call.read waiting token) ∧
      rest = tokens.drop (call.place + 1) := by
  have hlt : call.place < tokens.length := by
    by_contra hle
    rw [List.drop_eq_nil_of_le (Nat.le_of_not_lt hle)] at h
    cases h
  rw [List.drop_eq_getElem_cons hlt] at h
  obtain ⟨rfl, rfl⟩ := List.cons.inj h
  exact ⟨step_look_of_lt hlt waiting, rfl⟩

theorem placed_widen {bound bound' : Nat} (h : bound ≤ bound') (group : Group bound) :
    (group.widen h).placed = group.placed :=
  rfl

/-- A call goes on with its draft, or it is over. -/
theorem leads_goOn {inside place : Nat} {call : Call} {waiting : List Call} {rest : List Token}
    {result : Except RuleError Draft}
    (h : ∀ d, Leads tokens nesting (.look ⟨call.start, place, d⟩ waiting)
      (.left ((build inside place d rest).map placed) waiting)) :
    Leads tokens nesting (call.goOn waiting place result)
      (.left (result.bind fun d => (build inside place d rest).map placed) waiting) := by
  cases result with
  | error e => exact .refl
  | ok d => exact h d

/-- Building a group by place comes to what building it from its tokens comes to. -/
theorem leads_build {inside place : Nat} {waiting : List Call}
    (hinside : inside = nesting + waiting.length) (start : Nat) (draft : Draft) :
    ∀ rest : List Token, rest = tokens.drop place →
      Leads tokens nesting (.look ⟨start, place, draft⟩ waiting)
        (.left ((build inside place draft rest).map placed) waiting)
  | [], hrest => by
      rw [build]
      exact .single (step_look_of_le (List.drop_eq_nil_iff.mp hrest.symm) waiting)
  | .closing :: rest, hrest => by
      rw [build]
      exact .single (step_look_of_drop ⟨start, place, draft⟩ hrest waiting).1
  | .operator op :: rest, hrest => by
      obtain ⟨hstep, hrest'⟩ := step_look_of_drop ⟨start, place, draft⟩ hrest waiting
      rw [build_operator _ _ _ _ placed_widen]
      exact .head hstep (leads_goOn fun d => leads_build hinside start d rest hrest')
  | .operand text :: rest, hrest => by
      obtain ⟨hstep, hrest'⟩ := step_look_of_drop ⟨start, place, draft⟩ hrest waiting
      rw [build_operand _ _ _ _ placed_widen]
      exact .head hstep (leads_goOn fun d => leads_build hinside start d rest hrest')
  | .opening :: rest, hrest => by
      obtain ⟨hstep, hrest'⟩ := step_look_of_drop ⟨start, place, draft⟩ hrest waiting
      refine .head hstep ?_
      have hinside' : nesting + (⟨start, place, draft⟩ :: waiting : List Call).length =
          inside + 1 := by
        rw [hinside]
        rfl
      by_cases h : maxLevels < inside + 1
      · rw [build, if_pos h]
        refine .head (step_enter_of_lt (hinside'.symm ▸ h)) (.single ?_)
        rw [hinside']
        rfl
      · rw [build_opening _ _ _ _ placed_widen (Nat.not_lt.mp h)]
        refine .head (step_enter_of_not_lt (hinside'.symm ▸ h)) ?_
        refine .trans (leads_build hinside'.symm (place + 1) .empty rest hrest') ?_
        cases hinner : build (inside + 1) (place + 1) .empty rest with
        | error e => exact .single rfl
        | ok inner =>
            have hlt : inner.rest.length < rest.length + 1 := Nat.lt_succ_of_le inner.rest_le
            subst hrest'
            -- the call that waits goes on behind the place where the inner group stopped
            exact .head rfl (leads_goOn fun d =>
              leads_build hinside start d inner.rest (ends_of_build hinner).rest_eq)
termination_by rest => rest.length

/-- Building from a place by place comes to what `called` says. -/
theorem leads_called (tokens : List Token) (nesting start : Nat) :
    Leads tokens nesting (.enter start []) (.left (called tokens nesting start) []) := by
  unfold called
  by_cases h : maxLevels < nesting
  · rw [if_pos h]
    exact .single (step_enter_of_lt h)
  · rw [if_neg h]
    exact .head (step_enter_of_not_lt h) (leads_build rfl start .empty _ rfl)

/-- A run that comes to an end cannot go on for ever from where it began. -/
theorem acc_of_leads {before after : Stage} (h : Leads tokens nesting before after)
    (hend : step tokens nesting after = none) :
    Acc (fun next stage => step tokens nesting stage = some next) before := by
  induction h using ReflTransGen.head_induction_on with
  | refl => exact ⟨_, fun next hnext => nomatch hend.symm.trans hnext⟩
  | head hstep _ ih =>
      refine ⟨_, fun next hnext => ?_⟩
      obtain rfl := Option.some.inj (hstep.symm.trans hnext)
      exact ih

/-! ## Calls within calls -/

namespace Stage

/-- Where the groups start that are being built, the innermost first. -/
def starts : Stage → List Nat
  | .enter start waiting => start :: waiting.map Call.start
  | .look call waiting => call.start :: waiting.map Call.start
  | .left _ waiting => waiting.map Call.start
  | .astray _ => []

/-- Every call started behind the one that waits for it, no call looks or stops in front of its
start, and nothing is read where there is nothing. -/
def Sound : Stage → Prop
  | .enter start waiting => (start :: waiting.map Call.start).Pairwise (· > ·)
  | .look call waiting =>
    call.start ≤ call.place ∧ (call.start :: waiting.map Call.start).Pairwise (· > ·)
  | .left result waiting =>
    (∀ draft stop, result = .ok (draft, stop) → ∀ start ∈ waiting.map Call.start, start < stop) ∧
      (waiting.map Call.start).Pairwise (· > ·)
  | .astray _ => False

theorem Sound.starts {stage : Stage} (h : stage.Sound) : stage.starts.Pairwise (· > ·) := by
  cases stage with
  | enter start waiting => exact h
  | look call waiting => exact h.2
  | left result waiting => exact h.2
  | astray place => exact h.elim

/-- A call that goes on, or fails, is sound if the place where it goes on is behind its start. -/
theorem Sound.goOn {call : Call} {waiting : List Call} {place : Nat} (hle : call.start ≤ place)
    (h : (call.start :: waiting.map Call.start).Pairwise (· > ·))
    (result : Except RuleError Draft) : (call.goOn waiting place result).Sound := by
  cases result with
  | ok draft => exact ⟨hle, h⟩
  | error e => exact ⟨fun _ _ hok => (nomatch hok), h.of_cons⟩

/-- A call that stops where it looks stops behind the starts of those that wait for it. -/
theorem Sound.leave {call : Call} {waiting : List Call} (h : (Stage.look call waiting).Sound) :
    (Stage.left (.ok (call.draft, call.place)) waiting).Sound := by
  refine ⟨fun draft stop hresult start hstart => ?_, h.2.of_cons⟩
  cases hresult
  exact (List.rel_of_pairwise_cons h.2 hstart).trans_le h.1

theorem Sound.read {call : Call} {waiting : List Call} (h : (Stage.look call waiting).Sound)
    (token : Token) : (call.read waiting token).Sound := by
  cases token with
  | opening =>
      refine .cons (fun start hstart => Nat.lt_succ_of_le ?_) h.2
      rcases List.mem_cons.mp hstart with rfl | hstart
      · exact h.1
      · exact (List.rel_of_pairwise_cons h.2 hstart).le.trans h.1
  | closing => exact h.leave
  | operator op => exact .goOn (Nat.le_succ_of_le h.1) h.2 _
  | operand text => exact .goOn (Nat.le_succ_of_le h.1) h.2 _

/-- A step keeps stages sound. -/
theorem Sound.step {before after : Stage} (h : before.Sound)
    (hstep : Group.step tokens nesting before = some after) : after.Sound := by
  cases before with
  | enter start waiting =>
      by_cases hdeep : maxLevels < nesting + waiting.length
      · rw [step_enter_of_lt hdeep] at hstep
        cases hstep
        exact ⟨fun _ _ hok => (nomatch hok), List.Pairwise.of_cons h⟩
      · rw [step_enter_of_not_lt hdeep] at hstep
        cases hstep
        exact ⟨Nat.le_refl _, h⟩
  | look call waiting =>
      by_cases hplace : call.place < tokens.length
      · rw [step_look_of_lt hplace] at hstep
        cases hstep
        exact h.read _
      · rw [step_look_of_le (Nat.not_lt.mp hplace)] at hstep
        cases hstep
        exact h.leave
  | left result waiting =>
      cases waiting with
      | nil => cases result <;> cases hstep
      | cons call waiting =>
          obtain ⟨hstop, hstarts⟩ := h
          cases result with
          | error e =>
              cases hstep
              exact ⟨fun _ _ hok => (nomatch hok), hstarts.of_cons⟩
          | ok inner =>
              cases hstep
              have hlt := hstop inner.1 inner.2 rfl call.start List.mem_cons_self
              exact .goOn (Nat.le_succ_of_le hlt.le) hstarts _
  | astray place => exact h.elim

/-- A run keeps stages sound. -/
theorem Sound.of_leads {before after : Stage} (h : before.Sound)
    (hleads : Leads tokens nesting before after) : after.Sound := by
  induction hleads with
  | refl => exact h
  | tail _ hstep ih => exact ih.step hstep

end Stage

/-- **Building by place.** From any place of a list of tokens and inside any number of groups,
building comes to an end, with what `called` says. All the way every group started behind the one
around it, and no token is read where there is none. A group that is built stops at the first closing
parenthesis that closes no group from its start on, or as far behind the end as groups are left open
from its start on. -/
theorem called_stopsAt (nesting : Nat) {start : Nat} (h : start ≤ tokens.length) :
    Acc (fun next stage => step tokens nesting stage = some next) (.enter start []) ∧
      Leads tokens nesting (.enter start []) (.left (called tokens nesting start) []) ∧
      (∀ stage, Leads tokens nesting (.enter start []) stage →
        stage.starts.Pairwise (· > ·) ∧ ∀ place, stage ≠ .astray place) ∧
      ∀ draft stop, called tokens nesting start = .ok (draft, stop) →
        Token.StopsAt tokens start stop := by
  have hleads := leads_called tokens nesting start
  refine ⟨acc_of_leads hleads ?_, hleads, fun stage hstage => ?_, fun draft stop hcalled => ?_⟩
  · cases called tokens nesting start <;> rfl
  · have henter : (Stage.enter start []).Sound := List.pairwise_singleton _ start
    have hsound := henter.of_leads hstage
    refine ⟨hsound.starts, ?_⟩
    rintro place rfl
    exact hsound
  · unfold called at hcalled
    split at hcalled
    · cases hcalled
    · cases hbuild : build nesting start .empty (tokens.drop start) with
      | error e =>
          rw [hbuild] at hcalled
          cases hcalled
      | ok group =>
          rw [hbuild] at hcalled
          cases hcalled
          exact (ends_of_build hbuild).stopsAt h

/-- Behind the parentheses that pair up, two groups are left open. -/
theorem called_stopsAt_unclosed :
    let tokens : List Token := [.opening, .operand "a", .closing, .closing, .opening, .opening,
      .operand "b", .closing, .opening]
    4 ≤ tokens.length ∧ called tokens 2 4 = .ok (.leaf "b", 11) ∧ Token.StopsAt tokens 4 11 := by
  intro tokens
  have hcalled : called tokens 2 4 = .ok (.leaf "b", 11) := by
    cbv
  exact ⟨by decide, hcalled, (called_stopsAt 2 (by decide)).2.2.2 _ _ hcalled⟩

end Group

end Verdict
