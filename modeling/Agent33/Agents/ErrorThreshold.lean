import Agent33.Agents.LoopInvariants
import Mathlib.Data.List.Chain

/-!
# The threshold of consecutive errors

The attempts of a run in the order in which they are made, and the counter that the
loop keeps of them. The counter is never behind the failures at the end of the
attempts, so the loop ends in time. It is ahead of them when a success leaves it as it
is.
-/

namespace Agent33.Agents

open Library Library.Hoare Llm Tools Tools.Governance Autonomy List EStateM

/-- A call of the model that raises or is answered, with tool calls or without, or the
execution of a tool call. -/
inductive Attempt
  | raised
  | answered (withCalls : Bool)
  | executed (failed : Bool)
  deriving DecidableEq

namespace Attempt

def failed : Attempt → Bool
  | raised => true
  | answered _ => false
  | executed failed => failed

def count (errors : Int) : Attempt → Int
  | raised => errors + 1
  | answered withCalls => if withCalls then 0 else errors
  | executed failed => if failed then errors + 1 else errors

end Attempt

def AllFailed (threshold : ℕ) (attempts : List Attempt) : Prop :=
  threshold ≤ attempts.length ∧
    ∀ a ∈ attempts.drop (attempts.length - threshold), a.failed = true

instance (threshold : ℕ) (attempts : List Attempt) : Decidable (AllFailed threshold attempts) :=
  inferInstanceAs (Decidable (_ ∧ _))

def SuccessesClear (attempts : List Attempt) : Prop :=
  attempts.IsChain fun a b => a.failed = true → b.failed = true ∨ b = .answered true

instance (attempts : List Attempt) : Decidable (SuccessesClear attempts) :=
  inferInstanceAs (Decidable (List.IsChain _ _))

def InTime (threshold : ℕ) (history : List (List Attempt)) : Prop :=
  ∀ i, i + 1 < history.length →
    ∀ k, ¬AllFailed threshold ((history.take (i + 1)).flatten.take k)

section Counter

variable {attempts : List Attempt} {a : Attempt} {threshold : ℕ}

theorem allFailed_zero (attempts : List Attempt) : AllFailed 0 attempts := by
  refine ⟨Nat.zero_le _, fun a ha => ?_⟩
  rw [Nat.sub_zero, drop_length] at ha
  cases ha

theorem allFailed_concat :
    AllFailed (threshold + 1) (attempts ++ [a]) ↔
      a.failed = true ∧ AllFailed threshold attempts := by
  rw [AllFailed, AllFailed, length_append, length_singleton,
    Nat.add_sub_add_right, Nat.add_le_add_iff_right]
  rw [drop_append_of_le_length (Nat.sub_le _ _), forall_mem_append,
    forall_mem_singleton]
  tauto

theorem count_nonneg (h : 0 ≤ errors) (attempts : List Attempt) :
    0 ≤ attempts.foldl Attempt.count errors := by
  induction attempts generalizing errors with
  | nil => exact h
  | cons a attempts ih =>
    refine ih ?_
    cases a with
    | raised => exact Int.add_nonneg h Int.one_nonneg
    | answered withCalls =>
      rw [Attempt.count]
      split_ifs
      · exact le_rfl
      · exact h
    | executed failed =>
      rw [Attempt.count]
      split_ifs
      · exact Int.add_nonneg h Int.one_nonneg
      · exact h

theorem count_of_failed (h : a.failed = true) (errors : Int) : a.count errors = errors + 1 := by
  cases a with
  | raised => rfl
  | answered withCalls => cases h
  | executed failed =>
    cases h
    rfl

theorem count_of_not_failed (h : a.failed = false) (hcalls : a ≠ .answered true) (errors : Int) :
    a.count errors = errors := by
  cases a with
  | raised => cases h
  | answered withCalls =>
    cases withCalls with
    | true => exact absurd rfl hcalls
    | false => rfl
  | executed failed =>
    cases h
    rfl

theorem le_count (h : 0 ≤ errors) (hfailed : AllFailed threshold attempts) :
    (threshold : Int) ≤ attempts.foldl Attempt.count errors := by
  induction attempts using List.reverseRecOn generalizing threshold with
  | nil =>
    have hzero : threshold = 0 := Nat.le_zero.mp hfailed.1
    rw [hzero]
    exact h
  | append_singleton attempts a ih =>
    cases threshold with
    | zero => exact count_nonneg h _
    | succ threshold =>
      obtain ⟨ha, hrest⟩ := allFailed_concat.mp hfailed
      have hle := ih hrest
      rw [foldl_append, foldl_cons, foldl_nil, count_of_failed ha]
      push_cast
      omega

theorem cleared_concat :
    SuccessesClear (attempts ++ [a]) ↔ SuccessesClear attempts ∧ ∀ last ∈ attempts.getLast?,
      last.failed = true → a.failed = true ∨ a = .answered true := by
  rw [SuccessesClear, isChain_append]
  simp [SuccessesClear]

theorem count_eq_zero (h : SuccessesClear attempts)
    (hlast : ∀ last ∈ attempts.getLast?, last.failed = false) :
    attempts.foldl Attempt.count 0 = 0 := by
  induction attempts using List.reverseRecOn with
  | nil => rfl
  | append_singleton attempts a ih =>
    obtain ⟨hattempts, hclears⟩ := cleared_concat.mp h
    have ha : a.failed = false := hlast a (by rw [getLast?_concat]; rfl)
    rw [foldl_append, foldl_cons, foldl_nil]
    by_cases hcalls : a = .answered true
    · rw [hcalls]
      rfl
    · rw [count_of_not_failed ha hcalls]
      refine ih hattempts fun last hmem => ?_
      rw [← Bool.not_eq_true]
      intro hfailed
      rcases hclears last hmem hfailed with hfailed | heq
      · rw [ha] at hfailed
        cases hfailed
      · exact hcalls heq

theorem allFailed_of_le_count (h : SuccessesClear attempts)
    (hle : (threshold : Int) ≤ attempts.foldl Attempt.count 0) : AllFailed threshold attempts := by
  induction attempts using List.reverseRecOn generalizing threshold with
  | nil =>
    have hzero : threshold = 0 := Int.ofNat_eq_zero.mp (le_antisymm hle (Int.natCast_nonneg _))
    rw [hzero]
    exact allFailed_zero _
  | append_singleton attempts a ih =>
    cases threshold with
    | zero => exact allFailed_zero _
    | succ threshold =>
      cases hfailed : a.failed with
      | true =>
        rw [foldl_append, foldl_cons, foldl_nil, count_of_failed hfailed] at hle
        push_cast at hle
        refine allFailed_concat.mpr ⟨hfailed, ih (cleared_concat.mp h).1 ?_⟩
        omega
      | false =>
        have hzero := count_eq_zero h fun last hlast => by
          rw [getLast?_concat] at hlast
          cases hlast
          exact hfailed
        rw [hzero] at hle
        push_cast at hle
        omega

theorem le_count_of_executed (h : ∀ a ∈ attempts, ∃ failed, a = .executed failed) :
    errors ≤ attempts.foldl Attempt.count errors := by
  induction attempts generalizing errors with
  | nil => exact le_rfl
  | cons a attempts ih =>
    obtain ⟨⟨failed, rfl⟩, hrest⟩ := forall_mem_cons.mp h
    refine le_trans ?_ (ih hrest)
    rw [Attempt.count]
    split_ifs
    · omega
    · exact le_rfl

theorem not_allFailed_take {past made : List Attempt} (hthreshold : 0 < threshold)
    (hpast : ∀ k, ¬AllFailed threshold (past.take k))
    (hmade : ∀ a ∈ made.tail, ∃ failed, a = .executed failed)
    (hend : (past ++ made).foldl Attempt.count 0 < threshold ∨ made = [.answered false]) (k : ℕ) :
    ¬AllFailed threshold ((past ++ made).take k) := by
  rw [take_append]
  by_cases hk : k ≤ past.length
  · rw [Nat.sub_eq_zero_of_le hk, take_zero, append_nil]
    exact hpast k
  · obtain ⟨j, rfl⟩ := Nat.exists_eq_add_of_lt (not_le.mp hk)
    rw [take_of_length_le (by omega), show past.length + j + 1 - past.length = j + 1 by omega]
    rcases hend with hlt | rfl
    · intro hfailed
      have hle := le_count le_rfl hfailed
      have hrest : ∀ a ∈ made.drop (j + 1), ∃ failed, a = .executed failed := by
        intro a ha
        rw [← drop_one] at hmade
        refine hmade a ?_
        rw [Nat.add_comm, ← drop_drop] at ha
        exact mem_of_mem_drop ha
      have hmono : (past ++ made.take (j + 1)).foldl Attempt.count 0 ≤
          (made.drop (j + 1)).foldl Attempt.count
            ((past ++ made.take (j + 1)).foldl Attempt.count 0) :=
        le_count_of_executed hrest
      rw [← foldl_append, append_assoc, take_append_drop] at hmono
      omega
    · obtain ⟨threshold, rfl⟩ := Nat.exists_eq_add_of_lt hthreshold
      rw [take_succ_cons, take_nil, Nat.zero_add, allFailed_concat]
      exact fun h => Bool.false_ne_true h.1

end Counter

namespace ToolLoop

variable {W : Type} (loop : ToolLoop W)

variable (context : Option ToolContext) (toolName : Text) (arguments : Json)

/-- The checks and the hooks before the execution of a tool: the arguments that it is
executed with, when they clear it. -/
def clearance :
    LoopM W (Option Json) := do
  let allowed ← loop.checkGovernance context toolName arguments
  if !allowed then return none
  else
    let enforced ← loop.checkAutonomy toolName arguments
    if enforced = .blocked then return none
    else
      let outcome ← loop.runPreHooks toolName arguments
      return if outcome.abort then none else some outcome.arguments

def raises {ε α : Type} : Except ε α → Bool
  | .ok _ => false
  | .error _ => true

def callAttempts (context : Option ToolContext) (call : ToolCall) (d : LoopData W) : List Attempt :=
  match loop.python.jsonLoads call.function.arguments with
  | none => [.executed true]
  | some arguments =>
    match (loop.clearance context call.function.name arguments).run d with
    | .ok (some arguments) d =>
      [.executed (raises (loop.ports.validatedExecute call.function.name arguments
        (context.getD defaultContext) d.world).1)]
    | _ => []

def eachAttempts (context : Option ToolContext) : List ToolCall → LoopData W → List Attempt
  | [], _ => []
  | call :: rest, d =>
    loop.callAttempts context call d ++
      match (loop.executeToolCall context call).run d with
      | .ok (_, false) d => eachAttempts context rest d
      | _ => []

variable (response : LLMResponse)

def responseAttempts (d : LoopData W) : List Attempt :=
  if response.calls ≠ [] then
    .answered true ::
      match (do resetForToolCalls; loop.doomLoop response : LoopM W Bool).run d with
      | .ok false d => loop.eachAttempts loop.toolContext
          (callsToProcess loop.config.maxToolCallsPerIteration response.calls) d
      | _ => []
  else [.answered false]

def iterationAttempts (model : Text) (d : LoopData W) : List Attempt :=
  match (loop.complete model d.messages).run d with
  | .ok (.ok response) d =>
    match (do trackTokenUsage response; loop.runTextCalls response : LoopM W LLMResponse).run d with
    | .ok response d => loop.responseAttempts response d
    | .error _ _ => [.answered false]
  | _ => [.raised]

def attempts (model : Text) : ℕ → Last → LoopData W → List (List Attempt)
  | 0, _, _ => []
  | n + 1, last, d =>
    loop.iterationAttempts model (loop.prepared d) ::
      match (loop.runIteration model last).run d with
      | .ok (last, none) d => attempts model n last d
      | _ => []

variable {loop}

def Errors (errors : Int) (d : LoopData W) : Prop := d.state.consecutiveErrors = errors

theorem keepsErrors_modifyState
    (hf : ∀ state, (f state).consecutiveErrors = state.consecutiveErrors) :
    Keeps (Errors errors) (modifyState f : LoopM W PUnit) :=
  keeps_modify fun d hd => (hf d.state).trans hd

theorem keepsErrors_of_state {α : Type} {x : LoopM W α} (hx : ∀ P, Keeps (OnState P) x) :
    Keeps (Errors errors) x := hx fun state => state.consecutiveErrors = errors

theorem keepsErrors_clearance :
    Keeps (Errors errors) (loop.clearance context toolName arguments) := by
  refine Keeps.bind (keepsErrors_of_state fun _ => keepsState_checkGovernance _ _ _)
    fun allowed => ?_
  split_ifs
  · exact keeps_pure _
  · refine Keeps.bind (keepsErrors_of_state fun _ => keepsState_checkAutonomy _ _)
      fun enforced => ?_
    split_ifs
    · exact keeps_pure _
    · exact Keeps.bind (keepsErrors_of_state fun _ => keepsState_runPreHooks _ _)
        fun outcome => keeps_pure _

variable (loop) in
theorem keepsErrors_finishTool (toolName : Text) (arguments : Json) (result : ToolResult) :
    Keeps (Errors errors) (loop.finishTool toolName arguments result) :=
  keepsState_finishTool (P := fun state => state.consecutiveErrors = errors)
    (fun _ => keepsErrors_modifyState fun _ => by rfl) _ _ _

theorem keepsErrors_doomLoop : Keeps (Errors errors) (loop.doomLoop response) := by
  rw [doomLoop]
  split_ifs
  · unfold checkDoomLoop
    cases response.calls with
    | nil => exact keeps_pure _
    | cons call rest =>
      refine (keepsErrors_modifyState fun _ => by rfl).bind fun _ => keeps_get.bind fun d => ?_
      dsimp only
      split_ifs
      · exact keeps_pure _
      · exact keeps_pure _
  · exact keeps_pure _

theorem executeToolCall_run (context : Option ToolContext) {call : ToolCall} {arguments : Json}
    (h : loop.python.jsonLoads call.function.arguments = some arguments) (d : LoopData W) :
    match (loop.clearance context call.function.name arguments).run d with
    | .ok (some cleared) d' => (loop.executeToolCall context call).run d =
        (do
          let result ← loop.executeTool context call.function.name cleared
          let result ← loop.finishTool call.function.name cleared result
          return (result, false) : LoopM W (ToolResult × Bool)).run d'
    | .ok none d' => ∃ result, (loop.executeToolCall context call).run d = .ok result d'
    | .error e d' => (loop.executeToolCall context call).run d = .error e d' := by
  rw [executeToolCall, h, clearance]
  dsimp only
  rw [run_bind, run_bind]
  cases (loop.checkGovernance context call.function.name arguments).run d with
  | error e d₁ => rfl
  | ok allowed d₁ =>
    dsimp only
    cases allowed with
    | false => exact ⟨_, rfl⟩
    | true =>
      rw [Bool.not_true, if_neg Bool.false_ne_true, if_neg Bool.false_ne_true, run_bind,
        run_bind]
      cases (loop.checkAutonomy call.function.name arguments).run d₁ with
      | error e d₂ => rfl
      | ok enforced d₂ =>
        dsimp only
        by_cases hblocked : enforced = .blocked
        · rw [if_pos hblocked, if_pos hblocked]
          exact ⟨_, rfl⟩
        · rw [if_neg hblocked, if_neg hblocked, run_bind, run_bind]
          cases (loop.runPreHooks call.function.name arguments).run d₂ with
          | error e d₃ => rfl
          | ok outcome d₃ =>
            dsimp only
            cases habort : outcome.abort with
            | true => exact ⟨_, rfl⟩
            | false => rfl

def Counts {α : Type} (x : LoopM W α) (d : LoopData W) (made : List Attempt) : Prop :=
  match x.run d with
  | .ok _ d' => d'.state.consecutiveErrors =
      made.foldl Attempt.count d.state.consecutiveErrors
  | .error _ _ => True

theorem Counts.bind {α β : Type} {x : LoopM W α} {f : α → LoopM W β} {d : LoopData W}
    {made : List Attempt} (hx : Counts x d made) (hf : ∀ a errors, Keeps (Errors errors) (f a)) :
    Counts (x >>= f) d made := by
  rw [Counts] at hx ⊢
  rw [run_bind]
  cases hrun : x.run d with
  | error e d' => trivial
  | ok a d' =>
    rw [hrun] at hx
    have hkept := hf a _ d' rfl
    dsimp only at hx ⊢
    cases hrest : (f a).run d' with
    | error e d'' => trivial
    | ok b d'' =>
      rw [hrest] at hkept
      exact hkept.trans hx

variable (loop) in
theorem executeTool_counts
    (d : LoopData W) :
    Counts (loop.executeTool context toolName arguments) d
      [.executed (raises (loop.ports.validatedExecute toolName arguments
        (context.getD defaultContext) d.world).1)] := by
  rw [Counts, executeTool, run_bind, record_run]
  dsimp only
  rw [run_bind, onPorts_run]
  dsimp only
  cases (loop.ports.validatedExecute toolName arguments
    (context.getD defaultContext) d.world).1 with
  | ok result => rfl
  | error message => rfl

variable (loop) in
theorem executeToolCall_counts (context : Option ToolContext) (call : ToolCall)
    (d : LoopData W) :
    Counts (loop.executeToolCall context call) d (loop.callAttempts context call d) := by
  rw [callAttempts]
  cases hparsed : loop.python.jsonLoads call.function.arguments with
  | none =>
    rw [Counts, executeToolCall, hparsed]
    rfl
  | some arguments =>
    dsimp only
    have hkept : Keeps (Errors d.state.consecutiveErrors)
        (loop.clearance context call.function.name arguments) := keepsErrors_clearance _ _ _
    have hkept := hkept d rfl
    have hrun := executeToolCall_run context hparsed d
    cases hclearance : (loop.clearance context call.function.name arguments).run d with
    | error e d' =>
      rw [hclearance] at hrun
      rw [Counts, hrun]
      trivial
    | ok cleared d' =>
      rw [hclearance] at hrun hkept
      cases cleared with
      | none =>
        obtain ⟨result, hrun⟩ := hrun
        rw [Counts, hrun]
        exact hkept
      | some cleared =>
        have hexecuted := (executeTool_counts loop context call.function.name cleared d').bind
          fun result errors => (keepsErrors_finishTool loop
            call.function.name cleared result).bind fun result => keeps_pure (result, false)
        rw [Counts] at hexecuted ⊢
        rw [hrun]
        rw [hkept] at hexecuted
        exact hexecuted

variable (loop) in
theorem executeEach_counts (context : Option ToolContext) (calls : List ToolCall)
    (d : LoopData W) :
    Counts (loop.executeEach context calls) d (loop.eachAttempts context calls d) := by
  induction calls generalizing d with
  | nil => rfl
  | cons call rest ih =>
    have hcall := executeToolCall_counts loop context call d
    rw [Counts] at hcall ⊢
    rw [executeEach, eachAttempts, run_bind, foldl_append]
    cases hrun : (loop.executeToolCall context call).run d with
    | error e d' => trivial
    | ok result d' =>
      obtain ⟨result, stop⟩ := result
      rw [hrun] at hcall
      dsimp only at hcall ⊢
      rw [← hcall]
      cases stop with
      | true => rfl
      | false =>
        have hrest := ih d'
        rw [Counts] at hrest
        rw [if_neg Bool.false_ne_true, run_bind]
        cases hrun : (loop.executeEach context rest).run d' with
        | error e d'' => trivial
        | ok results d'' =>
          rw [hrun] at hrest
          exact hrest

variable (loop) in
theorem runToolCalls_counts {response : LLMResponse} (hcalls : response.calls ≠ [])
    (d : LoopData W) :
    Counts (loop.runToolCalls response) d (loop.responseAttempts response d) := by
  rw [Counts, runToolCalls, responseAttempts, if_pos hcalls, run_bind, run_bind]
  cases hreset : (resetForToolCalls : LoopM W PUnit).run d with
  | error e d₁ => trivial
  | ok a d₁ =>
    have hzero : d₁.state.consecutiveErrors = 0 := by
      cases hreset
      rfl
    have hdoom : Keeps (Errors 0) (loop.doomLoop response) := keepsErrors_doomLoop response
    have hdoom := hdoom d₁ hzero
    dsimp only
    rw [run_bind, foldl_cons]
    cases hlooping : (loop.doomLoop response).run d₁ with
    | error e d₂ => trivial
    | ok looping d₂ =>
      rw [hlooping] at hdoom
      cases looping with
      | true => exact hdoom
      | false =>
        have htaken : ∀ results errors,
            Keeps (Errors errors) (loop.takeResults response results) := fun results _ =>
          keepsErrors_of_state fun _ => keepsState_takeResults response results
        have heach := (executeEach_counts loop loop.toolContext
          (callsToProcess loop.config.maxToolCallsPerIteration response.calls) d₂).bind htaken
        rw [Counts, hdoom] at heach
        exact heach

variable (loop) in
theorem runToolCalls_flow :
    Triple (fun _ : LoopData W => True) (loop.runToolCalls response)
      (fun flow _ => flow = .next ∨ ∃ reason, flow = .stop (reason, none) ∧ reason ≠ .error)
      (fun _ _ => True) := by
  refine Triple.bind (Q := fun _ _ => True) (fun _ _ => trivial) fun _ => ?_
  refine Triple.bind (Q := fun _ _ => True) (fun d _ => ?_) fun looping => ?_
  · split <;> trivial
  · split_ifs
    · exact triple_pure fun _ _ => .inr ⟨_, rfl, nofun⟩
    · refine Triple.bind (Q := fun _ _ => True) (fun d _ => ?_) fun results => ?_
      · split <;> trivial
      · refine Triple.bind (Q := fun _ _ => True) (fun _ _ => trivial) fun d => ?_
        split_ifs
        · exact triple_pure fun _ _ => .inr ⟨_, rfl, nofun⟩
        · exact fun d _ => .inl rfl

variable (loop) in
theorem runTextCalls_state (d : LoopData W) :
    match (loop.runTextCalls response).run d with
    | .ok _ d' => d' = d
    | .error _ d' => d' = d := by
  have hkept := @keeps_runTextCalls _ loop (fun d' => d' = d) response d rfl
  cases hrun : (loop.runTextCalls response).run d with
  | ok found d' =>
    rw [hrun] at hkept
    exact hkept
  | error e d' =>
    rw [hrun] at hkept
    exact hkept

variable (loop) in
def Leaves (made : List Attempt) (d : LoopData W) (flow : Flow Ending) (d' : LoopData W) : Prop :=
  match flow with
  | .next => True
  | .again => d'.state.consecutiveErrors < loop.config.errorThreshold ∨
      made = [.answered false] ∧ d.state.confirmationPending = true
  | .stop ending => ending.1 = .error →
      loop.config.errorThreshold ≤ d'.state.consecutiveErrors

variable (loop) in
theorem runText_leaves (d : LoopData W) :
    match (loop.runText response).run d with
    | .ok flow d' => d'.state.consecutiveErrors = d.state.consecutiveErrors ∧
        loop.Leaves [.answered false] d flow d'
    | .error _ _ => True := by
  rw [runText]
  split_ifs with hdouble
  · exact ⟨rfl, by rintro ⟨⟩⟩
  · rw [run_bind, run_get]
    dsimp only
    split_ifs with hpending
    · exact ⟨rfl, trivial⟩
    · have hpending : d.state.confirmationPending = true := by
        simpa using hpending
      cases loop.parseConfirmation response.content with
      | none => exact ⟨rfl, .inr ⟨rfl, hpending⟩⟩
      | some confirmed =>
        cases confirmed with
        | true => exact ⟨rfl, by rintro ⟨⟩⟩
        | false => exact ⟨rfl, .inr ⟨rfl, hpending⟩⟩

variable (loop) in
theorem ask_counts (model : Text) (last : Last) (d : LoopData W) :
    match (loop.ask model last).run d with
    | .ok (_, flow) d' => d'.state.consecutiveErrors =
          (loop.iterationAttempts model d).foldl Attempt.count d.state.consecutiveErrors ∧
        loop.Leaves (loop.iterationAttempts model d) d flow d'
    | .error _ _ => True := by
  rw [ask, iterationAttempts, run_bind, run_get]
  dsimp only
  rw [run_bind, complete_run]
  dsimp only
  cases (loop.ports.complete model d.messages d.world).1 with
  | error e =>
    dsimp only
    rw [run_bind, bumpErrors_run]
    dsimp only
    rw [run_bind, thresholdReached_run]
    dsimp only
    split_ifs with hreached
    · exact ⟨rfl, fun _ => of_decide_eq_true hreached⟩
    · exact ⟨rfl, .inl (not_le.mp fun hle => hreached (decide_eq_true hle))⟩
  | ok response =>
    dsimp only
    rw [run_bind, run_bind]
    cases htrack : (trackTokenUsage response : LoopM W PUnit).run
        { d with
          trace := d.trace ++ [.llmCall model d.messages]
          world := (loop.ports.complete model d.messages d.world).2 } with
    | error e d₁ => trivial
    | ok a d₁ =>
      have hstate : d₁.state.consecutiveErrors = d.state.consecutiveErrors ∧
          d₁.state.confirmationPending = d.state.confirmationPending := by
        cases htrack
        split_ifs <;> exact ⟨rfl, rfl⟩
      dsimp only
      rw [run_bind, respond, run_bind]
      have htext := runTextCalls_state loop response d₁
      cases hfound : (loop.runTextCalls response).run d₁ with
      | error e d₂ => trivial
      | ok found d₂ =>
        rw [hfound] at htext
        subst htext
        dsimp only
        by_cases hcalls : found.calls ≠ []
        · rw [if_pos hcalls]
          have hcounts := runToolCalls_counts loop hcalls d₂
          have hflow := runToolCalls_flow loop found d₂ trivial
          rw [Counts, hstate.1] at hcounts
          cases hrun : (loop.runToolCalls found).run d₂ with
          | error e d₃ => trivial
          | ok flow d₃ =>
            rw [hrun] at hcounts hflow
            refine ⟨hcounts, ?_⟩
            rcases hflow with rfl | ⟨reason, rfl, hreason⟩
            · trivial
            · exact fun h => absurd h hreason
        · rw [if_neg hcalls, responseAttempts, if_neg hcalls]
          have hleaves := runText_leaves loop found d₂
          cases hrun : (loop.runText found).run d₂ with
          | error e d₃ => trivial
          | ok flow d₃ =>
            rw [hrun] at hleaves
            refine ⟨hleaves.1.trans hstate.1, ?_⟩
            cases flow with
            | stop ending => exact hleaves.2
            | again => exact hleaves.2.imp_right fun h => ⟨h.1, hstate.2.symm.trans h.2⟩
            | next => trivial

variable (loop) in
theorem finishIteration_counts :
    Triple (Errors errors) loop.finishIteration
      (fun reason d => Errors errors d ∧
        (reason = some .error → loop.config.errorThreshold ≤ errors) ∧
        (reason = none → errors < loop.config.errorThreshold))
      (fun _ _ => True) := by
  rw [finishIteration_eq]
  have hcontexts : Keeps (Errors errors)
      (do loop.manageContext; loop.compressContext : LoopM W PUnit) :=
    keepsErrors_of_state fun _ => keepsState_contexts
  have hbudget : Keeps (Errors errors) loop.budgetSpent :=
    keepsErrors_of_state fun _ => keepsState_budgetSpent
  refine Triple.bind (hcontexts.conseq (fun _ h => h) (fun _ _ h => h)
    fun _ _ _ => trivial) fun _ => ?_
  refine Triple.bind (Q := fun reached d => Errors errors d ∧
    reached = decide (loop.config.errorThreshold ≤ errors)) ?_ fun reached => ?_
  · rintro d rfl
    exact ⟨rfl, rfl⟩
  · refine Triple.of_fact fun hreached => ?_
    split_ifs with hif
    · exact triple_pure fun d hd =>
        ⟨hd, fun _ => of_decide_eq_true (hreached.symm.trans hif), nofun⟩
    · have hlt : errors < loop.config.errorThreshold :=
        not_le.mp fun hle => hif (hreached.trans (decide_eq_true hle))
      refine Triple.bind (hbudget.conseq (fun _ h => h) (fun _ _ h => h)
        fun _ _ _ => trivial) fun spent => ?_
      split_ifs
      · exact triple_pure fun d hd => ⟨hd, nofun, nofun⟩
      · exact triple_pure fun d hd => ⟨hd, nofun, fun _ => hlt⟩

variable (loop) in
theorem runIteration_counts (model : Text) (last : Last) (d : LoopData W) :
    match (loop.runIteration model last).run d with
    | .ok (_, ending) d' => d'.state.consecutiveErrors =
          (loop.iterationAttempts model (loop.prepared d)).foldl Attempt.count
            d.state.consecutiveErrors ∧
        (∀ e, ending = some e → e.1 = .error →
          loop.config.errorThreshold ≤ d'.state.consecutiveErrors) ∧
        (ending = none → d'.state.consecutiveErrors < loop.config.errorThreshold ∨
          loop.iterationAttempts model (loop.prepared d) = [.answered false] ∧
            d.state.confirmationPending = true)
    | .error _ _ => True := by
  have hask := ask_counts loop model last (loop.prepared d)
  rw [runIteration_prepared]
  cases hflow : (loop.ask model last).run (loop.prepared d) with
  | error e d' => trivial
  | ok result d' =>
    obtain ⟨last', flow⟩ := result
    rw [hflow] at hask
    obtain ⟨hcount, hleaves⟩ := hask
    dsimp only
    cases flow with
    | stop ending =>
      refine ⟨hcount, fun e he => ?_, nofun⟩
      cases he
      exact hleaves
    | again => exact ⟨hcount, nofun, fun _ => hleaves⟩
    | next =>
      have hfinish := finishIteration_counts loop d' rfl
      rw [endResponse, run_bind]
      cases hrun : (loop.finishIteration).run d' with
      | error e d'' => trivial
      | ok reason d'' =>
        rw [hrun] at hfinish
        obtain ⟨hkept, herror, hnone⟩ := hfinish
        refine ⟨hkept.trans hcount, fun e he hreason => ?_, fun hend => .inl ?_⟩
        · rw [Option.map_eq_some_iff] at he
          obtain ⟨reason', hsome, rfl⟩ := he
          rw [hkept]
          exact herror (hsome.trans (congrArg some hreason))
        · rw [hkept]
          exact hnone (Option.map_eq_none_iff.mp hend)

theorem eachAttempts_executed (context : Option ToolContext) (calls : List ToolCall)
    (d : LoopData W) :
    ∀ a ∈ loop.eachAttempts context calls d, ∃ failed, a = .executed failed := by
  induction calls generalizing d with
  | nil => exact nofun
  | cons call rest ih =>
    rw [eachAttempts, forall_mem_append]
    constructor
    · rw [callAttempts]
      split
      · exact forall_mem_singleton.mpr ⟨_, rfl⟩
      · split
        · exact forall_mem_singleton.mpr ⟨_, rfl⟩
        · exact nofun
    · split
      · exact ih _
      · exact nofun

theorem iterationAttempts_tail (model : Text) (d : LoopData W) :
    ∀ a ∈ (loop.iterationAttempts model d).tail, ∃ failed, a = .executed failed := by
  rw [iterationAttempts]
  split
  · split
    · rw [responseAttempts]
      split_ifs
      · rw [tail_cons]
        split
        · exact eachAttempts_executed _ _ _
        · exact nofun
      · exact nofun
    · exact nofun
  · exact nofun

def Unmet (threshold : Int) (past : List Attempt) : Prop :=
  0 < threshold ∧ ∀ k, ¬AllFailed threshold.toNat (past.take k)

def Before (threshold : Int) (past : List Attempt) (d : LoopData W) : Prop :=
  d.state.consecutiveErrors = past.foldl Attempt.count 0 ∧
    (past = [] ∧ d.state.confirmationPending = false ∨ Unmet threshold past)

theorem Before.next (h : Before loop.config.errorThreshold past d)
    (hrun : (loop.runIteration model last).run d = .ok (last', none) d') :
    d'.state.consecutiveErrors =
        (past ++ loop.iterationAttempts model (loop.prepared d)).foldl Attempt.count 0 ∧
      Unmet loop.config.errorThreshold
        (past ++ loop.iterationAttempts model (loop.prepared d)) := by
  obtain ⟨hcount, hpast⟩ := h
  have hcounts := runIteration_counts loop model last d
  rw [hrun] at hcounts
  obtain ⟨hafter, -, hnone⟩ := hcounts
  have hnone := hnone rfl
  rw [hcount, ← foldl_append] at hafter
  refine ⟨hafter, ?_⟩
  have hthreshold : 0 < loop.config.errorThreshold := by
    rcases hpast with ⟨-, hpending⟩ | ⟨hpos, -⟩
    · rcases hnone with hlt | ⟨-, htrue⟩
      · have hnonneg := count_nonneg le_rfl
          (past ++ loop.iterationAttempts model (loop.prepared d))
        rw [← hafter] at hnonneg
        exact lt_of_le_of_lt hnonneg hlt
      · rw [hpending] at htrue
        cases htrue
    · exact hpos
  refine ⟨hthreshold, not_allFailed_take (by omega) (fun k => ?_) (iterationAttempts_tail _ _) ?_⟩
  · rcases hpast with ⟨rfl, -⟩ | ⟨-, hpast⟩
    · rw [take_nil]
      intro hfailed
      have hle : loop.config.errorThreshold.toNat ≤ 0 := hfailed.1
      omega
    · exact hpast k
  · rw [← hafter]
    refine hnone.imp (fun hlt => ?_) And.left
    omega

variable (loop) in
theorem attempts_inTime (model : Text) (n : ℕ) (last : Last)
    (h : Before loop.config.errorThreshold past d) :
    ∀ i, i + 1 < (loop.attempts model n last d).length → ∀ k,
      ¬AllFailed loop.config.errorThreshold.toNat
        ((past ++ ((loop.attempts model n last d).take (i + 1)).flatten).take k) := by
  induction n generalizing last d past with
  | zero => exact fun i hi => absurd hi (Nat.not_lt_zero _)
  | succ n ih =>
    intro i hi k
    rw [attempts] at hi ⊢
    cases hrun : (loop.runIteration model last).run d with
    | error e d' =>
      rw [hrun] at hi
      simp at hi
    | ok result d' =>
      obtain ⟨last', ending⟩ := result
      rw [hrun] at hi
      cases ending with
      | some ending => simp at hi
      | none =>
        obtain ⟨hcount, hunmet⟩ := h.next hrun
        rw [take_succ_cons, flatten_cons, ← append_assoc]
        cases i with
        | zero =>
          rw [take_zero, flatten_nil, append_nil]
          exact hunmet.2 k
        | succ i =>
          refine ih last' ⟨hcount, .inr hunmet⟩ i ?_ k
          simpa using hi

variable (loop) in
theorem runFrom_counts (model : Text) (n : ℕ) (last : Last)
    (hcount : d.state.consecutiveErrors = past.foldl Attempt.count 0) :
    match (loop.runFrom model n last).run d with
    | .ok (_, ending) _ => ending.1 = .error →
        loop.config.errorThreshold ≤
          (past ++ (loop.attempts model n last d).flatten).foldl Attempt.count 0
    | .error _ _ => True := by
  induction n generalizing last d past with
  | zero => exact nofun
  | succ n ih =>
    have hcounts := runIteration_counts loop model last d
    rw [runFrom, attempts, run_bind]
    cases hrun : (loop.runIteration model last).run d with
    | error e d' => trivial
    | ok result d' =>
      obtain ⟨last', ending⟩ := result
      rw [hrun] at hcounts
      obtain ⟨hafter, herror, -⟩ := hcounts
      rw [hcount, ← foldl_append] at hafter
      cases ending with
      | some ending =>
        intro hreason
        have hle := herror ending rfl hreason
        rw [flatten_cons, flatten_nil, append_nil, ← hafter]
        exact hle
      | none =>
        have hrest := ih last' hafter
        rw [append_assoc] at hrest
        exact hrest

/-- A run ends at the latest with the iteration in which as many attempts as the threshold
says have failed in a row, and when every success clears the counter, it ends with an
error only after so many failures. -/
theorem run_errorThreshold (loop : ToolLoop W) (model : Text) (world : W)
    (limiter : RateLimiter) (enforcer : Option RuntimeEnforcer) (messages : List ChatMessage) :
    let history := loop.attempts model loop.config.maxIterations.toNat ⟨[], model⟩
      { world, limiter, enforcer, messages }
    InTime loop.config.errorThreshold.toNat history ∧
      (SuccessesClear history.flatten → ∀ result d,
        (loop.run model).run { world, limiter, enforcer, messages } = .ok result d →
        result.terminationReason = .error →
        AllFailed loop.config.errorThreshold.toNat history.flatten) := by
  intro history
  constructor
  · intro i hi k
    have hbefore : Before loop.config.errorThreshold []
        ({ world, limiter, enforcer, messages } : LoopData W) := ⟨rfl, .inl ⟨rfl, rfl⟩⟩
    have hnot := attempts_inTime loop model _ ⟨[], model⟩ hbefore i hi k
    rwa [nil_append] at hnot
  · intro hcleared result d hrun hreason
    have hzero : ({ world, limiter, enforcer, messages } : LoopData W).state.consecutiveErrors =
        ([] : List Attempt).foldl Attempt.count 0 := rfl
    have hcounts := runFrom_counts loop model loop.config.maxIterations.toNat ⟨[], model⟩ hzero
    rw [run, run_bind] at hrun
    cases hfrom : (loop.runFrom model loop.config.maxIterations.toNat ⟨[], model⟩).run
        { world, limiter, enforcer, messages } with
    | error e d' =>
      rw [hfrom] at hrun
      cases hrun
    | ok found d' =>
      obtain ⟨last, reason, final⟩ := found
      rw [hfrom] at hrun hcounts
      cases hrun
      have hle : loop.config.errorThreshold ≤ history.flatten.foldl Attempt.count 0 :=
        hcounts hreason
      have hnonneg := count_nonneg le_rfl history.flatten
      refine allFailed_of_le_count hcleared ?_
      omega

def cautiousLoop : ToolLoop Script :=
  { scriptedLoop [("x".toList, .obj [])] with config := { errorThreshold := 2 } }

def calling (wellFormed : List Bool) : LoopData Script where
  world := [callResponse (wellFormed.map fun b => ("1", "look", if b then "x" else "\x7b"))]
  limiter := { perMinute := 60, burst := 10 }
  messages := [.say .user "Go.".toList]

def callingAttempts (wellFormed : List Bool) : List (List Attempt) :=
  cautiousLoop.attempts "m".toList cautiousLoop.config.maxIterations.toNat ⟨[], "m".toList⟩
    (calling wellFormed)

def endsWithError (result : EStateM.Result Exn (LoopData Script) ToolLoopResult) : Bool :=
  match result with
  | .ok result _ => decide (result.terminationReason = .error)
  | .error _ _ => false

theorem run_errorThreshold_malformed :
    endsWithError ((cautiousLoop.run "m".toList).run (calling [true, false, false])) = true ∧
      InTime 2 (callingAttempts [true, false, false]) ∧
      ∀ result d, (cautiousLoop.run "m".toList).run (calling [true, false, false]) = .ok result d →
        result.terminationReason = .error →
        AllFailed 2 (callingAttempts [true, false, false]).flatten :=
  have hrun := run_errorThreshold cautiousLoop "m".toList _ _ none _
  ⟨by decide, hrun.1, hrun.2 (by decide +kernel)⟩

/-- A malformed call, a success and another malformed call end the run. -/
theorem interleaved_not_allFailed :
    endsWithError ((cautiousLoop.run "m".toList).run (calling [false, true, false])) = true ∧
      ¬AllFailed 2 (callingAttempts [false, true, false]).flatten := by
  constructor
  · decide
  · decide

end ToolLoop

end Agent33.Agents
