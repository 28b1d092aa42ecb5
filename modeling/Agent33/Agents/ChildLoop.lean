import Agent33.Agents.DelegateSubtask
import Agent33.Agents.LoopInvariants
import Agent33.Library.History

/-!
# The loop of a child

The loop of a child raises no exception. Each call of a tool in its log has been asked for by
an answer before it, and where the loop ends in a failure the answers have failed as often
in a row as its threshold says.
-/

namespace Agent33.Agents

open Library Library.Hoare Llm Tools List EStateM

def TerminationReason.isFailure : TerminationReason → Bool
  | error | budgetExceeded | llmError | toolError => true
  | completed | maxIterations | loopDetected => false

namespace ChildAnswer

variable (python : Python)

/-- The response that a stream comes to, when it is not tried again without a stream. -/
def streamed (model : Text) : StreamReply → Option (Except LlmError LLMResponse)
  | .unsupported => none
  | .raises .notImplemented => none
  | .raises e => some (.error e)
  | .chunks chunks error =>
    let s := chunks.foldl ToolLoop.StreamState.feed { model }
    match error with
    | some .notImplemented => none
    | some (.typeError message) =>
      if !s.sawStreamChunks && ToolLoop.isStreamUnsupportedError message then none
      else some (.error (.typeError message))
    | some e => some (.error e)
    | none =>
      if !s.sawStreamChunks then none
      else if !s.sawToolDelta && s.response.calls.isEmpty &&
          decide (s.finishReason = some "tool_calls".toList) then none
      else some (.ok s.response)

def replied : ChildAnswer → Option (Except LlmError LLMResponse)
  | .reply given => some given
  | .stream model given => streamed model given
  | .tool .. => none

def parsedCall (call : ToolCall) : Option (Text × Json) :=
  (python.jsonLoads call.function.arguments).map fun arguments => (call.function.name, arguments)

def asks (answer : ChildAnswer) : List (Text × Json) :=
  match answer.replied with
  | some (.ok response) => (response.calls.take 5).filterMap (parsedCall python)
  | _ => []

def malformed (calls : List ToolCall) : ℤ :=
  calls.countP fun call => (parsedCall python call).isNone

def failuresOf (streaming : Bool) (failures : ℤ) : Except LlmError LLMResponse → ℤ
  | .ok response =>
    if response.calls = [] then failures else malformed python (response.calls.take 5)
  | .error (.typeError _) => if streaming then max failures 3 else failures + 1
  | .error _ => failures + 1

/-- The failures since the last response with tool calls. A `TypeError` of the model ends
a streamed child at once, as three failures do. -/
def failuresAfter (streaming : Bool) (failures : ℤ) (answer : ChildAnswer) : ℤ :=
  match answer with
  | .tool _ _ (.error _) => failures + 1
  | .tool _ _ (.ok _) => failures
  | answer =>
    match answer.replied with
    | some given => failuresOf python streaming failures given
    | none => failures

def failures (streaming : Bool) (log : List ChildAnswer) : ℤ :=
  log.foldl (failuresAfter python streaming) 0

end ChildAnswer

namespace DelegateSubtaskTool

variable {W α β : Type} {tool : DelegateSubtaskTool W} {tools : List Text}
  {streaming : Bool} {python : Python}

def Asked (python : Python) (tools : List Text) (log : List ChildAnswer) : Prop :=
  ∀ pre name arguments result post, log = pre ++ .tool name arguments result :: post →
    name ∈ tools ∧ ∃ answer ∈ pre, (name, arguments) ∈ answer.asks python

theorem Asked.take (h : Asked python tools log) (n : ℕ) : Asked python tools (log.take n) := by
  intro pre name arguments result post hsplit
  refine h pre name arguments result (post ++ log.drop n) ?_
  rw [← cons_append, ← append_assoc, ← hsplit, take_append_drop]

theorem Asked.concat {answer : ChildAnswer} (h : Asked python tools log)
    (hanswer : ∀ name arguments result, answer = .tool name arguments result →
      name ∈ tools ∧ ∃ answer ∈ log, (name, arguments) ∈ answer.asks python) :
    Asked python tools (log ++ [answer]) := by
  intro pre name arguments result post hsplit
  rcases History.split_concat hsplit with ⟨rfl, hlast, -⟩ | ⟨post', -, hlog⟩
  · exact hanswer name arguments result hlast
  · exact h pre name arguments result post' hlog

theorem failures_concat (log : List ChildAnswer) (answer : ChildAnswer) :
    answer.failuresAfter python streaming (ChildAnswer.failures python streaming log) =
      ChildAnswer.failures python streaming (log ++ [answer]) := by
  rw [ChildAnswer.failures, ChildAnswer.failures, foldl_append]
  rfl

theorem failuresOf_mono (h : e ≤ f) (given : Except LlmError LLMResponse) :
    ChildAnswer.failuresOf python streaming e given ≤
      ChildAnswer.failuresOf python streaming f given := by
  cases given with
  | ok response =>
    unfold ChildAnswer.failuresOf
    dsimp only
    split_ifs
    · exact h
    · exact le_rfl
  | error error =>
    cases error with
    | typeError message =>
      cases streaming with
      | false => exact Int.add_le_add_right h 1
      | true =>
        change max e 3 ≤ max f 3
        omega
    | notImplemented => exact Int.add_le_add_right h 1
    | other message => exact Int.add_le_add_right h 1

def Holds (J : List ChildAnswer → ℤ → Prop) (d : LoopData (ChildWorld W)) : Prop :=
  d.enforcer = none ∧ J d.world.log d.state.consecutiveErrors

def Sure (J : List ChildAnswer → ℤ → Prop) (x : LoopM (ChildWorld W) α)
    (Q : α → List ChildAnswer → ℤ → Prop) : Prop :=
  Triple (Holds J) x (fun a => Holds (Q a)) fun _ _ => False

theorem Sure.bind (hx : Sure J x Q) (hf : ∀ a, Sure (Q a) (f a) R) : Sure J (x >>= f) R :=
  Triple.bind hx hf

theorem Sure.pre (hx : Sure K x Q) (h : ∀ log e, J log e → K log e) : Sure J x Q :=
  Triple.pre hx fun _ hd => ⟨hd.1, h _ _ hd.2⟩

theorem sure_of_false (h : a = false → Sure J x Q) : Sure (fun log e => a = false ∧ J log e) x Q :=
  fun d hd => h hd.2.1 d ⟨hd.1, hd.2.2⟩

theorem sure_pure (h : ∀ log e, J log e → Q a log e) : Sure J (pure a : LoopM (ChildWorld W) α) Q :=
  fun _ hd => ⟨hd.1, h _ _ hd.2⟩

theorem sure_modify
    (henforcer : ∀ d, (g d).enforcer = d.enforcer) (hworld : ∀ d, (g d).world = d.world)
    (herrors : ∀ d, (g d).state.consecutiveErrors = d.state.consecutiveErrors) :
    Sure J (modify g : LoopM (ChildWorld W) PUnit) fun _ => J := by
  intro d hd
  refine ⟨(henforcer d).trans hd.1, ?_⟩
  rw [hworld, herrors]
  exact hd.2

def Sound (python : Python) (tools : List Text) (streaming : Bool) (log : List ChildAnswer)
    (e : ℤ) : Prop :=
  Asked python tools log ∧ e ≤ ChildAnswer.failures python streaming log

/-- The calls have been asked for, and the malformed ones among them have been counted. -/
def Executing (python : Python) (tools : List Text) (streaming : Bool) (calls : List ToolCall)
    (log : List ChildAnswer) (e : ℤ) : Prop :=
  Asked python tools log ∧
    (∀ call ∈ calls.filterMap (ChildAnswer.parsedCall python),
      ∃ answer ∈ log, call ∈ answer.asks python) ∧
    e + ChildAnswer.malformed python calls ≤ ChildAnswer.failures python streaming log

def Replied (python : Python) (tools : List Text) (streaming : Bool)
    (given : Except LlmError LLMResponse) (log : List ChildAnswer) (e : ℤ) : Prop :=
  Asked python tools log ∧
    (∀ response, given = .ok response →
      ∀ call ∈ (response.calls.take 5).filterMap (ChildAnswer.parsedCall python),
        ∃ answer ∈ log, call ∈ answer.asks python) ∧
    ChildAnswer.failuresOf python streaming e given ≤ ChildAnswer.failures python streaming log

variable {log : List ChildAnswer} {e : ℤ}


theorem Sound.replied (h : Sound python tools streaming log e) {answer : ChildAnswer}
    (hreplied : answer.replied = some given)
    (hfailures : ∀ f, answer.failuresAfter python streaming f =
      ChildAnswer.failuresOf python streaming f given) :
    Replied python tools streaming given (log ++ [answer]) e := by
  refine ⟨h.1.concat ?_, ?_, ?_⟩
  · rintro name arguments result rfl
    cases hreplied
  · rintro response rfl call hcall
    refine ⟨answer, mem_append_right _ (mem_singleton_self _), ?_⟩
    unfold ChildAnswer.asks
    rw [hreplied]
    exact hcall
  · rw [← failures_concat, hfailures]
    exact failuresOf_mono h.2 given

variable (model : Text) (messages : List ChatMessage)

theorem sure_complete :
    Sure (Sound tool.python tools streaming)
      ((tool.childLoop tools maxIterations context).complete model messages)
      (Replied tool.python tools streaming) := by
  intro d hd
  exact ⟨hd.1, Sound.replied hd.2 rfl fun _ => rfl⟩

theorem sure_record (act : Act) : Sure J (record act : LoopM (ChildWorld W) PUnit) fun _ => J :=
  sure_modify (fun _ => rfl) (fun _ => rfl) fun _ => rfl

def Streamed (python : Python) (tools : List Text) (streaming : Bool) :
    Option (Except LlmError LLMResponse) → List ChildAnswer → ℤ → Prop
  | none => Sound python tools streaming
  | some given => Replied python tools streaming given

theorem Sound.streamed (h : Sound python tools streaming log e) (model : Text)
    (given : StreamReply) :
    Streamed python tools streaming (ChildAnswer.streamed model given)
      (log ++ [.stream model given]) e := by
  cases hstreamed : ChildAnswer.streamed model given with
  | some reply =>
    refine Sound.replied h hstreamed fun f => ?_
    simp only [ChildAnswer.failuresAfter, ChildAnswer.replied, hstreamed]
  | none =>
    refine ⟨h.1.concat fun _ _ _ => nofun, ?_⟩
    rw [← failures_concat]
    simp only [ChildAnswer.failuresAfter, ChildAnswer.replied, hstreamed]
    exact h.2

theorem sure_onStream :
    Sure (Sound tool.python tools streaming)
      (onPorts ((tool.childLoop tools maxIterations context).ports.streamComplete model messages))
      (fun given => Streamed tool.python tools streaming (ChildAnswer.streamed model given)) := by
  intro d hd
  exact ⟨hd.1, Sound.streamed hd.2 model _⟩

theorem sure_streamResponse :
    Sure (Sound tool.python tools streaming)
      ((tool.childLoop tools maxIterations context).streamResponse model messages)
      (Replied tool.python tools streaming) := by
  refine (sure_onStream model messages).bind fun given => ?_
  cases given with
  | unsupported => exact sure_complete model messages
  | raises e =>
    cases e with
    | notImplemented => exact (sure_record _).bind fun _ => sure_complete model messages
    | typeError message => exact (sure_record _).bind fun _ => sure_pure fun _ _ h => h
    | other message => exact (sure_record _).bind fun _ => sure_pure fun _ _ h => h
  | chunks chunks error =>
    refine (sure_record _).bind fun _ => ?_
    cases error with
    | some e =>
      cases e with
      | notImplemented => exact sure_complete model messages
      | other message => exact sure_pure fun _ _ h => h
      | typeError message =>
        unfold ChildAnswer.streamed
        dsimp only
        split_ifs
        · exact sure_complete model messages
        · exact sure_pure fun _ _ h => h
    | none =>
      unfold ChildAnswer.streamed
      dsimp only
      split_ifs
      · exact sure_complete model messages
      · exact sure_complete model messages
      · exact sure_pure fun _ _ h => h

theorem malformed_cons (call : ToolCall) (calls : List ToolCall) :
    ChildAnswer.malformed python (call :: calls) =
      ChildAnswer.malformed python calls +
        if (ChildAnswer.parsedCall python call).isNone then 1 else 0 := by
  unfold ChildAnswer.malformed
  rw [countP_cons]
  split_ifs <;> rfl

variable (given : Option ToolContext)

theorem executeToolCall_malformed
    (h : tool.python.jsonLoads call.function.arguments = none) :
    (tool.childLoop tools maxIterations context).executeToolCall given call = do
      ToolLoop.bumpErrors
      return (.fail ("Invalid JSON arguments for tool ".toList ++
        ToolLoop.quoted call.function.name), false) := by
  unfold ToolLoop.executeToolCall
  simp only [childLoop, h]

theorem executeToolCall_run
    (hd : d.enforcer = none) (h : tool.python.jsonLoads call.function.arguments = some arguments) :
    ((tool.childLoop tools maxIterations context).executeToolCall given call).run d = (do
      let result ← (tool.childLoop tools maxIterations context).executeTool given
        call.function.name arguments
      let result ← (tool.childLoop tools maxIterations context).finishTool
        call.function.name arguments result
      return (result, false) : LoopM (ChildWorld W) (ToolResult × Bool)).run d := by
  have hgoverned : ((tool.childLoop tools maxIterations context).checkGovernance given
      call.function.name arguments).run d = .ok true d := rfl
  have henforced : ((tool.childLoop tools maxIterations context).checkAutonomy
      call.function.name arguments).run d = .ok .allowed d := by
    unfold ToolLoop.checkAutonomy
    simp only [run_bind, run_get, hd]
    rfl
  have hparsed : (tool.childLoop tools maxIterations context).python.jsonLoads
      call.function.arguments = some arguments := h
  unfold ToolLoop.executeToolCall
  simp only [hparsed]
  rw [run_bind, hgoverned]
  dsimp only
  rw [if_neg (by decide), run_bind, henforced]
  dsimp only
  rw [if_neg (by decide)]
  rfl

theorem sure_validatedExecute {name : Text} (given : ToolContext) :
    Sure (fun log e => Executing tool.python tools streaming calls log e ∧
        ∃ answer ∈ log, (name, arguments) ∈ answer.asks tool.python)
      (onPorts ((childPorts tool.ports tools).validatedExecute name arguments given))
      (fun result log e => match result with
        | .ok _ => Executing tool.python tools streaming calls log e
        | .error _ => Executing tool.python tools streaming calls log (e + 1)) := by
  rintro d ⟨hd, ⟨hasked, hpending, hcount⟩, hcalled⟩
  rw [ToolLoop.onPorts_run]
  refine ⟨hd, ?_⟩
  dsimp only [childPorts]
  split_ifs with htool
  · dsimp only
    generalize (tool.ports.validatedExecute name arguments given d.world.world).1 = result
    have hasked' : Asked tool.python tools (d.world.log ++ [.tool name arguments result]) := by
      refine hasked.concat ?_
      rintro _ _ _ ⟨⟩
      exact ⟨htool, hcalled⟩
    have hpending' : ∀ call ∈ calls.filterMap (ChildAnswer.parsedCall tool.python),
        ∃ answer ∈ d.world.log ++ [.tool name arguments result],
          call ∈ answer.asks tool.python := by
      intro call hcall
      obtain ⟨answer, hanswer, hasks⟩ := hpending call hcall
      exact ⟨answer, mem_append_left _ hanswer, hasks⟩
    cases result with
    | ok result =>
      refine ⟨hasked', hpending', ?_⟩
      rw [← failures_concat]
      exact hcount
    | error message =>
      refine ⟨hasked', hpending', ?_⟩
      rw [← failures_concat]
      change d.state.consecutiveErrors + 1 + _ ≤ ChildAnswer.failures _ _ _ + 1
      omega
  · exact ⟨hasked, hpending, hcount⟩

theorem sure_bumpErrors :
    Sure (fun log e => J log (e + 1)) (ToolLoop.bumpErrors : LoopM (ChildWorld W) PUnit)
      fun _ => J :=
  fun _ hd => hd

theorem sure_executeTool {name : Text} :
    Sure (fun log e => Executing tool.python tools streaming calls log e ∧
        ∃ answer ∈ log, (name, arguments) ∈ answer.asks tool.python)
      ((tool.childLoop tools maxIterations context).executeTool given name arguments)
      (fun _ => Executing tool.python tools streaming calls) := by
  refine (sure_record _).bind fun _ => (sure_validatedExecute _).bind fun result => ?_
  cases result with
  | ok result => exact sure_pure fun _ _ h => h
  | error message => exact sure_bumpErrors.bind fun _ => sure_pure fun _ _ h => h

theorem sure_finishTool (name : Text) (arguments : Json) (result : ToolResult) :
    Sure J ((tool.childLoop tools maxIterations context).finishTool name arguments result)
      fun _ => J := by
  refine (sure_pure (Q := fun _ => J) fun _ _ h => h).bind fun _ => ?_
  refine Sure.bind (Q := fun _ => J) ?_ fun _ => sure_pure fun _ _ h => h
  exact sure_modify (fun _ => rfl) (fun _ => rfl) fun _ => rfl

theorem sure_executeToolCall (call : ToolCall)
    (rest : List ToolCall) :
    Sure (Executing tool.python tools streaming (call :: rest))
      ((tool.childLoop tools maxIterations context).executeToolCall given call)
      (fun r log e => r.2 = false ∧ Executing tool.python tools streaming rest log e) := by
  rintro d ⟨hd, hasked, hpending, hcount⟩
  rw [malformed_cons] at hcount
  cases hparsed : tool.python.jsonLoads call.function.arguments with
  | none =>
    have hnone : ChildAnswer.parsedCall tool.python call = none := by
      rw [ChildAnswer.parsedCall, hparsed]
      rfl
    rw [executeToolCall_malformed given hparsed]
    rw [filterMap_cons_none hnone] at hpending
    rw [hnone] at hcount
    refine ⟨hd, rfl, hasked, hpending, ?_⟩
    change d.state.consecutiveErrors + 1 + _ ≤ ChildAnswer.failures _ _ d.world.log
    rw [if_pos Option.isNone_none] at hcount
    omega
  | some arguments =>
    have hsome : ChildAnswer.parsedCall tool.python call =
        some (call.function.name, arguments) := by
      rw [ChildAnswer.parsedCall, hparsed]
      rfl
    rw [executeToolCall_run given hd hparsed]
    rw [filterMap_cons_some hsome] at hpending
    rw [hsome] at hcount
    have hrest : Executing tool.python tools streaming rest d.world.log
        d.state.consecutiveErrors := by
      refine ⟨hasked, fun other hother => hpending other (mem_cons_of_mem _ hother), ?_⟩
      rwa [Option.isNone_some, if_neg Bool.false_ne_true, Int.add_zero] at hcount
    exact ((sure_executeTool given).bind fun result => (sure_finishTool _ _ result).bind
      fun _ => sure_pure fun _ _ h => ⟨rfl, h⟩) d ⟨hd, hrest, hpending _ mem_cons_self⟩

theorem sure_executeEach (calls : List ToolCall) :
    Sure (Executing tool.python tools streaming calls)
      ((tool.childLoop tools maxIterations context).executeEach given calls)
      (fun _ => Sound tool.python tools streaming) := by
  induction calls with
  | nil =>
    refine sure_pure ?_
    rintro log e ⟨hasked, -, hcount⟩
    exact ⟨hasked, by simpa [ChildAnswer.malformed] using hcount⟩
  | cons call rest ih =>
    refine (sure_executeToolCall given call rest).bind fun r => ?_
    obtain ⟨result, stop⟩ := r
    refine sure_of_false ?_
    rintro rfl
    exact ih.bind fun results => sure_pure fun _ _ h => h

def Accounts (python : Python) (streaming : Bool) (ending : Option ToolLoop.Ending)
    (log : List ChildAnswer) : Prop :=
  ∀ e, ending = some e → e.1.isFailure = true →
    3 ≤ ChildAnswer.failures python streaming log

def flowEnding : ToolLoop.Flow ToolLoop.Ending → Option ToolLoop.Ending
  | .stop ending => some ending
  | _ => none

theorem sure_attempt (hx : Sure J x Q) :
    Sure J (ToolLoop.attempt x) fun r log e => ∃ a, r = .ok a ∧ Q a log e := by
  intro d hd
  obtain ⟨a, d', hrun, hpost⟩ := Triple.exists_ok hx hd
  rw [attempt_run, hrun]
  exact ⟨hpost.1, a, rfl, hpost.2⟩

theorem sure_takeResults (response : LLMResponse) (results : List ToolResult) :
    Sure J ((tool.childLoop tools maxIterations context).takeResults response results)
      fun flow log e => flow = .next ∧ J log e := by
  intro d hd
  unfold ToolLoop.takeResults
  simp only [run_bind, run_get]
  rw [if_neg (by simp [hd.1])]
  exact ⟨hd.1, rfl, hd.2⟩

theorem sure_reset (hcalls : response.calls ≠ []) :
    Sure (Replied python tools streaming (.ok response))
      (ToolLoop.resetForToolCalls : LoopM (ChildWorld W) PUnit)
      fun _ => Executing python tools streaming (response.calls.take 5) := by
  rintro d ⟨hd, hasked, hasks, hcount⟩
  refine ⟨hd, hasked, hasks response rfl, ?_⟩
  unfold ChildAnswer.failuresOf at hcount
  dsimp only at hcount
  rw [if_neg hcalls] at hcount
  change 0 + _ ≤ _
  rwa [Int.zero_add]

theorem sure_executeToolCalls (response : LLMResponse) :
    Sure (Executing tool.python tools streaming (response.calls.take 5))
      ((tool.childLoop tools maxIterations context).executeToolCalls given response.calls)
      (fun _ => Sound tool.python tools streaming) :=
  sure_executeEach given (response.calls.take 5)

theorem sure_doomLoop (response : LLMResponse) :
    Sure J ((tool.childLoop tools maxIterations context).doomLoop response)
      fun looping log e => looping = false ∧ J log e :=
  fun _ hd => ⟨hd.1, rfl, hd.2⟩

def Left (python : Python) (tools : List Text) (streaming : Bool)
    (flow : ToolLoop.Flow ToolLoop.Ending) (log : List ChildAnswer) (e : ℤ) : Prop :=
  Sound python tools streaming log e ∧ Accounts python streaming (flowEnding flow) log

theorem sure_taken (response : LLMResponse) (results : List ToolResult) :
    Sure (Sound tool.python tools streaming)
      ((tool.childLoop tools maxIterations context).takeResults response results)
      (Left tool.python tools streaming) := by
  refine Triple.conseq (sure_takeResults response results) (fun _ h => h) ?_ fun _ _ h => h
  rintro flow d ⟨hd, rfl, hsound⟩
  exact ⟨hd, hsound, nofun⟩

theorem sure_runToolCalls (hcalls : response.calls ≠ []) :
    Sure (Replied tool.python tools streaming (.ok response))
      ((tool.childLoop tools maxIterations context).runToolCalls response)
      (Left tool.python tools streaming) := by
  refine (sure_reset hcalls).bind fun _ => (sure_doomLoop response).bind fun looping => ?_
  refine sure_of_false ?_
  rintro rfl
  exact (sure_executeToolCalls _ response).bind fun results => sure_taken response results

theorem sure_streamToolCalls (hcalls : response.calls ≠ []) :
    Sure (Replied tool.python tools streaming (.ok response))
      ((tool.childLoop tools maxIterations context).streamToolCalls response)
      (Left tool.python tools streaming) := by
  refine (sure_reset hcalls).bind fun _ => (sure_doomLoop response).bind fun looping => ?_
  refine sure_of_false ?_
  rintro rfl
  refine (sure_attempt (sure_executeToolCalls _ response)).bind fun attempted => ?_
  cases attempted with
  | error e =>
    rintro d ⟨hd, results, heq, hsound⟩
    cases heq
  | ok results =>
    refine (sure_taken response results).pre ?_
    rintro log e ⟨results, -, hsound⟩
    exact hsound

theorem Replied.sound (hcalls : response.calls = [])
    (h : Replied python tools streaming (.ok response) log e) :
    Sound python tools streaming log e := by
  refine ⟨h.1, ?_⟩
  have hcount := h.2.2
  unfold ChildAnswer.failuresOf at hcount
  dsimp only at hcount
  rwa [if_pos hcalls] at hcount

theorem sure_append (messages : List ChatMessage) :
    Sure J (appendMessages messages : LoopM (ChildWorld W) PUnit) fun _ => J :=
  sure_modify (fun _ => rfl) (fun _ => rfl) fun _ => rfl

theorem sure_setPending (pending : Bool) :
    Sure J (ToolLoop.setPending pending : LoopM (ChildWorld W) PUnit) fun _ => J :=
  sure_modify (fun _ => rfl) (fun _ => rfl) fun _ => rfl

theorem sure_get_bind {f : LoopData (ChildWorld W) → LoopM (ChildWorld W) α}
    (h : ∀ d, Sure J (f d) Q) : Sure J (get >>= f) Q :=
  fun d hd => h d d hd

theorem sure_goOn (h : flowEnding flow = none) :
    Sure (Sound python tools streaming) (pure flow : LoopM (ChildWorld W) _)
      (Left python tools streaming) := by
  refine sure_pure fun log e hsound => ⟨hsound, fun ending hending => ?_⟩
  cases h.symm.trans hending

theorem sure_completed (text : Option Text) :
    Sure (Sound python tools streaming) (pure (.stop (.completed, text)) : LoopM (ChildWorld W) _)
      (Left python tools streaming) := by
  refine sure_pure fun log e hsound => ⟨hsound, fun ending hending hfailure => ?_⟩
  cases hending
  cases hfailure

theorem sure_runText (response : LLMResponse) :
    Sure (Sound tool.python tools streaming)
      ((tool.childLoop tools maxIterations context).runText response)
      (Left tool.python tools streaming) := by
  unfold ToolLoop.runText
  split_ifs with hconfirm
  · exact sure_completed _
  · refine sure_get_bind fun d => ?_
    split_ifs with hpending
    · exact (sure_setPending _).bind fun _ => (sure_append _).bind fun _ =>
        sure_goOn rfl
    · split
      · exact (sure_setPending _).bind fun _ => (sure_append _).bind fun _ =>
          sure_goOn rfl
      · exact (sure_append _).bind fun _ => (sure_setPending _).bind fun _ =>
          sure_goOn rfl
      · exact sure_completed _

theorem sure_streamText (response : LLMResponse) :
    Sure (Sound tool.python tools streaming)
      ((tool.childLoop tools maxIterations context).streamText response)
      (Left tool.python tools streaming) := by
  unfold ToolLoop.streamText
  split_ifs with hconfirm
  · exact sure_completed _
  · refine sure_get_bind fun d => ?_
    split_ifs with hpending
    · exact (sure_setPending _).bind fun _ => (sure_append _).bind fun _ =>
        sure_goOn rfl
    · split
      · exact sure_completed _
      · exact (sure_setPending _).bind fun _ => (sure_append _).bind fun _ =>
          sure_goOn rfl
      · exact (sure_append _).bind fun _ => sure_goOn rfl

theorem sure_thresholdReached :
    Sure J (tool.childLoop tools maxIterations context).thresholdReached
      fun reached log e => J log e ∧ (reached = true → 3 ≤ e) :=
  fun _ hd => ⟨hd.1, hd.2, of_decide_eq_true⟩

theorem sure_budgetSpent :
    Sure J (tool.childLoop tools maxIterations context).budgetSpent
      fun spent log e => spent = false ∧ J log e := by
  intro d hd
  unfold ToolLoop.budgetSpent
  rw [run_bind, onEnforcer_none hd.1]
  dsimp only
  rw [if_neg (by decide), run_bind, run_get]
  dsimp only
  rw [run_bind, onEnforcer_none hd.1]
  exact ⟨hd.1, rfl, hd.2⟩

theorem sure_finishIteration :
    Sure (Sound tool.python tools streaming)
      (tool.childLoop tools maxIterations context).finishIteration
      (fun reason log e => Sound tool.python tools streaming log e ∧
        Accounts tool.python streaming (reason.map (·, none)) log) := by
  refine Sure.bind (Q := fun _ => Sound tool.python tools streaming)
    (fun _ hd => hd) fun _ => ?_
  refine Sure.bind (Q := fun _ => Sound tool.python tools streaming)
    (fun _ hd => hd) fun _ => ?_
  refine sure_thresholdReached.bind fun reached => ?_
  split_ifs with hreached
  · refine sure_pure fun log e h => ⟨h.1, fun _ _ _ => ?_⟩
    exact (h.2 hreached).trans h.1.2
  · refine Sure.pre (K := Sound tool.python tools streaming) ?_ fun _ _ h => h.1
    refine sure_budgetSpent.bind fun spent => sure_of_false ?_
    rintro rfl
    exact sure_pure fun log e h => ⟨h, nofun⟩

theorem sure_endResponse (flow : ToolLoop.Flow ToolLoop.Ending) :
    Sure (Left tool.python tools streaming flow)
      ((tool.childLoop tools maxIterations context).endResponse flow)
      (fun ending log e => Sound tool.python tools streaming log e ∧
        Accounts tool.python streaming ending log) := by
  cases flow with
  | stop ending => exact sure_pure fun _ _ h => h
  | again => exact sure_pure fun _ _ h => ⟨h.1, nofun⟩
  | next =>
    refine Sure.pre (K := Sound tool.python tools streaming) ?_ fun _ _ h => h.1
    exact sure_finishIteration.bind fun _ => sure_pure fun _ _ h => h

theorem sure_trackTokenUsage (response : LLMResponse) :
    Sure J (ToolLoop.trackTokenUsage response : LoopM (ChildWorld W) PUnit) fun _ => J := by
  refine sure_modify (fun _ => rfl) (fun _ => rfl) fun d => ?_
  dsimp only
  split_ifs <;> rfl

theorem sure_prepare : Sure J (tool.childLoop tools maxIterations context).prepare fun _ => J :=
  fun _ hd => hd

theorem sure_respond (response : LLMResponse) :
    Sure (Replied tool.python tools streaming (.ok response))
      ((tool.childLoop tools maxIterations context).respond response)
      (Left tool.python tools streaming) := by
  change Sure _ (if response.calls ≠ [] then
    (tool.childLoop tools maxIterations context).runToolCalls response
    else (tool.childLoop tools maxIterations context).runText response) _
  split_ifs with hcalls
  · exact sure_runToolCalls hcalls
  · exact (sure_runText response).pre fun _ _ h => h.sound (not_not.mp hcalls)

theorem sure_streamHandle (response : LLMResponse) :
    Sure (Replied tool.python tools streaming (.ok response))
      ((tool.childLoop tools maxIterations context).streamHandle response)
      (fun ending log e => Sound tool.python tools streaming log e ∧
        Accounts tool.python streaming ending log) := by
  change Sure _ ((if response.calls ≠ [] then
    (tool.childLoop tools maxIterations context).streamToolCalls response
    else (tool.childLoop tools maxIterations context).streamText response) >>=
      (tool.childLoop tools maxIterations context).endResponse) _
  refine Sure.bind (Q := Left tool.python tools streaming) ?_ sure_endResponse
  split_ifs with hcalls
  · exact sure_streamToolCalls hcalls
  · exact (sure_streamText response).pre fun _ _ h => h.sound (not_not.mp hcalls)

theorem sure_thresholdSound :
    Sure (Sound tool.python tools streaming)
      (tool.childLoop tools maxIterations context).thresholdReached
      (fun reached log e => Sound tool.python tools streaming log e ∧
        (reached = true → 3 ≤ ChildAnswer.failures tool.python streaming log)) := by
  refine Triple.conseq sure_thresholdReached (fun _ h => h) ?_ fun _ _ h => h
  rintro reached d ⟨hd, hsound, hreached⟩
  exact ⟨hd, hsound, fun h => (hreached h).trans hsound.2⟩

theorem sure_ask (model : Text) (last : ToolLoop.Last) :
    Sure (Sound tool.python tools false)
      ((tool.childLoop tools maxIterations context).ask model last)
      (fun r => Left tool.python tools false r.2) := by
  refine sure_get_bind fun d => (sure_complete model _).bind fun reply => ?_
  cases reply with
  | ok response =>
    exact (sure_trackTokenUsage response).bind fun _ => (sure_respond response).bind fun _ =>
      sure_pure fun _ _ h => h
  | error error =>
    have hfailed : ∀ log e, Replied tool.python tools false (.error error) log e →
        Sound tool.python tools false log (e + 1) := by
      intro log e h
      refine ⟨h.1, ?_⟩
      cases error <;> exact h.2.2
    refine Sure.pre (K := fun log e => Sound tool.python tools false log (e + 1)) ?_ hfailed
    refine sure_bumpErrors.bind fun _ => sure_thresholdSound.bind fun reached => ?_
    refine sure_pure fun log e h => ⟨h.1, ?_⟩
    cases reached with
    | false => exact nofun
    | true => exact fun _ _ _ => h.2 rfl

theorem sure_runIteration (model : Text) (last : ToolLoop.Last) :
    Sure (Sound tool.python tools false)
      ((tool.childLoop tools maxIterations context).runIteration model last)
      (fun r log e => Sound tool.python tools false log e ∧
        Accounts tool.python false r.2 log) := by
  refine sure_prepare.bind fun _ => (sure_ask model last).bind fun r => ?_
  exact (sure_endResponse r.2).bind fun _ => sure_pure fun _ _ h => h

theorem sure_rounds {ρ : Type} {round : ρ → LoopM (ChildWorld W) (ρ × Option ToolLoop.Ending)}
    (hround : ∀ last, Sure (Sound tool.python tools streaming) (round last)
      (fun r log e => Sound tool.python tools streaming log e ∧
        Accounts tool.python streaming r.2 log))
    (n : ℕ) (last : ρ) :
    Sure (Sound tool.python tools streaming) (ToolLoop.rounds round n last)
      (fun r log e => Sound tool.python tools streaming log e ∧
        Accounts tool.python streaming (some r.2) log) := by
  refine ToolLoop.triple_rounds (I := fun _ _ => Holds (Sound tool.python tools streaming))
    (Q := fun r => Holds fun log e => Sound tool.python tools streaming log e ∧
      Accounts tool.python streaming (some r.2) log)
    (fun last d hd => ?_) (fun _ last => ?_) n last
  · refine ⟨hd.1, hd.2, fun ending hending hfailure => ?_⟩
    cases hending
    cases hfailure
  · refine Triple.conseq (hround last) (fun _ hd => hd) (fun result d hd => ?_) fun _ _ hd => hd
    obtain ⟨last', ending⟩ := result
    cases ending with
    | none => exact ⟨hd.1, hd.2.1⟩
    | some ending => exact hd

theorem sure_run (model : Text) :
    Sure (Sound tool.python tools false) ((tool.childLoop tools maxIterations context).run model)
      (fun result log e => Sound tool.python tools false log e ∧
        (result.terminationReason.isFailure = true →
          3 ≤ ChildAnswer.failures tool.python false log)) := by
  rw [ToolLoop.run, ToolLoop.runFrom_eq_rounds]
  refine (sure_rounds (sure_runIteration model) _ _).bind fun r => ?_
  refine sure_get_bind fun d => ?_
  exact sure_pure fun log e h => ⟨h.1, h.2 _ rfl⟩

theorem sure_streamAsk (model : Text) (last : Text) :
    Sure (Sound tool.python tools true)
      ((tool.childLoop tools maxIterations context).streamAsk model last)
      (fun r log e => Sound tool.python tools true log e ∧
        Accounts tool.python true r.2 log) := by
  refine sure_get_bind fun d => (sure_streamResponse model _).bind fun reply => ?_
  cases reply with
  | ok response =>
    refine (sure_trackTokenUsage response).bind fun _ => ?_
    refine (sure_attempt (sure_streamHandle response)).bind fun handled => ?_
    cases handled with
    | ok ending =>
      refine sure_pure fun log e h => ?_
      obtain ⟨a, heq, hpost⟩ := h
      cases heq
      exact hpost
    | error err =>
      rintro d ⟨hd, a, heq, hpost⟩
      cases heq
  | error error =>
    cases error with
    | typeError message =>
      refine sure_pure fun log e h => ?_
      have hcount : max e 3 ≤ ChildAnswer.failures tool.python true log := h.2.2
      refine ⟨⟨h.1, ?_⟩, fun _ _ _ => ?_⟩ <;> omega
    | notImplemented | other message =>
      refine Sure.pre (K := fun log e => Sound tool.python tools true log (e + 1)) ?_
        fun _ _ h => ⟨h.1, h.2.2⟩
      refine sure_bumpErrors.bind fun _ => sure_thresholdSound.bind fun reached => ?_
      refine sure_pure fun log e h => ⟨h.1, ?_⟩
      cases reached with
      | false => exact nofun
      | true => exact fun _ _ _ => h.2 rfl

theorem sure_streamIteration (model last : Text) :
    Sure (Sound tool.python tools true)
      ((tool.childLoop tools maxIterations context).streamIteration model last)
      (fun r log e => Sound tool.python tools true log e ∧
        Accounts tool.python true r.2 log) :=
  sure_prepare.bind fun _ => sure_streamAsk model last

theorem sure_runStream (model : Text) :
    Sure (Sound tool.python tools true)
      ((tool.childLoop tools maxIterations context).runStream model)
      (fun event log e => Sound tool.python tools true log e ∧
        (event.terminationReason.isFailure = true →
          3 ≤ ChildAnswer.failures tool.python true log)) := by
  rw [ToolLoop.runStream, ToolLoop.streamFrom_eq_rounds]
  refine (sure_rounds (sure_streamIteration model) _ _).bind fun r => ?_
  refine sure_get_bind fun d => ?_
  exact sure_pure fun log e h => ⟨h.1, h.2 _ rfl⟩

end DelegateSubtaskTool

end Agent33.Agents
