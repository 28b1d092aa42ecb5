import Agent33.Agents.ToolLoop

/-!
# Invariants of the tool loop

What every tool call keeps, the whole loop keeps, whether its responses are
complete or streamed: the rest of an iteration only calls models and changes the
messages, the counters and the consumption of the budget.
-/

namespace Agent33.Agents

open Library Library.Hoare Llm Tools Tools.Governance Autonomy EStateM Keeps

variable {W : Type}

def LoopData.budget (d : LoopData W) : Option AutonomyBudget := d.enforcer.map (·.budget)

abbrev ViewProp (β : Type) := Option β → List ChatMessage → List Act → Prop

def OnView {β : Type} (v : RuntimeEnforcer → β) (I : ViewProp β) (d : LoopData W) : Prop :=
  I (d.enforcer.map v) d.messages d.trace

abbrev TraceProp := ViewProp AutonomyBudget

abbrev OnTrace (I : TraceProp) : LoopData W → Prop := OnView RuntimeEnforcer.budget I

variable {β : Type}

def Ignores (I : ViewProp β) (act : Act) : Prop :=
  ∀ view messages trace, I view messages trace → I view messages (trace ++ [act])

def IgnoresMessages (I : ViewProp β) : Prop :=
  ∀ view messages messages' trace, I view messages trace → I view messages' trace

structure Says (loop : ToolLoop W) (I : ViewProp β) : Prop where
  say : ∀ {view messages trace} (role : Role) (text : Text), role ≠ .tool →
    I view messages trace → I view (messages ++ [.say role text]) trace
  group : ∀ {view messages trace} (content : Text) (calls : List ToolCall)
    (results : List Tools.ToolResult), I view messages trace →
    I view (messages ++ loop.toolGroup content calls results) trace
  handoff : ∀ {view messages trace} (call : ToolCall) (result : Tools.ToolResult),
    I view messages trace → I view (loop.interceptHandoff messages call result) trace

structure Talks (loop : ToolLoop W) (I : ViewProp β) : Prop extends Says loop I where
  call : ∀ {view messages trace} (model : Text),
    I view messages trace → I view messages (trace ++ [.llmCall model messages])
  request : ∀ (model system user : Text),
    Ignores I (.llmCall model [.say .system system, .say .user user])

theorem Says.of_ignores {loop : ToolLoop W} {I : ViewProp β} (hmessages : IgnoresMessages I) :
    Says loop I where
  say _ _ _ h := hmessages _ _ _ _ h
  group _ _ _ h := hmessages _ _ _ _ h
  handoff _ _ h := hmessages _ _ _ _ h

theorem Talks.of_ignores {loop : ToolLoop W} {I : ViewProp β} (hmessages : IgnoresMessages I)
    (hcalls : ∀ model messages, Ignores I (.llmCall model messages)) : Talks loop I where
  toSays := .of_ignores hmessages
  call _ h := hcalls _ _ _ _ _ h
  request _ _ _ := hcalls _ _

variable {v : RuntimeEnforcer → β} {I : ViewProp β}

def traceOf {α : Type} (x : LoopM W α) (d : LoopData W) : List Act :=
  match x.run d with
  | .ok _ d => d.trace
  | .error _ d => d.trace

variable {α : Type} {d : LoopData W}

theorem traceOf_keeps (hx : Keeps (OnView v I) x) (hd : OnView v I d) :
    ∃ view messages, I view messages (traceOf x d) := by
  have h := hx d hd
  rw [traceOf]
  cases hrun : x.run d with
  | ok a d' =>
    rw [hrun] at h
    exact ⟨_, _, h⟩
  | error e d' =>
    rw [hrun] at h
    exact ⟨_, _, h⟩

theorem keeps_modifyState (f : ToolLoopState → ToolLoopState) :
    Keeps (OnView v I) (modifyState f : LoopM W PUnit) := keeps_modify fun _ h => h

theorem keeps_record (h : Ignores I act) :
    Keeps (OnView v I) (record act : LoopM W PUnit) := keeps_modify fun _ hd => h _ _ _ hd

theorem keeps_onPorts (f : W → α × W) : Keeps (OnView v I) (onPorts f) :=
  fun _ h => h

theorem keeps_onGovernance (x : GovernanceM W α) : Keeps (OnView v I) (onGovernance x) := by
  refine Triple.zoom fun d hd => ?_
  cases x.run ⟨d.limiter, d.world⟩ with
  | ok a s => exact hd
  | error e s => exact hd

theorem onEnforcer_none (h : d.enforcer = none) (x : EnforcerM EnforcementResult) :
    (onEnforcer x).run d = .ok .allowed d := by
  simp only [onEnforcer, run_bind, run_get, h, run_pure]

theorem onEnforcer_some (h : d.enforcer = some enforcer)
    (x : EnforcerM EnforcementResult) : (onEnforcer x).run d = match x.run enforcer with
      | .ok result enforcer => .ok result { d with enforcer := some enforcer }
      | .error e enforcer => .error e { d with enforcer := some enforcer } := by
  simp only [onEnforcer, run_bind, run_get, h]
  cases x.run enforcer with
  | ok result enforcer' => rfl
  | error e enforcer' => rfl

theorem keeps_onEnforcer {x : EnforcerM EnforcementResult}
    (hx : ∀ b, Keeps (fun e => v e = b) x) :
    Keeps (OnView v I) (onEnforcer x : LoopM W EnforcementResult) := by
  intro d hd
  cases henf : d.enforcer with
  | none =>
    rw [onEnforcer_none henf]
    exact hd
  | some enforcer =>
    have h := hx (v enforcer) enforcer rfl
    rw [OnView, henf, Option.map_some] at hd
    rw [onEnforcer_some henf]
    cases hrun : x.run enforcer with
    | ok result enforcer' =>
      rw [hrun] at h
      rw [← h] at hd
      exact hd
    | error e enforcer' =>
      rw [hrun] at h
      rw [← h] at hd
      exact hd

theorem attempt_run (x : LoopM W α) (d : LoopData W) :
    (ToolLoop.attempt x).run d = match x.run d with
      | .ok a d => .ok (.ok a) d
      | .error e d => .ok (.error e) d := rfl

theorem keeps_attempt {P : LoopData W → Prop} (hx : Keeps P x) : Keeps P (ToolLoop.attempt x) := by
  intro d hd
  have h := hx d hd
  rw [attempt_run]
  cases hrun : x.run d with
  | ok a d' =>
    rw [hrun] at h
    exact h
  | error e d' =>
    rw [hrun] at h
    exact h

namespace ToolLoop

variable {loop : ToolLoop W}

theorem keeps_bumpErrors : Keeps (OnView v I) (bumpErrors : LoopM W PUnit) := keeps_modifyState _

theorem keeps_thresholdReached : Keeps P loop.thresholdReached :=
  keeps_get.bind fun _ => keeps_pure _

theorem keeps_withTextCalls (parse : Text → Except Exn (Option (List ToolCall)))
    (response : LLMResponse) : Keeps P (withTextCalls parse response : LoopM W LLMResponse) := by
  rw [withTextCalls]
  split
  · exact keeps_throw _
  · exact keeps_pure _
  · exact keeps_pure _
  · exact keeps_pure _

theorem keeps_runTextCalls (response : LLMResponse) : Keeps P (loop.runTextCalls response) := by
  rw [runTextCalls]
  split
  · split_ifs
    · exact keeps_withTextCalls _ _
    · exact keeps_pure _
  · exact keeps_pure _

theorem keeps_doomLoop (response : LLMResponse) : Keeps (OnView v I) (loop.doomLoop response) := by
  rw [doomLoop]
  split_ifs
  · unfold checkDoomLoop
    cases response.calls with
    | nil => exact keeps_pure _
    | cons call rest =>
      refine (keeps_modifyState _).bind fun _ => keeps_get.bind fun d => ?_
      dsimp only
      split_ifs
      · exact keeps_pure _
      · exact keeps_pure _
  · exact keeps_pure _

section Talk

variable (hT : Says loop I)

include hT

theorem keeps_say (role : Role) (hrole : role ≠ .tool) (text : Text) :
    Keeps (OnView v I) (appendMessages [.say role text] : LoopM W PUnit) :=
  keeps_modify fun _ h => hT.say role text hrole h

theorem keeps_askConfirmation (response : LLMResponse) :
    Keeps (OnView v I) (appendMessages [sayAssistant response, .say .user confirmationPrompt] :
      LoopM W PUnit) := by
  refine keeps_modify fun d h => ?_
  have hboth := hT.say .user confirmationPrompt nofun (hT.say .assistant response.content nofun h)
  rw [List.append_assoc] at hboth
  exact hboth

theorem keeps_takeResults (response : LLMResponse) (results : List Tools.ToolResult) :
    Keeps (OnView v I) (loop.takeResults response results) := by
  have hhandoffs : ∀ (pairs : List (ToolCall × Tools.ToolResult)) {budget messages trace},
      I budget messages trace →
        I budget (pairs.foldl (fun messages p => loop.interceptHandoff messages p.1 p.2) messages)
          trace := by
    intro pairs
    induction pairs with
    | nil => exact fun h => h
    | cons p pairs ih => exact fun h => ih (hT.handoff p.1 p.2 h)
  refine keeps_get.bind fun d => ?_
  split_ifs
  · exact keeps_pure _
  · refine bind (keeps_modify fun _ h => hT.group _ _ _ h) fun _ => ?_
    exact bind (keeps_modify fun _ h => hhandoffs _ h) fun _ => keeps_pure _

theorem keeps_runText (response : LLMResponse) : Keeps (OnView v I) (loop.runText response) := by
  rw [runText]
  split_ifs
  · exact keeps_pure _
  · refine keeps_get.bind fun d => ?_
    split_ifs
    · refine (keeps_modifyState _).bind fun _ => ?_
      exact (keeps_askConfirmation hT _).bind fun _ => keeps_pure _
    · cases loop.parseConfirmation response.content with
      | none =>
        refine (keeps_askConfirmation hT _).bind fun _ => ?_
        exact (keeps_modifyState _).bind fun _ => keeps_pure _
      | some confirmed =>
        cases confirmed with
        | true => exact keeps_pure _
        | false =>
          refine (keeps_modifyState _).bind fun _ => ?_
          exact (keeps_say hT .assistant nofun _).bind fun _ => keeps_pure _

theorem keeps_streamText (response : LLMResponse) :
    Keeps (OnView v I) (loop.streamText response) := by
  rw [streamText]
  split_ifs
  · exact keeps_pure _
  · refine keeps_get.bind fun d => ?_
    split_ifs
    · refine (keeps_modifyState _).bind fun _ => ?_
      exact (keeps_askConfirmation hT _).bind fun _ => keeps_pure _
    · cases loop.parseConfirmation response.content with
      | none => exact (keeps_askConfirmation hT _).bind fun _ => keeps_pure _
      | some confirmed =>
        cases confirmed with
        | true => exact keeps_pure _
        | false =>
          refine (keeps_modifyState _).bind fun _ => ?_
          exact (keeps_say hT .assistant nofun _).bind fun _ => keeps_pure _

omit hT in
theorem keeps_summarize (hT : Talks loop I) (model system user : Text) :
    Keeps (OnView v I) (loop.summarize model [.say .system system, .say .user user]) := by
  refine bind ((keeps_record (hT.request model system user)).bind fun _ => keeps_onPorts _)
    fun reply => ?_
  cases reply with
  | ok response => exact keeps_pure _
  | error e => exact keeps_pure _

end Talk

section ToolCalls

variable (hT : Says loop I)
  (hcall : ∀ context call, Keeps (OnView v I) (loop.executeToolCall context call))

include hcall

theorem keeps_executeEach (context : Option Tools.ToolContext) (calls : List ToolCall) :
    Keeps (OnView v I) (loop.executeEach context calls) := by
  induction calls with
  | nil => exact keeps_pure _
  | cons call rest ih =>
    refine (hcall context call).bind fun result => ?_
    obtain ⟨result, stop⟩ := result
    dsimp only
    split_ifs
    · exact keeps_pure _
    · exact ih.bind fun _ => keeps_pure _

include hT

theorem keeps_runToolCalls (response : LLMResponse) :
    Keeps (OnView v I) (loop.runToolCalls response) := by
  refine (keeps_modifyState _).bind fun _ => (keeps_doomLoop _).bind fun looping => ?_
  split_ifs
  · exact keeps_pure _
  · exact (keeps_executeEach hcall _ _).bind fun _ => keeps_takeResults hT _ _

theorem keeps_streamToolCalls (response : LLMResponse) :
    Keeps (OnView v I) (loop.streamToolCalls response) := by
  refine (keeps_modifyState _).bind fun _ => (keeps_doomLoop _).bind fun looping => ?_
  split_ifs
  · exact keeps_pure _
  · refine (keeps_attempt (keeps_executeEach hcall _ _)).bind fun results => ?_
    cases results with
    | error e => exact keeps_pure _
    | ok results => exact keeps_takeResults hT _ _

theorem keeps_respond (response : LLMResponse) : Keeps (OnView v I) (loop.respond response) := by
  refine (keeps_runTextCalls response).bind fun response => ?_
  split_ifs
  · exact keeps_runToolCalls hT hcall _
  · exact keeps_runText hT _

omit hT in
theorem keeps_ask (hT : Talks loop I) (model : Text) (last : Last) :
    Keeps (OnView v I) (loop.ask model last) := by
  refine Triple.get_bind fun d hd => ?_
  refine Triple.bind (Q := fun _ => OnView v I) ?_ fun reply => ?_
  · rintro _ rfl
    exact hT.call model hd
  · cases reply with
    | error e =>
      exact keeps_bumpErrors.bind fun _ => keeps_thresholdReached.bind fun _ => keeps_pure _
    | ok response =>
      refine (keeps_modifyState _).bind fun _ => ?_
      exact (keeps_respond hT.toSays hcall _).bind fun _ => keeps_pure _

end ToolCalls

variable (loop) in
theorem keeps_runCheck {P : RuntimeEnforcer → Prop} (hP : OnIterations P) (check : Check) :
    Keeps P (loop.runCheck check) := by
  cases check with
  | command command => exact keeps_checkCommand hP _ _
  | fileRead path => exact keeps_checkFileRead hP _
  | fileWrite path => exact keeps_checkFileWrite hP _ _
  | network url => exact keeps_checkNetwork hP _ _

theorem keeps_finishTool (toolName : Text) (arguments : Json) (result : Tools.ToolResult) :
    Keeps (OnView v I) (loop.finishTool toolName arguments result) := by
  refine bind ?_ fun _ => (keeps_modifyState _).bind fun _ => keeps_pure _
  unfold runPostHooks
  cases loop.hookRegistry with
  | none => exact keeps_pure _
  | some hooks => exact keeps_onPorts _

def Unchecked (loop : ToolLoop W) (v : RuntimeEnforcer → β) : Prop :=
  ∀ b check, Keeps (fun e => v e = b) (loop.runCheck check)

theorem unchecked_budget : loop.Unchecked RuntimeEnforcer.budget :=
  fun _ => keeps_runCheck loop onIterations_enforces

section Events

variable (hv : loop.Unchecked v)
  (hact : ∀ act, (∀ model messages, act ≠ .llmCall model messages) → Ignores I act)

include hact in
theorem keeps_checkGovernance (context : Option Tools.ToolContext) (toolName : Text)
    (arguments : Json) : Keeps (OnView v I) (loop.checkGovernance context toolName arguments) := by
  unfold checkGovernance
  cases loop.toolGovernance with
  | none => exact keeps_pure _
  | some governance =>
    refine keeps_get.bind fun d => (keeps_onGovernance _).bind fun allowed => ?_
    exact (keeps_record (hact (.governance _ _ _) fun _ _ => nofun)).bind fun _ => keeps_pure _

include hv hact in
theorem keeps_checkAutonomy (toolName : Text) (arguments : Json) :
    Keeps (OnView v I) (loop.checkAutonomy toolName arguments) := by
  refine keeps_get.bind fun d => ?_
  split_ifs
  · exact keeps_pure _
  · cases dispatch toolName arguments with
    | error e => exact keeps_throw _
    | ok check =>
      refine (keeps_onEnforcer fun b => hv b check).bind fun result => ?_
      exact (keeps_record (hact (.enforced _ _ _ _) fun _ _ => nofun)).bind fun _ => keeps_pure _

include hact in
theorem keeps_runPreHooks (toolName : Text) (arguments : Json) :
    Keeps (OnView v I) (loop.runPreHooks toolName arguments) := by
  unfold runPreHooks
  cases loop.hookRegistry with
  | none => exact keeps_pure _
  | some hooks =>
    refine (keeps_onPorts _).bind fun outcome => ?_
    exact (keeps_record (hact (.preHooks _ _ _) fun _ _ => nofun)).bind fun _ => keeps_pure _

include hact in
theorem keeps_executeTool (context : Option Tools.ToolContext) (toolName : Text)
    (arguments : Json) : Keeps (OnView v I) (loop.executeTool context toolName arguments) := by
  refine (keeps_record (hact (.execute _ _) fun _ _ => nofun)).bind fun _ => ?_
  refine (keeps_onPorts _).bind fun outcome => ?_
  cases outcome with
  | ok result => exact keeps_pure _
  | error message => exact keeps_bumpErrors.bind fun _ => keeps_pure _

include hv hact in
theorem keeps_executeToolCall_of_ignores (context : Option Tools.ToolContext) (call : ToolCall) :
    Keeps (OnView v I) (loop.executeToolCall context call) := by
  unfold executeToolCall
  cases loop.python.jsonLoads call.function.arguments with
  | none => exact keeps_bumpErrors.bind fun _ => keeps_pure _
  | some arguments =>
    refine (keeps_checkGovernance hact _ _ _).bind fun allowed => ?_
    split_ifs
    · exact keeps_pure _
    · refine (keeps_checkAutonomy hv hact _ _).bind fun enforced => ?_
      split_ifs
      · exact keeps_pure _
      · refine (keeps_runPreHooks hact _ _).bind fun outcome => ?_
        split_ifs
        · exact keeps_pure _
        · refine (keeps_executeTool hact _ _ _).bind fun result => ?_
          exact (keeps_finishTool _ _ _).bind fun _ => keeps_pure _

end Events

theorem thresholdReached_run (d : LoopData W) : (loop.thresholdReached).run d =
    .ok (decide (loop.config.errorThreshold ≤ d.state.consecutiveErrors)) d := rfl

theorem bumpErrors_run (d : LoopData W) : (bumpErrors : LoopM W PUnit).run d =
    .ok ⟨⟩ { d with state :=
      { d.state with consecutiveErrors := d.state.consecutiveErrors + 1 } } := rfl

variable (loop) in
def prepared (d : LoopData W) : LoopData W where
  __ := d
  state := { d.state with iteration := d.state.iteration + 1 }
  messages :=
    if loop.config.evaluationMode then
      loop.evictForContextBudget d.messages (Int.tdiv (9 * loop.modelContextWindow) 10)
    else d.messages

theorem record_run (act : Act) (d : LoopData W) :
    (record act : LoopM W PUnit).run d = .ok ⟨⟩ { d with trace := d.trace ++ [act] } := rfl

theorem onPorts_run {α : Type} (f : W → α × W) (d : LoopData W) :
    (onPorts f).run d = .ok (f d.world).1 { d with world := (f d.world).2 } := rfl

theorem complete_run (model : Text) (messages : List ChatMessage) (d : LoopData W) :
    (loop.complete model messages).run d =
      .ok (loop.ports.complete model messages d.world).1
        { d with trace := d.trace ++ [.llmCall model messages],
                 world := (loop.ports.complete model messages d.world).2 } := rfl

theorem prepare_run (d : LoopData W) : (loop.prepare).run d = .ok ⟨⟩ (loop.prepared d) := by
  rw [prepare, prepared, run_bind]
  by_cases heval : loop.config.evaluationMode = true
  · rw [if_pos heval]
    simp only [heval, if_true]
    rfl
  · rw [if_neg heval]
    simp only [heval, if_false, Bool.false_eq_true]
    rfl

theorem finishIteration_eq : loop.finishIteration = do
    (do loop.manageContext; loop.compressContext : LoopM W PUnit)
    if ← loop.thresholdReached then return some .error
    else if ← loop.budgetSpent then return some .budgetExceeded
    else return none := by
  rw [finishIteration, bind_assoc]

theorem runIteration_prepared (model : Text) (last : Last) (d : LoopData W) :
    (loop.runIteration model last).run d =
      match (loop.ask model last).run (loop.prepared d) with
      | .ok (last, flow) d =>
        match (loop.endResponse flow).run d with
        | .ok ending d => .ok (last, ending) d
        | .error e d => .error e d
      | .error e d => .error e d := by
  rw [runIteration, run_bind, prepare_run]
  dsimp only
  rw [run_bind]
  cases (loop.ask model last).run (loop.prepared d) with
  | error e d => rfl
  | ok result d =>
    dsimp only
    rw [run_bind]
    cases (loop.endResponse result.2).run d with
    | error e d => rfl
    | ok ending d => rfl

theorem keeps_streamTextCalls {P : LoopData W → Prop} (response : LLMResponse) :
    Keeps P (loop.streamTextCalls response) := by
  rw [streamTextCalls]
  split
  · split_ifs
    · exact keeps_withTextCalls _ _
    · exact keeps_pure _
  · exact keeps_pure _

theorem keeps_streamResponse_of {P : LoopData W → Prop}
    (hports : ∀ f : W → StreamReply × W, Keeps P (onPorts f))
    (hcomplete : ∀ f : W → Except LlmError LLMResponse × W, Keeps P (onPorts f))
    (hrecord : ∀ model messages, Keeps P (record (.llmCall model messages) : LoopM W PUnit))
    (model : Text) (messages : List ChatMessage) :
    Keeps P (loop.streamResponse model messages) := by
  refine (hports _).bind fun reply => ?_
  have hcomplete : Keeps P (loop.complete model messages) :=
    (hrecord model messages).bind fun _ => hcomplete _
  cases reply with
  | unsupported => exact hcomplete
  | raises e =>
    cases e with
    | notImplemented => exact (hrecord model messages).bind fun _ => hcomplete
    | typeError message => exact (hrecord model messages).bind fun _ => keeps_pure _
    | other message => exact (hrecord model messages).bind fun _ => keeps_pure _
  | chunks chunks error =>
    refine (hrecord model messages).bind fun _ => ?_
    dsimp only
    split
    · exact hcomplete
    · split_ifs
      · exact hcomplete
      · exact keeps_pure _
    · exact keeps_pure _
    · split_ifs
      · exact hcomplete
      · exact hcomplete
      · exact keeps_pure _

section Messages

variable (hM : IgnoresMessages I) (hI : ∀ model messages, Ignores I (.llmCall model messages))

include hM in
theorem keeps_prepare : Keeps (OnView v I) loop.prepare := by
  refine (keeps_modifyState _).bind fun _ => ?_
  split_ifs
  · exact keeps_modify fun _ h => hM _ _ _ _ h
  · exact keeps_pure _

include hM hI

theorem keeps_manageContext : Keeps (OnView v I) loop.manageContext := by
  rw [manageContext]
  cases loop.contextManager with
  | none => exact keeps_pure _
  | some manager =>
    refine keeps_get.bind fun d => ?_
    refine (ContextManager.triple_manage _ (keeps_summarize (.of_ignores hM hI)) _).bind fun _ => ?_
    exact keeps_modify fun _ h => hM _ _ _ _ h

theorem keeps_compressContext : Keeps (OnView v I) loop.compressContext := by
  rw [compressContext]
  cases loop.contextCompressor with
  | none => exact keeps_pure _
  | some compressor =>
    refine keeps_get.bind fun d => ?_
    dsimp only
    split_ifs
    · refine bind (Memory.ContextCompressor.triple_compress _
        (keeps_summarize (.of_ignores hM hI)) _) fun _ => ?_
      exact keeps_modify fun _ h => hM _ _ _ _ h
    · exact keeps_pure _

omit hM in
theorem keeps_streamResponse (model : Text) (messages : List ChatMessage) :
    Keeps (OnView v I) (loop.streamResponse model messages) :=
  keeps_streamResponse_of keeps_onPorts keeps_onPorts (fun _ _ => keeps_record (hI _ _)) model
    messages

end Messages

def rounds {ρ : Type} (round : ρ → LoopM W (ρ × Option Ending)) : ℕ → ρ → LoopM W (ρ × Ending)
  | 0, last => return (last, .maxIterations, none)
  | n + 1, last => do
    let (last, ending) ← round last
    match ending with
    | some ending => return (last, ending)
    | none => rounds round n last

theorem runFrom_eq_rounds (model : Text) (n : ℕ) (last : Last) :
    loop.runFrom model n last = rounds (loop.runIteration model) n last := by
  induction n generalizing last with
  | zero => rfl
  | succ n ih =>
    rw [runFrom, rounds]
    congr 1
    funext result
    obtain ⟨last', ending⟩ := result
    cases ending with
    | none => exact ih last'
    | some ending => rfl

theorem streamFrom_eq_rounds (model : Text) (n : ℕ) (last : Text) :
    loop.streamFrom model n last = rounds (loop.streamIteration model) n last := by
  induction n generalizing last with
  | zero => rfl
  | succ n ih =>
    rw [streamFrom, rounds]
    congr 1
    funext result
    obtain ⟨last', ending⟩ := result
    cases ending with
    | none => exact ih last'
    | some ending => rfl

variable {ρ : Type} {round : ρ → LoopM W (ρ × Option Ending)}

theorem triple_rounds {I : ℕ → ρ → LoopData W → Prop} {Q : ρ × Ending → LoopData W → Prop}
    {E : Exn → LoopData W → Prop} (hend : ∀ last d, I 0 last d → Q (last, .maxIterations, none) d)
    (hround : ∀ n last, Triple (I (n + 1) last) (round last)
      (fun r d => match r.2 with | none => I n r.1 d | some ending => Q (r.1, ending) d) E)
    (n : ℕ) (last : ρ) : Triple (I n last) (rounds round n last) Q E := by
  induction n generalizing last with
  | zero => exact triple_pure (hend last)
  | succ n ih =>
    refine Triple.bind (hround n last) fun result => ?_
    obtain ⟨last', ending⟩ := result
    cases ending with
    | none => exact ih last'
    | some ending => exact triple_pure fun d hd => hd

theorem keeps_rounds {P : LoopData W → Prop} (hround : ∀ last, Keeps P (round last)) (n : ℕ)
    (last : ρ) : Keeps P (rounds round n last) := by
  refine triple_rounds (I := fun _ _ => P) (fun _ _ hd => hd) (fun _ last => ?_) n last
  refine Triple.conseq (hround last) (fun _ hd => hd) (fun result d hd => ?_) fun _ _ hd => hd
  cases result.2 with
  | none => exact hd
  | some ending => exact hd

variable {I : TraceProp}

theorem keeps_budgetSpent : Keeps (OnTrace I) loop.budgetSpent := by
  refine (keeps_onEnforcer fun _ => keeps_recordIteration).bind fun result => ?_
  split_ifs
  · exact keeps_pure _
  · refine keeps_get.bind fun d => ?_
    refine (keeps_onEnforcer fun _ => keeps_checkDuration onIterations_enforces _).bind fun _ => ?_
    exact keeps_pure _

variable (hM : IgnoresMessages I) (hI : ∀ model messages, Ignores I (.llmCall model messages))

include hM hI

theorem keeps_endResponse (flow : Flow Ending) : Keeps (OnTrace I) (loop.endResponse flow) := by
  cases flow with
  | stop ending => exact keeps_pure _
  | again => exact keeps_pure _
  | next =>
    refine bind ?_ fun _ => keeps_pure _
    refine (keeps_manageContext hM hI).bind fun _ => (keeps_compressContext hM hI).bind fun _ => ?_
    refine keeps_thresholdReached.bind fun reached => ?_
    split_ifs
    · exact keeps_pure _
    · refine keeps_budgetSpent.bind fun spent => ?_
      split_ifs
      · exact keeps_pure _
      · exact keeps_pure _

variable (hcall : ∀ context call, Keeps (OnTrace I) (loop.executeToolCall context call))

include hcall

theorem keeps_streamAsk (model last : Text) : Keeps (OnTrace I) (loop.streamAsk model last) := by
  refine keeps_get.bind fun d => (keeps_streamResponse hI _ _).bind fun reply => ?_
  split
  · exact keeps_pure _
  · exact keeps_bumpErrors.bind fun _ => keeps_thresholdReached.bind fun _ => keeps_pure _
  · refine (keeps_modifyState _).bind fun _ => ?_
    refine (keeps_attempt ((keeps_streamTextCalls _).bind fun response => ?_)).bind
      fun ending => ?_
    · refine bind ?_ (keeps_endResponse hM hI)
      split_ifs
      · exact keeps_streamToolCalls (.of_ignores hM) hcall _
      · exact keeps_streamText (.of_ignores hM) _
    · cases ending with
      | error e => exact keeps_pure _
      | ok ending => exact keeps_pure _

theorem keeps_run (model : Text) : Keeps (OnTrace I) (loop.run model) := by
  have hround : ∀ last, Keeps (OnTrace I) (loop.runIteration model last) := by
    refine fun last => (keeps_prepare hM).bind fun _ => ?_
    refine (keeps_ask hcall (.of_ignores hM hI) _ _).bind fun _ => ?_
    exact (keeps_endResponse hM hI _).bind fun _ => keeps_pure _
  refine bind ?_ fun _ => keeps_get.bind fun _ => keeps_pure _
  rw [runFrom_eq_rounds]
  exact keeps_rounds hround _ _

theorem keeps_runStream (model : Text) : Keeps (OnTrace I) (loop.runStream model) := by
  have hround : ∀ last, Keeps (OnTrace I) (loop.streamIteration model last) :=
    fun last => (keeps_prepare hM).bind fun _ => keeps_streamAsk hM hI hcall _ _
  refine bind ?_ fun _ => keeps_get.bind fun _ => keeps_pure _
  rw [streamFrom_eq_rounds]
  exact keeps_rounds hround _ _

end ToolLoop

def OnState (P : ToolLoopState → Prop) (d : LoopData W) : Prop := P d.state

section State

theorem keepsState_modifyState (hf : ∀ s, P s → P (f s)) :
    Keeps (OnState P) (modifyState f : LoopM W PUnit) := keeps_modify fun d hd => hf d.state hd

theorem keepsState_record (act : Act) : Keeps (OnState P) (record act : LoopM W PUnit) :=
  keeps_modify fun _ h => h

theorem keepsState_onPorts {α : Type} (f : W → α × W) : Keeps (OnState P) (onPorts f) :=
  fun _ h => h

theorem keepsState_onEnforcer (x : EnforcerM EnforcementResult) :
    Keeps (OnState P) (onEnforcer x : LoopM W EnforcementResult) := by
  intro d hd
  cases henf : d.enforcer with
  | none =>
    rw [onEnforcer_none henf]
    exact hd
  | some enforcer =>
    rw [onEnforcer_some henf]
    cases x.run enforcer with
    | ok result enforcer' => exact hd
    | error e enforcer' => exact hd

namespace ToolLoop

variable {loop : ToolLoop W}

theorem keepsState_checkGovernance (context : Option ToolContext) (toolName : Text)
    (arguments : Json) :
    Keeps (OnState P) (loop.checkGovernance context toolName arguments) := by
  unfold checkGovernance
  cases loop.toolGovernance with
  | none => exact keeps_pure _
  | some governance =>
    refine keeps_get.bind fun d => bind (Triple.zoom fun d hd => ?_) fun allowed => ?_
    · cases (preExecuteCheck loop.python governance _ toolName arguments _ _).run _ with
      | ok a s => exact hd
      | error e s => exact hd
    · exact (keepsState_record _).bind fun _ => keeps_pure _

theorem keepsState_checkAutonomy (toolName : Text) (arguments : Json) :
    Keeps (OnState P) (loop.checkAutonomy toolName arguments) := by
  refine keeps_get.bind fun d => ?_
  split_ifs
  · exact keeps_pure _
  · cases dispatch toolName arguments with
    | error e => exact keeps_throw _
    | ok check =>
      refine (keepsState_onEnforcer _).bind fun _ => ?_
      exact (keepsState_record _).bind fun _ => keeps_pure _

theorem keepsState_runPreHooks (toolName : Text) (arguments : Json) :
    Keeps (OnState P) (loop.runPreHooks toolName arguments) := by
  unfold runPreHooks
  cases loop.hookRegistry with
  | none => exact keeps_pure _
  | some hooks =>
    refine (keepsState_onPorts _).bind fun outcome => ?_
    exact (keepsState_record _).bind fun _ => keeps_pure _

theorem keepsState_finishTool
    (hcount : ∀ toolName, Keeps (OnState P) (countTool toolName : LoopM W PUnit))
    (toolName : Text) (arguments : Json) (result : ToolResult) :
    Keeps (OnState P) (loop.finishTool toolName arguments result) := by
  refine bind ?_ fun _ => (hcount _).bind fun _ => keeps_pure _
  unfold runPostHooks
  cases loop.hookRegistry with
  | none => exact keeps_pure _
  | some hooks => exact keepsState_onPorts _

theorem keepsState_complete (model : Text) (messages : List ChatMessage) :
    Keeps (OnState P) (loop.complete model messages) :=
  (keepsState_record _).bind fun _ => keepsState_onPorts _

theorem keepsState_summarize (model : Text) (messages : List ChatMessage) :
    Keeps (OnState P) (loop.summarize model messages) := by
  refine (keepsState_complete _ _).bind fun reply => ?_
  cases reply with
  | ok response => exact keeps_pure _
  | error e => exact keeps_pure _

theorem keepsState_takeResults (response : LLMResponse) (results : List ToolResult) :
    Keeps (OnState P) (loop.takeResults response results) := by
  refine keeps_get.bind fun d => ?_
  split_ifs
  · exact keeps_pure _
  · refine bind (keeps_modify fun _ h => h) fun _ => ?_
    exact bind (keeps_modify fun _ h => h) fun _ => keeps_pure _

theorem keepsState_contexts :
    Keeps (OnState P) (do loop.manageContext; loop.compressContext : LoopM W PUnit) := by
  refine bind ?_ fun _ => ?_
  · rw [manageContext]
    cases loop.contextManager with
    | none => exact keeps_pure _
    | some manager =>
      refine keeps_get.bind fun d => ?_
      refine bind (ContextManager.triple_manage _
        (fun _ _ _ => keepsState_summarize _ _) _) fun _ => ?_
      exact keeps_modify fun _ h => h
  · rw [compressContext]
    cases loop.contextCompressor with
    | none => exact keeps_pure _
    | some compressor =>
      refine keeps_get.bind fun d => ?_
      dsimp only
      split_ifs
      · refine bind (Memory.ContextCompressor.triple_compress _
          (fun _ _ _ => keepsState_summarize _ _) _) fun _ => ?_
        exact keeps_modify fun _ h => h
      · exact keeps_pure _

theorem keepsState_streamResponse (model : Text) (messages : List ChatMessage) :
    Keeps (OnState P) (loop.streamResponse model messages) :=
  keeps_streamResponse_of keepsState_onPorts keepsState_onPorts (fun _ _ => keepsState_record _)
    model messages

theorem keepsState_budgetSpent : Keeps (OnState P) loop.budgetSpent := by
  refine (keepsState_onEnforcer _).bind fun result => ?_
  split_ifs
  · exact keeps_pure _
  · refine keeps_get.bind fun d => ?_
    exact (keepsState_onEnforcer _).bind fun _ => keeps_pure _

end ToolLoop

end State

end Agent33.Agents
