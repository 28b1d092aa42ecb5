import Agent33.Agents.StreamAssembly

/-!
# Complete and streamed responses

The loop over streamed responses repeats the loop over complete ones. When a
provider streams each response in one chunk, both make the same calls and end
alike as long as no iteration takes one of the branches in which they differ.
-/

namespace Agent33.Agents

open Library Library.Hoare Llm Tools Tools.Governance Autonomy Option EStateM Triple

/-- A response that survives the streaming in one chunk: its calls have ids, names and
arguments without white space around them, and it announces no calls without having any. -/
def streamsAsIs (response : LLMResponse) : Bool :=
  response.calls.all (fun call => decide (call.id ≠ [] ∧ call.function.name ≠ [] ∧
    call.function.arguments ≠ [] ∧
    Text.strip call.function.arguments = call.function.arguments)) &&
  !(response.calls.isEmpty && decide (response.finishReason = "tool_calls".toList))

def Same (response response' : LLMResponse) : Prop :=
  response.content = response'.content ∧ response.calls = response'.calls ∧
    response.usageAvailable = response'.usageAvailable ∧
    (response.usageAvailable = true → response.promptTokens = response'.promptTokens ∧
      response.completionTokens = response'.completionTokens)

theorem calls_oneChunk (h : streamsAsIs response = true) (model : Text) :
    (ToolLoop.streamed model [oneChunk response]).calls = response.calls := by
  rw [streamsAsIs, Bool.and_eq_true] at h
  have hcomplete : ∀ call ∈ response.calls, call.Complete := by
    intro call hcall
    obtain ⟨hid, hname, harguments, hstrip⟩ :=
      of_decide_eq_true (List.all_eq_true.mp h.1 call hcall)
    exact ⟨hid, hname, harguments, hstrip⟩
  exact (ToolLoop.calls_whole (oneChunk response) rfl model).mpr hcomplete

theorem same_oneChunk (h : streamsAsIs response = true) (model : Text) :
    Same response (ToolLoop.StreamState.feed { model } (oneChunk response)).response := by
  refine ⟨rfl, ?_, (Bool.false_or _).symm, fun hu => ⟨?_, ?_⟩⟩
  · exact (calls_oneChunk h model).symm
  · simp [ToolLoop.StreamState.feed, ToolLoop.StreamState.response, oneChunk, hu]
  · simp [ToolLoop.StreamState.feed, ToolLoop.StreamState.response, oneChunk, hu]

def StreamsScript {W : Type} (ports : Ports W) : Prop :=
  ∀ model messages world,
    ports.streamComplete model messages world =
      ((match (ports.complete model messages world).1 with
        | .ok response => StreamReply.chunks [oneChunk response] none
        | .error e => .raises e), (ports.complete model messages world).2)

namespace ToolLoop

variable {W : Type} {loop : ToolLoop W}

theorem attempt_run_ok {α : Type} {x : LoopM W α} {d d' : LoopData W} {a : α}
    (h : x.run d = .ok a d') : (attempt x).run d = .ok (.ok a) d' := by
  rw [attempt_run, h]

def isOther : LlmError → Bool
  | .other _ => true
  | _ => false

theorem exists_other (h : isOther e = true) : ∃ message, e = .other message := by
  cases e with
  | other message => exact ⟨message, rfl⟩
  | typeError message => cases h
  | notImplemented => cases h

theorem streamResponse_run (hports : StreamsScript loop.ports) (model : Text)
    (messages : List ChatMessage) (d : LoopData W) :
    match (loop.complete model messages).run d with
    | .ok (.ok response) d' => streamsAsIs response = true →
        ∃ response', (loop.streamResponse model messages).run d = .ok (.ok response') d' ∧
          Same response response'
    | .ok (.error e) d' => isOther e = true →
        (loop.streamResponse model messages).run d = .ok (.error e) d'
    | .error _ _ => False := by
  rw [complete_run, streamResponse, run_bind, onPorts_run, hports]
  cases (loop.ports.complete model messages d.world).1 with
  | ok response =>
    intro hasis
    refine ⟨_, ?_, same_oneChunk hasis model⟩
    have hcalls := calls_oneChunk hasis model
    rw [streamsAsIs, Bool.and_eq_true, Bool.not_eq_true'] at hasis
    dsimp only
    rw [run_bind, record_run]
    change _ = EStateM.Result.ok (Except.ok (List.foldl StreamState.feed { model }
      [oneChunk response]).response) _
    generalize hs : List.foldl StreamState.feed { model } [oneChunk response] = s
    have hsaw : s.sawStreamChunks = true := by rw [← hs]; rfl
    have hfinish : s.finishReason = some response.finishReason := by rw [← hs]; rfl
    have hcalls : s.response.calls = response.calls := by rw [← hs]; exact hcalls
    have hretry : (!s.sawToolDelta && s.response.calls.isEmpty &&
        decide (s.finishReason = some "tool_calls".toList)) = false := by
      rw [hcalls, hfinish, Bool.and_assoc]
      simp only [some_inj]
      rw [hasis.2, Bool.and_false]
    dsimp only
    rw [hsaw, hretry]
    rfl
  | error e =>
    intro hother
    cases e with
    | other message => rfl
    | typeError message => cases hother
    | notImplemented => cases hother

variable (loop) in
def finishIdle (d : LoopData W) : Bool :=
  decide (d.state.consecutiveErrors < loop.config.errorThreshold) && d.enforcer.isNone &&
    (match loop.contextManager with
      | none => true
      | some manager => !manager.needsSummarization d.messages) &&
    match loop.contextCompressor with
    | none => true
    | some compressor => !compressor.needsCompression d.messages loop.modelContextWindow

variable (loop) in
/-- The first text of a confirmation round, after which only the loop over complete
responses goes on to the end of its iteration. -/
def textClean (response : LLMResponse) (d : LoopData W) : Bool :=
  !loop.config.enableDoubleConfirmation || d.state.confirmationPending ||
    loop.finishIdle { d with
      messages := d.messages ++ [sayAssistant response, .say .user confirmationPrompt] }

variable (loop) in
/-- The parser of tool calls in texts does not raise, and finds none in an empty text. -/
def parserClean (response : LLMResponse) : Bool :=
  match loop.config.textToolParser with
  | none => true
  | some parse =>
    !response.calls.isEmpty ||
      match parse response.content with
      | .error _ => false
      | .ok none => true
      | .ok (some calls) => calls.isEmpty || !response.content.isEmpty

variable (loop) in
def respondClean (response : LLMResponse) (d : LoopData W) : Bool :=
  loop.parserClean response &&
    match (loop.runTextCalls response).run d with
    | .error _ _ => false
    | .ok response d =>
      if response.calls = [] then loop.textClean response d
      else loop.toolContext.isSome &&
        match (loop.runToolCalls response).run d with
        | .ok _ _ => true
        | .error _ _ => false

theorem same_textCalls (hsame : Same response response')
    (hclean : loop.parserClean response = true) (d : LoopData W) :
    ∃ found found', (loop.runTextCalls response).run d = .ok found d ∧
      (loop.streamTextCalls response').run d = .ok found' d ∧ Same found found' := by
  obtain ⟨hcontent, hcalls, hrest⟩ := hsame
  rw [parserClean] at hclean
  rw [runTextCalls, streamTextCalls]
  cases hparser : loop.config.textToolParser with
  | none => exact ⟨response, response', rfl, rfl, hcontent, hcalls, hrest⟩
  | some parse =>
    rw [hparser] at hclean
    dsimp only at hclean ⊢
    rw [← hcalls, ← hcontent]
    by_cases hnone : response.calls = []
    · rw [if_pos hnone]
      rw [hnone, List.isEmpty_nil, Bool.not_true, Bool.false_or] at hclean
      by_cases hempty : response.content = []
      · rw [if_neg (fun h => h.2 hempty)]
        rw [withTextCalls]
        cases hparse : parse response.content with
        | error e =>
          rw [hparse] at hclean
          cases hclean
        | ok found =>
          rw [hparse] at hclean
          cases found with
          | none => exact ⟨response, response', rfl, rfl, hcontent, hcalls, hrest⟩
          | some calls =>
            cases calls with
            | nil => exact ⟨response, response', rfl, rfl, hcontent, hcalls, hrest⟩
            | cons call calls =>
              rw [hempty] at hclean
              cases hclean
      · rw [if_pos ⟨hnone, hempty⟩]
        rw [withTextCalls, withTextCalls, ← hcontent]
        cases hparse : parse response.content with
        | error e =>
          rw [hparse] at hclean
          cases hclean
        | ok found =>
          cases found with
          | none => exact ⟨response, response', rfl, rfl, hcontent, hcalls, hrest⟩
          | some calls =>
            cases calls with
            | nil => exact ⟨response, response', rfl, rfl, hcontent, hcalls, hrest⟩
            | cons call calls => exact ⟨_, _, rfl, rfl, rfl, rfl, hrest⟩
    · rw [if_neg hnone, if_neg fun h => hnone h.1]
      exact ⟨response, response', rfl, rfl, hcontent, hcalls, hrest⟩

theorem runToolCalls_congr (hsame : Same response response') :
    loop.runToolCalls response = loop.runToolCalls response' := by
  simp only [runToolCalls, doomLoop, takeResults, hsame.1, hsame.2.1]

theorem streamToolCalls_run (hcontext : loop.toolContext.isSome = true)
    (hrun : (loop.runToolCalls response).run d = .ok flow d') :
    (loop.streamToolCalls response).run d = .ok flow d' := by
  obtain ⟨context, hcontext⟩ := isSome_iff_exists.mp hcontext
  have hrelay : some loop.relayContext = loop.toolContext := by
    rw [relayContext, hcontext, getD_some]
  rw [runToolCalls, run_bind] at hrun
  rw [streamToolCalls, run_bind, hrelay]
  cases hreset : (resetForToolCalls : LoopM W PUnit).run d with
  | error e d₁ =>
    rw [hreset] at hrun
    cases hrun
  | ok a d₁ =>
    rw [hreset] at hrun
    dsimp only at hrun ⊢
    rw [run_bind] at hrun ⊢
    cases hloop : (loop.doomLoop response).run d₁ with
    | error e d₂ =>
      rw [hloop] at hrun
      cases hrun
    | ok looping d₂ =>
      rw [hloop] at hrun
      dsimp only at hrun ⊢
      cases looping with
      | true => exact hrun
      | false =>
        rw [if_neg Bool.false_ne_true] at hrun ⊢
        rw [run_bind] at hrun ⊢
        cases htools : (loop.executeToolCalls loop.toolContext response.calls).run d₂ with
        | error e d₃ =>
          rw [htools] at hrun
          cases hrun
        | ok results d₃ =>
          rw [htools] at hrun
          rw [attempt_run_ok htools]
          exact hrun

theorem budgetSpent_run (h : d.enforcer = none) : (loop.budgetSpent).run d = .ok false d := by
  rw [budgetSpent, run_bind, onEnforcer_none h]
  dsimp only
  rw [if_neg nofun, run_bind, run_get]
  dsimp only
  rw [run_bind, onEnforcer_none h]
  rfl

variable (loop) in
theorem manageContext_idle (h : ∀ manager, loop.contextManager = some manager →
      manager.needsSummarization d.messages = false) :
    (loop.manageContext).run d = .ok ⟨⟩ d := by
  rw [manageContext]
  cases hmanager : loop.contextManager with
  | none => rfl
  | some manager =>
    dsimp only
    rw [run_bind, run_get]
    dsimp only
    rw [ContextManager.manage, h manager hmanager, Bool.not_false, if_pos rfl]
    rfl

variable (loop) in
theorem compressContext_idle (h : ∀ compressor, loop.contextCompressor = some compressor →
      compressor.needsCompression d.messages loop.modelContextWindow = false) :
    (loop.compressContext).run d = .ok ⟨⟩ d := by
  rw [compressContext]
  cases hcompressor : loop.contextCompressor with
  | none => rfl
  | some compressor =>
    dsimp only
    rw [run_bind, run_get]
    dsimp only
    rw [h compressor hcompressor, if_neg Bool.false_ne_true]
    rfl

variable {d : LoopData W} {response : LLMResponse}

theorem finishIteration_idle (h : loop.finishIdle d = true) :
    (loop.finishIteration).run d = .ok none d := by
  simp only [finishIdle, Bool.and_eq_true, decide_eq_true_iff, isNone_iff_eq_none] at h
  obtain ⟨⟨⟨herrors, henforcer⟩, hmanager⟩, hcompressor⟩ := h
  have hmanage := manageContext_idle loop (d := d) fun manager hsome => by
    rw [hsome] at hmanager
    simpa using hmanager
  have hcompress := compressContext_idle loop (d := d) fun compressor hsome => by
    rw [hsome] at hcompressor
    simpa using hcompressor
  have hthreshold : (loop.thresholdReached).run d = .ok false d := by
    rw [thresholdReached_run, decide_eq_false (not_le.mpr herrors)]
  rw [finishIteration, run_bind, hmanage]
  dsimp only
  rw [run_bind, hcompress]
  dsimp only
  rw [run_bind, hthreshold]
  dsimp only
  rw [if_neg Bool.false_ne_true, run_bind, budgetSpent_run henforcer]
  rfl

def asked (response : LLMResponse) (d : LoopData W) : LoopData W :=
  { d with
    messages := d.messages ++ [sayAssistant response, .say .user confirmationPrompt]
    state := { d.state with confirmationPending := true } }

theorem runText_first (response : LLMResponse)
    (hdouble : ¬(!loop.config.enableDoubleConfirmation) = true)
    (hpending : d.state.confirmationPending = false) :
    (loop.runText response).run d = .ok .next (asked response d) ∧
      (loop.streamText response).run d = .ok .again (asked response d) := by
  rw [runText, streamText, if_neg hdouble, if_neg hdouble, run_bind, run_bind,
    run_get]
  dsimp only
  rw [hpending]
  exact ⟨rfl, rfl⟩

theorem runText_pending (hdouble : ¬(!loop.config.enableDoubleConfirmation) = true)
    (hpending : d.state.confirmationPending = true) :
    (loop.streamText response).run d = (loop.runText response).run d := by
  rw [runText, streamText, if_neg hdouble, if_neg hdouble, run_bind, run_bind,
    run_get]
  dsimp only
  rw [hpending, Bool.not_true, if_neg Bool.false_ne_true, if_neg Bool.false_ne_true]
  cases loop.parseConfirmation response.content with
  | some confirmed =>
    cases confirmed with
    | true => rfl
    | false => rfl
  | none =>
    obtain ⟨world, limiter, enforcer, messages, state, trace⟩ := d
    obtain ⟨iteration, totalTokens, toolCallsMade, toolsUsed, consecutiveErrors,
      confirmationPending, callHistory, tokenUsageAvailable⟩ := state
    cases hpending
    rfl

theorem runText_flow
    (h : ¬(!loop.config.enableDoubleConfirmation) = true → d.state.confirmationPending = true)
    (hrun : (loop.runText response).run d = .ok flow d') :
    (loop.streamText response).run d = .ok flow d' := by
  by_cases hdouble : (!loop.config.enableDoubleConfirmation) = true
  · rw [runText, if_pos hdouble] at hrun
    rw [streamText, if_pos hdouble]
    exact hrun
  · rw [runText_pending hdouble (h hdouble), hrun]

variable (loop) in
theorem runText_ok (response : LLMResponse) (d : LoopData W) :
    ∃ flow d', (loop.runText response).run d = .ok flow d' := by
  rw [runText]
  split_ifs with hdouble
  · exact ⟨_, _, rfl⟩
  · rw [run_bind, run_get]
    dsimp only
    split_ifs with hpending
    · exact ⟨_, _, rfl⟩
    · cases loop.parseConfirmation response.content with
      | none => exact ⟨_, _, rfl⟩
      | some confirmed =>
        cases confirmed with
        | true => exact ⟨_, _, rfl⟩
        | false => exact ⟨_, _, rfl⟩

abbrev Returns {α : Type} (x : LoopM W α) : Prop :=
  Triple (fun _ => True) x (fun _ _ => True) (fun _ _ => False)

theorem returns_summarize (model : Text) (messages : List ChatMessage) :
    Returns (loop.summarize model messages) := by
  intro d _
  rw [summarize, run_bind, complete_run]
  cases (loop.ports.complete model messages d.world).1 with
  | ok response => trivial
  | error e => trivial

theorem returns_manageContext : Returns loop.manageContext := by
  rw [manageContext]
  cases loop.contextManager with
  | none => exact triple_pure fun _ _ => trivial
  | some manager =>
    refine get_bind fun d _ => ?_
    refine conseq (P := fun _ => True) ?_ (fun _ _ => trivial) (fun _ _ h => h)
      fun _ _ h => h
    refine bind (ContextManager.triple_manage _ (fun _ _ _ => returns_summarize _ _) _)
      fun messages => ?_
    exact triple_modify fun _ _ => trivial

theorem returns_compressContext : Returns loop.compressContext := by
  rw [compressContext]
  cases loop.contextCompressor with
  | none => exact triple_pure fun _ _ => trivial
  | some compressor =>
    refine get_bind fun d _ => ?_
    refine conseq (P := fun _ => True) ?_ (fun _ _ => trivial) (fun _ _ h => h)
      fun _ _ h => h
    dsimp only
    split_ifs
    · refine bind (Memory.ContextCompressor.triple_compress _
        (fun _ _ _ => returns_summarize _ _) _) fun messages => ?_
      exact triple_modify fun _ _ => trivial
    · exact triple_pure fun _ _ => trivial

theorem returns_onEnforcer
    (hx : ∀ enforcer, ∃ result enforcer', x.run enforcer = .ok result enforcer') :
    Returns (onEnforcer x : LoopM W EnforcementResult) := by
  intro d _
  cases henf : d.enforcer with
  | none =>
    rw [onEnforcer_none henf]
    trivial
  | some enforcer =>
    obtain ⟨result, enforcer', hrun⟩ := hx enforcer
    rw [onEnforcer_some henf, hrun]
    trivial

theorem checkLimit_ok (exceeded : RuntimeEnforcer → Bool) (reason description : Text)
    (enforcer : RuntimeEnforcer) : ∃ result enforcer',
      (checkLimit exceeded reason description).run enforcer = .ok result enforcer' := by
  rw [checkLimit, run_bind, run_get]
  dsimp only
  split_ifs
  · exact ⟨_, _, rfl⟩
  · exact ⟨_, _, rfl⟩

theorem recordIteration_ok (enforcer : RuntimeEnforcer) :
    ∃ result enforcer', recordIteration.run enforcer = .ok result enforcer' := by
  rw [recordIteration, run_bind]
  exact checkLimit_ok _ _ _ _

theorem returns_finishIteration : Returns loop.finishIteration := by
  refine returns_manageContext.bind fun _ => returns_compressContext.bind fun _ => ?_
  refine bind (Q := fun _ _ => True) (fun d _ => trivial) fun reached => ?_
  split_ifs
  · exact triple_pure fun _ _ => trivial
  · refine bind (Q := fun _ _ => True) ?_ fun spent => ?_
    · refine bind (returns_onEnforcer recordIteration_ok) fun result => ?_
      split_ifs
      · exact triple_pure fun _ _ => trivial
      · refine bind (Q := fun _ _ => True) (triple_get fun _ _ => trivial) fun d => ?_
        refine bind (returns_onEnforcer fun _ => checkLimit_ok _ _ _ _) fun _ => ?_
        exact triple_pure fun _ _ => trivial
    · split_ifs
      · exact triple_pure fun _ _ => trivial
      · exact triple_pure fun _ _ => trivial

variable (loop) in
theorem endResponse_ok (flow : Flow Ending) (d : LoopData W) :
    ∃ ending d', (loop.endResponse flow).run d = .ok ending d' := by
  cases flow with
  | stop ending => exact ⟨_, _, rfl⟩
  | again => exact ⟨_, _, rfl⟩
  | next =>
    obtain ⟨reason, d', hrun, -⟩ := returns_finishIteration.exists_ok (s := d) trivial
    refine ⟨reason.map (·, none), d', ?_⟩
    rw [endResponse, run_bind, hrun]
    rfl

theorem respond_run
    (hsame : Same response response') (hclean : loop.respondClean response d = true) :
    ∃ flow d₁ ending d₂, (loop.respond response).run d = .ok flow d₁ ∧
      (loop.endResponse flow).run d₁ = .ok ending d₂ ∧
      (loop.streamHandle response').run d = .ok ending d₂ := by
  rw [respondClean, Bool.and_eq_true] at hclean
  obtain ⟨found, found', hfound, hfound', hsame⟩ := same_textCalls hsame hclean.1 d
  have hclean := hclean.2
  rw [hfound] at hclean
  dsimp only at hclean
  rw [respond, run_bind, hfound, streamHandle, run_bind, hfound']
  dsimp only
  rw [← hsame.2.1]
  by_cases hcalls : found.calls = []
  · rw [if_pos hcalls] at hclean
    rw [if_neg (not_not.mpr hcalls), if_neg (not_not.mpr hcalls), run_bind]
    have htext : loop.streamText found' = loop.streamText found := by
      simp only [streamText, sayAssistant, hsame.1]
    rw [htext]
    by_cases hfirst : ¬(!loop.config.enableDoubleConfirmation) = true →
        d.state.confirmationPending = true
    · obtain ⟨flow, d₁, hrun⟩ := runText_ok loop found d
      obtain ⟨ending, d₂, hend⟩ := endResponse_ok loop flow d₁
      refine ⟨flow, d₁, ending, d₂, hrun, hend, ?_⟩
      rw [runText_flow hfirst hrun]
      exact hend
    · obtain ⟨hdouble, hpending⟩ := Classical.not_imp.mp hfirst
      rw [Bool.not_eq_true] at hpending
      obtain ⟨hrun, hstream⟩ := runText_first found hdouble hpending
      rw [textClean, hpending, Bool.or_false] at hclean
      have hidle : loop.finishIdle (asked found d) = true :=
        (Bool.or_eq_true_iff.mp hclean).resolve_left hdouble
      refine ⟨.next, asked found d, none, asked found d, hrun, ?_, ?_⟩
      · rw [endResponse, run_bind, finishIteration_idle hidle]
        rfl
      · rw [hstream]
        rfl
  · rw [if_neg hcalls, Bool.and_eq_true] at hclean
    rw [if_pos hcalls, if_pos hcalls, run_bind]
    cases hrun : (loop.runToolCalls found).run d with
    | error e d₁ =>
      rw [hrun] at hclean
      exact absurd hclean.2 Bool.false_ne_true
    | ok flow d₁ =>
      obtain ⟨ending, d₂, hend⟩ := endResponse_ok loop flow d₁
      refine ⟨flow, d₁, ending, d₂, rfl, hend, ?_⟩
      rw [runToolCalls_congr hsame] at hrun
      rw [streamToolCalls_run hclean.1 hrun]
      exact hend

variable (loop) in
def iterationClean (model : Text) (d : LoopData W) : Bool :=
  match (loop.complete model d.messages).run d with
  | .ok (.ok response) d => streamsAsIs response &&
      match (trackTokenUsage response : LoopM W PUnit).run d with
      | .ok _ d => loop.respondClean response d
      | .error _ _ => false
  | .ok (.error e) _ => isOther e
  | .error _ _ => false

theorem trackTokenUsage_congr (h : Same response response') :
    (trackTokenUsage response : LoopM W PUnit) = trackTokenUsage response' := by
  obtain ⟨-, -, husage, htokens⟩ := h
  rw [trackTokenUsage, trackTokenUsage, ← husage]
  by_cases hu : response.usageAvailable = true
  · obtain ⟨hprompt, hcompletion⟩ := htokens hu
    rw [hprompt, hcompletion]
  · simp only [hu, if_false, Bool.false_eq_true]

theorem ask_run (hports : StreamsScript loop.ports)
    (hclean : loop.iterationClean model d = true) (last : Last) :
    ∃ last' flow d₁ ending d₂, (loop.ask model last).run d = .ok (last', flow) d₁ ∧
      (loop.endResponse flow).run d₁ = .ok ending d₂ ∧
      (loop.streamAsk model last.raw).run d = .ok (last'.raw, ending) d₂ := by
  have hstream := streamResponse_run hports model d.messages d
  rw [iterationClean] at hclean
  rw [ask, streamAsk, run_bind, run_bind, run_get]
  dsimp only
  rw [run_bind, run_bind]
  cases hcomplete : (loop.complete model d.messages).run d with
  | error e d₁ =>
    rw [hcomplete] at hclean
    cases hclean
  | ok reply d₁ =>
    rw [hcomplete] at hclean hstream
    cases reply with
    | error e =>
      rw [hstream hclean]
      obtain ⟨message, rfl⟩ := exists_other hclean
      dsimp only
      rw [run_bind, run_bind, bumpErrors_run]
      dsimp only
      rw [run_bind, run_bind, thresholdReached_run]
      dsimp only
      split_ifs
      · exact ⟨_, _, _, _, _, rfl, rfl, rfl⟩
      · exact ⟨_, _, _, _, _, rfl, rfl, rfl⟩
    | ok response =>
      dsimp only at hclean
      rw [Bool.and_eq_true] at hclean
      obtain ⟨response', hrun, hsame⟩ := hstream hclean.1
      rw [hrun]
      dsimp only
      rw [run_bind, run_bind, ← trackTokenUsage_congr hsame]
      cases htrack : (trackTokenUsage response : LoopM W PUnit).run d₁ with
      | error e d₂ =>
        rw [htrack] at hclean
        exact absurd hclean.2 Bool.false_ne_true
      | ok a d₂ =>
        rw [htrack] at hclean
        obtain ⟨flow, d₃, ending, d₄, hrespond, hend, hhandle⟩ := respond_run hsame hclean.2
        refine ⟨⟨response.content, response.model⟩, flow, d₃, ending, d₄, ?_, hend, ?_⟩
        · dsimp only
          rw [run_bind, hrespond]
          rfl
        · dsimp only
          rw [run_bind, attempt_run_ok hhandle, ← hsame.1]
          rfl

variable (loop) in
def runClean (model : Text) : ℕ → Last → LoopData W → Bool
  | 0, _, _ => true
  | n + 1, last, d =>
    loop.iterationClean model (loop.prepared d) &&
      match (loop.runIteration model last).run d with
      | .ok (last, none) d => runClean model n last d
      | _ => true

theorem runIteration_run (hports : StreamsScript loop.ports)
    (hclean : loop.iterationClean model (loop.prepared d) = true) (last : Last) :
    ∃ last' ending d', (loop.runIteration model last).run d = .ok (last', ending) d' ∧
      (loop.streamIteration model last.raw).run d = .ok (last'.raw, ending) d' := by
  obtain ⟨last', flow, d₁, ending, d₂, hask, hend, hstream⟩ := ask_run hports hclean last
  refine ⟨last', ending, d₂, ?_, ?_⟩
  · rw [runIteration, run_bind, prepare_run]
    dsimp only
    rw [run_bind, hask]
    dsimp only
    rw [run_bind, hend]
    rfl
  · rw [streamIteration, run_bind, prepare_run]
    exact hstream

theorem runFrom_run (hports : StreamsScript loop.ports)
    (hclean : loop.runClean model n last d = true) :
    ∃ last' ending d', (loop.runFrom model n last).run d = .ok (last', ending) d' ∧
      (loop.streamFrom model n last.raw).run d = .ok (last'.raw, ending) d' := by
  induction n generalizing last d with
  | zero => exact ⟨last, _, d, rfl, rfl⟩
  | succ n ih =>
    rw [runClean, Bool.and_eq_true] at hclean
    obtain ⟨last₁, ending, d₁, hrun, hstream⟩ := runIteration_run hports hclean.1 last
    have hclean := hclean.2
    rw [hrun] at hclean
    rw [runFrom, streamFrom, run_bind, run_bind, hrun, hstream]
    cases ending with
    | some ending => exact ⟨last₁, ending, d₁, rfl, rfl⟩
    | none => exact ih hclean

def isCall : Act → Bool
  | .llmCall _ _ => true
  | .execute _ _ => true
  | _ => false

def agree : EStateM.Result Exn (LoopData W) ToolLoopResult →
    EStateM.Result Exn (LoopData W) CompletedEvent → Prop
  | .ok result d, .ok event d' =>
    d.trace.filter isCall = d'.trace.filter isCall ∧
      result.terminationReason = event.terminationReason ∧
      result.iterations = event.iteration ∧ result.toolCallsMade = event.toolCallsMade ∧
      result.output = event.output
  | _, _ => False

instance (x : EStateM.Result Exn (LoopData W) ToolLoopResult)
    (y : EStateM.Result Exn (LoopData W) CompletedEvent) : Decidable (agree x y) :=
  match x, y with
  | .ok _ _, .ok _ _ => inferInstanceAs (Decidable (_ ∧ _))
  | .ok _ _, .error _ _ => isFalse id
  | .error _ _, _ => isFalse id

def ended {α : Type} (reason : α → TerminationReason) :
    EStateM.Result Exn (LoopData W) α → Option TerminationReason
  | .ok a _ => some (reason a)
  | .error _ _ => none

theorem agree.ended (h : agree x y) :
    ended ToolLoopResult.terminationReason x = ended CompletedEvent.terminationReason y := by
  cases x with
  | error => exact h.elim
  | ok result d =>
    cases y with
    | error => exact h.elim
    | ok event d' => exact congrArg some h.2.1

variable (loop) in
def parityClean (model : Text) (d : LoopData W) : Bool :=
  loop.runClean model loop.config.maxIterations.toNat ⟨[], model⟩ d

/-- The loop over streamed responses agrees with the loop over complete ones. -/
theorem runStream_agrees (hports : StreamsScript loop.ports) {model : Text} {d : LoopData W}
    (hclean : loop.parityClean model d = true) :
    agree ((loop.run model).run d) ((loop.runStream model).run d) := by
  obtain ⟨last, ending, d', hrun, hstream⟩ := runFrom_run hports hclean
  rw [run, runStream, run_bind, run_bind, hrun, hstream]
  exact ⟨rfl, rfl, rfl, rfl, rfl⟩

theorem streamsScript_scripted : StreamsScript scripted := by
  intro model messages script
  cases script with
  | nil => rfl
  | cons response rest => rfl

def confirmingLoop : ToolLoop Script :=
  { scriptedLoop [("x".toList, .obj [])] with toolContext := some {} }

def confirmed : LoopData Script where
  world := [callResponse [("1", "look", "x")], textResponse "A", textResponse "COMPLETED: A"]
  limiter := { perMinute := 60, burst := 10 }
  messages := [.say .user "Go.".toList]

theorem runStream_agrees_confirmed :
    agree ((confirmingLoop.run "m".toList).run confirmed)
      ((confirmingLoop.runStream "m".toList).run confirmed) :=
  runStream_agrees streamsScript_scripted (by decide)

def confirmedTwice : LoopData Script where
  world := [textResponse "A", textResponse "CONTINUE: more", textResponse "B",
    textResponse "COMPLETED: B"]
  limiter := { perMinute := 60, burst := 10 }
  enforcer := some { budget := { limits := { maxIterations := 1 } } }
  messages := [.say .user "Go.".toList]

/-- Only the loop over complete responses counts the first text of a round. -/
theorem confirmedTwice_not_agree : StreamsScript confirmingLoop.ports ∧
    ¬agree ((confirmingLoop.run "m".toList).run confirmedTwice)
      ((confirmingLoop.runStream "m".toList).run confirmedTwice) :=
  ⟨streamsScript_scripted, fun h => absurd h.ended (by decide)⟩

end ToolLoop

end Agent33.Agents
