import Agent33.Autonomy.Enforcement
import Agent33.Memory.ContextCompressor
import Agent33.Tools.Governance
import Agent33.Workflows.Handoff

/-!
# The tool loop

The loop that calls a model, runs the tools that the model asks for and feeds
their results back, once over complete responses and once over streamed ones.
Everything outside of the loop is a world that its ports act on. The trace keeps
the model calls, the checks of tool calls and the tool executions in order.
Observations, metrics and the events of a stream but the last are left out.
-/

namespace Agent33.Agents

open Library Llm Tools Tools.Governance Autonomy Memory Workflows.Handoff

structure ToolLoopConfig where
  maxIterations : Int := 20
  maxToolCallsPerIteration : Int := 5
  errorThreshold : Int := 3
  enableDoubleConfirmation : Bool := true
  loopDetectionThreshold : Int := 0
  textToolParser : Option (Text → Except Exn (Option (List ToolCall))) := none
  evaluationMode : Bool := false

structure ToolLoopState where
  iteration : Int := 0
  totalTokens : ℕ := 0
  toolCallsMade : ℕ := 0
  toolsUsed : List Text := []
  consecutiveErrors : Int := 0
  confirmationPending : Bool := false
  callHistory : List Text := []
  tokenUsageAvailable : Bool := true

inductive TerminationReason
  | completed
  | maxIterations
  | error
  | budgetExceeded
  | loopDetected
  | llmError
  | toolError
  deriving DecidableEq

def TerminationReason.value : TerminationReason → String
  | completed => "completed"
  | maxIterations => "max_iterations"
  | error => "error"
  | budgetExceeded => "budget_exceeded"
  | loopDetected => "loop_detected"
  | llmError => "llm_error"
  | toolError => "tool_error"

structure ToolLoopResult where
  output : Json
  rawResponse : Text
  tokensUsed : ℕ
  model : Text
  iterations : Int
  toolCallsMade : ℕ
  toolsUsed : List Text
  terminationReason : TerminationReason
  tokensAvailable : Bool

structure CompletedEvent where
  iteration : Int
  terminationReason : TerminationReason
  totalTokens : Option ℕ
  tokensAvailable : Bool
  toolCallsMade : ℕ
  toolsUsed : List Text
  output : Json

inductive LlmError
  | typeError (message : Text)
  | notImplemented
  | other (message : Text)

/-- What a provider answers to a streamed call: it cannot stream, the call raises,
or it yields chunks and perhaps raises after them. -/
inductive StreamReply
  | unsupported
  | raises (e : LlmError)
  | chunks (chunks : List LLMStreamChunk) (error : Option LlmError)

structure HookOutcome where
  abort : Bool
  abortReason : Text
  arguments : Json
  deriving DecidableEq

structure HookRegistry (W : Type) where
  pre : Text → Json → W → HookOutcome × W
  post : Text → Json → ToolResult → W → W

structure Ports (W : Type) where
  complete : Text → List ChatMessage → W → Except LlmError LLMResponse × W
  streamComplete : Text → List ChatMessage → W → StreamReply × W
  validatedExecute : Text → Json → ToolContext → W → Except Text ToolResult × W
  clock : W → Int

structure ToolLoop (W : Type) where
  python : Python
  ports : Ports W
  config : ToolLoopConfig := {}
  toolGovernance : Option (ToolGovernance W) := none
  toolContext : Option ToolContext := none
  contextManager : Option ContextManager := none
  leakageDetector : Option (Text → Bool) := none
  hookRegistry : Option (HookRegistry W) := none
  autonomyLevel : Option AutonomyLevel := none
  contextCompressor : Option ContextCompressor := none
  modelContextWindow : Int := 128000
  redactSecrets : Text → Text := id
  /-- `str(part)` of a content block. -/
  partText : ContentPart → Text

inductive Check
  | command (command : Json)
  | fileRead (path : Json)
  | fileWrite (path : Json)
  | network (url : Json)
  deriving DecidableEq

inductive Act
  | llmCall (model : Text) (messages : List ChatMessage)
  | governance (toolName : Text) (arguments : Json) (allowed : Bool)
  | enforced (toolName : Text) (arguments : Json) (check : Check) (result : EnforcementResult)
  | preHooks (toolName : Text) (arguments : Json) (outcome : HookOutcome)
  | execute (toolName : Text) (arguments : Json)
  deriving DecidableEq

structure LoopData (W : Type) where
  world : W
  limiter : RateLimiter
  enforcer : Option RuntimeEnforcer := none
  messages : List ChatMessage
  state : ToolLoopState := {}
  trace : List Act := []

abbrev LoopM (W : Type) := EStateM Exn (LoopData W)

variable {W : Type}

def record (act : Act) : LoopM W PUnit := modify fun d => { d with trace := d.trace ++ [act] }

def modifyState (f : ToolLoopState → ToolLoopState) : LoopM W PUnit :=
  modify fun d => { d with state := f d.state }

variable (messages : List ChatMessage)

def setMessages : LoopM W PUnit := modify fun d => { d with messages }

def appendMessages : LoopM W PUnit :=
  modify fun d => { d with messages := d.messages ++ messages }

def onPorts {α : Type} (f : W → α × W) : LoopM W α := do
  let d ← get
  set { d with world := (f d.world).2 }
  return (f d.world).1

def onGovernance {α : Type} (x : GovernanceM W α) : LoopM W α :=
  Hoare.zoom (fun d => ⟨d.limiter, d.world⟩)
    (fun s d => { d with limiter := s.limiter, world := s.world }) x

def onEnforcer (x : EnforcerM EnforcementResult) : LoopM W EnforcementResult := do
  match (← get).enforcer with
  | none => return .allowed
  | some enforcer =>
    match x.run enforcer with
    | .ok result enforcer => do
      modify fun d => { d with enforcer := some enforcer }
      return result
    | .error e enforcer => do
      modify fun d => { d with enforcer := some enforcer }
      throw e

variable (loop : ToolLoop W)

namespace ToolLoop

variable (model : Text) (messages : List ChatMessage)

def complete :
    LoopM W (Except LlmError LLMResponse) := do
  record (.llmCall model messages)
  onPorts (loop.ports.complete model messages)

def summarize : LoopM W (Option Text) := do
  match ← loop.complete model messages with
  | .ok response => return some response.content
  | .error _ => return none

def evictionTokens (message : ChatMessage) : ℕ :=
  let content := match message.content with
    | .text text => text
    | .parts parts => Text.joinWith [' '] (parts.map loop.partText)
  max 1 ((Text.words content).length * 13 / 10)

def evictOldest (budgetTokens : Int) : ℕ → List ChatMessage → List ChatMessage
  | 0, messages => messages
  | fuel + 1, messages =>
    if ((messages.map loop.evictionTokens).sum : Int) ≤ budgetTokens then messages
    else if (nonSystem messages).length ≤ 2 then messages
    else evictOldest budgetTokens fuel
      (messages.eraseIdx (messages.findIdx fun m => !isSystem m))

def evictForContextBudget (budgetTokens : Int) : List ChatMessage :=
  loop.evictOldest budgetTokens messages.length messages

def trackTokenUsage (response : LLMResponse) : LoopM W PUnit :=
  modifyState fun state =>
    if response.usageAvailable then
      { state with totalTokens := state.totalTokens + response.promptTokens +
          response.completionTokens }
    else { state with tokenUsageAvailable := false }

def callSignature (call : ToolCall) : Text :=
  call.function.name ++ ':' ::
    match loop.python.jsonLoads call.function.arguments with
    | some arguments => loop.python.jsonDumpsSorted arguments
    | none => call.function.arguments

def checkDoomLoop (calls : List ToolCall) : LoopM W Bool := do
  match calls with
  | [] => return false
  | call :: _ =>
    modifyState fun state =>
      { state with callHistory := state.callHistory ++ [loop.callSignature call] }
    let history := (← get).state.callHistory
    let threshold := loop.config.loopDetectionThreshold.toNat
    if history.length < threshold then return false
    else
      let recent := history.drop (history.length - threshold)
      return recent.all fun signature => some signature = recent.head?

def defaultContext : ToolContext := { userScopes := ["tools:execute"] }

def checkGovernance (context : Option ToolContext) (toolName : Text) (arguments : Json) :
    LoopM W Bool := do
  match loop.toolGovernance with
  | none => return true
  | some governance =>
    let now := loop.ports.clock (← get).world
    let allowed ← onGovernance (preExecuteCheck loop.python governance now toolName arguments
      (context.getD defaultContext) loop.autonomyLevel)
    record (.governance toolName arguments allowed)
    return allowed

variable (toolName : Text) (arguments : Json)

def dispatch : Except Exn Check := do
  if toolName = "shell".toList then
    if ← arguments.containsKey "command" then
      match arguments.field? "command" with
      | some command => return .command command
      | none => throw .typeError
    else return .command (.str (String.ofList toolName))
  else if toolName ∈ ["file_read".toList, "file_write".toList, "file_ops".toList] then
    let file ← arguments.getKey "file" (.str "")
    let path ← arguments.getKey "path" file
    return if toolName = "file_read".toList then .fileRead path else .fileWrite path
  else if toolName = "web_fetch".toList then
    return .network (← arguments.getKey "url" (.str ""))
  else return .command (.str (String.ofList toolName))

def runCheck (check : Check) : EnforcerM EnforcementResult :=
  match check with
  | .command command => checkCommand loop.python command
  | .fileRead path => checkFileRead path
  | .fileWrite path => checkFileWrite path
  | .network url => checkNetwork loop.python url

def checkAutonomy : LoopM W EnforcementResult := do
  if (← get).enforcer.isNone then return .allowed
  else
    match dispatch toolName arguments with
    | .error e => throw e
    | .ok check =>
      let result ← onEnforcer (loop.runCheck check)
      record (.enforced toolName arguments check result)
      return result

def runPreHooks : LoopM W HookOutcome := do
  match loop.hookRegistry with
  | none => return { abort := false, abortReason := [], arguments }
  | some hooks =>
    let outcome ← onPorts (hooks.pre toolName arguments)
    record (.preHooks toolName arguments outcome)
    return outcome

def quoted (toolName : Text) : Text := "'".toList ++ toolName ++ "'".toList

def bumpErrors : LoopM W PUnit :=
  modifyState fun state => { state with consecutiveErrors := state.consecutiveErrors + 1 }

def executeTool (context : Option ToolContext) (toolName : Text) (arguments : Json) :
    LoopM W ToolResult := do
  record (.execute toolName arguments)
  match ← onPorts (loop.ports.validatedExecute toolName arguments
    (context.getD defaultContext)) with
  | .ok result => return result
  | .error message =>
    bumpErrors
    return .fail ("Tool ".toList ++ quoted toolName ++ " raised: ".toList ++ message)

def runPostHooks (result : ToolResult) : LoopM W PUnit :=
  match loop.hookRegistry with
  | none => return
  | some hooks => onPorts fun w => (⟨⟩, hooks.post toolName arguments result w)

def countTool (toolName : Text) : LoopM W PUnit :=
  modifyState fun state => { state with
    toolCallsMade := state.toolCallsMade + 1
    toolsUsed :=
      if toolName ∈ state.toolsUsed then state.toolsUsed else state.toolsUsed ++ [toolName] }

def filterLeakage (result : ToolResult) : ToolResult :=
  match loop.leakageDetector with
  | none => result
  | some leaks =>
    if result.success && !result.output.isEmpty && leaks result.output then
      .ok "[Tool output filtered: potential answer leakage detected]".toList
    else result

def finishTool (result : ToolResult) :
    LoopM W ToolResult := do
  loop.runPostHooks toolName arguments result
  countTool toolName
  return loop.filterLeakage result

def budgetBlocked : Text := "__budget_blocked__".toList

def executeToolCall (context : Option ToolContext) (call : ToolCall) :
    LoopM W (ToolResult × Bool) := do
  let toolName := call.function.name
  match loop.python.jsonLoads call.function.arguments with
  | none =>
    bumpErrors
    return (.fail ("Invalid JSON arguments for tool ".toList ++ quoted toolName), false)
  | some arguments =>
    let allowed ← loop.checkGovernance context toolName arguments
    if !allowed then
      return (.fail ("Tool ".toList ++ quoted toolName ++ " blocked by governance policy".toList),
        false)
    else
      let enforced ← loop.checkAutonomy toolName arguments
      if enforced = .blocked then return ({ success := false, error := budgetBlocked }, true)
      else
        let outcome ← loop.runPreHooks toolName arguments
        if outcome.abort then
          return (.fail ("Hook aborted: ".toList ++ outcome.abortReason), false)
        else
          let result ← loop.executeTool context toolName outcome.arguments
          let result ← loop.finishTool toolName outcome.arguments result
          return (result, false)

def executeEach (context : Option ToolContext) : List ToolCall → LoopM W (List ToolResult)
  | [] => return []
  | call :: rest => do
    let (result, stop) ← loop.executeToolCall context call
    if stop then return [result]
    else
      let results ← executeEach context rest
      return result :: results

/-- The slice `calls[:cap]`; a negative cap counts from the end. -/
def callsToProcess (cap : Int) (calls : List ToolCall) : List ToolCall :=
  if 0 ≤ cap then calls.take cap.toNat else calls.take (calls.length - (-cap).toNat)

def executeToolCalls (context : Option ToolContext) (calls : List ToolCall) :
    LoopM W (List ToolResult) :=
  loop.executeEach context (callsToProcess loop.config.maxToolCallsPerIteration calls)

def resultContent (result : ToolResult) : Text :=
  loop.redactSecrets
    (if result.success then truncateToolOutput result.output
    else "Error: ".toList ++ truncateToolOutput result.error)

def toolMessage (call : ToolCall) (result : ToolResult) : ChatMessage where
  role := .tool
  content := .text (loop.resultContent result)
  toolCallId := call.id
  name := call.function.name

def toolGroup (content : Text) (calls : List ToolCall) (results : List ToolResult) :
    List ChatMessage :=
  let processed := calls.take results.length
  { role := .assistant, content := .text content, toolCalls := some processed } ::
    List.zipWith loop.toolMessage processed results

def handoffLedger (arguments : Text) : Except Exn StateLedger :=
  match loop.python.jsonLoads arguments with
  | none => .error .valueError
  | some parsed => (parsed.getKey "ledger_data" (.obj [])).bind StateLedger.ofJson

/-- A handoff wipes the conversation. When its ledger cannot be rendered, the
messages are gone already. -/
def interceptHandoff (call : ToolCall) (result : ToolResult) : List ChatMessage :=
  if call.function.name = "handoff".toList ∧ result.success = true then
    match loop.handoffLedger call.function.arguments with
    | .error _ => messages
    | .ok ledger =>
      let systemContent := match messages with
        | [] => .text []
        | first :: _ => first.content
      match executeHandoff loop.python ledger [{ role := .system, content := systemContent }] with
      | .error _ => []
      | .ok wiped => wiped
  else messages

def interceptHandoffs (calls : List ToolCall) (results : List ToolResult)
    (messages : List ChatMessage) : List ChatMessage :=
  (calls.zip results).foldl (fun messages p => loop.interceptHandoff messages p.1 p.2) messages

def confirmationPrompt : Text :=
  ("You indicated you have completed the task. Please respond with " ++
    "exactly one of the following formats:\n\n" ++
    "COMPLETED: [your final answer]\n" ++
    "CONTINUE: [what you still need to do]\n\n" ++
    "If the task is not fully complete, use CONTINUE and keep working. " ++
    "If it is complete, use COMPLETED and restate your final answer.").toList

def isSeparator (c : Char) : Bool := c == ':' || c == '-' || Text.isSpace c

def startsWithWord (word text : Text) : Bool :=
  word.isPrefixOf text &&
    match text.drop word.length with
    | [] => true
    | c :: _ => !loop.python.isWord c || isSeparator c

def parseConfirmation (text : Text) : Option Bool :=
  let upper := loop.python.upper (Text.strip text)
  if loop.startsWithWord "CONTINUE".toList upper then some false
  else if loop.startsWithWord "COMPLETED".toList upper then some true
  else none

def stripCompletionPrefix (text : Text) : Text :=
  let stripped := Text.strip text
  if (stripped.take 9).map Char.toUpper = "COMPLETED".toList then
    Text.strip ((stripped.drop 9).dropWhile isSeparator)
  else stripped

def fencedLines : Bool → List Text → List Text
  | _, [] => []
  | inBlock, line :: rest =>
    if inBlock = false ∧ "```".toList.isPrefixOf (Text.strip line) = true then fencedLines true rest
    else if inBlock = true ∧ Text.strip line = "```".toList then []
    else if inBlock then line :: fencedLines inBlock rest
    else fencedLines inBlock rest

def asObject : Option Json → Option Json
  | some (.obj fields) => some (.obj fields)
  | _ => none

def parseOutput (raw : Text) : Json :=
  let stripped := Text.strip raw
  let fenced :=
    if "```".toList.isPrefixOf stripped then
      asObject (loop.python.jsonLoads (Text.strip (Text.joinWith ['\n']
        (fencedLines false (Text.splitlines stripped)))))
    else none
  ((asObject (loop.python.jsonLoads stripped)).or fenced).getD
    (.obj [("response", .str (String.ofList raw))])

/-- How a response leaves an iteration: through its end, with the next iteration
at once, or with the end of the loop. -/
inductive Flow (ρ : Type)
  | next
  | again
  | stop (r : ρ)

abbrev Ending := TerminationReason × Option Text

def prepare : LoopM W PUnit := do
  modifyState fun state => { state with iteration := state.iteration + 1 }
  if loop.config.evaluationMode then
    modify fun d => { d with
      messages :=
        loop.evictForContextBudget d.messages (Int.tdiv (9 * loop.modelContextWindow) 10) }

def thresholdReached : LoopM W Bool := do
  return decide (loop.config.errorThreshold ≤ (← get).state.consecutiveErrors)

def resetForToolCalls : LoopM W PUnit :=
  modifyState fun state => { state with consecutiveErrors := 0, confirmationPending := false }

def setPending (pending : Bool) : LoopM W PUnit :=
  modifyState fun state => { state with confirmationPending := pending }

def withTextCalls (parse : Text → Except Exn (Option (List ToolCall))) (response : LLMResponse) :
    LoopM W LLMResponse := do
  match parse response.content with
  | .error e => throw e
  | .ok none => return response
  | .ok (some []) => return response
  | .ok (some calls) => return { response with toolCalls := some calls }

def doomLoop (response : LLMResponse) : LoopM W Bool :=
  if 0 < loop.config.loopDetectionThreshold then loop.checkDoomLoop response.calls
  else return false

def takeResults (response : LLMResponse) (results : List ToolResult) : LoopM W (Flow Ending) := do
  if (← get).enforcer.isSome ∧ budgetBlocked ∈ results.map (·.error) then
    return .stop (.budgetExceeded, none)
  else
    appendMessages (loop.toolGroup response.content response.calls results)
    modify fun d => { d with
      messages := loop.interceptHandoffs response.calls results d.messages }
    return .next

def manageContext : LoopM W PUnit := do
  match loop.contextManager with
  | none => return
  | some manager => setMessages (← manager.manage loop.summarize (← get).messages)

def compressContext : LoopM W PUnit := do
  match loop.contextCompressor with
  | none => return
  | some compressor =>
    let messages := (← get).messages
    if compressor.needsCompression messages loop.modelContextWindow then
      setMessages (← compressor.compress loop.summarize messages)

def budgetSpent : LoopM W Bool := do
  let iteration ← onEnforcer recordIteration
  if iteration = .blocked then return true
  else
    let now := loop.ports.clock (← get).world
    return decide ((← onEnforcer (checkDuration now)) = .blocked)

def finishIteration : LoopM W (Option TerminationReason) := do
  loop.manageContext
  loop.compressContext
  if ← loop.thresholdReached then return some .error
  else if ← loop.budgetSpent then return some .budgetExceeded
  else return none

def endResponse : Flow Ending → LoopM W (Option Ending)
  | .stop ending => return some ending
  | .again => return none
  | .next => return (← loop.finishIteration).map (·, none)

def sayAssistant (response : LLMResponse) : ChatMessage := .say .assistant response.content

structure Last where
  raw : Text
  model : Text

def runTextCalls (response : LLMResponse) : LoopM W LLMResponse :=
  match loop.config.textToolParser with
  | some parse => if response.calls = [] then withTextCalls parse response else return response
  | none => return response

def runToolCalls (response : LLMResponse) : LoopM W (Flow Ending) := do
  resetForToolCalls
  if ← loop.doomLoop response then return .stop (.loopDetected, none)
  else
    let results ← loop.executeToolCalls loop.toolContext response.calls
    loop.takeResults response results

def runText (response : LLMResponse) : LoopM W (Flow Ending) := do
  if !loop.config.enableDoubleConfirmation then return .stop (.completed, none)
  else if !(← get).state.confirmationPending then
    setPending true
    appendMessages [sayAssistant response, .say .user confirmationPrompt]
    return .next
  else
    match loop.parseConfirmation response.content with
    | some false =>
      setPending false
      appendMessages [sayAssistant response]
      return .again
    | none =>
      appendMessages [sayAssistant response, .say .user confirmationPrompt]
      setPending true
      return .again
    | some true => return .stop (.completed, some (stripCompletionPrefix response.content))

def respond (response : LLMResponse) : LoopM W (Flow Ending) := do
  let response ← loop.runTextCalls response
  if response.calls ≠ [] then loop.runToolCalls response else loop.runText response

def ask (model : Text) (last : Last) : LoopM W (Last × Flow Ending) := do
  match ← loop.complete model (← get).messages with
  | .error _ =>
    bumpErrors
    return (last, if ← loop.thresholdReached then .stop (.error, none) else .again)
  | .ok response =>
    trackTokenUsage response
    return (⟨response.content, response.model⟩, ← loop.respond response)

def runIteration (model : Text) (last : Last) : LoopM W (Last × Option Ending) := do
  loop.prepare
  let (last, flow) ← loop.ask model last
  return (last, ← loop.endResponse flow)

def runFrom (model : Text) : ℕ → Last → LoopM W (Last × Ending)
  | 0, last => return (last, .maxIterations, none)
  | n + 1, last => do
    let (last, ending) ← loop.runIteration model last
    match ending with
    | some ending => return (last, ending)
    | none => runFrom model n last

def run (model : Text) : LoopM W ToolLoopResult := do
  let (last, reason, final) ← loop.runFrom model loop.config.maxIterations.toNat ⟨[], model⟩
  let state := (← get).state
  return {
    output := loop.parseOutput (final.getD last.raw)
    rawResponse := last.raw
    tokensUsed := state.totalTokens
    model := last.model
    iterations := state.iteration
    toolCallsMade := state.toolCallsMade
    toolsUsed := state.toolsUsed
    terminationReason := reason
    tokensAvailable := state.tokenUsageAvailable }

structure StreamState where
  assembler : ToolCallAssembler := {}
  sawStreamChunks : Bool := false
  sawToolDelta : Bool := false
  content : Text := []
  model : Text
  promptTokens : ℕ := 0
  completionTokens : ℕ := 0
  usageAvailable : Bool := false
  finishReason : Option Text := none

def StreamState.addCalls (assembler : ToolCallAssembler) (calls : List ToolCall) :
    ToolCallAssembler :=
  calls.zipIdx.foldl (fun assembler p => assembler.addDelta
    { index := p.2, id := p.1.id, name := p.1.function.name,
      argumentsFragment := p.1.function.arguments }) assembler

def StreamState.feed (s : StreamState) (chunk : LLMStreamChunk) : StreamState where
  assembler := StreamState.addCalls
    (match chunk.toolCallDelta with
      | none => s.assembler
      | some delta => s.assembler.addDelta delta) chunk.deltaToolCalls
  sawStreamChunks := true
  sawToolDelta := s.sawToolDelta || chunk.toolCallDelta.isSome || !chunk.deltaToolCalls.isEmpty
  content := s.content ++ chunk.deltaContent
  model := if chunk.model = [] then s.model else chunk.model
  promptTokens :=
    if chunk.usageAvailable then max s.promptTokens chunk.promptTokens else s.promptTokens
  completionTokens :=
    if chunk.usageAvailable then max s.completionTokens chunk.completionTokens
    else s.completionTokens
  usageAvailable := s.usageAvailable || chunk.usageAvailable
  finishReason := chunk.finishReason.or s.finishReason

def StreamState.response (s : StreamState) : LLMResponse where
  content := s.content
  model := s.model
  promptTokens := s.promptTokens
  completionTokens := s.completionTokens
  toolCalls := if s.assembler.close = [] then none else some s.assembler.close
  finishReason :=
    if s.assembler.close = [] then
      match s.finishReason with
      | none => "stop".toList
      | some reason => if reason = [] then "stop".toList else reason
    else "tool_calls".toList
  usageAvailable := s.usageAvailable

def isStreamUnsupportedError (message : Text) : Bool :=
  ["__aiter__", "async iterable", "async iterator", "async for"].any fun marker =>
    Text.includes message marker.toList

def streamResponse :
    LoopM W (Except LlmError LLMResponse) := do
  match ← onPorts (loop.ports.streamComplete model messages) with
  | .unsupported => loop.complete model messages
  | .raises .notImplemented => do
    record (.llmCall model messages)
    loop.complete model messages
  | .raises e => do
    record (.llmCall model messages)
    return .error e
  | .chunks chunks error => do
    record (.llmCall model messages)
    let s := chunks.foldl StreamState.feed { model }
    match error with
    | some .notImplemented => loop.complete model messages
    | some (.typeError message) =>
      if !s.sawStreamChunks && isStreamUnsupportedError message then loop.complete model messages
      else return .error (.typeError message)
    | some e => return .error e
    | none =>
      if !s.sawStreamChunks then loop.complete model messages
      else if !s.sawToolDelta && s.response.calls.isEmpty &&
          decide (s.finishReason = some "tool_calls".toList) then
        loop.complete model messages
      else return .ok s.response

def attempt {α : Type} (x : LoopM W α) : LoopM W (Except Exn α) := fun d =>
  match x.run d with
  | .ok a d => .ok (.ok a) d
  | .error e d => .ok (.error e) d

def relayContext : ToolContext := loop.toolContext.getD {}

def streamTextCalls (response : LLMResponse) : LoopM W LLMResponse :=
  match loop.config.textToolParser with
  | some parse =>
    if response.calls = [] ∧ response.content ≠ [] then withTextCalls parse response
    else return response
  | none => return response

def streamToolCalls (response : LLMResponse) : LoopM W (Flow Ending) := do
  resetForToolCalls
  if ← loop.doomLoop response then return .stop (.loopDetected, none)
  else
    match ← attempt (loop.executeToolCalls (some loop.relayContext) response.calls) with
    | .error _ => return .stop (.toolError, none)
    | .ok results => loop.takeResults response results

def streamText (response : LLMResponse) : LoopM W (Flow Ending) := do
  if !loop.config.enableDoubleConfirmation then return .stop (.completed, none)
  else if !(← get).state.confirmationPending then
    setPending true
    appendMessages [sayAssistant response, .say .user confirmationPrompt]
    return .again
  else
    match loop.parseConfirmation response.content with
    | some true => return .stop (.completed, some (stripCompletionPrefix response.content))
    | some false =>
      setPending false
      appendMessages [sayAssistant response]
      return .again
    | none =>
      appendMessages [sayAssistant response, .say .user confirmationPrompt]
      return .again

def streamHandle (response : LLMResponse) : LoopM W (Option Ending) := do
  let response ← loop.streamTextCalls response
  (if response.calls ≠ [] then loop.streamToolCalls response else loop.streamText response) >>=
    loop.endResponse

/-- The call of the model, and how its response ends the iteration, with the content
of the last response. An exception that escapes the handling ends the loop. -/
def streamAsk (model : Text) (last : Text) : LoopM W (Text × Option Ending) := do
  match ← loop.streamResponse model (← get).messages with
  | .error (.typeError _) => return (last, some (.llmError, none))
  | .error _ =>
    bumpErrors
    return (last, if ← loop.thresholdReached then some (.error, none) else none)
  | .ok response =>
    trackTokenUsage response
    match ← attempt (loop.streamHandle response) with
    | .error _ => return (response.content, some (.error, none))
    | .ok ending => return (response.content, ending)

def streamIteration (model : Text) (last : Text) : LoopM W (Text × Option Ending) := do
  loop.prepare
  loop.streamAsk model last

def streamFrom (model : Text) : ℕ → Text → LoopM W (Text × Ending)
  | 0, last => return (last, .maxIterations, none)
  | n + 1, last => do
    let (last, ending) ← loop.streamIteration model last
    match ending with
    | some ending => return (last, ending)
    | none => streamFrom model n last

def runStream (model : Text) : LoopM W CompletedEvent := do
  let (last, reason, final) ← loop.streamFrom model loop.config.maxIterations.toNat []
  let state := (← get).state
  return {
    iteration := state.iteration
    terminationReason := reason
    totalTokens := if state.tokenUsageAvailable then some state.totalTokens else none
    tokensAvailable := state.tokenUsageAvailable
    toolCallsMade := state.toolCallsMade
    toolsUsed := state.toolsUsed
    output := loop.parseOutput (final.getD last) }

end ToolLoop

end Agent33.Agents

/-!
## Scripted providers

A provider that answers with the responses of a script, each streamed response in
one chunk.
-/

namespace Agent33.Agents

open Library Llm

def oneChunk (response : LLMResponse) : LLMStreamChunk where
  deltaContent := response.content
  deltaToolCalls := response.calls
  finishReason := some response.finishReason
  model := response.model
  promptTokens := response.promptTokens
  completionTokens := response.completionTokens
  usageAvailable := response.usageAvailable

abbrev Script := List LLMResponse

def scripted : Ports Script where
  complete _ _ script :=
    match script with
    | [] => (.error (.other "end of script".toList), [])
    | response :: rest => (.ok response, rest)
  streamComplete _ _ script :=
    match script with
    | [] => (.raises (.other "end of script".toList), [])
    | response :: rest => (.chunks [oneChunk response] none, rest)
  validatedExecute _ _ _ script := (.ok (.ok []), script)
  clock _ := 0

def scriptedLoop (table : List (Text × Json)) : ToolLoop Script where
  python := asciiPython table
  ports := scripted
  partText _ := []

def textResponse (content : String) : LLMResponse where
  content := content.toList
  model := "m".toList

def callResponse (calls : List (String × String × String)) : LLMResponse where
  content := []
  model := "m".toList
  toolCalls := some (calls.map fun c => ⟨c.1.toList, c.2.1.toList, c.2.2.toList⟩)
  finishReason := "tool_calls".toList

end Agent33.Agents
