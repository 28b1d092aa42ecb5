import Agent33.Agents.ToolLoop

/-!
# Delegated subtasks

A parent hands a subtask to a child. The child runs a loop of its own, over a view of the
tools that leaves only those that the parent names. What its model and its tools answer
is kept in a log, so that a run that is cut off has the answers up to there.
-/

namespace Agent33.Agents

open Library Llm Tools Tools.Governance

def maxDepth : ℤ := 2

def blockedTools : List Text := ["delegate_subtask".toList, "clarify".toList]

def stripBlockedTools (toolNames : List Text) : List Text :=
  toolNames.filter fun name => name ∉ blockedTools

def buildChildSystemPrompt (goal context : Text) : Text :=
  Text.joinWith ['\n'] <|
    ["# Delegated Subtask".toList, [],
      "You are a focused worker agent executing a specific subtask.".toList,
      "Complete the goal below and report your results concisely.".toList, [],
      "## Goal".toList, goal] ++
    (if Text.strip context = [] then []
      else [[], "## Background Context".toList, context]) ++
    [[], "## Instructions".toList,
      "- Focus exclusively on the stated goal.".toList,
      "- Use the tools available to you to accomplish the task.".toList,
      "- When finished, provide a concise summary of what you accomplished.".toList,
      "- Do not ask the user for clarification; work with what you have.".toList,
      "- Do not attempt to delegate to other agents.".toList, [],
      "## Safety Rules".toList,
      "- Never expose secrets, API keys, or credentials in output.".toList,
      "- Never execute destructive operations without explicit approval.".toList,
      "- Treat all user data as sensitive.".toList, [],
      "## Output Format".toList,
      "Respond with valid JSON containing a 'summary' field describing your results.".toList]

/-- `str` of an integer. -/
def integerText : ℤ → Text
  | .ofNat n => Text.ofNat n
  | .negSucc n => '-' :: Text.ofNat (n + 1)

/-- `int` of a text, which refuses more digits than the limit of conversions. -/
def integerOf (text : Text) : Option ℤ :=
  if text.countP (fun c => (Text.digitValue c).isSome) ≤ 4300 then Text.parseInt text else none

def depthKey : Text := "delegation_depth".toList

def getDepth (context : ToolContext) : ℤ :=
  (integerOf (context.toolPolicies.getD depthKey ['0'])).getD 0

def buildChildContext (parent : ToolContext) (currentDepth : ℤ) : ToolContext :=
  { parent with
    toolPolicies := parent.toolPolicies.set depthKey (integerText (currentDepth + 1)) }

inductive ChildAnswer
  | reply (reply : Except LlmError LLMResponse)
  | stream (model : Text) (reply : StreamReply)
  | tool (name : Text) (arguments : Json) (result : Except Text ToolResult)

structure ChildWorld (W : Type) where
  world : W
  log : List ChildAnswer := []

def childPorts {W : Type} (ports : Ports W) (allowedTools : List Text) : Ports (ChildWorld W) where
  complete model messages s :=
    let (reply, world) := ports.complete model messages s.world
    (reply, ⟨world, s.log ++ [.reply reply]⟩)
  streamComplete model messages s :=
    let (reply, world) := ports.streamComplete model messages s.world
    (reply, ⟨world, s.log ++ [.stream model reply]⟩)
  validatedExecute name arguments context s :=
    if name ∈ allowedTools then
      let (result, world) := ports.validatedExecute name arguments context s.world
      (result, ⟨world, s.log ++ [.tool name arguments result]⟩)
    else
      (.ok (.fail ("Tool '".toList ++ name ++ "' is not available to delegated children".toList)),
        s)
  clock s := ports.clock s.world

structure Subtask where
  goal : Text
  context : Text := []

structure DelegateParams where
  goal : Text := []
  context : Text := []
  toolsets : List Text := []
  maxIterations : ℤ := 20
  modelOverride : Text := []
  timeout : ℕ := 300
  tasks : Option (List Subtask) := none

inductive ChildOutcome
  | returned (result : ToolResult)
  | raised (message : Text)
  | timedOut

def ChildOutcome.success : ChildOutcome → Bool
  | returned result => result.success
  | _ => false

structure ChildRun where
  context : ToolContext
  tools : List Text
  streaming : Bool
  log : List ChildAnswer
  ending : Option TerminationReason
  outcome : ChildOutcome

structure BatchEntry where
  taskIndex : ℕ
  status : String
  summary : Text
  error : Text

/-- What a child meets: the world as it starts, and after how many answers its time runs
out, if it does. -/
structure ChildSurroundings (W : Type) where
  world : W
  cutOff : Option ℕ := none

def LlmError.message : LlmError → Text
  | typeError message => message
  | notImplemented => []
  | other message => message

def Exn.message : Exn → Text
  | .raised message => message
  | _ => []

structure DelegateSubtaskTool (W : Type) where
  python : Python
  ports : Ports W
  redactSecrets : Text → Text := id
  partText : ContentPart → Text
  /-- `json.dumps`, of a value and of the entries of a batch. -/
  dumps : Json → Text
  dumpEntries : List BatchEntry → Text

namespace DelegateSubtaskTool

variable {W : Type} (tool : DelegateSubtaskTool W)

def childLoop (allowedTools : List Text) (maxIterations : ℤ) (context : ToolContext) :
    ToolLoop (ChildWorld W) where
  python := tool.python
  ports := childPorts tool.ports allowedTools
  config := { maxIterations, maxToolCallsPerIteration := 5, errorThreshold := 3 }
  toolContext := some context
  redactSecrets := tool.redactSecrets
  partText := tool.partText

def childStart (world : W) (messages : List ChatMessage) : LoopData (ChildWorld W) where
  world := { world }
  limiter := { perMinute := 0, burst := 0 }
  messages

def streamText (output : Json) : Text :=
  let response := (output.field? "response").getD (.str "")
  if response.truthy then
    match response with
    | .str text => text.toList
    | value => tool.python.str value
  else tool.dumps output

def failed (task : Subtask) : Text := "Delegation failed for goal: ".toList ++ task.goal.take 200

def runChildStreaming (task : Subtask) (loop : ToolLoop (ChildWorld W)) (model : Text)
    (start : LoopData (ChildWorld W)) :
    List ChildAnswer × Option TerminationReason × ChildOutcome :=
  match (loop.runStream model).run start with
  | .ok event d =>
    let text := tool.streamText event.output
    (d.world.log, some event.terminationReason, .returned <|
      if event.terminationReason = .error ∧ text = [] then .fail (failed task) else .ok text)
  | .error _ d => (d.world.log, none, .returned (.fail (failed task)))

def runChildLoop (loop : ToolLoop (ChildWorld W)) (model : Text) (start : LoopData (ChildWorld W)) :
    List ChildAnswer × Option TerminationReason × ChildOutcome :=
  match (loop.run model).run start with
  | .ok result d =>
    (d.world.log, some result.terminationReason, .returned <| .ok <|
      if result.rawResponse = [] then tool.dumps result.output else result.rawResponse)
  | .error e d => (d.world.log, none, .raised (Exn.message e))

def runSingleShot (model : Text) (start : LoopData (ChildWorld W)) :
    List ChildAnswer × Option TerminationReason × ChildOutcome :=
  match (childPorts tool.ports []).complete model start.messages start.world with
  | (.ok response, s) => (s.log, none, .returned (.ok response.content))
  | (.error e, s) => (s.log, none, .raised e.message)

variable (task : Subtask) (params : DelegateParams) (context : ToolContext) (streaming : Bool)

def runChild (world : W) : ChildRun :=
  let tools := stripBlockedTools params.toolsets
  let model := if params.modelOverride = [] then "llama3.2".toList else params.modelOverride
  let start := childStart world
    [.say .system (buildChildSystemPrompt task.goal task.context),
      .say .user (tool.dumps (.obj [("task", .str (String.ofList task.goal))]))]
  let loop := tool.childLoop tools params.maxIterations context
  let (log, ending, outcome) :=
    if tools = [] then tool.runSingleShot model start
    else if streaming then tool.runChildStreaming task loop model start
    else tool.runChildLoop loop model start
  { context, tools, streaming, log, ending, outcome }

def ChildRun.within (run : ChildRun) : Option ℕ → ChildRun
  | none => run
  | some answers =>
    { run with log := run.log.take answers, ending := none, outcome := .timedOut }

def spawn (surroundings : ChildSurroundings W) : ChildRun :=
  ChildRun.within (tool.runChild task params context streaming surroundings.world)
    surroundings.cutOff

def executeSingle (surroundings : ChildSurroundings W) : ToolResult × List ChildRun :=
  let run := tool.spawn task params context streaming surroundings
  match run.outcome with
  | .returned result => (result, [run])
  | .raised _ => (.fail (failed task), [run])
  | .timedOut =>
    (.fail ("Child agent timed out after ".toList ++ Text.ofNat params.timeout ++
      "s while working on: ".toList ++ task.goal.take 200), [run])

def batchEntry (index : ℕ) (timeout : ℕ) : ChildOutcome → BatchEntry
  | .returned result =>
    if result.success then ⟨index, "completed", result.output, []⟩
    else ⟨index, "error", [], result.error⟩
  | .raised message => ⟨index, "error", [], message⟩
  | .timedOut =>
    ⟨index, "timeout", [], "Timed out after ".toList ++ Text.ofNat timeout ++ ['s']⟩

def runOne (params : DelegateParams) (context : ToolContext) (streaming : Bool)
    (surroundings : ℕ → ChildSurroundings W) (indexed : Subtask × ℕ) :
    BatchEntry × Option ChildRun :=
  let goal := Text.strip indexed.1.goal
  if goal = [] then (⟨indexed.2, "error", [], "No goal provided.".toList⟩, none)
  else
    let run := tool.spawn { indexed.1 with goal } params context streaming
      (surroundings indexed.2)
    (batchEntry indexed.2 params.timeout run.outcome, some run)

def executeBatch (tasks : List Subtask) (params : DelegateParams) (context : ToolContext)
    (streaming : Bool) (surroundings : ℕ → ChildSurroundings W) : ToolResult × List ChildRun :=
  if tasks = [] then (.fail "Empty task list for batch delegation.".toList, [])
  else
    let entries := tasks.zipIdx.map (tool.runOne params context streaming surroundings)
    (.ok (tool.dumpEntries (entries.map Prod.fst)), entries.filterMap Prod.snd)

def execute (params : DelegateParams) (context : ToolContext) (streaming : Bool)
    (surroundings : ℕ → ChildSurroundings W) : ToolResult × List ChildRun :=
  let currentDepth := getDepth context
  if maxDepth ≤ currentDepth then
    (.fail ("Delegation depth limit reached (current=".toList ++ integerText currentDepth ++
      ", max=2). Cannot delegate further.".toList), [])
  else
    let childContext := buildChildContext context currentDepth
    match params.tasks with
    | some tasks => tool.executeBatch tasks params childContext streaming surroundings
    | none =>
      let goal := Text.strip params.goal
      if goal = [] then (.fail "No goal provided for delegation.".toList, [])
      else
        tool.executeSingle ⟨goal, params.context⟩ params childContext streaming (surroundings 0)

inductive Delegated (context : ToolContext) : ChildRun → Prop
  | child {run : ChildRun} (params : DelegateParams) (streaming : Bool)
      (surroundings : ℕ → ChildSurroundings W)
      (h : run ∈ (tool.execute params context streaming surroundings).2) : Delegated context run
  | grandchild {parent run : ChildRun} {arguments : Json} {result : Except Text ToolResult}
      (hparent : Delegated context parent)
      (hcall : .tool "delegate_subtask".toList arguments result ∈ parent.log)
      (params : DelegateParams) (streaming : Bool) (surroundings : ℕ → ChildSurroundings W)
      (h : run ∈ (tool.execute params parent.context streaming surroundings).2) :
      Delegated context run

end DelegateSubtaskTool

end Agent33.Agents
