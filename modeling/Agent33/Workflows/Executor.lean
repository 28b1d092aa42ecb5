import Agent33.Library.Async
import Agent33.Workflows.Dag

/-!
# The workflow executor

The execution of a workflow step by step or group by group, with conditions,
retries, timeouts, hooks, nested steps and checkpoints. The steps of a group and
of a parallel group interleave as a schedule says. What the code outside of the
executor does is a parameter; the event sink, the replay recorder and the
durations of results are left out. A run also returns its final state and what
was attempted in it.
-/

namespace Agent33.Workflows.Executor

open Library Workflows.Definition Workflows.Expressions Workflows.Checkpoint Workflows.Dag

abbrev Outputs := Dict String Json

abbrev State := Dict String Json

def Outputs.json (outputs : Outputs) : Json := .obj outputs.entries

inductive StepStatus
  | success
  | failed
  | skipped
  deriving DecidableEq

structure StepResult where
  stepId : String
  status : StepStatus
  outputs : Outputs := Dict.empty
  error : Option String := none

inductive WorkflowStatus
  | success
  | failed
  | partly
  | skipped
  deriving DecidableEq

def WorkflowStatus.value : WorkflowStatus → String
  | success => "success"
  | failed => "failed"
  | partly => "partial"
  | skipped => "skipped"

structure WorkflowResult where
  outputs : Outputs
  stepsExecuted : List String
  stepResults : List StepResult
  status : WorkflowStatus

/-- One attempt at a step: what it came to, whether it was the hook after the action
that raised, and the nested steps that the action ran. -/
structure Attempt (ρ : Type) where
  outcome : Except Raised Outputs
  hookRaised : Bool := false
  nested : List ρ

structure StepRun where
  step : WorkflowStep
  result : Except Raised StepResult
  attempts : List (Attempt StepRun) := []

/-- A finished run: its result, the final state, the steps that were attempted at
the top level, and the exception that ended it. -/
structure WorkflowRun where
  result : WorkflowResult
  state : State
  runs : List StepRun
  raised : Option Raised

structure Actions (W : Type) where
  invokeAgent : Option String → Outputs → Bool → Async W (Except Raised Outputs)
  runCommand : Option String → Outputs → Option ℕ → Bool → Async W (Except Raised Outputs)
  validate : Outputs → Bool → Async W (Except Raised Outputs)
  transform : Outputs → Bool → Async W (Except Raised Outputs)
  wait : Outputs → Option Int → Option String → Option ℕ → Bool →
    Async W (Except Raised Outputs)
  executeCode : Option String → Option String → Outputs → Option Json → Bool →
    Async W (Except Raised Outputs)
  httpRequest : Option String → String → Option Json → Option Json → ℕ → Outputs → Bool →
    Async W (Except Raised Outputs)
  route : Option String → Option (List String) → String → Outputs → Bool →
    Async W (Except Raised Outputs)
  groupChat : Json → Async W (Except Raised Outputs)

structure WorkflowHookContext where
  workflowName : String
  stepId : String
  stepAction : StepAction
  inputs : Outputs
  state : State

structure PreHookOutcome where
  abort : Bool := false
  abortReason : String := ""
  inputs : Outputs

structure StepHooks (W : Type) where
  pre : WorkflowHookContext → Async W (Except Raised PreHookOutcome)
  post : WorkflowHookContext → StepResult → Async W (Except Raised PUnit)

structure Services (W : Type) where
  jinja : Jinja
  actions : Actions W
  hooks : Option (StepHooks W) := none
  /-- `WorkflowDefinition(**value)`. -/
  parseDefinition : Json → Except Raised WorkflowDefinition
  checkpointManager : Bool := true
  /-- Who goes on when steps with these ids are gathered. The semaphore of a group only
  rules out some of the schedules. -/
  schedule : List String → ℕ → Schedule
  /-- After how many suspensions the timeout of an attempt at the step expires. -/
  expires : WorkflowStep → ℕ → Option ℕ
  /-- The duration between two states of the world, as the sub-workflow action reports it. -/
  elapsedMs : W → W → Json
  /-- How deep calls may nest. -/
  recursionLimit : ℕ

abbrev Shared (W : Type) := W × List WorkflowCheckpoint

structure Local where
  state : State
  steps : Dict String WorkflowStep

abbrev Data (W : Type) := Shared W × Local

structure WorkflowExecutor (W : Type) where
  services : Services W
  definition : WorkflowDefinition
  runId : String
  resumeFromCheckpoint : Bool := true
  /-- The nesting depth of sub-workflows. -/
  depth : ℕ := 0

variable {W : Type}

def WorkflowExecutor.create (services : Services W) (definition : WorkflowDefinition)
    (runId : Option String) (depth : ℕ) : WorkflowExecutor W where
  services := services
  definition := definition
  runId := match runId with
    | none => definition.name
    | some runId => if runId = "" then definition.name else runId
  depth := depth

def setState (stepId : String) (outputs : Outputs) : Async (Data W) PUnit :=
  Async.modify fun d => (d.1, { d.2 with state := d.2.state.set stepId outputs.json })

def onWorld {α : Type} (x : Async W α) : Async (Data W) α := Async.lift (Async.lift x)

def fail {α : Type} (message : String) : Except Raised α := .error { message }

def conditionalExecute (jinja : Jinja) (condition : Option String) (inputs : Outputs)
    (dryRun : Bool) : Except Raised Outputs :=
  match condition with
  | none => fail "conditional action requires a 'condition' field"
  | some condition =>
    if condition = "" then fail "conditional action requires a 'condition' field"
    else if dryRun then
      .ok (Dict.ofList [("dry_run", .bool true), ("branch", .str "then"),
        ("condition_result", .bool true)])
    else
      (jinja.evaluateCondition condition inputs).map fun result =>
        Dict.ofList [("branch", .str (if result then "then" else "else")),
          ("condition_result", .bool result)]

def runBranch (runStep : WorkflowStep → Async (Data W) StepRun) :
    List WorkflowStep → Outputs → Async (Data W) (Except Raised Outputs × List StepRun)
  | [], outputs => pure (.ok outputs, [])
  | step :: rest, outputs => do
    let run ← runStep step
    match run.result with
    | .error e => return (.error e, [run])
    | .ok result => do
      setState step.id result.outputs
      let (outcome, runs) ← runBranch runStep rest (outputs.set step.id result.outputs.json)
      return (outcome, run :: runs)

def registerSteps (steps : List WorkflowStep) : Async (Data W) PUnit :=
  Async.modify fun d =>
    (d.1, { d.2 with steps := steps.foldl (fun steps s => steps.set s.id s) d.2.steps })

variable (runStep : WorkflowStep → Async (Data W) StepRun) (sid : String)

def runRegistered :
    Async (Data W) StepRun := do
  let d ← Async.read
  match d.2.steps.get? sid with
  | none =>
    return { step := { id := sid, action := .validate }, result := fail ("'" ++ sid ++ "'") }
  | some step => runStep step

def runSub :
    Async (Data W) (Except Raised Outputs × StepRun) := do
  let run ← runRegistered runStep sid
  match run.result with
  | .error e => return (.error e, run)
  | .ok result => do
    setState sid result.outputs
    return (.ok result.outputs, run)

def subError (sid : String) (e : Raised) : String :=
  "Step '" ++ sid ++ "' failed: " ++ e.message

def collectResults (results : List (String × Except Raised Outputs)) : Outputs :=
  Dict.ofList [
    ("results", Outputs.json (Dict.ofList (results.map fun p =>
      (p.1, match p.2 with
        | .ok outputs => outputs.json
        | .error e => .obj [("error", .str e.message)])))),
    ("errors", .arr (results.filterMap fun p =>
      match p.2 with
      | .ok _ => none
      | .error e => some (.str (subError p.1 e))))]

def parallelGroupExecute (schedule : List String → ℕ → Schedule)
    (runStep : String → Async (Data W) (Except Raised Outputs × StepRun))
    (subStepIds : List String) (dryRun : Bool) :
    Async (Data W) (Except Raised Outputs × List StepRun) :=
  if dryRun then
    pure (.ok (Dict.ofList [("dry_run", .bool true), ("steps", .arr (subStepIds.map .str)),
      ("results", Outputs.json (Dict.ofList (subStepIds.map fun sid =>
        (sid, .obj [("dry_run", .bool true)]))))]), [])
  else do
    let results ← Async.gather (schedule subStepIds) (subStepIds.map runStep)
    return (.ok (collectResults (subStepIds.zip (results.map Prod.fst))),
      results.map Prod.snd)

def maxNestingDepth : ℕ := 10

def subRunId (runId stepId : String) : String :=
  let full := (runId ++ ":sub:" ++ stepId).toList
  String.ofList (full.drop (full.length - 128))

/-- `len(workflow_definition.get("steps", []))`. -/
def stepCount (definition : Json) : Except Raised ℕ :=
  match definition.field? "steps" with
  | none => .ok 0
  | some (.arr items) => .ok items.length
  | some (.obj fields) => .ok fields.length
  | some (.str s) => .ok s.length
  | some _ => fail "object has no len()"

def subWorkflowExecute (x : WorkflowExecutor W)
    (runWorkflow : WorkflowExecutor W → Outputs → Async (Shared W) WorkflowRun)
    (step : WorkflowStep) (inputs : Outputs) :
    Async (Data W) (Except Raised Outputs × List StepRun) :=
  match step.subWorkflow with
  | none => pure (fail "sub-workflow action requires a 'workflow_definition'", [])
  | some definition =>
    if definition.truthy = false then
      pure (fail "sub-workflow action requires a 'workflow_definition'", [])
    else if maxNestingDepth ≤ x.depth then
      pure (fail "Sub-workflow nesting depth exceeded (max 10)", [])
    else
      match stepCount definition with
      | .error e => pure (.error e, [])
      | .ok count =>
        if x.definition.execution.dryRun then
          pure (.ok (Dict.ofList [("dry_run", .bool true), ("step_count", .int count)]), [])
        else
          match x.services.parseDefinition definition with
          | .error e => pure (.error e, [])
          | .ok definition => do
            let start ← Async.read
            let run ← Async.lift (runWorkflow (WorkflowExecutor.create x.services definition
              (some (subRunId x.runId step.id)) (x.depth + 1)) inputs)
            let stop ← Async.read
            return (.ok (Dict.ofList [("status", .str run.result.status.value),
              ("outputs", run.result.outputs.json),
              ("steps_executed", .arr (run.result.stepsExecuted.map .str)),
              ("duration_ms", x.services.elapsedMs start.1.1 stop.1.1)]), run.runs)

namespace WorkflowExecutor

variable (x : WorkflowExecutor W)

def leaf (handler : Async W (Except Raised Outputs)) :
    Async (Data W) (Except Raised Outputs × List StepRun) := do
  return (← onWorld handler, [])

def dispatchAction (runStep : WorkflowStep → Async (Data W) StepRun)
    (runWorkflow : WorkflowExecutor W → Outputs → Async (Shared W) WorkflowRun)
    (step : WorkflowStep) (inputs : Outputs) :
    Async (Data W) (Except Raised Outputs × List StepRun) :=
  let actions := x.services.actions
  let dryRun := x.definition.execution.dryRun
  match step.action with
  | .invokeAgent => leaf (actions.invokeAgent step.agent inputs dryRun)
  | .runCommand => leaf (actions.runCommand step.command inputs step.timeoutSeconds dryRun)
  | .validate => leaf (actions.validate inputs dryRun)
  | .transform => leaf (actions.transform inputs dryRun)
  | .conditional => do
    let d ← Async.read
    match conditionalExecute x.services.jinja step.condition (d.2.state.update inputs) dryRun with
    | .error e => return (.error e, [])
    | .ok result =>
      runBranch runStep
        (if result.get? "branch" = some (.str "then") then step.thenSteps else step.elseSteps)
        result
  | .parallelGroup => do
    registerSteps step.steps
    parallelGroupExecute x.services.schedule (runSub runStep) (stepIds step.steps) dryRun
  | .wait => do
    let d ← Async.read
    leaf (actions.wait (d.2.state.update inputs) step.durationSeconds step.waitCondition
      step.timeoutSeconds dryRun)
  | .executeCode => leaf (actions.executeCode step.toolId step.adapterId inputs step.sandbox dryRun)
  | .httpRequest => leaf (actions.httpRequest step.url step.httpMethod step.httpHeaders
      step.httpBody (step.timeoutSeconds.getD 30) inputs dryRun)
  | .subWorkflow => subWorkflowExecute x runWorkflow step inputs
  | .route => leaf (actions.route step.query step.routeCandidates step.routeModel inputs dryRun)
  | .groupChat =>
    match step.groupChat with
    | none => pure (fail "group_chat config required for GROUP_CHAT action", [])
    | some config => leaf (actions.groupChat config)

variable (step : WorkflowStep)

def shouldRun (state : State) : Except Raised Bool :=
  match step.condition with
  | none => .ok true
  | some condition =>
    if condition = "" then .ok true else x.services.jinja.evaluateCondition condition state

def resolveStepInputs (state : State) : Except Raised Outputs :=
  (if step.action ≠ .invokeAgent then x.services.jinja.resolveInputs state step.inputs
    else x.services.jinja.resolveAgentFields state step.inputs).map Dict.ofList

def hookContext (inputs : Outputs) (state : State) : WorkflowHookContext where
  workflowName := x.definition.name
  stepId := step.id
  stepAction := step.action
  inputs := inputs
  state := state

def preHook (inputs : Outputs) (state : State) : Async (Data W) (Except Raised PreHookOutcome) :=
  match x.services.hooks with
  | none => pure (.ok { inputs })
  | some hooks => onWorld (hooks.pre (x.hookContext step inputs state))

def postHook (inputs : Outputs) (result : StepResult) : Async (Data W) (Except Raised PUnit) :=
  match x.services.hooks with
  | none => pure (.ok ⟨⟩)
  | some hooks => do
    let d ← Async.read
    onWorld (hooks.post (x.hookContext step inputs d.2.state) result)

def dispatchWithin (dispatch : Async (Data W) (Except Raised Outputs × List StepRun))
    (step : WorkflowStep) (attempt : ℕ) : Async (Data W) (Except Raised Outputs × List StepRun) :=
  match step.timeoutSeconds with
  | none => dispatch
  | some _ => do
    match ← Async.within (x.services.expires step attempt) dispatch with
    | none => return (.error { message := "", isTimeout := true }, [])
    | some outcome => return outcome

def attemptStep (dispatch : Async (Data W) (Except Raised Outputs × List StepRun))
    (step : WorkflowStep) (inputs : Outputs) (attempt : ℕ) :
    Async (Data W) (Attempt StepRun) := do
  let (outcome, nested) ← x.dispatchWithin dispatch step attempt
  match outcome with
  | .error e => return { outcome := .error e, nested }
  | .ok outputs =>
    match ← x.postHook step inputs { stepId := step.id, status := .success, outputs } with
    | .error e => return { outcome := .error e, hookRaised := true, nested }
    | .ok _ => return { outcome := .ok outputs, nested }

/-- `f"Step timed out after {step.timeout_seconds}s"`, or the text of the exception. -/
def lastError (e : Raised) : String :=
  if e.isTimeout then
    "Step timed out after " ++ (match step.timeoutSeconds with
      | none => "None"
      | some seconds => toString seconds) ++ "s"
  else e.message

def attempts (dispatch : Async (Data W) (Except Raised Outputs × List StepRun))
    (step : WorkflowStep) (inputs : Outputs) :
    ℕ → Option String → List (Attempt StepRun) → Async (Data W) StepRun
  | 0, error, made =>
    pure { step, result := .ok { stepId := step.id, status := .failed, error }, attempts := made }
  | n + 1, _, made => do
    let attempt ← x.attemptStep dispatch step inputs (made.length + 1)
    match attempt.outcome with
    | .ok outputs =>
      return {
        step
        result := .ok { stepId := step.id, status := .success, outputs }
        attempts := made ++ [attempt] }
    | .error e => do
      (if 0 < n then Async.yield else pure ⟨⟩)
      attempts dispatch step inputs n (some (lastError step e)) (made ++ [attempt])

def skippedResult : StepResult where
  stepId := step.id
  status := .skipped
  outputs := Dict.ofList [("skipped", .bool true), ("reason", .str "condition_false")]

def failedResult (error : String) : StepResult where
  stepId := step.id
  status := .failed
  error := some error

def runStepWith (dispatch : WorkflowStep → Outputs →
    Async (Data W) (Except Raised Outputs × List StepRun)) (step : WorkflowStep) :
    Async (Data W) StepRun := do
  let d ← Async.read
  match x.shouldRun step d.2.state with
  | .error e =>
    return { step, result := .ok (failedResult step ("Condition evaluation error: " ++ e.message)) }
  | .ok false => return { step, result := .ok (skippedResult step) }
  | .ok true =>
    match x.resolveStepInputs step d.2.state with
    | .error e => return { step, result := .error e }
    | .ok inputs =>
      match ← x.preHook step inputs d.2.state with
      | .error e => return { step, result := .error e }
      | .ok outcome =>
        if outcome.abort then
          return {
            step
            result := .ok (failedResult step ("Hook aborted: " ++ outcome.abortReason)) }
        else
          x.attempts (dispatch step outcome.inputs) step outcome.inputs step.retry.maxAttempts
            none []

structure Progress where
  completed : List String
  stepResults : List StepResult := []
  stepsExecuted : List String := []
  failed : Bool := false
  errorMessage : Option String := none
  runs : List StepRun := []
  raised : Option Raised := none

def checkpointMetaKey : String := "__workflow_checkpoint"

def completedSteps (metadata : Json) : List String :=
  match metadata.field? "completed_steps" with
  | some (.arr items) => items.filterMap fun item =>
    match item with
    | .str stepId => some stepId
    | _ => none
  | _ => []

def loadCheckpointState (inputs : State) (rows : List WorkflowCheckpoint) : State × List String :=
  if x.services.checkpointManager = false ∨ x.resumeFromCheckpoint = false then (inputs, [])
  else
    match loadCheckpoint x.runId rows with
    | none => (inputs, [])
    | some checkpoint =>
      (inputs.update (checkpoint.erase checkpointMetaKey),
        (completedSteps (checkpoint.getD checkpointMetaKey (.obj []))).filter
          fun stepId => decide (stepId ∈ stepIds x.definition.steps))

def checkpointPayload (stepId : String) (state : State) (completed : List String) : State :=
  state.set checkpointMetaKey (.obj [
    ("completed_steps", .arr (((stepIds x.definition.steps).filter
      fun sid => decide (sid ∈ completed)).map .str)),
    ("last_step_id", .str stepId)])

def saveCheckpointState (stepId : String) (completed : List String) : Async (Data W) PUnit :=
  Async.modify fun d =>
    if x.services.checkpointManager = false then d
    else ((d.1.1, saveCheckpoint x.runId stepId
      (x.checkpointPayload stepId d.2.state completed) d.1.2), d.2)

def checkpointRestoredResult (stepId : String) (state : State) : StepResult where
  stepId := stepId
  status := .skipped
  outputs :=
    match state.getD stepId (.obj []) with
    | .obj fields => Dict.ofList fields
    | value => Dict.ofList [("result", value)]

def Progress.restore (p : Progress) (result : StepResult) : Progress :=
  { p with stepResults := p.stepResults ++ [result] }

def Progress.raise (p : Progress) (run : StepRun) (e : Raised) : Progress :=
  { p with
    failed := true
    errorMessage := some e.message
    runs := p.runs ++ [run]
    raised := some e }

def Progress.record (p : Progress) (sid : String) (run : StepRun) (result : StepResult) :
    Progress :=
  { p with
    completed := if result.status = .success then sid :: p.completed else p.completed
    stepResults := p.stepResults ++ [result]
    stepsExecuted := p.stepsExecuted ++ [sid]
    failed := p.failed || decide (result.status = .failed)
    errorMessage :=
      if result.status = .failed then
        match result.error with
        | none => p.errorMessage
        | some error => if error = "" then p.errorMessage else some error
      else p.errorMessage
    runs := p.runs ++ [run] }

def settle (sid : String) (run : StepRun) (result : StepResult) (p : Progress) :
    Async (Data W) Progress := do
  let p := p.record sid run result
  setState sid result.outputs
  (if result.status = .success then x.saveCheckpointState sid p.completed else pure ⟨⟩)
  return p

def restoreStep (sid : String) (p : Progress) : Async (Data W) Progress := do
  let d ← Async.read
  return p.restore (checkpointRestoredResult sid d.2.state)

def runSequential (runStep : WorkflowStep → Async (Data W) StepRun) :
    List WorkflowStep → Progress → Async (Data W) Progress
  | [], p => pure p
  | step :: rest, p =>
    if step.id ∈ p.completed then do
      let p ← restoreStep step.id p
      runSequential runStep rest p
    else do
      let run ← runStep step
      match run.result with
      | .error e => return p.raise run e
      | .ok result => do
        let p ← x.settle step.id run result p
        if result.status = .failed ∧ (x.definition.execution.failFast = true ∨
            x.definition.execution.continueOnError = false) then return p
        else runSequential runStep rest p

def runSingle (p : Progress) : Async (Data W) Progress :=
  if sid ∈ p.completed then restoreStep sid p
  else do
    let run ← runRegistered runStep sid
    match run.result with
    | .error e => return p.raise run e
    | .ok result => x.settle sid run result p

def memberResult (sid : String) (run : StepRun) : StepResult :=
  match run.result with
  | .ok result => result
  | .error e => { stepId := sid, status := .failed, error := some e.message }

def settleAll : List (String × StepRun) → Progress → Async (Data W) Progress
  | [], p => pure p
  | (sid, run) :: rest, p => do
    let p ← x.settle sid run (memberResult sid run) p
    settleAll rest p

def restoreAll : List String → Progress → Async (Data W) Progress
  | [], p => pure p
  | sid :: rest, p => do
    let p ← restoreStep sid p
    restoreAll rest p

def runGathered (runStep : WorkflowStep → Async (Data W) StepRun) (group : List String)
    (p : Progress) : Async (Data W) Progress := do
  let groupToRun := group.filter fun sid => decide (sid ∉ p.completed)
  let p ← restoreAll (group.filter fun sid => decide (sid ∈ p.completed)) p
  let runs ← Async.gather (x.services.schedule groupToRun)
    (groupToRun.map (runRegistered runStep))
  x.settleAll (groupToRun.zip runs) p

def runGroup (runStep : WorkflowStep → Async (Data W) StepRun) (group : List String)
    (p : Progress) : Async (Data W) Progress :=
  match group with
  | [sid] => x.runSingle runStep sid p
  | group => x.runGathered runStep group p

def runGroups (runStep : WorkflowStep → Async (Data W) StepRun) :
    List (List String) → Progress → Async (Data W) Progress
  | [], p => pure p
  | group :: rest, p => do
    let p ← x.runGroup runStep group p
    if p.raised.isSome then return p
    else if p.failed = true ∧ x.definition.execution.failFast = true then return p
    else runGroups runStep rest p

def parallelGroups (steps : List WorkflowStep) : Except CycleDetectedError (List (List String)) :=
  (DAGBuilder.init steps).build.map fun b => b.groups.getD []

def runSteps (runStep : WorkflowStep → Async (Data W) StepRun) (p : Progress) :
    Async (Data W) Progress :=
  match x.definition.execution.mode with
  | .sequential => x.runSequential runStep x.definition.steps p
  | _ =>
    match parallelGroups x.definition.steps with
    | .error e =>
      pure { p with
        failed := true, errorMessage := some e.message, raised := some { message := e.message } }
    | .ok groups => x.runGroups runStep groups p

def finalStatus (p : Progress) : WorkflowStatus :=
  if p.failed then
    if p.stepResults.any fun r => decide (r.status = .success) then .partly else .failed
  else .success

def finalOutputs (results : List StepResult) : Outputs :=
  results.foldl (fun outputs r =>
    if r.status = .success ∨ r.status = .skipped then outputs.update r.outputs else outputs)
    Dict.empty

def workflowResult (p : Progress) : WorkflowResult where
  outputs := finalOutputs p.stepResults
  stepsExecuted := p.stepsExecuted
  stepResults := p.stepResults
  status := finalStatus p

def executeWith (runStep : WorkflowStep → Async (Data W) StepRun) (inputs : Outputs) :
    Async (Shared W) WorkflowRun := do
  let shared ← Async.read
  let (state, completed) := x.loadCheckpointState inputs shared.2
  let (p, scope) ← Async.withLocal (x.runSteps runStep { completed })
    { state, steps := Dict.ofList (x.definition.steps.map fun s => (s.id, s)) }
  return {
    result := workflowResult p
    state := scope.state
    runs := p.runs
    raised := p.raised }

end WorkflowExecutor

def executeStep : ℕ → WorkflowExecutor W → WorkflowStep → Async (Data W) StepRun
  | 0, _, step => pure { step, result := fail "maximum recursion depth exceeded" }
  | n + 1, x, step =>
    x.runStepWith (x.dispatchAction (executeStep n x)
      fun nested => nested.executeWith (executeStep n nested)) step

def WorkflowExecutor.execute (x : WorkflowExecutor W) (inputs : Outputs) :
    Async (Shared W) WorkflowRun :=
  x.executeWith (executeStep x.services.recursionLimit x) inputs

end Agent33.Workflows.Executor

/-!
## Plain services

Services without hooks, whose template engine looks names up in the context and
whose actions return their inputs or fail as their command says.
-/

namespace Agent33.Workflows.Executor

open Library Workflows.Definition Workflows.Expressions

def plainJinja : Jinja where
  render source _ := .ok source
  compute expression context :=
    if expression = "true" then .ok (.bool true)
    else if expression = "boom" then .error { message := "boom" }
    else .ok (context.getD expression .null)

def plainActions : Actions PUnit where
  invokeAgent _ inputs _ := pure (.ok inputs)
  runCommand command inputs _ _ :=
    pure (if command = some "false" then .error { message := "exit code 1" } else .ok inputs)
  validate inputs _ := pure (.ok inputs)
  transform inputs _ := pure (.ok inputs)
  wait inputs _ _ _ _ := pure (.ok inputs)
  executeCode _ _ inputs _ _ := pure (.ok inputs)
  httpRequest _ _ _ _ _ inputs _ := pure (.ok inputs)
  route _ _ _ inputs _ := pure (.ok inputs)
  groupChat _ := pure (.ok Dict.empty)

def plainServices : Services PUnit where
  jinja := plainJinja
  actions := plainActions
  parseDefinition _ := .error { message := "no sub-workflows" }
  schedule _ _ _ := true
  expires _ _ := none
  elapsedMs _ _ := .int 0
  recursionLimit := 10

def plainExecutor (definition : WorkflowDefinition) (runId : String) : WorkflowExecutor PUnit :=
  WorkflowExecutor.create plainServices definition (some runId) 0

end Agent33.Workflows.Executor
