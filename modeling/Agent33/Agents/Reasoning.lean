import Agent33.Agents.ToolLoop
import Agent33.Library.Loop
import Mathlib.Tactic.NormNum

/-!
# The reasoning protocol

The protocol goes through the phases observe, plan, execute, verify and learn, and
records a step for each. A phase may fail and is tried again; the loop skips phases
that are not enabled, starts again from the first one and ends with a result. What
the phases ask of the model, the tool loop, the criteria and the stuck detector
comes in as functions on a world.
-/

namespace Agent33.Agents.Reasoning

open Library Llm

inductive NextAction
  | proceed
  | validate
  | finalAnswer
  | reset
  deriving DecidableEq

/-- `CONTINUE` is a word of the language. -/
def NextAction.value : NextAction → Text
  | .proceed => "continue".toList
  | .validate => "validate".toList
  | .finalAnswer => "final_answer".toList
  | .reset => "reset".toList

inductive ReasoningPhase
  | observe
  | plan
  | execute
  | verify
  | learn
  deriving DecidableEq

def ReasoningPhase.value : ReasoningPhase → Text
  | .observe => "observe".toList
  | .plan => "plan".toList
  | .execute => "execute".toList
  | .verify => "verify".toList
  | .learn => "learn".toList

structure GuardrailResult where
  success : Bool
  criterionName : Text := []

structure ObserveArtifact where
  observations : List Text
  constraints : List Text
  antiCriteria : List Text

structure PlanArtifact where
  planSteps : List Text
  approach : Text
  estimatedSteps : ℕ

structure ExecuteArtifact where
  toolLoopResult : ToolLoopResult
  rawOutput : Text

structure VerifyArtifact where
  iscResults : List GuardrailResult
  allPassed : Bool
  failedCriteria : List Text

structure LearnArtifact where
  lessons : List Text
  recommendations : List Text
  confidenceDelta : ℚ

structure RecoveryEvent where
  phase : ReasoningPhase
  attempts : ℕ

structure Degradation where
  phase : ReasoningPhase
  attempts : ℕ
  error : Text
  failClosed : Bool

structure StuckDetection where
  pattern : Text
  reason : Text
  windowSize : ℤ
  evidence : Json

structure StuckMetadata where
  detection : StuckDetection
  phase : ReasoningPhase
  nextAction : NextAction
  stepIndex : ℕ
  totalStepsSeen : ℕ

/-- The entries of `phase_artifacts`. -/
structure PhaseArtifacts where
  observe : Option ObserveArtifact := none
  plan : Option PlanArtifact := none
  execute : Option ExecuteArtifact := none
  verify : Option VerifyArtifact := none
  learn : Option LearnArtifact := none
  recoveryEvents : List RecoveryEvent := []
  degradation : Option Degradation := none
  stuckDetector : Option StuckMetadata := none

structure ReasoningStep where
  title : Text
  action : Text
  result : Text
  reasoning : Text
  nextAction : NextAction
  confidence : ℚ
  phase : ReasoningPhase
  confidence_nonneg : 0 ≤ confidence
  confidence_le_one : confidence ≤ 1

inductive Outcome
  | executed (output : Text)
  | verified (passed : Bool)
  | other

structure RecordedStep where
  step : ReasoningStep
  outcome : Outcome

structure ReasoningConfig where
  maxSteps : ℤ := 25
  qualityGateThreshold : ℚ := 7 / 10
  enableAntiCriteria : Bool := true
  phasesEnabled : List ReasoningPhase := [.observe, .plan, .execute, .verify, .learn]
  phaseDispatchMaxRetries : ℤ := 1
  enableGracefulDegradation : Bool := true
  degradedStepConfidence : ℚ := 8 / 10

structure ReasoningState where
  currentPhase : ReasoningPhase := .observe
  steps : List RecordedStep := []
  currentStepIndex : ℕ := 0
  phaseArtifacts : PhaseArtifacts := {}
  validated : Bool := false
  resetCount : ℕ := 0

inductive TerminationReason
  | completed
  | maxStepsExceeded
  | maxResetsExceeded
  | stuckDetected
  | degradedPhaseDispatchFailure

structure ReasoningResult where
  steps : List RecordedStep
  finalOutput : Text
  phaseArtifacts : PhaseArtifacts
  terminationReason : TerminationReason
  totalSteps : ℕ

def nextPhase : ReasoningPhase → Option ReasoningPhase
  | .observe => some .plan
  | .plan => some .execute
  | .execute => some .verify
  | .verify => some .learn
  | .learn => none

def validActions : ReasoningPhase → List NextAction
  | .observe => [.proceed, .reset]
  | .plan => [.proceed, .reset]
  | .execute => [.proceed, .validate, .reset]
  | .verify => [.validate, .reset, .proceed]
  | .learn => [.finalAnswer, .reset]

def maxResets : ℕ := 3

inductive ReasoningError
  | phase (text : Text)
  | validationError (confidence : ℚ)

def ReasoningError.text : ReasoningError → Text
  | .phase text => text
  | .validationError _ => "1 validation error for ReasoningStep".toList

structure ReasoningInput where
  taskInput : Text
  model : Text
  temperature : ℚ := 7 / 10
  maxTokens : Option ℤ := none
  systemPrompt : Text := []

structure Ports (W : Type) where
  complete : List ChatMessage → ReasoningInput → W → Except Text LLMResponse × W
  toolLoop : List ChatMessage → ReasoningInput → W → Except Text ToolLoopResult × W

structure ReasoningProtocol (W : Type) where
  config : ReasoningConfig := {}
  ports : Ports W
  iscManager : Option (Text → PhaseArtifacts → Bool → W → Except Text (List GuardrailResult) × W) :=
    none
  stuckDetector : Option (List ReasoningStep → PhaseArtifacts → ReasoningPhase → NextAction → W →
    Except Text (Option StuckDetection) × W) := none

structure ReasoningData (W : Type) where
  state : ReasoningState := {}
  world : W

abbrev ReasoningM (W : Type) := EStateM ReasoningError (ReasoningData W)

section Phases

variable {W : Type}

def modifyState (f : ReasoningState → ReasoningState) : ReasoningM W Unit :=
  modify fun d => { d with state := f d.state }

def modifyArtifacts (f : PhaseArtifacts → PhaseArtifacts) : ReasoningM W Unit :=
  modifyState fun s => { s with phaseArtifacts := f s.phaseArtifacts }

def callPort {α : Type} (port : W → Except Text α × W) : ReasoningM W α := do
  let (answer, world) := port (← get).world
  modify fun d => { d with world }
  match answer with
  | .ok a => pure a
  | .error text => throw (.phase text)

variable (protocol : ReasoningProtocol W) (input : ReasoningInput)

def phaseObserve : ReasoningM W (RecordedStep × NextAction) := do
  let prompt := input.systemPrompt ++ "\n\n".toList ++
    ("You are in the OBSERVE phase. Analyze the task and identify:\n" ++
      "1. Key observations about the task\n" ++
      "2. Constraints that must be satisfied\n" ++
      "3. Anti-criteria (things that should NOT happen)\n\n" ++ "Task: ").toList ++
    input.taskInput ++ "\n\n".toList ++
    "Respond with your observations, constraints, and anti-criteria.".toList
  let response ← callPort
    (protocol.ports.complete [.say .system prompt, .say .user input.taskInput] input)
  modifyArtifacts fun a =>
    { a with
      observe := some
        { observations := [response.content.take 500], constraints := [], antiCriteria := [] } }
  return (
    { step :=
        { title := "Observation".toList
          action := "observe".toList
          result := response.content.take 500
          reasoning := "Analyzed task requirements and constraints".toList
          nextAction := .proceed
          confidence := 8 / 10
          phase := .observe
          confidence_nonneg := by norm_num
          confidence_le_one := by norm_num }
      outcome := .other }, .proceed)

def phasePlan : ReasoningM W (RecordedStep × NextAction) := do
  let obsContext := match (← get).state.phaseArtifacts.observe with
    | none => []
    | some artifact => Text.joinWith ['\n'] artifact.observations
  let prompt := input.systemPrompt ++ "\n\n".toList ++
    ("You are in the PLAN phase. Based on observations, create an execution plan.\n\n" ++
      "Observations: ").toList ++ obsContext ++ "\nTask: ".toList ++ input.taskInput ++
    "\n\n".toList ++ "Respond with your plan steps and approach.".toList
  let response ← callPort
    (protocol.ports.complete [.say .system prompt, .say .user input.taskInput] input)
  modifyArtifacts fun a =>
    { a with
      plan := some
        { planSteps := [response.content.take 500]
          approach := "structured".toList
          estimatedSteps := 3 } }
  return (
    { step :=
        { title := "Planning".toList
          action := "plan".toList
          result := response.content.take 500
          reasoning := "Created execution plan based on observations".toList
          nextAction := .proceed
          confidence := 8 / 10
          phase := .plan
          confidence_nonneg := by norm_num
          confidence_le_one := by norm_num }
      outcome := .other }, .proceed)

def phaseExecute : ReasoningM W (RecordedStep × NextAction) := do
  let loopResult ← callPort (protocol.ports.toolLoop
    [.say .system input.systemPrompt, .say .user input.taskInput] input)
  modifyArtifacts fun a =>
    { a with execute := some ⟨loopResult, loopResult.rawResponse⟩ }
  return (
    { step :=
        { title := "Execution".toList
          action := "execute".toList
          result := loopResult.rawResponse.take 500
          reasoning := "Executed via tool loop (".toList ++
            (toString loopResult.iterations).toList ++ " iterations)".toList
          nextAction := .validate
          confidence := 8 / 10
          phase := .execute
          confidence_nonneg := by norm_num
          confidence_le_one := by norm_num }
      outcome := .executed loopResult.rawResponse }, .validate)

def verifyStep (title result reasoning : Text) (nextAction : NextAction) (confidence : ℚ)
    (passed : Bool) (hnonneg : 0 ≤ confidence) (hle : confidence ≤ 1) : RecordedStep where
  step :=
    { title, result, reasoning, nextAction, confidence
      action := "verify".toList
      phase := .verify
      confidence_nonneg := hnonneg
      confidence_le_one := hle }
  outcome := .verified passed

def phaseVerify : ReasoningM W (RecordedStep × NextAction) := do
  match protocol.iscManager with
  | none =>
    modifyState fun s => { s with validated := true }
    return (verifyStep "Verification (no ISC)".toList
      "No criteria configured — auto-passed".toList
      "ISC manager not configured, skipping verification".toList .proceed (9 / 10) true
      (by norm_num) (by norm_num), .proceed)
  | some evaluateAll =>
    let artifacts := (← get).state.phaseArtifacts
    let results ← callPort
      (evaluateAll input.taskInput artifacts protocol.config.enableAntiCriteria)
    let allPassed := results.all GuardrailResult.success
    let failed := (results.filter fun r => !r.success).map GuardrailResult.criterionName
    modifyArtifacts fun a =>
      { a with
        verify := some { iscResults := results, allPassed, failedCriteria := failed } }
    modifyState fun s => { s with validated := allPassed }
    if allPassed then
      return (verifyStep "Verification passed".toList
        ("All ".toList ++ Text.ofNat results.length ++ " criteria passed".toList)
        "All ISC criteria satisfied".toList .proceed (95 / 100) true
        (by norm_num) (by norm_num), .proceed)
    else
      return (verifyStep "Verification failed".toList
        ("Failed: ".toList ++ Text.joinWith ", ".toList failed)
        (Text.ofNat failed.length ++ " criteria failed verification".toList) .reset (3 / 10) false
        (by norm_num) (by norm_num), .reset)

def phaseLearn : ReasoningM W (RecordedStep × NextAction) := do
  let executeResult := match (← get).state.phaseArtifacts.execute with
    | none => []
    | some artifact => artifact.rawOutput.take 500
  let prompt := input.systemPrompt ++ "\n\n".toList ++
    "You are in the LEARN phase. Reflect on the execution result:\n\nTask: ".toList ++
    input.taskInput ++ "\nExecution result: ".toList ++ executeResult ++
    "\n\nProvide lessons learned and recommendations.".toList
  let response ← callPort (protocol.ports.complete
    [.say .system prompt, .say .user "Summarize lessons learned.".toList] input)
  modifyArtifacts fun a =>
    { a with
      learn := some
        { lessons := [response.content.take 300], recommendations := [], confidenceDelta := 0 } }
  let nextAction := if (← get).state.validated then .finalAnswer else .reset
  return (
    { step :=
        { title := "Learning".toList
          action := "learn".toList
          result := response.content.take 500
          reasoning := "Reflected on execution and extracted lessons".toList
          nextAction
          confidence := 85 / 100
          phase := .learn
          confidence_nonneg := by norm_num
          confidence_le_one := by norm_num }
      outcome := .other }, nextAction)

def dispatchPhase : ReasoningM W (RecordedStep × NextAction) := do
  match (← get).state.currentPhase with
  | .observe => phaseObserve protocol input
  | .plan => phasePlan protocol input
  | .execute => phaseExecute protocol input
  | .verify => phaseVerify protocol input
  | .learn => phaseLearn protocol input

/-- `try` around a computation: its exception is a value. -/
def attempted {α : Type} (x : ReasoningM W α) : ReasoningM W (Except ReasoningError α) :=
  tryCatch (do return .ok (← x)) fun e => pure (.error e)

def attempts : ℕ → ℕ → ReasoningM W (Except ReasoningError (RecordedStep × NextAction))
  | attempt, 0 => finish attempt
  | attempt, remaining + 1 => do
    match ← finish attempt with
    | .ok r => return .ok r
    | .error _ => attempts (attempt + 1) remaining
where
  finish (attempt : ℕ) : ReasoningM W (Except ReasoningError (RecordedStep × NextAction)) := do
    let r ← attempted (dispatchPhase protocol input)
    if 1 < attempt ∧ r.isOk then
      let phase := (← get).state.currentPhase
      modifyArtifacts fun a =>
        { a with recoveryEvents := a.recoveryEvents ++ [⟨phase, attempt⟩] }
    return r

def degradedConfidence (config : ReasoningConfig) : ℚ :=
  max config.degradedStepConfidence (min 1 (config.qualityGateThreshold + 1 / 100))

def degrade (totalAttempts : ℕ) (lastError : ReasoningError) :
    ReasoningM W (RecordedStep × NextAction × Option TerminationReason) := do
  let failurePhase := (← get).state.currentPhase
  let failClosed := decide (failurePhase = .verify)
  if failClosed then
    modifyState fun s => { s with validated := false }
  let degradedAction : NextAction := if failClosed then .reset else .proceed
  let confidence := degradedConfidence protocol.config
  modifyArtifacts fun a =>
    { a with
      degradation := some
        { phase := failurePhase
          attempts := totalAttempts
          error := lastError.text
          failClosed } }
  if h : 0 ≤ confidence ∧ confidence ≤ 1 then
    return (
      { step :=
          { title := "Degraded ".toList ++ failurePhase.value ++ " after dispatch failure".toList
            action := failurePhase.value
            result := "Phase dispatch failed after ".toList ++ Text.ofNat totalAttempts ++
              " attempts; terminating with graceful degradation".toList
            reasoning := "Retries exhausted during phase dispatch. Fail-closed=".toList ++
              (if failClosed then "True" else "False").toList ++ ".".toList
            nextAction := degradedAction
            confidence
            phase := failurePhase
            confidence_nonneg := h.1
            confidence_le_one := h.2 }
        outcome := .other }, degradedAction, some .degradedPhaseDispatchFailure)
  else throw (.validationError confidence)

def dispatchPhaseWithRecovery :
    ReasoningM W (RecordedStep × NextAction × Option TerminationReason) := do
  let retries := (max 0 protocol.config.phaseDispatchMaxRetries).toNat
  match ← attempts protocol input 1 retries with
  | .ok (step, action) => return (step, action, none)
  | .error lastError =>
    if protocol.config.enableGracefulDegradation then
      degrade protocol (retries + 1) lastError
    else throw lastError

def ReasoningState.extractOutput (state : ReasoningState) : Text :=
  match state.phaseArtifacts.execute with
  | none => []
  | some artifact => artifact.rawOutput

def buildResult (state : ReasoningState) (reason : TerminationReason) : ReasoningResult where
  steps := state.steps
  finalOutput := state.extractOutput
  phaseArtifacts := state.phaseArtifacts
  terminationReason := reason
  totalSteps := state.currentStepIndex

def stuck (action : NextAction) : ReasoningM W Bool := do
  match protocol.stuckDetector with
  | none => return false
  | some detect =>
    let state := (← get).state
    let detection ← attempted (callPort
      (detect (state.steps.map RecordedStep.step) state.phaseArtifacts state.currentPhase action))
    match detection with
    | .ok (some detection) =>
      modifyArtifacts fun a =>
        { a with
          stuckDetector := some
            { detection
              phase := state.currentPhase
              nextAction := action
              stepIndex := state.currentStepIndex
              totalStepsSeen := state.steps.length } }
      return true
    | _ => return false

def setPhase (phase : ReasoningPhase) : ReasoningM W Unit :=
  modifyState fun s => { s with currentPhase := phase }

def advance : ReasoningM W (Option ReasoningResult) := do
  setPhase ((nextPhase (← get).state.currentPhase).getD .observe)
  return none

def processAction : NextAction → ReasoningM W (Option ReasoningResult)
  | .reset => do
    modifyState fun s => { s with resetCount := s.resetCount + 1 }
    let state := (← get).state
    if maxResets < state.resetCount then return some (buildResult state .maxResetsExceeded)
    else
      modifyState fun s => { s with currentPhase := .observe, validated := false }
      return none
  | .validate => do
    setPhase .verify
    return none
  | .finalAnswer => do
    let state := (← get).state
    if state.currentPhase ≠ .learn ∨ state.validated = false then advance
    else return some (buildResult state .completed)
  | .proceed => advance

def afterStep (confidence : ℚ) (action : NextAction) :
    ReasoningM W (Option ReasoningResult) := do
  let phase := (← get).state.currentPhase
  let action := if action ∈ validActions phase then action else .proceed
  if ← stuck protocol action then
    return some (buildResult (← get).state .stuckDetected)
  else
    let action := if confidence < protocol.config.qualityGateThreshold then .reset else action
    processAction action

def recordStep (step : RecordedStep) : ReasoningM W Unit :=
  modifyState fun s =>
    { s with steps := s.steps ++ [step], currentStepIndex := s.currentStepIndex + 1 }

def turn : ReasoningM W (Option ReasoningResult) := do
  let state := (← get).state
  if (state.currentStepIndex : ℤ) < protocol.config.maxSteps then
    if state.currentPhase ∈ protocol.config.phasesEnabled then
      let (step, action, terminalReason) ← dispatchPhaseWithRecovery protocol input
      recordStep step
      match terminalReason with
      | some reason => return some (buildResult (← get).state reason)
      | none => afterStep protocol step.step.confidence action
    else
      match nextPhase state.currentPhase with
      | none => return some (buildResult state .maxStepsExceeded)
      | some phase =>
        setPhase phase
        return none
  else return some (buildResult state .maxStepsExceeded)

/-- `ReasoningProtocol.run`, with so many turns of its loop. -/
def run (turns : ℕ) (world : W) :
    EStateM.Result ReasoningError (ReasoningData W) (Option ReasoningResult) :=
  (Hoare.iterate (turn protocol input) turns).run { world }

end Phases

end Agent33.Agents.Reasoning
