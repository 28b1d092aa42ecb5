import Agent33.Library.Dict
import Agent33.Library.Json
import Agent33.Library.Text
import Mathlib.Data.List.Dedup

/-!
# Expressions

The evaluation of the conditions and the inputs of steps. The template engine
is outside of the model: it renders a template and computes the value of an
expression over a context, or raises.
-/

namespace Agent33.Workflows.Expressions

open Library

structure Raised where
  message : String
  isTimeout : Bool := false
  deriving DecidableEq

abbrev Context := Dict String Json

/-- `SandboxedEnvironment`: `from_string(source).render(**context)` and
`compile_expression(source)(**context)`. -/
structure Jinja where
  render : String → Context → Except Raised String
  compute : String → Context → Except Raised Json

def isTemplate (text : String) : Bool :=
  Text.includes text.toList "\x7b\x7b".toList || Text.includes text.toList "\x7b%".toList

namespace Jinja

variable (jinja : Jinja)

def evaluate (expression : String) (context : Context) : Except Raised Json :=
  let stripped := String.ofList (Text.strip expression.toList)
  if isTemplate stripped then (jinja.render stripped context).map .str
  else jinja.compute stripped context

def evaluateCondition (condition : String) (context : Context) : Except Raised Bool :=
  (jinja.evaluate condition context).map Json.truthy

def resolveItem (context : Context) : Json → Except Raised Json
  | .str text => jinja.evaluate text context
  | value => .ok value

mutual
def resolveValue (context : Context) : Json → Except Raised Json
  | .str text => jinja.evaluate text context
  | .obj fields => (resolveInputs context fields).map .obj
  | .arr items => (items.mapM (jinja.resolveItem context)).map .arr
  | value => .ok value

def resolveInputs (context : Context) : List (String × Json) →
    Except Raised (List (String × Json))
  | [] => .ok []
  | (key, value) :: rest => do
    let value ← resolveValue context value
    let rest ← resolveInputs context rest
    return (key, value) :: rest
end

mutual
def resolveAgentValue (context : Context) : Json → Except Raised Json
  | .str text =>
    if isTemplate text then (jinja.render text context).map .str else .ok (.str text)
  | .obj fields => (resolveAgentFields context fields).map .obj
  | .arr items => (resolveAgentItems context items).map .arr
  | value => .ok value

def resolveAgentFields (context : Context) : List (String × Json) →
    Except Raised (List (String × Json))
  | [] => .ok []
  | (key, value) :: rest => do
    let value ← resolveAgentValue context value
    let rest ← resolveAgentFields context rest
    return (key, value) :: rest

def resolveAgentItems (context : Context) : List Json → Except Raised (List Json)
  | [] => .ok []
  | value :: rest => do
    let value ← resolveAgentValue context value
    let rest ← resolveAgentItems context rest
    return value :: rest
end

end Jinja

end Agent33.Workflows.Expressions

/-!
## Checkpoints

The rows of the checkpoint table in the order in which they were written, with
states that survive their encoding. The row with the latest time is the last one.
-/

namespace Agent33.Workflows.Checkpoint

open Library

structure WorkflowCheckpoint where
  workflowId : String
  stepId : String
  state : Dict String Json
  deriving DecidableEq

def saveCheckpoint (workflowId stepId : String) (state : Dict String Json)
    (rows : List WorkflowCheckpoint) : List WorkflowCheckpoint :=
  rows ++ [⟨workflowId, stepId, state⟩]

def loadCheckpoint (workflowId : String) (rows : List WorkflowCheckpoint) :
    Option (Dict String Json) :=
  (rows.reverse.find? fun row => decide (row.workflowId = workflowId)).map (·.state)

theorem loadCheckpoint_save_self (workflowId stepId : String) (state : Dict String Json)
    (rows : List WorkflowCheckpoint) :
    loadCheckpoint workflowId (saveCheckpoint workflowId stepId state rows) = some state := by
  simp [loadCheckpoint, saveCheckpoint]

theorem loadCheckpoint_append {rows rows' : List WorkflowCheckpoint}
    (h : ∀ row ∈ rows', row.workflowId ≠ workflowId) :
    loadCheckpoint workflowId (rows ++ rows') = loadCheckpoint workflowId rows := by
  have hnone : rows'.reverse.find? (fun row => decide (row.workflowId = workflowId)) = none := by
    rw [List.find?_eq_none]
    intro row hrow
    simpa using h row (List.mem_reverse.mp hrow)
  rw [loadCheckpoint, loadCheckpoint, List.reverse_append, List.find?_append, hnone,
    Option.none_or]

end Agent33.Workflows.Checkpoint

/-!
## Workflow definitions

The steps of a workflow, its execution settings, and the two validators that
`WorkflowDefinition` runs on its steps. A definition carries what they
establish, so that the executor only ever sees lists of steps with unique ids
and known dependencies.
-/

namespace Agent33.Workflows.Definition

open Library (Json)

inductive StepAction
  | invokeAgent
  | runCommand
  | validate
  | transform
  | conditional
  | parallelGroup
  | wait
  | executeCode
  | httpRequest
  | subWorkflow
  | route
  | groupChat
  deriving DecidableEq

inductive ExecutionMode
  | sequential
  | parallel
  | dependencyAware
  deriving DecidableEq

structure StepRetry where
  maxAttempts : ℕ := 1
  delaySeconds : ℕ := 1

/-- A single step. The fields after `elseSteps` only reach the action handlers. -/
structure WorkflowStep where
  id : String
  action : StepAction
  inputs : List (String × Json) := []
  condition : Option String := none
  dependsOn : List String := []
  retry : StepRetry := {}
  timeoutSeconds : Option ℕ := none
  steps : List WorkflowStep := []
  thenSteps : List WorkflowStep := []
  elseSteps : List WorkflowStep := []
  agent : Option String := none
  command : Option String := none
  durationSeconds : Option Int := none
  waitCondition : Option String := none
  toolId : Option String := none
  adapterId : Option String := none
  sandbox : Option Json := none
  url : Option String := none
  httpMethod : String := "GET"
  httpHeaders : Option Json := none
  httpBody : Option Json := none
  subWorkflow : Option Json := none
  query : Option String := none
  routeCandidates : Option (List String) := none
  routeModel : String := "llama3.2"
  groupChat : Option Json := none

structure WorkflowExecution where
  mode : ExecutionMode := .sequential
  parallelLimit : ℕ := 4
  continueOnError : Bool := false
  failFast : Bool := true
  dryRun : Bool := false

inductive ValidationError
  | duplicateStepIds (ids : List String)
  | unknownDependency (stepId dep : String)
  | noSteps

variable (steps : List WorkflowStep)

def stepIds : List String := steps.map WorkflowStep.id

def UniqueStepIds : Prop := (stepIds steps).Nodup

instance (steps : List WorkflowStep) : Decidable (UniqueStepIds steps) :=
  inferInstanceAs (Decidable (stepIds steps).Nodup)

def KnownDependencies : Prop :=
  ∀ s ∈ steps, ∀ dep ∈ s.dependsOn, dep ∈ stepIds steps

instance (steps : List WorkflowStep) : Decidable (KnownDependencies steps) :=
  inferInstanceAs (Decidable (∀ s ∈ steps, ∀ dep ∈ s.dependsOn, dep ∈ stepIds steps))

def validateUniqueStepIds : Except ValidationError (List WorkflowStep) :=
  let ids := stepIds steps
  if ids.length ≠ ids.dedup.length then
    .error (.duplicateStepIds (ids.filter (fun sid => decide (1 < ids.count sid))).dedup)
  else .ok steps

def firstUnknownDependency (ids : List String) :
    List WorkflowStep → Option (String × String)
  | [] => none
  | s :: rest =>
    match s.dependsOn.find? (fun dep => decide (dep ∉ ids)) with
    | some dep => some (s.id, dep)
    | none => firstUnknownDependency ids rest

def validateDependsOnReferences : Except ValidationError (List WorkflowStep) :=
  match firstUnknownDependency (stepIds steps) steps with
  | some (stepId, dep) => .error (.unknownDependency stepId dep)
  | none => .ok steps

theorem validateUniqueStepIds_eq_ok {steps steps' : List WorkflowStep} :
    validateUniqueStepIds steps = .ok steps' ↔ steps = steps' ∧ UniqueStepIds steps := by
  have hlen : (stepIds steps).length = (stepIds steps).dedup.length ↔ UniqueStepIds steps := by
    constructor
    · intro h
      exact List.dedup_eq_self.mp ((List.dedup_sublist _).eq_of_length h.symm)
    · intro h
      rw [List.dedup_eq_self.mpr h]
  rw [← hlen]
  simp only [validateUniqueStepIds]
  split_ifs with h <;> simp_all

theorem firstUnknownDependency_eq_none {ids : List String} {steps : List WorkflowStep} :
    firstUnknownDependency ids steps = none ↔ ∀ s ∈ steps, ∀ dep ∈ s.dependsOn, dep ∈ ids := by
  induction steps with
  | nil => simp [firstUnknownDependency]
  | cons s rest ih =>
    rw [firstUnknownDependency, List.forall_mem_cons, ← ih]
    cases hf : s.dependsOn.find? (fun dep => decide (dep ∉ ids)) with
    | none =>
      have hall : ∀ dep ∈ s.dependsOn, dep ∈ ids := by simpa using hf
      exact ⟨fun h => ⟨hall, h⟩, fun h => h.2⟩
    | some dep =>
      have hdep := List.find?_some hf
      have hmem := List.mem_of_find?_eq_some hf
      simp only [decide_eq_true_eq] at hdep
      simp only [reduceCtorEq, false_iff, not_and]
      exact fun h => absurd (h dep hmem) hdep

theorem validateDependsOnReferences_eq_ok {steps steps' : List WorkflowStep} :
    validateDependsOnReferences steps = .ok steps' ↔ steps = steps' ∧ KnownDependencies steps := by
  rw [KnownDependencies, ← firstUnknownDependency_eq_none, validateDependsOnReferences]
  cases firstUnknownDependency (stepIds steps) steps <;> simp

structure WorkflowDefinition where
  name : String
  steps : List WorkflowStep
  execution : WorkflowExecution := {}
  nonempty : steps ≠ []
  uniqueStepIds : UniqueStepIds steps
  knownDependencies : KnownDependencies steps

/-- Pydantic runs the length check of the field first, then the validators in
the order in which they are declared. -/
def validateDefinition (name : String) (execution : WorkflowExecution)
    (steps : List WorkflowStep) : Except ValidationError WorkflowDefinition :=
  if hne : steps = [] then .error .noSteps
  else
    match hu : validateUniqueStepIds steps, hk : validateDependsOnReferences steps with
    | .error e, _ => .error e
    | .ok _, .error e => .error e
    | .ok _, .ok _ =>
      .ok {
        name := name
        steps := steps
        execution := execution
        nonempty := hne
        uniqueStepIds := (validateUniqueStepIds_eq_ok.mp hu).2
        knownDependencies := (validateDependsOnReferences_eq_ok.mp hk).2 }

end Agent33.Workflows.Definition
