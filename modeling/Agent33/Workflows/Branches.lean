import Agent33.Workflows.StepRuns

/-!
# The branches of a conditional step

The condition of a step is examined twice: before its execution, over the state, when the
step is skipped unless it is true, and in every attempt at its action, over the state and
the inputs of the step, to choose a branch. The first examination leaves the second nothing
but a true condition, so that the else branch only runs when the inputs, or what an earlier
attempt has changed, make it false in between.
-/

namespace Agent33.Workflows.Executor

open Library Library.Async Workflows.Definition Workflows.Expressions List

variable {W : Type}

def branchRuns (runStep : WorkflowStep → Async (Data W) StepRun) (steps : List WorkflowStep)
    (d : Data W) : List StepRun :=
  ((runBranch runStep steps Dict.empty).run d).1.2

def Returns (runStep : WorkflowStep → Async (Data W) StepRun) (steps : List WorkflowStep)
    (d : Data W) : Prop :=
  ∀ run ∈ branchRuns runStep steps d, ∃ result, run.result = .ok result

variable {runStep : WorkflowStep → Async (Data W) StepRun}

theorem runBranch_runs (steps : List WorkflowStep) (outputs : Outputs) (d : Data W) :
    ((runBranch runStep steps outputs).run d).1.2 = branchRuns runStep steps d := by
  rw [branchRuns]
  generalize Dict.empty = outputs'
  induction steps generalizing outputs outputs' d with
  | nil => rfl
  | cons step rest ih =>
    rw [runBranch, runBranch, run_bind, run_bind]
    cases ((runStep step).run d).1.result with
    | error e => rfl
    | ok result =>
      dsimp only
      rw [run_bind, run_bind, run_bind, run_bind]
      exact congrArg (((runStep step).run d).1 :: ·) (ih _ _ _)

theorem branchRuns_cons (step : WorkflowStep) (rest : List WorkflowStep) (d : Data W) :
    branchRuns runStep (step :: rest) d = ((runStep step).run d).1 ::
      (match ((runStep step).run d).1.result with
      | .error _ => []
      | .ok result => branchRuns runStep rest
          ((setState step.id result.outputs).run ((runStep step).run d).2).2) := by
  rw [branchRuns, runBranch, run_bind]
  cases ((runStep step).run d).1.result with
  | error e => rfl
  | ok result =>
    dsimp only
    rw [run_bind, run_bind, ← runBranch_runs]
    rfl

section

variable (hstep : ∀ step d, ((runStep step).run d).1.step = step) (steps : List WorkflowStep)
  (d : Data W)
include hstep steps d

theorem branchRuns_begins : (branchRuns runStep steps d).map (·.step) <+: steps := by
  induction steps generalizing d with
  | nil => exact prefix_refl _
  | cons step rest ih =>
    rw [branchRuns_cons, map_cons, hstep]
    refine (prefix_cons_inj step).mpr ?_
    cases ((runStep step).run d).1.result with
    | error e => exact nil_prefix
    | ok result => exact ih _

theorem branchRuns_eq_iff :
    (branchRuns runStep steps d).map (·.step) = steps ↔ Returns runStep steps.dropLast d := by
  induction steps generalizing d with
  | nil => exact ⟨fun _ => nofun, fun _ => rfl⟩
  | cons step rest ih =>
    rw [branchRuns_cons, map_cons, hstep]
    cases rest with
    | nil =>
      refine ⟨fun _ => nofun, fun _ => ?_⟩
      cases ((runStep step).run d).1.result with
      | error e => rfl
      | ok result => rfl
    | cons next rest =>
      rw [dropLast_cons_cons, Returns, branchRuns_cons, forall_mem_cons]
      cases hresult : ((runStep step).run d).1.result with
      | error e =>
        constructor
        · exact fun h => absurd (cons.inj h).2 (cons_ne_nil _ _).symm
        · rintro ⟨⟨result, hok⟩, -⟩
          cases hok
      | ok result =>
        dsimp only
        have hrest := ih ((setState step.id result.outputs).run ((runStep step).run d).2).2
        rw [Returns] at hrest
        constructor
        · exact fun h => ⟨⟨result, rfl⟩, hrest.mp (cons.inj h).2⟩
        · exact fun h => congrArg (step :: ·) (hrest.mpr h.2)

end

def RunsBranch (steps : List WorkflowStep) (run : StepRun) : Prop :=
  (∀ nested ∈ run.attempts.map (·.nested), nested.map (·.step) <+: steps) ∧
    (steps = [] ∨ ∃ nested ∈ run.attempts.map (·.nested), nested.map (·.step) = steps)

def ranBy (runStep : WorkflowStep → Async (Data W) StepRun) (step : WorkflowStep)
    (branch : Except Raised Bool) (d : Data W) : List StepRun :=
  match branch with
  | .error _ => []
  | .ok branch => branchRuns runStep (if branch then step.thenSteps else step.elseSteps) d

namespace WorkflowExecutor

variable (x : WorkflowExecutor W)

def Untimed (step : WorkflowStep) : Prop :=
  step.timeoutSeconds ≠ none → ∀ attempt, x.services.expires step attempt = none

def attemptStates (dispatch : Async (Data W) (Except Raised Outputs × List StepRun))
    (step : WorkflowStep) (inputs : Outputs) : ℕ → ℕ → Data W → List (Data W)
  | 0, _, _ => []
  | n + 1, made, d =>
    let (attempt, d') := (x.attemptStep dispatch step inputs (made + 1)).run d
    d :: match attempt.outcome with
      | .ok _ => []
      | .error _ => attemptStates dispatch step inputs n (made + 1) d'

variable {x}

variable {step : WorkflowStep} {condition : String}

section

variable (h : x.Untimed step) (dispatch : Async (Data W) (Except Raised Outputs × List StepRun))
  (inputs : Outputs)
include h dispatch inputs

theorem attemptStep_nested (attempt : ℕ) (d : Data W) :
    ((x.attemptStep dispatch step inputs attempt).run d).1.nested = (dispatch.run d).1.2 := by
  have hwithin : (x.dispatchWithin dispatch step attempt).run d = dispatch.run d := by
    rw [dispatchWithin]
    cases htimeout : step.timeoutSeconds with
    | none => rfl
    | some seconds =>
      dsimp only
      rw [run_bind, h (by rw [htimeout]; exact Option.some_ne_none _), run_within_none]
      rfl
  rw [attemptStep, run_bind, hwithin]
  generalize dispatch.run d = dispatched
  obtain ⟨⟨outcome, nested⟩, d'⟩ := dispatched
  cases outcome with
  | error e => rfl
  | ok outputs =>
    dsimp only
    rw [run_bind]
    cases ((x.postHook step inputs
      { stepId := step.id, status := .success, outputs }).run d').1 with
    | error e => rfl
    | ok _ => rfl

theorem attempts_nested (n : ℕ)
    (error : Option String) (made : List (Attempt StepRun)) (d : Data W) :
    ((x.attempts dispatch step inputs n error made).run d).1.attempts.map (·.nested) =
      made.map (·.nested) ++
        (x.attemptStates dispatch step inputs n made.length d).map
          fun s => (dispatch.run s).1.2 := by
  induction n generalizing error made d with
  | zero => exact (append_nil _).symm
  | succ n ih =>
    have hnested := attemptStep_nested h dispatch inputs (made.length + 1) d
    rw [attempts, attemptStates, run_bind]
    generalize (x.attemptStep dispatch step inputs (made.length + 1)).run d = attempted at hnested
    obtain ⟨attempt, d'⟩ := attempted
    dsimp only at hnested ⊢
    rw [map_cons, ← hnested]
    cases attempt.outcome with
    | ok outputs =>
      dsimp only
      rw [run_pure, map_append]
      rfl
    | error e =>
      dsimp only
      have hlength : (made ++ [attempt]).length = made.length + 1 := by simp
      have hrest := ih (some (lastError step e)) (made ++ [attempt]) d'
      rw [hlength, map_append, append_assoc] at hrest
      split_ifs
      · rw [run_bind, run_yield]
        exact hrest
      · rw [run_bind]
        exact hrest

end

def chosen (x : WorkflowExecutor W) (condition : String) (inputs : Outputs) (d : Data W) :
    Except Raised Bool :=
  if x.definition.execution.dryRun then .ok true
  else x.services.jinja.evaluateCondition condition (d.2.state.update inputs)

theorem dispatchAction_nested (haction : step.action = .conditional)
    (hcondition : step.condition = some condition) (hne : condition ≠ "")
    (runStep : WorkflowStep → Async (Data W) StepRun)
    (runWorkflow : WorkflowExecutor W → Outputs → Async (Shared W) WorkflowRun) (inputs : Outputs)
    (d : Data W) : ((x.dispatchAction runStep runWorkflow step inputs).run d).1.2 =
      ranBy runStep step (x.chosen condition inputs d) d := by
  rw [dispatchAction, haction]
  dsimp only
  rw [run_bind, run_read, hcondition, chosen]
  simp only [conditionalExecute, if_neg hne]
  cases x.definition.execution.dryRun with
  | true => exact runBranch_runs _ _ _
  | false =>
    rw [if_neg Bool.false_ne_true, if_neg Bool.false_ne_true]
    cases x.services.jinja.evaluateCondition condition (d.2.state.update inputs) with
    | error e => rfl
    | ok branch =>
      cases branch with
      | true => exact runBranch_runs _ _ _
      | false => exact runBranch_runs _ _ _

/-- The inputs with which the attempts at a step are made, and the data that they find: none
when an input does not evaluate, or when the hook before the step raises or aborts. -/
def actionStates : ℕ → WorkflowExecutor W → WorkflowStep → Data W → List (Outputs × Data W)
  | 0, _, _, _ => []
  | n + 1, x, step, d =>
    match x.resolveStepInputs step d.2.state with
    | .error _ => []
    | .ok inputs =>
      match (x.preHook step inputs d.2.state).run d with
      | (.error _, _) => []
      | (.ok outcome, d') =>
        if outcome.abort then []
        else
          (x.attemptStates (x.dispatchAction (executeStep n x)
            (fun nested => nested.executeWith (executeStep n nested)) step outcome.inputs) step
            outcome.inputs step.retry.maxAttempts 0 d').map fun d => (outcome.inputs, d)

theorem executeStep_nested (haction : step.action = .conditional)
    (hcondition : step.condition = some condition) (hne : condition ≠ "")
    (huntimed : x.Untimed step)
    (htrue : x.services.jinja.evaluateCondition condition d.2.state = .ok true) (n : ℕ) :
    ((executeStep n x step).run d).1.attempts.map (·.nested) =
      (actionStates n x step d).map fun s =>
        ranBy (executeStep (n - 1) x) step (x.chosen condition s.1 s.2) s.2 := by
  cases n with
  | zero => rfl
  | succ n =>
    have hshould : x.shouldRun step d.2.state = .ok true := by
      rw [shouldRun, hcondition]
      dsimp only
      rw [if_neg hne, htrue]
    rw [executeStep, runStepWith, run_bind, run_read, actionStates]
    dsimp only
    rw [hshould]
    dsimp only
    cases x.resolveStepInputs step d.2.state with
    | error e => rfl
    | ok inputs =>
      dsimp only
      rw [run_bind]
      generalize (x.preHook step inputs d.2.state).run d = hooked
      obtain ⟨outcome, d'⟩ := hooked
      cases outcome with
      | error e => rfl
      | ok outcome =>
        dsimp only
        split_ifs
        · rfl
        · rw [attempts_nested huntimed, map_nil, nil_append, length_nil,
            map_map]
          refine map_congr_left fun s _ => ?_
          exact dispatchAction_nested haction hcondition hne _ _ _ _

end WorkflowExecutor

open WorkflowExecutor

variable {x : WorkflowExecutor W} {step : WorkflowStep} {condition : String} {d : Data W}

theorem executeStep_of_false (hcondition : step.condition = some condition) (hne : condition ≠ "")
    (hfalse : x.services.jinja.evaluateCondition condition d.2.state = .ok false) (n : ℕ) :
    ((executeStep n x step).run d).1.attempts = [] := by
  cases n with
  | zero => rfl
  | succ n =>
    have hshould : x.shouldRun step d.2.state = .ok false := by
      rw [shouldRun, hcondition]
      dsimp only
      rw [if_neg hne, hfalse]
    rw [executeStep, runStepWith, run_bind, run_read]
    dsimp only
    rw [hshould]
    rfl

theorem not_prefix_of_disjoint {α : Type} {l m k : List α} (hne : l ≠ []) (hlk : l <+: k)
    (hdisjoint : ∀ a ∈ m, a ∉ k) : ¬l <+: m := by
  intro hlm
  obtain ⟨a, ha⟩ := exists_mem_of_ne_nil l hne
  exact hdisjoint a (hlm.subset ha) (hlk.subset ha)

section

variable (hstep : ∀ step d, ((runStep step).run d).1.step = step)
  (hdisjoint : ∀ s ∈ step.thenSteps, s ∉ step.elseSteps)
include hstep hdisjoint

theorem ranBy_prefix_iff (branch : Except Raised Bool)
    (d : Data W) :
    (ranBy runStep step branch d).map (·.step) <+: step.thenSteps ↔
      (branch = .ok false → step.elseSteps = []) := by
  match branch with
  | .error e => exact ⟨fun _ => nofun, fun _ => nil_prefix⟩
  | .ok true => exact ⟨fun _ => nofun, fun _ => branchRuns_begins hstep _ _⟩
  | .ok false =>
    constructor
    · intro hthen _
      by_contra hsome
      obtain ⟨first, rest, helse⟩ := exists_cons_of_ne_nil hsome
      refine not_prefix_of_disjoint ?_ (branchRuns_begins hstep step.elseSteps d) hdisjoint hthen
      rw [helse, branchRuns_cons]
      exact cons_ne_nil _ _
    · intro helse
      rw [ranBy, if_neg Bool.false_ne_true, helse rfl]
      exact nil_prefix

theorem ranBy_eq_iff (hsome : step.thenSteps ≠ [])
    (branch : Except Raised Bool) (d : Data W) :
    (ranBy runStep step branch d).map (·.step) = step.thenSteps ↔
      branch = .ok true ∧ Returns runStep step.thenSteps.dropLast d := by
  match branch with
  | .error e => exact ⟨fun h => absurd h.symm hsome, nofun⟩
  | .ok true => exact (branchRuns_eq_iff hstep _ _).trans ⟨fun h => ⟨rfl, h⟩, And.right⟩
  | .ok false =>
    refine ⟨fun hthen => ?_, nofun⟩
    have hbegins := branchRuns_begins hstep step.elseSteps d
    have hthen : (branchRuns runStep step.elseSteps d).map (·.step) = step.thenSteps := hthen
    rw [hthen] at hbegins
    exact absurd (prefix_refl _) (not_prefix_of_disjoint hsome hbegins hdisjoint)

end

def gate : WorkflowStep where
  id := "gate"
  action := .conditional
  condition := some "flag"
  thenSteps := [{ id := "yes", action := .transform }]
  elseSteps := [{ id := "no", action := .transform }]

def gated : WorkflowDefinition where
  name := "gated"
  steps := [gate]
  nonempty := nofun
  uniqueStepIds := by decide
  knownDependencies := by decide

def withFlag (flag : Bool) : Data PUnit :=
  ((⟨⟩, []), { state := Dict.ofList [("flag", .bool flag)], steps := Dict.empty })

def shadowedGate : WorkflowStep := { gate with inputs := [("flag", .null)] }

end Agent33.Workflows.Executor
