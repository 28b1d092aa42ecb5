import Agent33.Workflows.Executor
import Mathlib.Order.CompletePartialOrder

/-!
# What a registry still has from before

A step looks steps up by their ids only after it has registered them, so that it does not
matter to an execution what the registry has for other ids. Two executions that begin with
the same state and the same table, and with registries that agree on some ids, go on alike,
and the registries agree on more and more ids.
-/

namespace Agent33.Workflows.Executor

open Library Library.Async Workflows.Definition Workflows.Expressions Workflows.Checkpoint List

variable {W : Type}

structure Agrees (ids : Set String) (d d' : Data W) : Prop where
  shared : d.1 = d'.1
  state : d.2.state = d'.2.state
  registry : ∀ sid ∈ ids, d.2.steps.get? sid = d'.2.steps.get? sid

abbrev Same {α : Type} (ids : Set String) (c : Async (Data W) α) : Prop := Alike Agrees ids c c

namespace Same

variable {ids : Set String}

theorem bind {α β : Type} {c : Async (Data W) α} {g : α → Async (Data W) β} (hc : Same ids c)
    (hg : ∀ more a, ids ≤ more → Same more (g a)) : Same ids (c >>= g) :=
  Alike.bind hc hg

theorem pure {α : Type} (a : α) : Same ids (Pure.pure a : Async (Data W) α) := alike_pure a

theorem lift {α : Type} (c : Async (Shared W) α) : Same ids (Async.lift c : Async (Data W) α) :=
  alike_lift c (fun _ _ _ hd => hd.shared) fun _ _ _ _ hd => ⟨rfl, hd.state, hd.registry⟩

theorem setState (sid : String) (outputs : Outputs) :
    Same ids (setState sid outputs : Async (Data W) PUnit) := by
  refine alike_modify fun more d d' hd => ⟨hd.shared, ?_, hd.registry⟩
  exact congrArg (fun state : State => state.set sid outputs.json) hd.state

theorem agree_foldl (steps : List WorkflowStep) {r r' : Dict String WorkflowStep}
    (h : ∀ sid ∈ ids, r.get? sid = r'.get? sid) :
    ∀ sid, sid ∈ ids ∨ sid ∈ stepIds steps →
      (steps.foldl (fun registry s => registry.set s.id s) r).get? sid =
        (steps.foldl (fun registry s => registry.set s.id s) r').get? sid := by
  induction steps generalizing ids r r' with
  | nil => exact fun sid hsid => h sid (hsid.resolve_right not_mem_nil)
  | cons step rest ih =>
    intro sid hsid
    have hmore : ∀ sid ∈ ids ∪ {step.id},
        (r.set step.id step).get? sid = (r'.set step.id step).get? sid := by
      intro sid hsid
      rw [Dict.get?_set, Dict.get?_set]
      split_ifs with heq
      · rfl
      · exact h sid (hsid.resolve_right heq)
    rw [stepIds, map_cons, mem_cons, ← or_assoc] at hsid
    exact ih hmore sid hsid

theorem registerSteps {β : Type} {g : PUnit → Async (Data W) β} (steps : List WorkflowStep)
    (hg : ∀ more, ids ≤ more → (∀ sid ∈ stepIds steps, sid ∈ more) → Same more (g ⟨⟩)) :
    Same ids (registerSteps steps >>= g) := by
  refine alike_advance (fun more => more ∪ {sid | sid ∈ stepIds steps})
    (fun more => Set.subset_union_left) (fun more d d' hd => ?_) fun more hmore => ?_
  · exact ⟨hd.shared, hd.state, agree_foldl steps hd.registry⟩
  · exact hg _ (hmore.trans Set.subset_union_left) fun sid hsid => .inr hsid

theorem runRegistered (h : ∀ ids step, Same ids (runStep step)) (hsid : sid ∈ ids) :
    Same ids (runRegistered runStep sid) := by
  refine alike_read fun more d d' hmore hd => ?_
  rw [hd.registry sid (hmore hsid)]
  cases d'.2.steps.get? sid with
  | none => exact pure _
  | some step => exact h more step

theorem runSub (h : ∀ ids step, Same ids (runStep step)) (hsid : sid ∈ ids) :
    Same ids (runSub runStep sid) := by
  refine (runRegistered h hsid).bind fun more run _ => ?_
  cases run.result with
  | error e => exact pure _
  | ok result => exact (setState sid result.outputs).bind fun _ _ _ => pure _

theorem runBranch (h : ∀ ids step, Same ids (runStep step)) (steps : List WorkflowStep)
    (outputs : Outputs) : Same ids (runBranch runStep steps outputs) := by
  induction steps generalizing ids outputs with
  | nil => exact pure _
  | cons step rest ih =>
    refine (h ids step).bind fun more run _ => ?_
    cases run.result with
    | error e => exact pure _
    | ok result =>
      refine (setState step.id result.outputs).bind fun _ _ _ => ?_
      exact (ih _).bind fun _ _ _ => pure _

variable {x : WorkflowExecutor W}

theorem subWorkflowExecute
    (runWorkflow : WorkflowExecutor W → Outputs → Async (Shared W) WorkflowRun)
    (step : WorkflowStep) (inputs : Outputs) :
    Same ids (subWorkflowExecute x runWorkflow step inputs) := by
  rw [Executor.subWorkflowExecute]
  cases step.subWorkflow with
  | none => exact pure _
  | some json =>
    dsimp only
    split_ifs
    · exact pure _
    · exact pure _
    · cases stepCount json with
      | error e => exact pure _
      | ok count => exact pure _
    · cases stepCount json with
      | error e => exact pure _
      | ok count =>
        cases x.services.parseDefinition json with
        | error e => exact pure _
        | ok definition =>
          refine alike_read fun more d d' _ hd => ?_
          rw [hd.shared]
          refine (lift _).bind fun more run _ => ?_
          refine alike_read fun more d d' _ hd => ?_
          rw [hd.shared]
          exact pure _

theorem leaf (handler : Async W (Except Raised Outputs)) :
    Same ids (WorkflowExecutor.leaf handler) :=
  (lift (Async.lift handler)).bind fun _ _ _ => pure _

theorem dispatchAction (h : ∀ ids step, Same ids (runStep step))
    (runWorkflow : WorkflowExecutor W → Outputs → Async (Shared W) WorkflowRun)
    (step : WorkflowStep) (inputs : Outputs) :
    Same ids (x.dispatchAction runStep runWorkflow step inputs) := by
  rw [WorkflowExecutor.dispatchAction]
  cases step.action with
  | conditional =>
    refine alike_read fun more d d' _ hd => ?_
    rw [hd.state]
    cases conditionalExecute x.services.jinja step.condition (d'.2.state.update inputs)
        x.definition.execution.dryRun with
    | error e => exact pure _
    | ok result => exact runBranch h _ _
  | parallelGroup =>
    refine registerSteps step.steps fun more _ hmore => ?_
    rw [parallelGroupExecute]
    split_ifs
    · exact pure _
    · refine Alike.bind ?_ fun _ _ _ => pure _
      exact alike_gather _ (fun sid hsid => runSub h (hmore sid hsid)) _
  | subWorkflow => exact subWorkflowExecute _ _ _
  | wait =>
    refine alike_read fun more d d' _ hd => ?_
    rw [hd.state]
    exact leaf _
  | groupChat =>
    dsimp only
    cases step.groupChat with
    | none => exact pure _
    | some config => exact leaf _
  | _ => exact leaf _

theorem dispatchWithin (h : Same ids dispatch) (step : WorkflowStep) (attempt : ℕ) :
    Same ids (x.dispatchWithin dispatch step attempt) := by
  rw [WorkflowExecutor.dispatchWithin]
  cases step.timeoutSeconds with
  | none => exact h
  | some _ =>
    refine Alike.bind (h.within _) fun more outcome _ => ?_
    cases outcome with
    | none => exact pure _
    | some p => exact pure _

theorem preHook (step : WorkflowStep) (inputs : Outputs) (state : State) :
    Same ids (x.preHook step inputs state) := by
  rw [WorkflowExecutor.preHook]
  cases x.services.hooks with
  | none => exact pure _
  | some hooks => exact lift _

theorem postHook (step : WorkflowStep) (inputs : Outputs) (result : StepResult) :
    Same ids (x.postHook step inputs result) := by
  rw [WorkflowExecutor.postHook]
  cases x.services.hooks with
  | none => exact pure _
  | some hooks =>
    refine alike_read fun more d d' _ hd => ?_
    rw [hd.state]
    exact lift _

theorem attemptStep (h : Same ids dispatch) (step : WorkflowStep) (inputs : Outputs) (attempt : ℕ) :
    Same ids (x.attemptStep dispatch step inputs attempt) := by
  refine (dispatchWithin h step attempt).bind fun more p _ => ?_
  obtain ⟨outcome, nested⟩ := p
  cases outcome with
  | error e => exact pure _
  | ok outputs =>
    refine (postHook _ _ _).bind fun _ hook _ => ?_
    cases hook with
    | error e => exact pure _
    | ok _ => exact pure _

theorem attempts (h : Same ids dispatch) (step : WorkflowStep) (inputs : Outputs) (n : ℕ)
    (error : Option String) (made : List (Attempt StepRun)) :
    Same ids (x.attempts dispatch step inputs n error made) := by
  induction n generalizing ids error made with
  | zero => exact pure _
  | succ n ih =>
    refine (attemptStep h step inputs _).bind fun more attempt hmore => ?_
    cases attempt.outcome with
    | ok outputs => exact pure _
    | error e =>
      dsimp only
      split_ifs
      · exact Alike.bind alike_yield fun _ _ hlater => ih (h.mono (hmore.trans hlater)) _ _
      · exact (pure _).bind fun _ _ hlater => ih (h.mono (hmore.trans hlater)) _ _

theorem runStepWith
    {dispatch : WorkflowStep → Outputs → Async (Data W) (Except Raised Outputs × List StepRun)}
    {step : WorkflowStep} (h : ∀ inputs, Same ids (dispatch step inputs)) :
    Same ids (x.runStepWith dispatch step) := by
  refine alike_read fun more d d' hmore hd => ?_
  rw [hd.state]
  cases x.shouldRun step d'.2.state with
  | error e => exact pure _
  | ok run =>
    cases run with
    | false => exact pure _
    | true =>
      dsimp only
      cases x.resolveStepInputs step d'.2.state with
      | error e => exact pure _
      | ok inputs =>
        refine (preHook _ _ _).bind fun later outcome hlater => ?_
        cases outcome with
        | error e => exact pure _
        | ok outcome =>
          dsimp only
          split_ifs
          · exact pure _
          · exact attempts ((h _).mono (hmore.trans hlater)) _ _ _ _ _

end Same

theorem same_executeStep (n : ℕ) (x : WorkflowExecutor W) (ids : Set String)
    (step : WorkflowStep) : Same ids (executeStep n x step) := by
  induction n generalizing ids step with
  | zero => exact Same.pure _
  | succ n ih => exact Same.runStepWith fun inputs => Same.dispatchAction ih _ step inputs

end Agent33.Workflows.Executor
