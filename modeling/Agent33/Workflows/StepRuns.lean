import Agent33.Workflows.Executor

/-!
# What an execution of a step can be

The shapes of an attempt, of the dispatch of an action and of the execution of a
step, whatever the other steps do in between. A predicate that the shapes imply
holds of every execution of a step, at any depth.
-/

namespace Agent33.Workflows.Executor

open Library Library.Async Workflows.Definition Workflows.Expressions Workflows.Checkpoint List

variable {W : Type}

/-- What `dispatchAction` can come to, with nested executions that meet a predicate. -/
inductive DispatchOf (R : StepRun → Prop) (step : WorkflowStep) :
    Except Raised Outputs × List StepRun → Prop
  | leaf (outcome : Except Raised Outputs)
      (haction : step.action ≠ .conditional ∧ step.action ≠ .parallelGroup ∧
        step.action ≠ .subWorkflow) : DispatchOf R step (outcome, [])
  | refused (e : Raised) : DispatchOf R step (.error e, [])
  | dryRun {outputs : Outputs} (haction : step.action ≠ .conditional)
      (herrors : outputs.get? "errors" = none) : DispatchOf R step (.ok outputs, [])
  | branch {steps : List WorkflowStep} {outputs : Outputs} {nested : List StepRun}
      (haction : step.action = .conditional)
      (hsteps : steps = step.thenSteps ∨ steps = step.elseSteps)
      (hnested : nested.map (·.step) = steps)
      (hall : ∀ run ∈ nested, R run ∧ ∃ result, run.result = .ok result) :
      DispatchOf R step (.ok outputs, nested)
  | branchRaised {steps : List WorkflowStep} {e : Raised} {nested : List StepRun} {last : StepRun}
      (haction : step.action = .conditional)
      (hsteps : steps = step.thenSteps ∨ steps = step.elseSteps)
      (hnested : (nested ++ [last]).map (·.step) <+: steps)
      (hall : ∀ run ∈ nested, R run ∧ ∃ result, run.result = .ok result)
      (hlast : R last ∧ last.result = .error e) :
      DispatchOf R step (.error e, nested ++ [last])
  | group {nested : List StepRun} (haction : step.action = .parallelGroup)
      (hnested : List.Forall₂ (fun sid run => run.step.id = sid ∧ R run) (stepIds step.steps)
        nested) :
      DispatchOf R step (.ok (collectResults ((stepIds step.steps).zip
        (nested.map fun run => run.result.map (·.outputs)))), nested)
  | subWorkflow {outputs : Outputs} {nested : List StepRun} (haction : step.action = .subWorkflow)
      (hall : ∀ run ∈ nested, R run) : DispatchOf R step (.ok outputs, nested)

inductive AttemptOf (R : StepRun → Prop) (step : WorkflowStep) : Attempt StepRun → Prop
  | timedOut (e : Raised) : AttemptOf R step { outcome := .error e, nested := [] }
  | dispatched {outcome : Except Raised Outputs} {nested : List StepRun}
      (h : DispatchOf R step (outcome, nested)) : AttemptOf R step { outcome, nested }
  | hooked {outputs : Outputs} {nested : List StepRun} (e : Raised)
      (h : DispatchOf R step (.ok outputs, nested)) :
      AttemptOf R step { outcome := .error e, hookRaised := true, nested }

def FailedAttempt (R : StepRun → Prop) (step : WorkflowStep) (a : Attempt StepRun) : Prop :=
  AttemptOf R step a ∧ ∃ e, a.outcome = .error e

inductive RunOf (R : StepRun → Prop) (step : WorkflowStep) : StepRun → Prop
  | raised (e : Raised) : RunOf R step { step, result := .error e }
  | skipped : RunOf R step { step, result := .ok (WorkflowExecutor.skippedResult step) }
  | refused (error : String) :
      RunOf R step { step, result := .ok (WorkflowExecutor.failedResult step error) }
  | exhausted (error : Option String) {attempts : List (Attempt StepRun)}
      (hall : ∀ a ∈ attempts, FailedAttempt R step a) :
      RunOf R step {
        step, result := .ok { stepId := step.id, status := .failed, error }, attempts }
  | succeeded {outputs : Outputs} {made : List (Attempt StepRun)} {last : Attempt StepRun}
      (hmade : ∀ a ∈ made, FailedAttempt R step a) (hlast : AttemptOf R step last)
      (hok : last.outcome = .ok outputs) :
      RunOf R step {
        step
        result := .ok { stepId := step.id, status := .success, outputs }
        attempts := made ++ [last] }

variable {R : StepRun → Prop}
    {step : WorkflowStep} {steps : Dict String WorkflowStep}

theorem RunOf.step_eq {run : StepRun} (h : RunOf R step run) : run.step = step := by
  cases h <;> rfl

def RegistryIds (d : Data W) : Prop := ∀ sid step, d.2.steps.get? sid = some step → step.id = sid

theorem ensures_any {σ α : Type} (x : Async σ α) : Ensures (fun _ => True) (fun _ => True) x := by
  induction x with
  | done a => trivial
  | act f k ih => exact fun s _ => ⟨trivial, ih s⟩
  | suspend k ih => exact ih

theorem ensures_onWorld {α : Type} (hI : ∀ (d : Data W) w, I d → I ((w, d.1.2), d.2))
    (x : Async W α) : Ensures I (fun _ => True) (onWorld x) := by
  induction x with
  | done a => trivial
  | act f k ih => exact fun d hd => ⟨hI d _ hd, ih d.1.1⟩
  | suspend k ih => exact ih

theorem ensures_setState (hI : ∀ (d : Data W) state, I d → I (d.1, { d.2 with state }))
    (sid : String) (outputs : Outputs) :
    Ensures I (fun _ => True) (setState sid outputs : Async (Data W) PUnit) :=
  ensures_modify (fun d hd => hI d _ hd) trivial

theorem registryIds_set (h : ∀ sid s, steps.get? sid = some s → s.id = sid) :
    ∀ sid s, (steps.set step.id step).get? sid = some s → s.id = sid := by
  intro sid s hs
  rw [Dict.get?_set] at hs
  split_ifs at hs with heq
  · cases hs
    exact heq.symm
  · exact h sid s hs

theorem registryIds_foldl (added : List WorkflowStep)
    (h : ∀ sid s, steps.get? sid = some s → s.id = sid) :
    ∀ sid s, (added.foldl (fun steps s => steps.set s.id s) steps).get? sid = some s →
      s.id = sid := by
  induction added generalizing steps with
  | nil => exact h
  | cons step added ih => exact ih (registryIds_set h)

theorem registryIds_ofList (steps : List WorkflowStep) :
    ∀ sid s, (Dict.ofList (steps.map fun s => (s.id, s))).get? sid = some s → s.id = sid := by
  rw [Dict.ofList, foldl_map]
  exact registryIds_foldl steps (by rintro _ _ ⟨⟩)

theorem ensures_registerSteps (steps : List WorkflowStep) :
    Ensures (RegistryIds (W := W)) (fun _ => True) (registerSteps steps) :=
  ensures_modify (fun _ hd => registryIds_foldl steps hd) trivial

theorem ensures_runRegistered
    (h : ∀ step, Ensures RegistryIds (fun run => run.step = step ∧ R run) (runStep step))
    (hraised : ∀ step e, R { step, result := .error e }) (sid : String) :
    Ensures RegistryIds (fun run => run.step.id = sid ∧ R run) (runRegistered runStep sid) := by
  refine (ensures_read (Q := RegistryIds) fun _ hd => hd).bind fun d hd => ?_
  cases hstep : d.2.steps.get? sid with
  | none => exact ensures_pure ⟨rfl, hraised _ _⟩
  | some step =>
    refine (h step).imp ?_
    rintro run ⟨rfl, hR⟩
    exact ⟨hd sid _ hstep, hR⟩

theorem ensures_runSub
    (h : ∀ step, Ensures RegistryIds (fun run => run.step = step ∧ R run) (runStep step))
    (hraised : ∀ step e, R { step, result := .error e }) (sid : String) :
    Ensures RegistryIds (fun p => p.1 = p.2.result.map (·.outputs) ∧ p.2.step.id = sid ∧ R p.2)
      (runSub runStep sid) := by
  refine (ensures_runRegistered h hraised sid).bind fun run hrun => ?_
  cases hresult : run.result with
  | error e => exact ensures_pure ⟨by rw [hresult]; rfl, hrun⟩
  | ok result =>
    refine (ensures_setState (fun _ _ hd => hd) _ _).bind fun _ _ => ?_
    exact ensures_pure ⟨by rw [hresult]; rfl, hrun⟩

theorem ensures_runBranch (hI : ∀ (d : Data W) state, I d → I (d.1, { d.2 with state }))
    (h : ∀ step, Ensures I (fun run => run.step = step ∧ R run) (runStep step))
    (steps : List WorkflowStep) (outputs : Outputs) : Ensures I (fun p =>
      ((∃ outputs, p.1 = .ok outputs) ∧ p.2.map (·.step) = steps ∧
        ∀ run ∈ p.2, R run ∧ ∃ result, run.result = .ok result) ∨
      (∃ e nested last, p = (.error e, nested ++ [last]) ∧
        (nested ++ [last]).map (·.step) <+: steps ∧
        (∀ run ∈ nested, R run ∧ ∃ result, run.result = .ok result) ∧
        R last ∧ last.result = .error e)) (runBranch runStep steps outputs) := by
  induction steps generalizing outputs with
  | nil => exact ensures_pure (.inl ⟨⟨_, rfl⟩, rfl, nofun⟩)
  | cons step rest ih =>
    refine (h step).bind fun run hrun => ?_
    obtain ⟨hstep, hR⟩ := hrun
    cases hresult : run.result with
    | error e =>
      refine ensures_pure (.inr ⟨e, [], run, rfl, ?_, nofun, hR, hresult⟩)
      rw [nil_append, map_singleton, hstep]
      exact ⟨rest, rfl⟩
    | ok result =>
      refine (ensures_setState hI _ _).bind fun _ _ => (ih _).bind fun p hp => ?_
      rcases hp with ⟨hok, hmap, hall⟩ | ⟨e, nested, last, rfl, hbegins, hall, hlast⟩
      · refine ensures_pure (.inl ⟨hok, ?_, ?_⟩)
        · rw [map_cons, hmap, hstep]
        · exact forall_mem_cons.mpr ⟨⟨hR, result, hresult⟩, hall⟩
      · refine ensures_pure (.inr ⟨e, run :: nested, last, rfl, ?_, ?_, hlast⟩)
        · rw [cons_append, map_cons, hstep]
          exact (prefix_cons_inj step).mpr hbegins
        · exact forall_mem_cons.mpr ⟨⟨hR, result, hresult⟩, hall⟩

theorem zip_map_fst
    (h : List.Forall₂ (fun sid p => p.1 = p.2.result.map (·.outputs) ∧ p.2.step.id = sid ∧
      R p.2) ids results) :
    results.map Prod.fst = (results.map Prod.snd).map (fun run => run.result.map (·.outputs)) ∧
      List.Forall₂ (fun sid run => run.step.id = sid ∧ R run) ids (results.map Prod.snd) := by
  induction h with
  | nil => exact ⟨rfl, List.Forall₂.nil⟩
  | cons hp _ ih =>
    obtain ⟨hfst, hsnd⟩ := ih
    refine ⟨?_, List.Forall₂.cons hp.2 hsnd⟩
    rw [map_cons, map_cons, map_cons, hfst, hp.1]

namespace WorkflowExecutor

variable {x : WorkflowExecutor W} {R : StepRun → Prop}

theorem ensures_leaf (hI : ∀ (d : Data W) w, I d → I ((w, d.1.2), d.2))
    {Q : Except Raised Outputs × List StepRun → Prop} (hQ : ∀ outcome, Q (outcome, []))
    (handler : Async W (Except Raised Outputs)) : Ensures I Q (leaf handler) :=
  (ensures_onWorld hI handler).bind fun outcome _ => ensures_pure (hQ outcome)

theorem ensures_subWorkflowExecute
    (h : ∀ y inputs, Ensures (fun _ => True) (fun run => ∀ r ∈ run.runs, R r)
      (runWorkflow y inputs))
    (haction : step.action = .subWorkflow) (inputs : Outputs) :
    Ensures RegistryIds (DispatchOf R step) (subWorkflowExecute x runWorkflow step inputs) := by
  have hne : step.action ≠ .conditional := by rw [haction]; decide
  rw [subWorkflowExecute]
  cases step.subWorkflow with
  | none => exact ensures_pure (.refused _)
  | some definition =>
    dsimp only
    split_ifs
    · exact ensures_pure (.refused _)
    · exact ensures_pure (.refused _)
    · cases stepCount definition with
      | error e => exact ensures_pure (.refused e)
      | ok count => exact ensures_pure (.dryRun hne rfl)
    · cases stepCount definition with
      | error e => exact ensures_pure (.refused e)
      | ok count =>
        cases x.services.parseDefinition definition with
        | error e => exact ensures_pure (.refused e)
        | ok definition =>
          refine (ensures_read (Q := fun _ => True) fun _ _ => trivial).bind fun _ _ => ?_
          refine ((h _ inputs).lift (fun _ _ => trivial) fun d _ hd _ => hd).bind fun run hrun => ?_
          refine (ensures_read (Q := fun _ => True) fun _ _ => trivial).bind fun _ _ => ?_
          exact ensures_pure (.subWorkflow haction hrun)

theorem ensures_dispatchAction
    (hstep : ∀ step, Ensures RegistryIds (fun run => run.step = step ∧ R run) (runStep step))
    (hraised : ∀ step e, R { step, result := .error e })
    (hworkflow : ∀ y inputs, Ensures (fun _ => True) (fun run => ∀ r ∈ run.runs, R r)
      (runWorkflow y inputs))
    (step : WorkflowStep) (inputs : Outputs) : Ensures RegistryIds (DispatchOf R step)
      (x.dispatchAction runStep runWorkflow step inputs) := by
  have hleaf (h : step.action ≠ .conditional ∧ step.action ≠ .parallelGroup ∧
      step.action ≠ .subWorkflow) (handler : Async W (Except Raised Outputs)) :
      Ensures RegistryIds (DispatchOf R step) (leaf handler) :=
    ensures_leaf (fun _ _ hd => hd) (fun outcome => .leaf outcome h) handler
  have hread {β : Type} {Q : β → Prop} {f : Data W → Async (Data W) β}
      (h : ∀ d, Ensures RegistryIds Q (f d)) : Ensures RegistryIds Q (Async.read >>= f) :=
    (ensures_read (Q := fun _ => True) fun _ _ => trivial).bind fun d _ => h d
  rw [dispatchAction]
  cases haction : step.action with
  | conditional =>
    refine hread fun d => ?_
    cases conditionalExecute x.services.jinja step.condition (d.2.state.update inputs)
        x.definition.execution.dryRun with
    | error e => exact ensures_pure (.refused e)
    | ok result =>
      dsimp only
      refine (ensures_runBranch (fun _ _ hd => hd) hstep _ _).imp fun p hp => ?_
      have hbranch : (if result.get? "branch" = some (.str "then") then step.thenSteps
          else step.elseSteps) = step.thenSteps ∨
          (if result.get? "branch" = some (.str "then") then step.thenSteps
            else step.elseSteps) = step.elseSteps := by
        split_ifs
        · exact .inl rfl
        · exact .inr rfl
      rcases hp with ⟨⟨outputs, hok⟩, hmap, hall⟩ | ⟨e, nested, last, rfl, hmap, hall, hlast⟩
      · obtain ⟨outcome, nested⟩ := p
        dsimp only at hok hmap hall
        rw [hok]
        exact .branch haction hbranch hmap hall
      · exact .branchRaised haction hbranch hmap hall hlast
  | parallelGroup =>
    refine (ensures_registerSteps step.steps).bind fun _ _ => ?_
    rw [parallelGroupExecute]
    split_ifs
    · exact ensures_pure (.dryRun (by rw [haction]; decide) rfl)
    · refine (ensures_gather (fun sid _ => ensures_runSub hstep hraised sid) _).bind
        fun results hresults => ?_
      obtain ⟨hfst, hsnd⟩ := zip_map_fst hresults
      rw [hfst]
      exact ensures_pure (.group haction hsnd)
  | subWorkflow => exact ensures_subWorkflowExecute hworkflow haction inputs
  | wait => exact hread fun d => hleaf (by rw [haction]; decide) _
  | groupChat =>
    dsimp only
    cases step.groupChat with
    | none => exact ensures_pure (.refused _)
    | some config => exact hleaf (by rw [haction]; decide) _
  | _ => exact hleaf (by rw [haction]; decide) _

theorem ensures_dispatchWithin (h : Ensures I (DispatchOf R step) dispatch)
    (attempt : ℕ) :
    Ensures I (fun p => DispatchOf R step p) (x.dispatchWithin dispatch step attempt) := by
  rw [dispatchWithin]
  cases step.timeoutSeconds with
  | none => exact h
  | some _ =>
    refine (h.within _).bind fun outcome houtcome => ?_
    cases outcome with
    | none => exact ensures_pure (.refused _)
    | some p => exact ensures_pure (houtcome p rfl)

theorem ensures_postHook (hI : ∀ (d : Data W) w, I d → I ((w, d.1.2), d.2)) (step : WorkflowStep)
    (inputs : Outputs) (result : StepResult) :
    Ensures I (fun _ => True) (x.postHook step inputs result) := by
  rw [postHook]
  cases x.services.hooks with
  | none => exact ensures_pure trivial
  | some hooks =>
    exact (ensures_read (Q := fun _ => True) fun _ _ => trivial).bind fun d _ =>
      ensures_onWorld hI _

theorem ensures_preHook (hI : ∀ (d : Data W) w, I d → I ((w, d.1.2), d.2)) (step : WorkflowStep)
    (inputs : Outputs) (state : State) :
    Ensures I (fun _ => True) (x.preHook step inputs state) := by
  rw [preHook]
  cases x.services.hooks with
  | none => exact ensures_pure trivial
  | some hooks => exact ensures_onWorld hI _

theorem ensures_attemptStep (hI : ∀ (d : Data W) w, I d → I ((w, d.1.2), d.2))
    (h : Ensures I (DispatchOf R step) dispatch) (inputs : Outputs) (attempt : ℕ) :
    Ensures I (AttemptOf R step) (x.attemptStep dispatch step inputs attempt) := by
  refine (ensures_dispatchWithin h attempt).bind fun p hp => ?_
  obtain ⟨outcome, nested⟩ := p
  cases outcome with
  | error e => exact ensures_pure (.dispatched hp)
  | ok outputs =>
    refine (ensures_postHook hI _ _ _).bind fun hook _ => ?_
    cases hook with
    | error e => exact ensures_pure (.hooked e hp)
    | ok _ => exact ensures_pure (.dispatched hp)

theorem ensures_attempts (hI : ∀ (d : Data W) w, I d → I ((w, d.1.2), d.2))
    (h : Ensures I (DispatchOf R step) dispatch) (inputs : Outputs) (n : ℕ) (error : Option String)
    (hmade : ∀ a ∈ made, FailedAttempt R step a) :
    Ensures I (RunOf R step) (x.attempts dispatch step inputs n error made) := by
  induction n generalizing error made with
  | zero => exact ensures_pure (.exhausted error hmade)
  | succ n ih =>
    refine (ensures_attemptStep hI h inputs _).bind fun attempt hattempt => ?_
    cases houtcome : attempt.outcome with
    | ok outputs => exact ensures_pure (.succeeded hmade hattempt houtcome)
    | error e =>
      have hnext : ∀ a ∈ made ++ [attempt], FailedAttempt R step a := by
        intro a ha
        rcases mem_append.mp ha with ha | ha
        · exact hmade a ha
        · rw [mem_singleton.mp ha]
          exact ⟨hattempt, e, houtcome⟩
      dsimp only
      split_ifs
      · exact (ensures_yield (Q := fun _ => True) trivial).bind fun _ _ => ih _ hnext
      · exact (ensures_pure (Q := fun _ => True) trivial).bind fun _ _ => ih _ hnext

theorem ensures_runStepWith (hI : ∀ (d : Data W) w, I d → I ((w, d.1.2), d.2))
    {dispatch : WorkflowStep → Outputs → Async (Data W) (Except Raised Outputs × List StepRun)}
    {step : WorkflowStep} (h : ∀ inputs, Ensures I (DispatchOf R step) (dispatch step inputs)) :
    Ensures I (RunOf R step) (x.runStepWith dispatch step) := by
  refine (ensures_read (Q := fun _ => True) fun _ _ => trivial).bind fun d _ => ?_
  cases x.shouldRun step d.2.state with
  | error e => exact ensures_pure (.refused _)
  | ok run =>
    cases run with
    | false => exact ensures_pure .skipped
    | true =>
      dsimp only
      cases x.resolveStepInputs step d.2.state with
      | error e => exact ensures_pure (.raised e)
      | ok inputs =>
        refine (ensures_preHook hI step inputs _).bind fun outcome _ => ?_
        cases outcome with
        | error e => exact ensures_pure (.raised e)
        | ok outcome =>
          dsimp only
          split_ifs
          · exact ensures_pure (.refused _)
          · exact ensures_attempts hI (h _) _ _ _ nofun

theorem attempts_step {step : WorkflowStep}
    (dispatch : Async (Data W) (Except Raised Outputs × List StepRun)) (inputs : Outputs) (n : ℕ)
    (error : Option String) (made : List (Attempt StepRun)) (d : Data W) :
    ((x.attempts dispatch step inputs n error made).run d).1.step = step := by
  induction n generalizing error made d with
  | zero => rfl
  | succ n ih =>
    rw [attempts, run_bind]
    cases ((x.attemptStep dispatch step inputs (made.length + 1)).run d).1.outcome with
    | ok outputs => rfl
    | error e =>
      dsimp only
      rw [run_bind]
      exact ih _ _ _

theorem executeStep_run_step (n : ℕ) (x : WorkflowExecutor W) (step : WorkflowStep) (d : Data W) :
    ((executeStep n x step).run d).1.step = step := by
  cases n with
  | zero => rfl
  | succ n =>
    rw [executeStep, runStepWith, run_bind, run_read]
    dsimp only
    cases x.shouldRun step d.2.state with
    | error e => rfl
    | ok run =>
      cases run with
      | false => rfl
      | true =>
        dsimp only
        cases x.resolveStepInputs step d.2.state with
        | error e => rfl
        | ok inputs =>
          dsimp only
          rw [run_bind]
          cases ((x.preHook step inputs d.2.state).run d).1 with
          | error e => rfl
          | ok outcome =>
            dsimp only
            split_ifs
            · rfl
            · exact attempts_step _ _ _ _ _ _

end WorkflowExecutor

end Agent33.Workflows.Executor
