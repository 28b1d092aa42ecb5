import Agent33.Workflows.StepRuns

/-!
# What nested steps leave alone

The steps nested in a step write under their own ids, into the state and into the
registry, and checkpoint only under the run ids of sub-workflows. A frame says which
ids may be written; what it keeps is kept by every execution of a step.
-/

namespace Agent33.Workflows.Executor

open Library Library.Async Workflows.Definition Workflows.Expressions Workflows.Checkpoint
open WorkflowExecutor
open WorkflowExecutor (Progress)

variable {W : Type}

theorem subRunId_ne_empty (runId stepId : String) : subRunId runId stepId ≠ "" := by
  intro h
  have hlength := congrArg (fun s => s.toList.length) h
  simp only [subRunId, String.toList_append, String.toList_ofList, List.length_drop,
    List.length_append, String.toList_empty, List.length_nil] at hlength
  have hsub : (":sub:".toList).length = 5 := rfl
  omega

theorem create_runId (services : Services W) (definition : WorkflowDefinition)
    (runId stepId : String) (depth : ℕ) :
    (create services definition (some (subRunId runId stepId)) depth).runId =
      subRunId runId stepId := by
  simp only [create, if_neg (subRunId_ne_empty runId stepId)]

def Child (inner outer : WorkflowStep) : Prop :=
  inner ∈ outer.steps ∨ inner ∈ outer.thenSteps ∨ inner ∈ outer.elseSteps

/-- A property of what runs share, one of the variables of a run, the steps that may be
executed and the ids that they may write. -/
structure Frame (J : Shared W → Prop) (L : Local → Prop) (Ok : WorkflowStep → Prop)
    (Free : String → Prop) : Prop where
  world : ∀ {s w}, J s → J (w, s.2)
  state : ∀ {scope sid} outputs, L scope → Free sid →
    L { scope with state := scope.state.set sid outputs }
  register : ∀ {scope} {step : WorkflowStep}, L scope → Ok step → Free step.id →
    L { scope with steps := scope.steps.set step.id step }
  registered : ∀ {scope sid step}, L scope → scope.steps.get? sid = some step → Ok step
  child : ∀ {inner outer}, Ok outer → Child inner outer → Ok inner ∧ Free inner.id

namespace Frame

variable {J : Shared W → Prop} {L : Local → Prop}


def Inv (J : Shared W → Prop) (L : Local → Prop) (d : Data W) : Prop := J d.1 ∧ L d.2

abbrev Kept {α : Type} (J : Shared W → Prop) (L : Local → Prop) (x : Async (Data W) α) : Prop :=
  Ensures (Inv J L) (fun _ => True) x

variable {α : Type} {steps : List WorkflowStep}

theorem Kept.bind {β : Type} {x : Async (Data W) α} {g : α → Async (Data W) β} (hx : Kept J L x)
    (hg : ∀ a, Kept J L (g a)) : Kept J L (x >>= g) :=
  Ensures.bind hx fun a _ => hg a

theorem kept_pure (a : α) : Kept J L (pure a) := ensures_pure trivial

theorem kept_read : Kept J L (Async.read : Async (Data W) (Data W)) :=
  ensures_read fun _ _ => trivial

theorem kept_onWorld (f : Frame J L Ok Free) (x : Async W α) : Kept J L (onWorld x) :=
  ensures_onWorld (fun _ _ hd => ⟨f.world hd.1, hd.2⟩) x

theorem kept_setState (f : Frame J L Ok Free) (hfree : Free sid)
    (outputs : Outputs) : Kept J L (setState sid outputs) :=
  ensures_modify (fun _ hd => ⟨hd.1, f.state _ hd.2 hfree⟩) trivial

section

variable (f : Frame J L Ok Free) (hsteps : ∀ step ∈ steps, Ok step ∧ Free step.id)
include f hsteps

theorem register_foldl (h : L scope) :
    L { scope with steps := steps.foldl (fun registry s => registry.set s.id s) scope.steps } := by
  induction steps generalizing scope with
  | nil => exact h
  | cons step rest ih =>
    obtain ⟨hstep, hrest⟩ := List.forall_mem_cons.mp hsteps
    exact ih hrest (f.register h hstep.1 hstep.2)

theorem kept_registerSteps : Kept J L (registerSteps steps : Async (Data W) PUnit) :=
  ensures_modify (fun _ hd => ⟨hd.1, f.register_foldl hsteps hd.2⟩) trivial

end

theorem kept_runRegistered (f : Frame J L Ok Free) (h : ∀ step, Ok step → Kept J L (runStep step))
    (sid : String) : Kept J L (runRegistered runStep sid) := by
  refine (ensures_read (Q := Inv J L) fun _ hd => hd).bind fun d hd => ?_
  cases hstep : d.2.steps.get? sid with
  | none => exact kept_pure _
  | some step => exact h step (f.registered hd.2 hstep)

theorem kept_runSub (f : Frame J L Ok Free) (h : ∀ step, Ok step → Kept J L (runStep step))
    (hfree : Free sid) : Kept J L (runSub runStep sid) := by
  refine (f.kept_runRegistered h sid).bind fun run => ?_
  cases run.result with
  | error e => exact kept_pure _
  | ok result => exact (f.kept_setState hfree _).bind fun _ => kept_pure _

theorem kept_runBranch (f : Frame J L Ok Free) (h : ∀ step, Ok step → Kept J L (runStep step))
    (hsteps : ∀ step ∈ steps, Ok step ∧ Free step.id)
    (outputs : Outputs) : Kept J L (runBranch runStep steps outputs) := by
  induction steps generalizing outputs with
  | nil => exact kept_pure _
  | cons step rest ih =>
    obtain ⟨hstep, hrest⟩ := List.forall_mem_cons.mp hsteps
    refine (h step hstep.1).bind fun run => ?_
    cases run.result with
    | error e => exact kept_pure _
    | ok result =>
      exact (f.kept_setState hstep.2 _).bind fun _ => (ih hrest _).bind fun _ => kept_pure _

theorem kept_gather {α : Type} {ids : List String} {x : String → Async (Data W) α}
    (h : ∀ sid ∈ ids, Kept J L (x sid)) (schedules : ℕ → Schedule) :
    Kept J L (gather schedules (ids.map x)) :=
  (ensures_gather h schedules).imp fun _ _ => trivial

variable {x : WorkflowExecutor W}

def Calls (x : WorkflowExecutor W) (step : WorkflowStep) (y : WorkflowExecutor W) : Prop :=
  step.action = .subWorkflow ∧ x.depth < maxNestingDepth ∧
    ∃ json definition, step.subWorkflow = some json ∧
      x.services.parseDefinition json = .ok definition ∧
        y = WorkflowExecutor.create x.services definition (some (subRunId x.runId step.id))
          (x.depth + 1)

theorem kept_subWorkflowExecute (haction : step.action = .subWorkflow)
    (h : ∀ y, Calls x step y → Ensures J (fun _ => True) (runWorkflow y inputs)) :
    Kept J L (subWorkflowExecute x runWorkflow step inputs) := by
  rw [subWorkflowExecute]
  cases hjson : step.subWorkflow with
  | none => exact kept_pure _
  | some json =>
    dsimp only
    split_ifs with htruthy hdepth
    · exact kept_pure _
    · exact kept_pure _
    · cases stepCount json with
      | error e => exact kept_pure _
      | ok count => exact kept_pure _
    · cases stepCount json with
      | error e => exact kept_pure _
      | ok count =>
        cases hparse : x.services.parseDefinition json with
        | error e => exact kept_pure _
        | ok definition =>
          have hcalls : Calls x step (create x.services definition
              (some (subRunId x.runId step.id)) (x.depth + 1)) :=
            ⟨haction, not_le.mp hdepth, json, definition, hjson, hparse, rfl⟩
          refine kept_read.bind fun _ => ?_
          refine Kept.bind ?_ fun _ => kept_read.bind fun _ => kept_pure _
          exact (h _ hcalls).lift (fun _ hd => hd.1) fun _ _ hd hs => ⟨hs, hd.2⟩

theorem kept_leaf (f : Frame J L Ok Free) (handler : Async W (Except Raised Outputs)) :
    Kept J L (leaf handler) :=
  (f.kept_onWorld handler).bind fun _ => kept_pure _

theorem kept_dispatchAction (f : Frame J L Ok Free) (h : ∀ step, Ok step → Kept J L (runStep step))
    (hok : Ok step)
    (hsub : ∀ y, Calls x step y → Ensures J (fun _ => True) (runWorkflow y inputs)) :
    Kept J L (x.dispatchAction runStep runWorkflow step inputs) := by
  have hchild : ∀ inner, Child inner step → Ok inner ∧ Free inner.id := fun _ => f.child hok
  rw [dispatchAction]
  cases haction : step.action with
  | conditional =>
    refine kept_read.bind fun d => ?_
    cases conditionalExecute x.services.jinja step.condition (d.2.state.update inputs)
        x.definition.execution.dryRun with
    | error e => exact kept_pure _
    | ok result =>
      dsimp only
      split_ifs
      · exact f.kept_runBranch h (fun inner hinner => hchild inner (.inr (.inl hinner))) _
      · exact f.kept_runBranch h (fun inner hinner => hchild inner (.inr (.inr hinner))) _
  | parallelGroup =>
    refine (f.kept_registerSteps fun inner hinner => hchild inner (.inl hinner)).bind fun _ => ?_
    rw [parallelGroupExecute]
    split_ifs
    · exact kept_pure _
    · refine Kept.bind (kept_gather (fun sid hsid => ?_) _) fun _ => kept_pure _
      obtain ⟨inner, hinner, rfl⟩ := List.mem_map.mp hsid
      exact f.kept_runSub h (hchild inner (.inl hinner)).2
  | subWorkflow => exact kept_subWorkflowExecute haction hsub
  | wait => exact kept_read.bind fun _ => f.kept_leaf _
  | groupChat =>
    dsimp only
    cases step.groupChat with
    | none => exact kept_pure _
    | some config => exact f.kept_leaf _
  | _ => exact f.kept_leaf _

theorem kept_dispatchWithin (h : Kept J L dispatch) (attempt : ℕ) :
    Kept J L (x.dispatchWithin dispatch step attempt) := by
  rw [dispatchWithin]
  cases step.timeoutSeconds with
  | none => exact h
  | some _ =>
    refine Ensures.bind (h.within _) fun outcome _ => ?_
    cases outcome with
    | none => exact kept_pure _
    | some p => exact kept_pure _

section

variable (f : Frame J L Ok Free)
include f

theorem kept_preHook (step : WorkflowStep) (inputs : Outputs)
    (state : State) : Kept J L (x.preHook step inputs state) :=
  ensures_preHook (fun _ _ hd => ⟨f.world hd.1, hd.2⟩) _ _ _

theorem kept_postHook (step : WorkflowStep) (inputs : Outputs)
    (result : StepResult) : Kept J L (x.postHook step inputs result) :=
  ensures_postHook (fun _ _ hd => ⟨f.world hd.1, hd.2⟩) _ _ _

theorem kept_attempts (h : Kept J L dispatch) (inputs : Outputs) (n : ℕ)
    (error : Option String) (made : List (Attempt StepRun)) :
    Kept J L (x.attempts dispatch step inputs n error made) := by
  induction n generalizing error made with
  | zero => exact kept_pure _
  | succ n ih =>
    have hattempt : Kept J L (x.attemptStep dispatch step inputs (made.length + 1)) := by
      refine (kept_dispatchWithin h _).bind fun p => ?_
      obtain ⟨outcome, nested⟩ := p
      cases outcome with
      | error e => exact kept_pure _
      | ok outputs =>
        refine (f.kept_postHook _ _ _).bind fun hook => ?_
        cases hook with
        | error e => exact kept_pure _
        | ok _ => exact kept_pure _
    refine hattempt.bind fun attempt => ?_
    cases attempt.outcome with
    | ok outputs => exact kept_pure _
    | error e =>
      dsimp only
      split_ifs
      · exact Kept.bind (ensures_yield trivial) fun _ => ih _ _
      · exact (kept_pure _).bind fun _ => ih _ _

theorem kept_runStepWith
    {dispatch : WorkflowStep → Outputs → Async (Data W) (Except Raised Outputs × List StepRun)}
    (h : ∀ inputs, Kept J L (dispatch step inputs)) : Kept J L (x.runStepWith dispatch step) := by
  refine kept_read.bind fun d => ?_
  cases x.shouldRun step d.2.state with
  | error e => exact kept_pure _
  | ok run =>
    cases run with
    | false => exact kept_pure _
    | true =>
      dsimp only
      cases x.resolveStepInputs step d.2.state with
      | error e => exact kept_pure _
      | ok inputs =>
        refine (f.kept_preHook _ _ _).bind fun outcome => ?_
        cases outcome with
        | error e => exact kept_pure _
        | ok outcome =>
          dsimp only
          split_ifs
          · exact kept_pure _
          · exact f.kept_attempts (h _) _ _ _ _

theorem kept_executeStep (n : ℕ)
    (hsub : ∀ m < n, ∀ step y inputs, Ok step → Calls x step y →
      Ensures J (fun _ => True) (y.executeWith (executeStep m y) inputs))
    (hok : Ok step) : Kept J L (executeStep n x step) := by
  induction n generalizing step with
  | zero => exact kept_pure _
  | succ n ih =>
    rw [executeStep]
    exact f.kept_runStepWith fun inputs => f.kept_dispatchAction
      (fun step hok => ih (fun m hm => hsub m (Nat.lt_succ_of_lt hm)) hok) hok
      fun y hy => hsub n (Nat.lt_succ_self n) step y inputs hok hy

end

section Runs

variable (f : Frame J L Ok Free) (hfree : ∀ sid, Free sid)
  (hsave : ∀ {s} stepId state, J s → J (s.1, saveCheckpoint x.runId stepId state s.2))

include f hfree hsave

theorem kept_settle (sid : String) (run : StepRun) (result : StepResult) (p : Progress) :
    Kept J L (x.settle sid run result p) := by
  refine (f.kept_setState (hfree sid) _).bind fun _ => ?_
  split_ifs
  · refine Kept.bind (ensures_modify (fun d hd => ?_) trivial) fun _ => kept_pure _
    split_ifs
    · exact hd
    · exact ⟨hsave _ _ hd.1, hd.2⟩
  · exact (kept_pure _).bind fun _ => kept_pure _

omit f hfree hsave in
theorem kept_restoreStep (sid : String) (p : Progress) :
    Kept J L (restoreStep sid p) :=
  kept_read.bind fun _ => kept_pure _

theorem kept_runSequential (h : ∀ step ∈ steps, Kept J L (runStep step)) (p : Progress) :
    Kept J L (x.runSequential runStep steps p) := by
  induction steps generalizing p with
  | nil => exact kept_pure _
  | cons step rest ih =>
    obtain ⟨hstep, hrest⟩ := List.forall_mem_cons.mp h
    rw [runSequential]
    split_ifs
    · exact (kept_restoreStep _ _).bind fun _ => ih hrest _
    · refine hstep.bind fun run => ?_
      cases run.result with
      | error e => exact kept_pure _
      | ok result =>
        refine (kept_settle f hfree hsave _ _ _ _).bind fun _ => ?_
        split_ifs
        · exact kept_pure _
        · exact ih hrest _

theorem kept_settleAll (runs : List (String × StepRun)) (p : Progress) :
    Kept J L (x.settleAll runs p) := by
  induction runs generalizing p with
  | nil => exact kept_pure _
  | cons run rest ih => exact (kept_settle f hfree hsave _ _ _ _).bind fun _ => ih _

omit f hfree hsave in
theorem kept_restoreAll (sids : List String) (p : Progress) :
    Kept J L (restoreAll sids p) := by
  induction sids generalizing p with
  | nil => exact kept_pure _
  | cons sid rest ih => exact (kept_restoreStep _ _).bind fun _ => ih _

theorem kept_runGroup (h : ∀ step, Ok step → Kept J L (runStep step)) (group : List String)
    (p : Progress) : Kept J L (x.runGroup runStep group p) := by
  have hgathered : Kept J L (x.runGathered runStep group p) := by
    refine (kept_restoreAll _ _).bind fun _ => ?_
    refine (kept_gather (fun sid _ => f.kept_runRegistered h sid) _).bind fun _ => ?_
    exact kept_settleAll f hfree hsave _ _
  match group with
  | [] => exact hgathered
  | [sid] =>
    rw [runGroup, runSingle]
    split_ifs
    · exact kept_restoreStep _ _
    · refine (f.kept_runRegistered h sid).bind fun run => ?_
      cases run.result with
      | error e => exact kept_pure _
      | ok result => exact kept_settle f hfree hsave _ _ _ _
  | _ :: _ :: _ => exact hgathered

theorem kept_runGroups (h : ∀ step, Ok step → Kept J L (runStep step))
    (groups : List (List String)) (p : Progress) : Kept J L (x.runGroups runStep groups p) := by
  induction groups generalizing p with
  | nil => exact kept_pure _
  | cons group rest ih =>
    refine (kept_runGroup f hfree hsave h _ _).bind fun _ => ?_
    split_ifs
    · exact kept_pure _
    · exact kept_pure _
    · exact ih _

theorem kept_runSteps (hok : ∀ step ∈ x.definition.steps, Ok step)
    (h : ∀ step, Ok step → Kept J L (runStep step)) (p : Progress) :
    Kept J L (x.runSteps runStep p) := by
  have hsequential : Kept J L (x.runSequential runStep x.definition.steps p) :=
    kept_runSequential f hfree hsave (fun step hstep => h step (hok step hstep)) _
  rw [runSteps]
  cases parallelGroups x.definition.steps with
  | error e =>
    cases x.definition.execution.mode with
    | sequential => exact hsequential
    | parallel => exact kept_pure _
    | dependencyAware => exact kept_pure _
  | ok groups =>
    have hgroups := kept_runGroups f hfree hsave h groups p
    cases x.definition.execution.mode with
    | sequential => exact hsequential
    | parallel => exact hgroups
    | dependencyAware => exact hgroups

theorem ensures_executeWith (hok : ∀ step ∈ x.definition.steps, Ok step)
    (h : ∀ step, Ok step → Kept J L (runStep step))
    (hstart : ∀ state,
      L { state, steps := Dict.ofList (x.definition.steps.map fun s => (s.id, s)) })
    (inputs : Outputs) : Ensures J (fun _ => True) (x.executeWith runStep inputs) := by
  refine (ensures_read (Q := fun _ => True) fun _ _ => trivial).bind fun shared _ => ?_
  have hloop := kept_runSteps f hfree hsave hok h
    { completed := (x.loadCheckpointState inputs shared.2).2 }
  exact (hloop.withLocal (L := L) (hstart _)).bind fun _ _ => ensures_pure trivial

end Runs

end Frame

inductive Inside (x : WorkflowExecutor W) : WorkflowStep → Prop
  | top {step : WorkflowStep} (h : step ∈ x.definition.steps) : Inside x step
  | child {inner outer : WorkflowStep} (h : Inside x outer) (hchild : Child inner outer) :
      Inside x inner

def SubRun (y x : WorkflowExecutor W) : Prop := ∃ step, Inside x step ∧ Frame.Calls x step y

def InsideRegistry (x : WorkflowExecutor W) (scope : Local) : Prop :=
  ∀ sid step, scope.steps.get? sid = some step → Inside x step

theorem insideRegistry_start (x : WorkflowExecutor W) (state : State) :
    InsideRegistry x
      { state, steps := Dict.ofList (x.definition.steps.map fun s => (s.id, s)) } := by
  intro sid step hget
  rw [← Dict.mem_entries, Dict.entries_ofList] at hget
  · obtain ⟨top, htop, heq⟩ := List.mem_map.mp hget
    cases heq
    exact .top htop
  · rw [List.map_map]
    exact x.definition.uniqueStepIds

theorem frame_inside {J : Shared W → Prop} (hworld : ∀ {s w}, J s → J (w, s.2))
    (x : WorkflowExecutor W) :
    Frame J (InsideRegistry x) (Inside x) (fun _ => True) where
  world h := hworld h
  state _ hscope _ := hscope
  register hscope hstep _ := by
    intro sid step hget
    rw [Dict.get?_set] at hget
    split_ifs at hget
    · cases hget
      exact hstep
    · exact hscope sid step hget
  registered hscope hget := hscope _ _ hget
  child hok hchild := ⟨hok.child hchild, trivial⟩

theorem ensures_executeWith_of {J : Shared W → Prop} (P : String → Prop)
    (hworld : ∀ {s w}, J s → J (w, s.2))
    (hsave : ∀ {s runId} stepId state, P runId → J s →
      J (s.1, saveCheckpoint runId stepId state s.2)) (n : ℕ) (x : WorkflowExecutor W)
    (hx : P x.runId) (hsub : ∀ y, Relation.TransGen SubRun y x → P y.runId) (inputs : Outputs) :
    Ensures J (fun _ => True) (x.executeWith (executeStep n x) inputs) := by
  induction n using Nat.strong_induction_on generalizing x inputs with
  | _ n ih =>
    have hframe := frame_inside (J := J) (fun h => hworld h) x
    refine hframe.ensures_executeWith (fun _ => trivial) (fun stepId state => hsave stepId state hx)
      (fun _ => Inside.top) (fun step hstep => ?_) (insideRegistry_start x) inputs
    refine hframe.kept_executeStep n (fun m hm inner y inputs hinner hcalls => ?_) hstep
    have hyx : SubRun y x := ⟨inner, hinner, hcalls⟩
    exact ih m hm y (hsub y (.single hyx)) (fun z hz => hsub z (hz.tail hyx)) inputs

end Agent33.Workflows.Executor

/-!
## Derived run ids

A sub-workflow runs under the id of its parent and the id of its step, cut to the last 128
characters. Along a path of steps the cuts come to one cut at the end, so that two nested
runs are kept apart exactly by the last 128 characters of their full names.
-/

namespace Agent33.Workflows.Executor

open Library Workflows.Checkpoint

def lastChars (n : ℕ) (text : List Char) : List Char := text.drop (text.length - n)

theorem length_lastChars (n : ℕ) (text : List Char) :
    (lastChars n text).length = min n text.length := by
  rw [lastChars, List.length_drop]
  omega

theorem lastChars_of_length_le (h : text.length ≤ n) : lastChars n text = text := by
  rw [lastChars, Nat.sub_eq_zero_of_le h, List.drop_zero]

theorem lastChars_append (n : ℕ) (text more : List Char) :
    lastChars n (lastChars n text ++ more) = lastChars n (text ++ more) := by
  simp only [lastChars, List.length_append, List.length_drop]
  rw [← List.drop_append_of_le_length (by omega), List.drop_drop]
  congr 1
  omega

theorem toList_subRunId (runId stepId : String) :
    (subRunId runId stepId).toList =
      lastChars 128 (runId.toList ++ (":sub:".toList ++ stepId.toList)) := by
  simp only [subRunId, String.toList_ofList, String.toList_append, List.append_assoc, lastChars]

def nestedRunId (runId : String) (path : List String) : String := path.foldl subRunId runId

def fullName (runId : String) (path : List String) : List Char :=
  path.foldl (fun name stepId => name ++ (":sub:".toList ++ stepId.toList)) runId.toList

theorem lastChars_foldl (h : lastChars 128 runId.toList = lastChars 128 name) (path : List String) :
    lastChars 128 (path.foldl subRunId runId).toList = lastChars 128
      (path.foldl (fun name stepId => name ++ (":sub:".toList ++ stepId.toList)) name) := by
  induction path generalizing runId name with
  | nil => exact h
  | cons stepId rest ih =>
    rw [List.foldl_cons, List.foldl_cons]
    refine ih ?_
    rw [toList_subRunId, ← lastChars_append, h, lastChars_append]
    refine lastChars_of_length_le ?_
    rw [length_lastChars]
    exact Nat.min_le_left _ _

theorem length_subRunId (runId stepId : String) :
    (subRunId runId stepId).toList.length =
      min 128 (runId.toList.length + 5 + stepId.toList.length) := by
  have hsub : (":sub:".toList).length = 5 := rfl
  rw [toList_subRunId, length_lastChars, List.length_append, List.length_append, hsub]
  omega

theorem toList_nestedRunId (runId : String) (h : path ≠ []) :
    (nestedRunId runId path).toList = lastChars 128 (fullName runId path) := by
  have hcut : (nestedRunId runId path).toList.length ≤ 128 := by
    rw [← List.dropLast_concat_getLast h, nestedRunId, List.foldl_append, List.foldl_cons,
      List.foldl_nil, length_subRunId]
    exact Nat.min_le_left _ _
  rw [← lastChars_of_length_le hcut]
  exact lastChars_foldl rfl path

def KeptApart (runId runId' : String) : Prop :=
  ∀ rows stepId state,
    loadCheckpoint runId (saveCheckpoint runId' stepId state rows) = loadCheckpoint runId rows

theorem keptApart_iff {runId runId' : String} : KeptApart runId runId' ↔ runId ≠ runId' := by
  constructor
  · intro h heq
    have hload := h [] "" Dict.empty
    rw [heq, loadCheckpoint_save_self] at hload
    cases hload
  · intro hne rows stepId state
    refine loadCheckpoint_append fun row hrow => ?_
    rw [List.mem_singleton.mp hrow]
    exact hne.symm

theorem nestedRuns_keptApart_iff {runId runId' : String} (h : path ≠ []) (h' : path' ≠ []) :
    KeptApart (nestedRunId runId path) (nestedRunId runId' path') ↔
      lastChars 128 (fullName runId path) ≠ lastChars 128 (fullName runId' path') := by
  rw [keptApart_iff, ← toList_nestedRunId runId h, ← toList_nestedRunId runId' h']
  exact not_congr String.toList_inj.symm

variable {W : Type}

theorem runId_of_calls (h : Frame.Calls x step y) : y.runId = subRunId x.runId step.id := by
  obtain ⟨-, -, json, definition, -, -, rfl⟩ := h
  exact create_runId _ _ _ _ _

theorem runId_ne_of_subRun {x y : WorkflowExecutor W} (h : Relation.TransGen SubRun y x)
    (hlength : x.runId.toList.length ≠ 128) : y.runId ≠ x.runId := by
  have hone {x y : WorkflowExecutor W} (h : SubRun y x) : y.runId.toList.length ≤ 128 ∧
      min 128 (x.runId.toList.length + 1) ≤ y.runId.toList.length := by
    obtain ⟨step, -, hcalls⟩ := h
    rw [runId_of_calls hcalls, length_subRunId]
    omega
  have hmany : y.runId.toList.length ≤ 128 ∧
      min 128 (x.runId.toList.length + 1) ≤ y.runId.toList.length := by
    induction h using Relation.TransGen.head_induction_on with
    | single h => exact hone h
    | head h _ ih =>
      have hhere := hone h
      omega
  intro heq
  rw [heq] at hmany
  omega

end Agent33.Workflows.Executor
