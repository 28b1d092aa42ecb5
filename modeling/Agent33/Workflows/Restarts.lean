import Agent33.Workflows.Frames
import Agent33.Workflows.RunLoops

/-!
# Crashes and restarts

A run that is killed leaves a prefix of the checkpoints that it would have saved, and other
runs add theirs. The checkpoints of a run list more and more completed steps, so that the
latest one names every step whose success was ever saved, unless a nested run saves under the
same run id.
-/

namespace Agent33.Workflows.Executor

open Library Library.Async Library.Loop Workflows.Definition Workflows.Checkpoint List

variable {W : Type}

namespace WorkflowExecutor

variable (x : WorkflowExecutor W)

def own (rows : List WorkflowCheckpoint) : List WorkflowCheckpoint :=
  rows.filter fun row => decide (row.workflowId = x.runId)

def completedOf (row : WorkflowCheckpoint) : List String :=
  completedSteps (row.state.getD checkpointMetaKey (.obj []))

/-- The checkpoints of a run list their step among the completed ones, of which there are
more and more. -/
structure Chained (rows : List WorkflowCheckpoint) : Prop where
  grows : rows.Pairwise fun row row' => completedOf row ⊆ completedOf row'
  names : ∀ row ∈ rows, row.stepId ∈ completedOf row
  steps : ∀ row ∈ rows, completedOf row ⊆ stepIds x.definition.steps

structure Saved (s : Situation W) : Prop where
  chained : x.Chained (x.own s.2.1.2)
  completed : ∀ row ∈ x.own s.2.1.2, completedOf row ⊆ s.1.completed
  registry : InsideRegistry x s.2.2

variable {x}

theorem completedOf_saved (runId stepId : String) (state : State) (completed : List String) :
    completedOf ⟨runId, stepId, x.checkpointPayload stepId state completed⟩ =
      (stepIds x.definition.steps).filter fun sid => decide (sid ∈ completed) := by
  rw [completedOf, checkpointPayload, Dict.getD_set, if_pos rfl]
  simp [completedSteps, Json.field?, filterMap_map]

theorem own_append (rows rows' : List WorkflowCheckpoint) :
    x.own (rows ++ rows') = x.own rows ++ x.own rows' := filter_append _ _

theorem own_save (stepId : String) (state : State) (rows : List WorkflowCheckpoint) :
    x.own (saveCheckpoint x.runId stepId state rows) =
      x.own rows ++ [⟨x.runId, stepId, state⟩] := by
  rw [saveCheckpoint, own_append]
  simp [own]

theorem own_save_of_ne {runId : String} (h : runId ≠ x.runId) (stepId : String) (state : State)
    (rows : List WorkflowCheckpoint) :
    x.own (saveCheckpoint runId stepId state rows) = x.own rows := by
  rw [saveCheckpoint, own_append]
  simp [own, h]

variable {p : Progress} {s : Situation W}

theorem Chained.save (h : x.Chained rows)
    (hrows : ∀ row ∈ rows, completedOf row ⊆ completed) (hsid : sid ∈ stepIds x.definition.steps)
    (hdone : sid ∈ completed) (runId : String) (state : State) :
    x.Chained (rows ++ [⟨runId, sid, x.checkpointPayload sid state completed⟩]) := by
  have hsaved := completedOf_saved (x := x) runId sid state completed
  refine ⟨pairwise_append.mpr ⟨h.grows, pairwise_singleton _ _, ?_⟩, ?_, ?_⟩
  · intro row hrow row' hrow'
    rw [mem_singleton.mp hrow', hsaved]
    exact fun a ha => List.mem_filter.mpr ⟨h.steps row hrow ha, decide_eq_true (hrows row hrow ha)⟩
  · refine forall_mem_append.mpr ⟨h.names, forall_mem_singleton.mpr ?_⟩
    rw [hsaved]
    exact List.mem_filter.mpr ⟨hsid, decide_eq_true hdone⟩
  · refine forall_mem_append.mpr ⟨h.steps, forall_mem_singleton.mpr ?_⟩
    rw [hsaved]
    exact fun a ha => (List.mem_filter.mp ha).1

theorem completed_record (sid : String) (run : StepRun) (result : StepResult) (p : Progress) :
    p.completed ⊆ (p.record sid run result).completed := by
  rw [Progress.record]
  dsimp only
  split_ifs
  · exact subset_cons_self _ _
  · exact List.Subset.refl _

theorem Saved.settle (hsid : sid ∈ stepIds x.definition.steps) (h : x.Saved (p, d)) (run : StepRun)
    (result : StepResult) : x.Saved ((x.settle sid run result p).run d) := by
  have hmore : ∀ row ∈ x.own d.1.2, completedOf row ⊆ (p.record sid run result).completed :=
    fun row hrow =>
      List.Subset.trans (h.completed row hrow) (completed_record sid run result p)
  rw [WorkflowExecutor.settle, run_bind, run_bind]
  by_cases hsuccess : result.status = .success
  · have hdone : sid ∈ (p.record sid run result).completed := by
      rw [Progress.record]
      dsimp only
      rw [if_pos hsuccess]
      exact mem_cons_self
    rw [if_pos hsuccess, saveCheckpointState, run_modify]
    split_ifs
    · exact ⟨h.chained, hmore, h.registry⟩
    · refine ⟨?_, ?_, h.registry⟩
      · have hnext := h.chained.save hmore hsid hdone x.runId
          ((setState sid result.outputs).run d).2.2.state
        rw [← own_save] at hnext
        exact hnext
      · have hrows := own_save (x := x) sid (x.checkpointPayload sid
          ((setState sid result.outputs).run d).2.2.state (p.record sid run result).completed) d.1.2
        intro row hrow
        have hrow : row ∈ x.own (saveCheckpoint x.runId sid (x.checkpointPayload sid
          ((setState sid result.outputs).run d).2.2.state (p.record sid run result).completed)
            d.1.2) := hrow
        rw [hrows] at hrow
        rcases mem_append.mp hrow with hold | hnew
        · exact hmore row hold
        · rw [mem_singleton.mp hnew, completedOf_saved]
          exact fun a ha => of_decide_eq_true (List.mem_filter.mp ha).2
  · rw [if_neg hsuccess]
    exact ⟨h.chained, hmore, h.registry⟩

def KeepsOwn (x : WorkflowExecutor W) {α : Type} (c : Async (Data W) α) : Prop :=
  ∀ rows, Frame.Kept (fun s : Shared W => x.own s.2 = rows) (InsideRegistry x) c

theorem Saved.of_keepsOwn {α : Type} {c : Async (Data W) α} (hc : KeepsOwn x c)
    (h : x.Saved (p, d)) :
    x.Saved (p, (c.run d).2) := by
  obtain ⟨-, hrows, hregistry⟩ := (hc (x.own d.1.2)).run ⟨rfl, h.registry⟩
  refine ⟨?_, ?_, hregistry⟩
  · rw [hrows]
    exact h.chained
  · rw [hrows]
    exact h.completed

theorem Saved.congr (h : x.Saved (p, d)) (hp : p'.completed = p.completed) : x.Saved (p', d) :=
  ⟨h.chained, by rw [hp]; exact h.completed, h.registry⟩

section

variable (hderived : ∀ y, Relation.TransGen SubRun y x → y.runId ≠ x.runId) (n : ℕ)
include hderived n

theorem keepsOwn_executeStep (hstep : Inside x step) : KeepsOwn x (executeStep n x step) := by
  intro rows
  have hframe := frame_inside (J := fun s : Shared W => x.own s.2 = rows) (fun h => h) x
  refine hframe.kept_executeStep n (fun m _ inner y inputs hinner hcalls => ?_) hstep
  have hyx : SubRun y x := ⟨inner, hinner, hcalls⟩
  refine ensures_executeWith_of (· ≠ x.runId) (fun h => h) (fun stepId state hne h => ?_) m y
    (hderived y (.single hyx)) (fun z hz => hderived z (hz.tail hyx)) inputs
  rw [own_save_of_ne hne]
  exact h

theorem keepsOwn_runRegistered (sid : String) :
    KeepsOwn x (runRegistered (executeStep n x) sid) := fun rows =>
  (frame_inside (J := fun s : Shared W => x.own s.2 = rows) (fun h => h) x).kept_runRegistered
    (fun _ hstep => keepsOwn_executeStep hderived n hstep rows) sid

end

theorem Saved.runOne (hran : KeepsOwn x ran)
    (hsid : sid ∈ stepIds x.definition.steps) (h : x.Saved s) :
    x.Saved ((x.runOne ran sid s.1).run s.2) := by
  rw [WorkflowExecutor.runOne]
  split_ifs
  · exact h.congr rfl
  · have hafter := h.of_keepsOwn hran
    rw [run_bind]
    cases (ran.run s.2).1.result with
    | error e => exact hafter.congr rfl
    | ok result => exact hafter.settle hsid _ _

theorem restoreAll_run (sids : List String) (p : Progress) (d : Data W) :
    ((restoreAll sids p).run d).1.completed = p.completed ∧ ((restoreAll sids p).run d).2 = d := by
  induction sids generalizing p with
  | nil => exact ⟨rfl, rfl⟩
  | cons sid rest ih =>
    rw [restoreAll, run_bind]
    exact ih _

theorem Saved.settleAll (hruns : ∀ run ∈ runs, run.1 ∈ stepIds x.definition.steps) (h : x.Saved s) :
    x.Saved ((x.settleAll runs s.1).run s.2) := by
  induction runs generalizing s with
  | nil => exact h
  | cons run rest ih =>
    obtain ⟨hrun, hrest⟩ := forall_mem_cons.mp hruns
    rw [WorkflowExecutor.settleAll, run_bind]
    exact ih hrest (h.settle hrun _ _)

theorem Saved.round (hderived : ∀ y, Relation.TransGen SubRun y x → y.runId ≠ x.runId) (n : ℕ)
    {round : List String × (Situation W → Situation W)}
    (hround : round ∈ x.rounds (executeStep n x)) (h : x.Saved s) : x.Saved (turn round s) := by
  rcases x.mem_rounds _ hround with ⟨step, hstep, rfl⟩ | ⟨-, group, hgroup, rfl⟩
  · exact h.runOne (keepsOwn_executeStep hderived n (.top hstep)) (mem_map_of_mem hstep)
  · have hgathered : x.Saved ((x.runGathered (executeStep n x) group s.1).run s.2) := by
      rw [runGathered, run_bind, run_bind]
      obtain ⟨hcompleted, hdata⟩ := restoreAll_run
        (group.filter fun sid => decide (sid ∈ s.1.completed)) s.1 s.2
      generalize (restoreAll (group.filter fun sid => decide (sid ∈ s.1.completed)) s.1).run s.2 =
        restored at hcompleted hdata
      obtain ⟨p, d⟩ := restored
      have hp : x.Saved (p, d) := by
        rw [show d = s.2 from hdata]
        exact h.congr hcompleted
      have hgather : KeepsOwn x (gather
          (x.services.schedule (group.filter fun sid => decide (sid ∉ s.1.completed)))
          ((group.filter fun sid => decide (sid ∉ s.1.completed)).map
            (runRegistered (executeStep n x)))) := fun rows =>
        Frame.kept_gather (fun sid _ => keepsOwn_runRegistered hderived n sid rows) _
      refine (hp.of_keepsOwn hgather).settleAll fun run hrun => ?_
      exact hgroup _ (List.mem_filter.mp (of_mem_zip hrun).1).1
    match group, hgroup, hgathered with
    | [], _, hgathered => exact hgathered
    | [sid], hgroup, _ =>
      exact h.runOne (keepsOwn_runRegistered hderived n sid)
        (hgroup sid (mem_singleton_self sid))
    | _ :: _ :: _, _, hgathered => exact hgathered

theorem Chained.sublist (h : x.Chained rows) (hsub : rows'.Sublist rows) : x.Chained rows' :=
  ⟨h.grows.sublist hsub, fun row hrow => h.names row (hsub.subset hrow),
    fun row hrow => h.steps row (hsub.subset hrow)⟩

theorem loadCheckpoint_own (rows : List WorkflowCheckpoint) :
    loadCheckpoint x.runId rows = (x.own rows).getLast?.map (·.state) := by
  rw [loadCheckpoint, own, getLast?_filter]

theorem Saved.start (hmanager : x.services.checkpointManager = true)
    (hresume : x.resumeFromCheckpoint = true) (shared : Shared W)
    (h : x.Chained (x.own shared.2)) (inputs : Outputs) : x.Saved (x.start inputs shared) := by
  refine ⟨h, ?_, insideRegistry_start x _⟩
  intro row hrow
  have hload := loadCheckpoint_own (x := x) shared.2
  obtain ⟨before, last, hlast⟩ :=
    (eq_nil_or_concat (x.own shared.2)).resolve_left (ne_nil_of_mem hrow)
  rw [concat_eq_append] at hlast
  have hmore : completedOf row ⊆ completedOf last := by
    have hgrows := h.grows
    have hrow : row ∈ x.own shared.2 := hrow
    rw [hlast] at hgrows hrow
    rcases mem_append.mp hrow with hbefore | heq
    · exact (pairwise_append.mp hgrows).2.2 row hbefore last (mem_singleton_self last)
    · rw [mem_singleton.mp heq]
      exact List.Subset.refl _
  have hstate : loadCheckpoint x.runId shared.2 = some last.state := by
    rw [hload, hlast, getLast?_append, getLast?_singleton]
    rfl
  have hcompleted : (x.start inputs shared).1.completed =
      (completedOf last).filter fun sid => decide (sid ∈ stepIds x.definition.steps) := by
    have hon : ¬(x.services.checkpointManager = false ∨ x.resumeFromCheckpoint = false) := by
      simp [hmanager, hresume]
    simp only [WorkflowExecutor.start, loadCheckpointState, if_neg hon, hstate]
    rfl
  rw [hcompleted]
  exact fun sid hsid =>
    List.mem_filter.mpr ⟨hmore hsid, decide_eq_true (h.steps row hrow hsid)⟩

theorem Saved.closing (h : x.Saved s) : x.Saved (x.closing s) := by
  rw [WorkflowExecutor.closing]
  split
  · exact h
  · exact h.congr rfl
  · exact h

theorem Saved.ending (hmanager : x.services.checkpointManager = true)
    (hresume : x.resumeFromCheckpoint = true)
    (hderived : ∀ y, Relation.TransGen SubRun y x → y.runId ≠ x.runId) (shared : Shared W)
    (h : x.Chained (x.own shared.2)) (inputs : Outputs) : x.Saved (x.ending inputs shared) := by
  have hstep {done rest : List (List String × (Situation W → Situation W))}
      {round : List String × (Situation W → Situation W)} {s : Situation W}
      (hall : x.rounds (executeStep x.services.recursionLimit x) = done ++ round :: rest)
      (_ : True) (hs : x.Saved s) : x.Saved (turn round s) := by
    refine hs.round hderived x.services.recursionLimit ?_
    rw [hall]
    exact mem_append_right _ mem_cons_self
  have hloop : ∃ _ : List (List String × (Situation W → Situation W)), x.Saved (loop x.stops turn
      (x.rounds (executeStep x.services.recursionLimit x)) (x.start inputs shared)) :=
    loop_induction (I := fun _ s => x.Saved s) hstep (nil_append _).symm
      (fun _ _ => trivial) (Saved.start hmanager hresume shared h inputs)
  obtain ⟨-, hloop⟩ := hloop
  exact hloop.closing

theorem rows_prefix (x : WorkflowExecutor W) (inputs : Outputs) (shared : Shared W) :
    shared.2 <+: ((x.execute inputs).run shared).2.2 :=
  ((ensures_executeWith_of (J := fun s : Shared W => shared.2 <+: s.2) (fun _ => True)
    (fun h => h) (fun _ _ _ h => h.trans (prefix_append _ _)) x.services.recursionLimit x
    trivial (fun _ _ => trivial) inputs).run (s := shared) (prefix_refl _)).2

structure Fresh (done : List String) (p : Progress) : Prop where
  completed : done ⊆ p.completed
  runs : ∀ run ∈ p.runs, run.step.id ∉ done

theorem Fresh.append {done : List String} (h : Fresh done p) {run : StepRun}
    (hnew : run.step.id ∉ p.completed) : ∀ t ∈ p.runs ++ [run], t.step.id ∉ done :=
  forall_mem_append.mpr
    ⟨h.runs, forall_mem_singleton.mpr fun hdone => hnew (h.completed hdone)⟩

theorem accounts_fresh (done : List String) : Accounts x (fun _ => True) (fun _ => Fresh done) where
  restore h _ _ _ := ⟨h.completed, h.runs⟩
  record h _ hnew _ _ :=
    ⟨List.Subset.trans h.completed (completed_record _ _ _ _), h.append hnew⟩
  raise h _ hnew _ _ _ := ⟨h.completed, h.append hnew⟩

theorem fresh_runs (x : WorkflowExecutor W) (inputs : Outputs) (shared : Shared W) :
    ∀ run ∈ ((x.execute inputs).run shared).1.runs,
      run.step.id ∉ (x.start inputs shared).1.completed := by
  have hstart : Fresh (x.start inputs shared).1.completed (x.start inputs shared).1 :=
    ⟨List.Subset.refl _, nofun⟩
  have hloop := (ensures_runSteps (accounts_fresh (x := x) (x.start inputs shared).1.completed)
    (ensures_executeStep (fun _ _ _ => trivial) x.services.recursionLimit x)
    (fun _ _ => trivial) hstart).run (s := (x.start inputs shared).2)
      (registryIds_ofList x.definition.steps)
  rw [execute_run]
  rcases hloop.1 with ⟨ids, -, hfresh, -⟩ | ⟨-, e, -, hcyclic⟩
  · exact hfresh.runs
  · rw [finish, hcyclic]
    exact nofun

end WorkflowExecutor

open WorkflowExecutor

/-- An execution that is killed when it has saved so many checkpoints, and what other runs
save before the next one. -/
structure Execution (W : Type) where
  executor : WorkflowExecutor W
  world : W
  inputs : Outputs
  kept : ℕ
  others : List WorkflowCheckpoint

def Execution.rowsAfter (rows : List WorkflowCheckpoint) (e : Execution W) :
    List WorkflowCheckpoint :=
  ((e.executor.execute e.inputs).run (e.world, rows)).2.2.take (rows.length + e.kept) ++ e.others

def history (rows : List WorkflowCheckpoint) (executions : List (Execution W)) :
    List WorkflowCheckpoint :=
  executions.foldl Execution.rowsAfter rows

structure Resumes (x : WorkflowExecutor W) : Prop where
  manager : x.services.checkpointManager = true
  resume : x.resumeFromCheckpoint = true
  derived : ∀ y, Relation.TransGen SubRun y x → y.runId ≠ x.runId

structure Execution.Of (x : WorkflowExecutor W) (e : Execution W) : Prop where
  definition : e.executor.definition = x.definition
  runId : e.executor.runId = x.runId
  resumes : Resumes e.executor
  others : ∀ row ∈ e.others, row.workflowId ≠ x.runId

variable {x : WorkflowExecutor W} {rows : List WorkflowCheckpoint}

theorem own_eq_nil (h : ∀ row ∈ rows, row.workflowId ≠ x.runId) : x.own rows = [] := by
  apply filter_eq_nil_iff.mpr
  intro row hrow
  simpa using h row hrow

theorem own_congr {y : WorkflowExecutor W} (h : y.runId = x.runId) : y.own = x.own := by
  funext rows
  rw [own, own, h]

theorem WorkflowExecutor.Chained.congr {y : WorkflowExecutor W} (hdef : y.definition = x.definition)
    (h : x.Chained rows) : y.Chained rows := by
  refine ⟨h.grows, h.names, ?_⟩
  rw [hdef]
  exact h.steps

theorem Execution.Of.chained {e : Execution W} (he : e.Of x) (h : x.Chained (x.own rows)) :
    x.Chained (x.own (e.rowsAfter rows)) := by
  have hown := own_congr he.runId
  have hstart : e.executor.Chained (e.executor.own rows) := by
    rw [hown]
    exact h.congr he.definition
  have hend := (Saved.ending he.resumes.manager he.resumes.resume he.resumes.derived
    (e.world, rows) hstart e.inputs).chained
  rw [hown] at hend
  rw [Execution.rowsAfter, execute_ending, own_append, own_eq_nil he.others, append_nil]
  exact (hend.congr he.definition.symm).sublist ((take_sublist _ _).filter _)

theorem prefix_rowsAfter (rows : List WorkflowCheckpoint) (e : Execution W) :
    rows <+: e.rowsAfter rows := by
  have hall := rows_prefix e.executor e.inputs (e.world, rows)
  exact (prefix_take_iff.mpr ⟨hall, Nat.le_add_right _ _⟩).trans (prefix_append _ _)

theorem prefix_history (rows : List WorkflowCheckpoint) (executions : List (Execution W)) :
    rows <+: history rows executions := by
  induction executions generalizing rows with
  | nil => exact prefix_refl rows
  | cons e rest ih => exact (prefix_rowsAfter rows e).trans (ih _)

theorem chained_history (hof : ∀ e ∈ executions, e.Of x)
    (h : x.Chained (x.own rows)) : x.Chained (x.own (history rows executions)) := by
  induction executions generalizing rows with
  | nil => exact h
  | cons e rest ih =>
    obtain ⟨he, hrest⟩ := forall_mem_cons.mp hof
    exact ih hrest (he.chained h)

theorem not_attempted (hx : Resumes x) (h : x.Chained (x.own rows))
    (hrow : row ∈ rows) (hid : row.workflowId = x.runId) (inputs : Outputs) (world : W) :
    ∀ run ∈ ((x.execute inputs).run (world, rows)).1.runs, run.step.id ≠ row.stepId := by
  intro run hrun heq
  have hown : row ∈ x.own rows := List.mem_filter.mpr ⟨hrow, decide_eq_true hid⟩
  have hstart := Saved.start hx.manager hx.resume (world, rows) h inputs
  have hdone := hstart.completed row hown (h.names row hown)
  rw [← heq] at hdone
  exact fresh_runs x inputs (world, rows) run hrun hdone

def twoTransforms : WorkflowDefinition where
  name := "two-transforms"
  steps := [{ id := "first", action := .transform }, { id := "second", action := .transform }]
  nonempty := nofun
  uniqueStepIds := by decide
  knownDependencies := by decide

def twoTransformsKilled : Execution PUnit where
  executor := plainExecutor twoTransforms "r"
  world := ⟨⟩
  inputs := Dict.empty
  kept := 1
  others := []

theorem twoTransforms_resumes : Resumes (plainExecutor twoTransforms "r") where
  manager := rfl
  resume := rfl
  derived _ hy := runId_ne_of_subRun hy (by decide)

def longStepId : String := String.ofList (List.replicate 128 'x')

end Agent33.Workflows.Executor
