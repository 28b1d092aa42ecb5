import Agent33.Library.History
import Agent33.Workflows.Accounting
import Agent33.Workflows.Registries
import Agent33.Workflows.Restarts

/-!
# Resumed and uninterrupted runs

A run that resumes from the checkpoint at the end of a round restores the steps of the rounds
so far, and then goes on as the run that saved it would have done. A step that was skipped is
not restored. Its condition is evaluated again, in the state of the checkpoint.
-/

namespace Agent33.Workflows.Executor

open Library Library.Async Library.Loop Workflows.Definition Workflows.Expressions
open Workflows.Checkpoint List

variable {W : Type}

theorem Agrees.mono (h : Agrees more d d') (hids : ids ≤ more) : Agrees ids d d' :=
  ⟨h.shared, h.state, fun sid hsid => h.registry sid (hids hsid)⟩

theorem Same.run {α : Type} {ids : Set String} {c : Async (Data W) α} (hc : Same ids c)
    {d d' : Data W} (hd : Agrees ids d d') :
    (c.run d).1 = (c.run d').1 ∧ Agrees ids (c.run d).2 (c.run d').2 := by
  obtain ⟨hresult, more, hmore, hend⟩ := Alike.run hc le_rfl hd
  exact ⟨hresult, hend.mono hmore⟩

structure SameOutputs (r r' : StepResult) : Prop where
  outputs : r.outputs = r'.outputs
  failed : r.status = .failed ↔ r'.status = .failed

theorem SameOutputs.refl (r : StepResult) : SameOutputs r r := ⟨rfl, Iff.rfl⟩

namespace WorkflowExecutor

variable {x : WorkflowExecutor W}

theorem finalOutputs_congr (h : List.Forall₂ SameOutputs results results') :
    finalOutputs results = finalOutputs results' := by
  have hnot (status : StepStatus) :
      (status = .success ∨ status = .skipped) ↔ ¬status = .failed := by
    cases status <;> simp
  have hcounts {r r' : StepResult} (hr : SameOutputs r r') : (r.status = .success ∨
      r.status = .skipped) ↔ (r'.status = .success ∨ r'.status = .skipped) := by
    rw [hnot, hnot]
    exact not_congr hr.failed
  have hfold (outputs : Outputs) :
      results.foldl (fun outputs r =>
        if r.status = .success ∨ r.status = .skipped then outputs.update r.outputs else outputs)
          outputs =
      results'.foldl (fun outputs r =>
        if r.status = .success ∨ r.status = .skipped then outputs.update r.outputs else outputs)
          outputs := by
    induction h generalizing outputs with
    | nil => rfl
    | cons hr _ ih =>
      rw [foldl_cons, foldl_cons, ih, hr.outputs, if_congr (hcounts hr) rfl rfl]
  exact hfold Dict.empty

structure Simulates (x : WorkflowExecutor W) (ids : Set String) (s s' : Situation W) : Prop where
  data : Agrees ids s.2 s'.2
  completed : ∀ sid ∈ stepIds x.definition.steps, sid ∈ s.1.completed ↔ sid ∈ s'.1.completed
  results : List.Forall₂ SameOutputs s.1.stepResults s'.1.stepResults
  failed : s.1.failed = s'.1.failed
  raised : s.1.raised = s'.1.raised
  runs : ∀ run ∈ s'.1.runs, run.attempts ≠ [] → run ∈ s.1.runs

variable {s s' : Situation W}

theorem forall₂_concat {α β : Type} {R : α → β → Prop} {as : List α} {bs : List β}
    (h : List.Forall₂ R as bs) {a : α} {b : β} (hab : R a b) :
    List.Forall₂ R (as ++ [a]) (bs ++ [b]) :=
  rel_append h (.cons hab .nil)

section

variable (h : x.Simulates ids s s')
include h

theorem Simulates.runs_append (run : StepRun) :
    ∀ t ∈ s'.1.runs ++ [run], t.attempts ≠ [] → t ∈ s.1.runs ++ [run] := by
  intro t ht hattempts
  rcases mem_append.mp ht with ht | ht
  · exact mem_append_left _ (h.runs t ht hattempts)
  · exact mem_append_right _ ht

theorem Simulates.raise (run : StepRun) (e : Raised)
    (hd : Agrees ids d d') : x.Simulates ids (s.1.raise run e, d) (s'.1.raise run e, d') :=
  ⟨hd, h.completed, h.results, rfl, rfl, h.runs_append run⟩

theorem Simulates.congr (hd : Agrees ids d d') : x.Simulates ids (s.1, d) (s'.1, d') :=
  ⟨hd, h.completed, h.results, h.failed, h.raised, h.runs⟩

theorem Simulates.record (sid : String) (run : StepRun)
    (result : StepResult) :
    x.Simulates ids (s.1.record sid run result, s.2) (s'.1.record sid run result, s'.2) := by
  refine ⟨h.data, fun sid' hsid => ?_, forall₂_concat h.results (SameOutputs.refl result), ?_,
    h.raised, h.runs_append run⟩
  · simp only [Progress.record]
    split_ifs
    · rw [mem_cons, mem_cons, h.completed sid' hsid]
    · exact h.completed sid' hsid
  · simp only [Progress.record, h.failed]

theorem Simulates.payload (sid : String) (state : State) :
    x.checkpointPayload sid state s.1.completed = x.checkpointPayload sid state s'.1.completed := by
  have hfilter : (stepIds x.definition.steps).filter (fun sid => decide (sid ∈ s.1.completed)) =
      (stepIds x.definition.steps).filter fun sid => decide (sid ∈ s'.1.completed) :=
    filter_congr fun sid hsid => decide_eq_decide.mpr (h.completed sid hsid)
  rw [checkpointPayload, checkpointPayload, hfilter]

theorem Simulates.settle (sid : String) (run : StepRun)
    (result : StepResult) :
    x.Simulates ids ((x.settle sid run result s.1).run s.2)
      ((x.settle sid run result s'.1).run s'.2) := by
  have hset := (Same.setState sid result.outputs).run h.data
  have hrecord := (h.record sid run result).congr hset.2
  rw [WorkflowExecutor.settle, WorkflowExecutor.settle, run_bind, run_bind, run_bind, run_bind]
  split_ifs
  · rw [saveCheckpointState, saveCheckpointState, run_modify, run_modify]
    split_ifs
    · exact hrecord
    · refine hrecord.congr ⟨?_, hset.2.state, hset.2.registry⟩
      have hshared := hset.2.shared
      have hpayload := hrecord.payload sid ((setState sid result.outputs).run s.2).2.2.state
      have hstate := hset.2.state
      rw [Prod.ext_iff] at hshared ⊢
      refine ⟨hshared.1, ?_⟩
      dsimp only at hpayload ⊢
      rw [hpayload, hstate, hshared.2]
  · exact hrecord

theorem Simulates.restore (sid : String) :
    x.Simulates ids ((restoreStep sid s.1).run s.2) ((restoreStep sid s'.1).run s'.2) := by
  rw [restoreStep, restoreStep, run_bind, run_bind, run_read, run_read, h.data.state]
  exact ⟨h.data, h.completed, forall₂_concat h.results (SameOutputs.refl _), h.failed, h.raised,
    h.runs⟩

theorem Simulates.runOne (hran : Same ids ran) (hsid : sid ∈ stepIds x.definition.steps) :
    x.Simulates ids ((x.runOne ran sid s.1).run s.2) ((x.runOne ran sid s'.1).run s'.2) := by
  obtain ⟨hresult, hd⟩ := hran.run h.data
  rw [WorkflowExecutor.runOne, WorkflowExecutor.runOne, if_congr (h.completed sid hsid) rfl rfl]
  split_ifs
  · exact h.restore sid
  · rw [run_bind, run_bind, hresult]
    cases (ran.run s'.2).1.result with
    | error e => exact h.raise _ e hd
    | ok result => exact (h.congr hd).settle sid _ result

theorem Simulates.restoreAll (sids : List String) :
    x.Simulates ids ((restoreAll sids s.1).run s.2) ((restoreAll sids s'.1).run s'.2) := by
  induction sids generalizing s s' with
  | nil => exact h
  | cons sid rest ih =>
    rw [WorkflowExecutor.restoreAll, WorkflowExecutor.restoreAll, run_bind, run_bind]
    exact ih (h.restore sid)

theorem Simulates.settleAll (runs : List (String × StepRun)) :
    x.Simulates ids ((x.settleAll runs s.1).run s.2) ((x.settleAll runs s'.1).run s'.2) := by
  induction runs generalizing s s' with
  | nil => exact h
  | cons run rest ih =>
    rw [WorkflowExecutor.settleAll, WorkflowExecutor.settleAll, run_bind, run_bind]
    exact ih (h.settle run.1 run.2 _)

theorem Simulates.runGathered (hran : ∀ ids step, Same ids (runStep step))
    (hgroup : ∀ sid ∈ group, sid ∈ stepIds x.definition.steps) (hids : ∀ sid ∈ group, sid ∈ ids) :
    x.Simulates ids ((x.runGathered runStep group s.1).run s.2)
      ((x.runGathered runStep group s'.1).run s'.2) := by
  have hdone : group.filter (fun sid => decide (sid ∈ s.1.completed)) =
      group.filter fun sid => decide (sid ∈ s'.1.completed) :=
    filter_congr fun sid hsid => decide_eq_decide.mpr (h.completed sid (hgroup sid hsid))
  have htodo : group.filter (fun sid => decide (sid ∉ s.1.completed)) =
      group.filter fun sid => decide (sid ∉ s'.1.completed) :=
    filter_congr fun sid hsid =>
      decide_eq_decide.mpr (not_congr (h.completed sid (hgroup sid hsid)))
  rw [WorkflowExecutor.runGathered, WorkflowExecutor.runGathered, hdone, htodo, run_bind, run_bind,
    run_bind, run_bind]
  have hrestored := h.restoreAll (group.filter fun sid => decide (sid ∈ s'.1.completed))
  have hgather : Same ids (gather
      (x.services.schedule (group.filter fun sid => decide (sid ∉ s'.1.completed)))
      ((group.filter fun sid => decide (sid ∉ s'.1.completed)).map (runRegistered runStep))) :=
    alike_gather _
      (fun sid hsid => Same.runRegistered hran (hids sid (List.mem_filter.mp hsid).1)) _
  obtain ⟨hruns, hd⟩ := hgather.run hrestored.data
  rw [hruns]
  exact (hrestored.congr hd).settleAll _

theorem Simulates.round (n : ℕ)
    {round : List String × (Situation W → Situation W)}
    (hround : round ∈ x.rounds (executeStep n x))
    (hids : x.definition.execution.mode ≠ .sequential → ∀ sid ∈ round.1, sid ∈ ids) :
    x.Simulates ids (turn round s) (turn round s') := by
  rcases x.mem_rounds _ hround with ⟨step, hstep, rfl⟩ | ⟨hmode, group, hgroup, rfl⟩
  · exact h.runOne (same_executeStep n x ids step) (mem_map_of_mem hstep)
  · have hgathered := h.runGathered (same_executeStep n x) hgroup (hids hmode)
    match group, hgroup, hids, hgathered with
    | [], _, _, hgathered => exact hgathered
    | [sid], hgroup, hids, _ =>
      have hsid := mem_singleton_self sid
      exact h.runOne (Same.runRegistered (same_executeStep n x) (hids hmode sid hsid))
        (hgroup sid hsid)
    | _ :: _ :: _, _, _, hgathered => exact hgathered

theorem Simulates.stops_eq : x.stops s = x.stops s' := by
  rw [stops, stops]
  cases x.definition.execution.mode with
  | _ => simp only [stopsSequence, stopsGroups, h.failed, h.raised]

theorem Simulates.closing : x.Simulates ids (x.closing s) (x.closing s') := by
  rw [WorkflowExecutor.closing, WorkflowExecutor.closing]
  split
  · exact h
  · exact ⟨h.data, h.completed, h.results, rfl, rfl, h.runs⟩
  · exact h

end

structure Shows (state : State) (sid : String) (r : StepResult) : Prop where
  outputs : state.get? sid = some r.outputs.json
  counted : r.status ≠ .failed

theorem Shows.sameOutputs (h : Shows state sid r) (h' : Shows state sid r') : SameOutputs r r' := by
  have houtputs := h.outputs.symm.trans h'.outputs
  simp only [Outputs.json, Option.some.injEq, Json.obj.injEq] at houtputs
  exact ⟨Dict.ext houtputs, iff_of_false h.counted h'.counted⟩

theorem sameOutputs_of_shows (h : List.Forall₂ (Shows state) sids results)
    (h' : List.Forall₂ (Shows state) sids results') :
    List.Forall₂ SameOutputs results results' := by
  induction h generalizing results' with
  | nil =>
    cases h'
    exact .nil
  | cons hshows _ ih =>
    cases h' with
    | cons hshows' hrest => exact .cons (hshows.sameOutputs hshows') (ih hrest)

theorem Shows.restored (h : Shows state sid r) :
    Shows state sid (checkpointRestoredResult sid state) := by
  refine ⟨?_, nofun⟩
  have hget : state.getD sid (.obj []) = .obj r.outputs.entries := by
    rw [Dict.getD, h.outputs]
    rfl
  have hsame : Dict.ofList r.outputs.entries = r.outputs :=
    Dict.ext (Dict.entries_ofList r.outputs.nodup)
  rw [h.outputs, checkpointRestoredResult, hget]
  dsimp only
  rw [hsame]

def skippedRun (step : WorkflowStep) : StepRun where
  step := step
  result := .ok (skippedResult step)

structure SkipsAgain (x : WorkflowExecutor W) (state : State) (step : WorkflowStep) : Prop where
  shows : Shows state step.id (skippedResult step)
  condition : x.shouldRun step state = .ok false

theorem SkipsAgain.ensures (h : SkipsAgain x d.2.state step)
    (n : ℕ) :
    Ensures (fun d' => d' = d) (fun run => run = skippedRun step) (executeStep (n + 1) x step) := by
  refine (ensures_read (Q := fun d' => d' = d) fun _ hd => hd).bind fun d' hd => ?_
  rw [hd, h.condition]
  exact ensures_pure rfl

structure Replays (d : Data W) (completed sids : List String) (s : Situation W) : Prop where
  data : s.2 = d
  completed : s.1.completed = completed
  results : List.Forall₂ (Shows d.2.state) sids s.1.stepResults
  failed : s.1.failed = false
  raised : s.1.raised = none
  runs : ∀ run ∈ s.1.runs, run.attempts = []

variable {d : Data W} {completed sids : List String}

theorem Replays.restore (h : Replays d completed sids s) (hshows : Shows d.2.state sid r) :
    Replays d completed (sids ++ [sid]) ((restoreStep sid s.1).run s.2) := by
  rw [restoreStep, run_bind, run_read, h.data]
  exact ⟨rfl, h.completed, forall₂_concat h.results hshows.restored, h.failed, h.raised, h.runs⟩

theorem Replays.skip (h : Replays d completed sids s) (hskips : SkipsAgain x d.2.state step) :
    Replays d completed (sids ++ [step.id])
      ((x.settle step.id (skippedRun step) (skippedResult step) s.1).run s.2) := by
  have hset : ((setState step.id (skippedResult step).outputs).run d).2 = d := by
    have hsame : d.2.state.set step.id (skippedResult step).outputs.json = d.2.state :=
      Dict.set_eq_self hskips.shows.outputs
    change (d.1, { d.2 with state := d.2.state.set step.id (skippedResult step).outputs.json }) = d
    rw [hsame]
  have hnot : ¬(skippedResult step).status = .success := nofun
  rw [WorkflowExecutor.settle, run_bind, run_bind, h.data, hset, if_neg hnot]
  refine ⟨rfl, h.completed, forall₂_concat h.results hskips.shows, ?_, h.raised, ?_⟩
  · exact (Bool.or_false _).trans h.failed
  · exact forall_mem_append.mpr ⟨h.runs, forall_mem_singleton.mpr rfl⟩

def Passes (x : WorkflowExecutor W) (d : Data W) (completed : List String) (sid : String) : Prop :=
  (sid ∈ completed → ∃ r, Shows d.2.state sid r) ∧
    (sid ∉ completed → ∀ step ∈ x.definition.steps, step.id = sid → SkipsAgain x d.2.state step)

theorem Replays.runOne (h : Replays d completed sids s) (hstep : step ∈ x.definition.steps)
    (hpasses : Passes x d completed step.id)
    (hran : SkipsAgain x d.2.state step →
      Ensures (fun d' => d' = d) (fun run => run = skippedRun step) ran) :
    Replays d completed (sids ++ [step.id]) ((x.runOne ran step.id s.1).run s.2) := by
  rw [WorkflowExecutor.runOne, h.completed]
  split_ifs with hcompleted
  · obtain ⟨r, hr⟩ := hpasses.1 hcompleted
    exact h.restore hr
  · have hskips := hpasses.2 hcompleted step hstep rfl
    obtain ⟨hrun, hd⟩ := (hran hskips).run h.data
    have hskip := h.skip hskips
    rw [h.data] at hskip
    rw [run_bind, hrun, hd]
    exact hskip

theorem Replays.restoreAll (h : Replays d completed sids s)
    (hgroup : ∀ sid ∈ group, ∃ r, Shows d.2.state sid r) :
    Replays d completed (sids ++ group) ((restoreAll group s.1).run s.2) := by
  induction group generalizing sids s with
  | nil =>
    rw [append_nil]
    exact h
  | cons sid rest ih =>
    obtain ⟨⟨r, hr⟩, hrest⟩ := forall_mem_cons.mp hgroup
    rw [WorkflowExecutor.restoreAll, run_bind, append_cons]
    exact ih (h.restore hr) hrest

def IsSkip (x : WorkflowExecutor W) (state : State) (sid : String) (run : StepRun) : Prop :=
  ∃ step, step.id = sid ∧ SkipsAgain x state step ∧ run = skippedRun step

theorem Replays.settleAll (h : Replays d completed sids s) {group : List String}
    {runs : List StepRun} (hruns : List.Forall₂ (IsSkip x d.2.state) group runs) :
    Replays d completed (sids ++ group) ((x.settleAll (group.zip runs) s.1).run s.2) := by
  induction hruns generalizing sids s with
  | nil =>
    rw [append_nil]
    exact h
  | cons hrun _ ih =>
    obtain ⟨step, rfl, hskips, rfl⟩ := hrun
    rw [zip_cons_cons, WorkflowExecutor.settleAll, run_bind, append_cons]
    exact ih (h.skip hskips)

theorem ensures_runRegistered_skips {n : ℕ}
    (hregistry : d.2.steps.get? step.id = some step) (h : SkipsAgain x d.2.state step) :
    Ensures (fun d' => d' = d) (fun run => run = skippedRun step)
      (runRegistered (executeStep (n + 1) x) step.id) := by
  refine (ensures_read (Q := fun d' => d' = d) fun _ hd => hd).bind fun d' hd => ?_
  rw [hd, hregistry]
  exact h.ensures n

theorem Replays.runGathered (h : Replays d completed sids s) {n : ℕ}
    (hregistry : ∀ step ∈ x.definition.steps, d.2.steps.get? step.id = some step)
    (hgroup : ∀ sid ∈ group, sid ∈ stepIds x.definition.steps)
    (hpasses : ∀ sid ∈ group, Passes x d completed sid) :
    Replays d completed (sids ++ groupOrder completed group)
      ((x.runGathered (executeStep (n + 1) x) group s.1).run s.2) := by
  have hrestored : Replays d completed
      (sids ++ group.filter fun sid => decide (sid ∈ completed))
      ((WorkflowExecutor.restoreAll (group.filter fun sid => decide (sid ∈ completed)) s.1).run
        s.2) := by
    refine h.restoreAll fun sid hsid => ?_
    rw [List.mem_filter, decide_eq_true_iff] at hsid
    exact (hpasses sid hsid.1).1 hsid.2
  have hgather : Ensures (fun d' => d' = d)
      (List.Forall₂ (IsSkip x d.2.state) (group.filter fun sid => decide (sid ∉ completed)))
      (gather (x.services.schedule (group.filter fun sid => decide (sid ∉ completed)))
        ((group.filter fun sid => decide (sid ∉ completed)).map
          (runRegistered (executeStep (n + 1) x)))) := by
    refine ensures_gather (fun sid hsid => ?_) _
    rw [List.mem_filter, decide_eq_true_iff] at hsid
    obtain ⟨step, hstep, rfl⟩ := mem_map.mp (hgroup sid hsid.1)
    have hskips := (hpasses step.id hsid.1).2 hsid.2 step hstep rfl
    exact (ensures_runRegistered_skips (hregistry step hstep) hskips).imp fun run hrun =>
      ⟨step, rfl, hskips, hrun⟩
  rw [WorkflowExecutor.runGathered, h.completed, run_bind, run_bind]
  obtain ⟨hruns, hd⟩ := hgather.run hrestored.data
  have hsettled := hrestored.settleAll hruns
  rw [hrestored.data] at hsettled
  rw [hd, hrestored.data, groupOrder, ← append_assoc]
  exact hsettled

theorem Replays.round (h : Replays d completed sids s)
    {round : List String × (Situation W → Situation W)}
    (hround : round ∈ x.rounds (executeStep (n + 1) x))
    (hregistry : ∀ step ∈ x.definition.steps, d.2.steps.get? step.id = some step)
    (hpasses : ∀ sid ∈ round.1, Passes x d completed sid)
    (hordered : groupOrder completed round.1 = round.1) :
    Replays d completed (sids ++ round.1) (turn round s) := by
  rcases x.mem_rounds _ hround with ⟨step, hstep, rfl⟩ | ⟨-, group, hgroup, rfl⟩
  · exact h.runOne hstep (hpasses step.id (mem_singleton_self _)) fun hskips =>
      hskips.ensures n
  · have hgathered := h.runGathered (n := n) hregistry hgroup hpasses
    rw [hordered] at hgathered
    match group, hgroup, hpasses, hgathered with
    | [], _, _, hgathered => exact hgathered
    | [sid], hgroup, hpasses, _ =>
      have hsid := mem_singleton_self sid
      obtain ⟨step, hstep, rfl⟩ := mem_map.mp (hgroup sid hsid)
      exact h.runOne hstep (hpasses step.id hsid) fun hskips =>
        ensures_runRegistered_skips (hregistry step hstep) hskips
    | _ :: _ :: _, _, _, hgathered => exact hgathered

/-- The end of a round at which the latest checkpoint has the state and the completed steps.
Every step so far succeeded, or was skipped and is skipped in this state again, and the state
still has the outputs of all of them. The registry still has the steps of the definition for
those that remain. -/
structure CleanCut (x : WorkflowExecutor W)
    (done rest : List (List String × (Situation W → Situation W))) (s : Situation W) : Prop where
  raised : s.1.raised = none
  failed : s.1.failed = false
  results : List.Forall₂ (Shows s.2.2.state) (done.flatMap Prod.fst) s.1.stepResults
  skipped : ∀ sid ∈ done.flatMap Prod.fst, sid ∉ s.1.completed →
    ∀ step ∈ x.definition.steps, step.id = sid → SkipsAgain x s.2.2.state step
  ordered : ∀ round ∈ done, groupOrder s.1.completed round.1 = round.1
  registry : x.definition.execution.mode ≠ .sequential → ∀ round ∈ rest, ∀ sid ∈ round.1,
    s.2.2.steps.get? sid =
      (Dict.ofList (x.definition.steps.map fun step => (step.id, step))).get? sid
  faithful : checkpointMetaKey ∉ s.2.2.state.keys
  latest : ∃ sid, loadCheckpoint x.runId s.2.1.2 =
    some (x.checkpointPayload sid s.2.2.state s.1.completed)

theorem get?_registry (hstep : step ∈ x.definition.steps) :
    (Dict.ofList (x.definition.steps.map fun step => (step.id, step))).get? step.id =
      some step := by
  rw [← Dict.mem_entries, Dict.entries_ofList]
  · exact mem_map_of_mem hstep
  · rw [map_map]
    exact x.definition.uniqueStepIds

theorem start_saved (hmanager : x.services.checkpointManager = true)
    (hresume : x.resumeFromCheckpoint = true)
    (hlatest : loadCheckpoint x.runId shared.2 = some (x.checkpointPayload sid state completed))
    (hfaithful : checkpointMetaKey ∉ state.keys) (hkeys : inputs.keys <+: state.keys) :
    x.start inputs shared =
      ({ completed := (stepIds x.definition.steps).filter fun sid => decide (sid ∈ completed) },
        shared, ⟨state, Dict.ofList (x.definition.steps.map fun step => (step.id, step))⟩) := by
  have hon : ¬(x.services.checkpointManager = false ∨ x.resumeFromCheckpoint = false) := by
    simp [hmanager, hresume]
  have hstate : inputs.update ((x.checkpointPayload sid state completed).erase
      checkpointMetaKey) = state := by
    rw [checkpointPayload, Dict.erase_set_of_notMem hfaithful, Dict.update_eq_of_keys hkeys]
  have hcompleted := completedOf_saved (x := x) x.runId sid state completed
  rw [completedOf] at hcompleted
  have hfilter : ((stepIds x.definition.steps).filter fun sid => decide (sid ∈ completed)).filter
      (fun sid => decide (sid ∈ stepIds x.definition.steps)) =
        (stepIds x.definition.steps).filter fun sid => decide (sid ∈ completed) :=
    filter_eq_self.mpr fun sid hsid => decide_eq_true (List.mem_filter.mp hsid).1
  simp only [WorkflowExecutor.start, loadCheckpointState, if_neg hon, hlatest, hstate, hcompleted,
    hfilter]

theorem groupOrder_congr (h : ∀ sid ∈ group, sid ∈ completed ↔ sid ∈ completed') :
    groupOrder completed group = groupOrder completed' group := by
  rw [groupOrder, groupOrder,
    filter_congr fun sid hsid => decide_eq_decide.mpr (h sid hsid),
    filter_congr fun sid hsid => decide_eq_decide.mpr (not_congr (h sid hsid))]

theorem mem_stepIds_of_rounds {round : List String × (Situation W → Situation W)}
    (hround : round ∈ x.rounds (executeStep n x)) (hsid : sid ∈ round.1) :
    sid ∈ stepIds x.definition.steps := by
  rcases x.mem_rounds _ hround with ⟨step, hstep, rfl⟩ | ⟨-, group, hgroup, rfl⟩
  · rw [mem_singleton.mp hsid]
    exact mem_map_of_mem hstep
  · exact hgroup sid hsid

variable {done rest : List (List String × (Situation W → Situation W))}

theorem exists_shows (h : List.Forall₂ (Shows state) sids results) (hsid : sid ∈ sids) :
    ∃ r, Shows state sid r := by
  induction h with
  | nil => exact absurd hsid not_mem_nil
  | cons hr _ ih =>
    rcases mem_cons.mp hsid with rfl | hsid
    · exact ⟨_, hr⟩
    · exact ih hsid

theorem stops_eq_false (hraised : s.1.raised = none) (hfailed : s.1.failed = false) :
    x.stops s = false := by
  rw [stops]
  cases x.definition.execution.mode with
  | _ => simp [stopsSequence, stopsGroups, hraised, hfailed]

theorem CleanCut.replays (hcut : CleanCut x done rest s)
    (hrounds : x.rounds (executeStep (n + 1) x) = done ++ rest)
    (hmanager : x.services.checkpointManager = true) (hresume : x.resumeFromCheckpoint = true)
    (hkeys : inputs.keys <+: s.2.2.state.keys) :
    Replays (s.2.1, ⟨s.2.2.state, Dict.ofList (x.definition.steps.map fun step => (step.id, step))⟩)
      ((stepIds x.definition.steps).filter fun sid => decide (sid ∈ s.1.completed))
      (done.flatMap Prod.fst) (loop x.stops turn done (x.start inputs s.2.1)) := by
  obtain ⟨saved, hlatest⟩ := hcut.latest
  have hcompleted {sid : String} (hsid : sid ∈ stepIds x.definition.steps) :
      sid ∈ (stepIds x.definition.steps).filter (fun sid => decide (sid ∈ s.1.completed)) ↔
        sid ∈ s.1.completed := by
    rw [List.mem_filter, decide_eq_true_iff]
    exact and_iff_right hsid
  rw [start_saved hmanager hresume hlatest hcut.faithful hkeys]
  refine loop_invariant (I := fun before r => Replays _ _ (before.flatMap Prod.fst) r)
    (fun h => ?_) (fun {before round after r} hall h => ?_) (nil_append done).symm
    ⟨rfl, rfl, .nil, rfl, rfl, nofun⟩
  · exact stops_eq_false h.raised h.failed
  · have hround : round ∈ done := by
      rw [hall]
      exact mem_append_right _ mem_cons_self
    have hmem : round ∈ x.rounds (executeStep (n + 1) x) := by
      rw [hrounds]
      exact mem_append_left _ hround
    rw [flatMap_append, flatMap_singleton]
    refine h.round hmem (fun _ => get?_registry) (fun sid hsid => ⟨fun _ => ?_, fun hnot => ?_⟩) ?_
    · exact exists_shows hcut.results (mem_flatMap.mpr ⟨round, hround, hsid⟩)
    · refine hcut.skipped sid (mem_flatMap.mpr ⟨round, hround, hsid⟩) fun hdone => hnot ?_
      exact (hcompleted (mem_stepIds_of_rounds hmem hsid)).mpr hdone
    · rw [groupOrder_congr fun sid hsid => hcompleted (mem_stepIds_of_rounds hmem hsid)]
      exact hcut.ordered round hround

theorem frame_keys (keys : List String) :
    Frame (W := W) (fun _ => True) (fun scope => keys <+: scope.state.keys) (fun _ => True)
      (fun _ => True) where
  world _ := trivial
  state _ h _ := h.trans (Dict.keys_prefix_set _ _ _)
  register h _ _ := h
  registered _ _ := trivial
  child _ _ := ⟨trivial, trivial⟩

theorem ensures_trivial {σ α : Type} (c : Async σ α) :
    Ensures (fun _ => True) (fun _ => True) c := by
  induction c with
  | done a => trivial
  | act f k ih => exact fun s _ => ⟨trivial, ih s⟩
  | suspend k ih => exact ih

theorem kept_runOne {J : Shared W → Prop} {L : Local → Prop} {Ok : WorkflowStep → Prop}
    {Free : String → Prop} (f : Frame J L Ok Free) (hfree : ∀ sid, Free sid)
    (hsave : ∀ {s} stepId state, J s → J (s.1, saveCheckpoint x.runId stepId state s.2))
    (hran : Frame.Kept J L ran) (sid : String) (p : Progress) :
    Frame.Kept J L (x.runOne ran sid p) := by
  rw [WorkflowExecutor.runOne]
  split_ifs
  · exact Frame.kept_restoreStep _ _
  · refine Frame.Kept.bind hran fun run => ?_
    cases run.result with
    | error e => exact Frame.kept_pure _
    | ok result => exact Frame.kept_settle f hfree hsave _ _ _ _

theorem keys_round {keys : List String} {round : List String × (Situation W → Situation W)}
    (hround : round ∈ x.rounds (executeStep n x)) (h : keys <+: s.2.2.state.keys) :
    keys <+: (turn round s).2.2.state.keys := by
  have hframe := frame_keys (W := W) keys
  have hstep (step : WorkflowStep) (_ : True) :
      Frame.Kept (fun _ => True) (fun scope => keys <+: scope.state.keys) (executeStep n x step) :=
    hframe.kept_executeStep n (fun _ _ _ _ _ _ _ => ensures_trivial _) trivial
  have hstart : Frame.Inv (fun _ => True) (fun scope => keys <+: scope.state.keys) s.2 :=
    ⟨trivial, h⟩
  rcases x.mem_rounds _ hround with ⟨step, -, rfl⟩ | ⟨-, group, -, rfl⟩
  · have hone := kept_runOne (x := x) hframe (fun _ => trivial) (fun _ _ _ => trivial)
      (hstep step trivial) step.id s.1
    exact (hone.run hstart).2.2
  · have hgroup := Frame.kept_runGroup (x := x) hframe (fun _ => trivial) (fun _ _ _ => trivial)
      hstep group s.1
    exact (hgroup.run hstart).2.2

theorem keys_start (x : WorkflowExecutor W) (inputs : Outputs) (shared : Shared W) :
    inputs.keys <+: (x.start inputs shared).2.2.state.keys := by
  rw [WorkflowExecutor.start, loadCheckpointState]
  split_ifs
  · exact prefix_refl _
  · cases loadCheckpoint x.runId shared.2 with
    | none => exact prefix_refl _
    | some checkpoint => exact Dict.keys_prefix_update _ _

theorem keys_loop {inputs : Outputs} {shared : Shared W}
    (hrounds : x.rounds (executeStep n x) = done ++ rest) :
    inputs.keys <+: (loop x.stops turn done (x.start inputs shared)).2.2.state.keys := by
  have hstep {before after : List (List String × (Situation W → Situation W))}
      {round : List String × (Situation W → Situation W)} {s : Situation W}
      (hall : done = before ++ round :: after) (_ : True)
      (h : inputs.keys <+: s.2.2.state.keys) : inputs.keys <+: (turn round s).2.2.state.keys := by
    have hround : round ∈ x.rounds (executeStep n x) := by
      rw [hrounds, hall]
      exact mem_append_left _ (mem_append_right _ mem_cons_self)
    exact keys_round hround h
  have hloop : ∃ _ : List (List String × (Situation W → Situation W)), inputs.keys <+:
      (loop x.stops turn done (x.start inputs shared)).2.2.state.keys :=
    loop_induction (I := fun _ (s : Situation W) => inputs.keys <+: s.2.2.state.keys) hstep
      (nil_append _).symm (fun _ _ => trivial) (keys_start x inputs shared)
  exact hloop.choose_spec

theorem CleanCut.simulates_replayed (hcut : CleanCut x done rest s)
    (hr : Replays (s.2.1, ⟨s.2.2.state,
      Dict.ofList (x.definition.steps.map fun step => (step.id, step))⟩)
      ((stepIds x.definition.steps).filter fun sid => decide (sid ∈ s.1.completed))
      (done.flatMap Prod.fst) r) :
    x.Simulates {sid | x.definition.execution.mode ≠ .sequential ∧ ∃ round ∈ rest, sid ∈ round.1}
      s r := by
  refine ⟨?_, fun sid hsid => ?_, ?_, ?_, ?_, fun run hrun hattempts => ?_⟩
  · rw [hr.data]
    refine ⟨rfl, rfl, fun sid hsid => ?_⟩
    obtain ⟨hmode, round, hround, hsid⟩ := hsid
    exact hcut.registry hmode round hround sid hsid
  · rw [hr.completed, List.mem_filter, decide_eq_true_iff]
    exact (and_iff_right hsid).symm
  · exact sameOutputs_of_shows hcut.results hr.results
  · rw [hcut.failed, hr.failed]
  · rw [hcut.raised, hr.raised]
  · exact absurd (hr.runs run hrun) hattempts

theorem CleanCut.simulates
    (hcut : CleanCut x done rest (loop x.stops turn done (x.start inputs shared)))
    (hrounds : x.rounds (executeStep (n + 1) x) = done ++ rest)
    (hlimit : x.services.recursionLimit = n + 1)
    (hmanager : x.services.checkpointManager = true) (hresume : x.resumeFromCheckpoint = true) :
    x.Simulates {sid | x.definition.execution.mode ≠ .sequential ∧ ∃ round ∈ rest, sid ∈ round.1}
      (x.ending inputs shared)
      (x.ending inputs (loop x.stops turn done (x.start inputs shared)).2.1) := by
  have hreplays := hcut.replays hrounds hmanager hresume (keys_loop hrounds)
  rw [ending, ending, hlimit, hrounds, loop_append (stops_eq_false hcut.raised hcut.failed),
    loop_append (stops_eq_false hreplays.raised hreplays.failed)]
  apply Simulates.closing
  refine loop_simulates (fun _ _ h => h.stops_eq) (fun round hround s s' h => ?_)
    (hcut.simulates_replayed hreplays)
  have hmem : round ∈ x.rounds (executeStep (n + 1) x) := by
    rw [hrounds]
    exact mem_append_right _ hround
  exact h.round (n + 1) hmem fun hmode sid hsid => ⟨hmode, round, hround, hsid⟩

variable (x : WorkflowExecutor PUnit)

def cut (inputs : Outputs) (rows : List WorkflowCheckpoint) (i : ℕ) : Situation PUnit :=
  loop x.stops turn ((x.rounds (executeStep x.services.recursionLimit x)).take i)
    (x.start inputs (⟨⟩, rows))

def killedAfter (inputs : Outputs) (kept : ℕ) : Execution PUnit where
  executor := x
  world := ⟨⟩
  inputs := inputs
  kept := kept
  others := []

def KilledCleanly (inputs : Outputs) (rows : List WorkflowCheckpoint) (kept : ℕ) : Prop :=
  (x.killedAfter inputs kept).rowsAfter rows = rows ∨
    ∃ i, (x.killedAfter inputs kept).rowsAfter rows = (x.cut inputs rows i).2.1.2 ∧
      CleanCut x ((x.rounds (executeStep x.services.recursionLimit x)).take i)
        ((x.rounds (executeStep x.services.recursionLimit x)).drop i) (x.cut inputs rows i)

variable {x}

structure EndsAlike (run run' : WorkflowRun) : Prop where
  state : run'.state = run.state
  outputs : run'.result.outputs = run.result.outputs
  runs : ∀ t ∈ run'.runs, t.attempts ≠ [] → t ∈ run.runs

theorem EndsAlike.trans {run run' run'' : WorkflowRun} (h : EndsAlike run run')
    (h' : EndsAlike run' run'') : EndsAlike run run'' :=
  ⟨h'.state.trans h.state, h'.outputs.trans h.outputs,
    fun t ht hattempts => h.runs t (h'.runs t ht hattempts) hattempts⟩

theorem EndsAlike.refl (run : WorkflowRun) : EndsAlike run run := ⟨rfl, rfl, fun _ ht _ => ht⟩

theorem Simulates.endsAlike {W : Type} {x : WorkflowExecutor W} {ids : Set String}
    {s s' : Situation W} (h : x.Simulates ids s s') : EndsAlike (finish s) (finish s') :=
  ⟨h.data.state.symm, (finalOutputs_congr h.results).symm, h.runs⟩

theorem endsAlike_of_killed (hmanager : x.services.checkpointManager = true)
    (hresume : x.resumeFromCheckpoint = true) (hlimit : x.services.recursionLimit ≠ 0)
    (h : x.KilledCleanly inputs rows kept) :
    EndsAlike ((x.execute inputs).run (⟨⟩, rows)).1
      ((x.execute inputs).run (⟨⟩, (x.killedAfter inputs kept).rowsAfter rows)).1 := by
  obtain ⟨n, hn⟩ := Nat.exists_eq_succ_of_ne_zero hlimit
  rcases h with hsame | ⟨i, hrows, hcut⟩
  · rw [hsame]
    exact EndsAlike.refl _
  · rw [hrows, execute_ending, execute_ending]
    rw [cut, hn] at hcut
    rw [cut, hn]
    exact (hcut.simulates (take_append_drop i _).symm hn hmanager hresume).endsAlike

def attemptedIds (runs : List StepRun) : List String := runs.map (·.step.id)

theorem attemptedIds_concat (runs : List StepRun) (run : StepRun) :
    attemptedIds (runs ++ [run]) = attemptedIds runs ++ [run.step.id] := map_append

theorem accounts_attempted {W : Type} {x : WorkflowExecutor W} :
    Accounts x (fun _ => True)
      (fun ids p => (attemptedIds p.runs).Nodup ∧ attemptedIds p.runs ⊆ ids) where
  restore h _ _ _ := ⟨h.1, List.Subset.trans h.2 (subset_append_left _ _)⟩
  record h hnew _ _ _ := by
    rw [Progress.record, attemptedIds_concat]
    exact nodup_concat h hnew
  raise h hnew _ _ _ _ := by
    rw [Progress.raise, attemptedIds_concat]
    exact nodup_concat h hnew

theorem eq_of_attempted {W : Type} {x : WorkflowExecutor W} {inputs : Outputs} {shared : Shared W}
    {t t' : StepRun} (ht : t ∈ ((x.execute inputs).run shared).1.runs)
    (ht' : t' ∈ ((x.execute inputs).run shared).1.runs) (hid : t'.step.id = t.step.id) :
    t' = t := by
  obtain ⟨⟨completed, p, hp, hfrom⟩, -⟩ := (ensures_execute (x := x) (fun _ _ _ => trivial)
    accounts_attempted (fun _ => ⟨nodup_nil, nil_subset _⟩) inputs).run (s := shared)
      trivial
  have hnodup : (attemptedIds p.runs).Nodup := by
    rcases hp with ⟨ids, -, hinv, -⟩ | ⟨-, e, -, rfl⟩
    · exact hinv.1
    · exact nodup_nil
  rw [hfrom.runs] at ht ht'
  exact inj_on_of_nodup_map hnodup ht' ht hid

theorem endsAlike_history (hmanager : x.services.checkpointManager = true)
    (hresume : x.resumeFromCheckpoint = true) (hlimit : x.services.recursionLimit ≠ 0)
    (h : History.Along (fun rows kept => (x.killedAfter inputs kept).rowsAfter rows)
      (x.KilledCleanly inputs) rows kills) :
    EndsAlike ((x.execute inputs).run (⟨⟩, rows)).1
      ((x.execute inputs).run (⟨⟩, history rows (kills.map (x.killedAfter inputs)))).1 := by
  induction kills generalizing rows with
  | nil => exact EndsAlike.refl _
  | cons kept rest ih =>
    exact (endsAlike_of_killed hmanager hresume hlimit h.1).trans (ih h.2)

/-- When a run is only ever killed cleanly, then the run that resumes at last has the final
state and the outputs of the uninterrupted run, and executes no step that this one skipped. -/
theorem execute_resumed (x : WorkflowExecutor PUnit) (inputs : Outputs)
    (rows : List WorkflowCheckpoint) (kills : List ℕ)
    (hmanager : x.services.checkpointManager = true) (hresume : x.resumeFromCheckpoint = true)
    (hlimit : x.services.recursionLimit ≠ 0)
    (h : History.Along (fun rows kept => (x.killedAfter inputs kept).rowsAfter rows)
      (x.KilledCleanly inputs) rows kills) :
    let run := ((x.execute inputs).run (⟨⟩, rows)).1
    let resumed :=
      ((x.execute inputs).run (⟨⟩, history rows (kills.map (x.killedAfter inputs)))).1
    resumed.state = run.state ∧ resumed.result.outputs = run.result.outputs ∧
      ∀ t ∈ run.runs, t.attempts = [] → ∀ t' ∈ resumed.runs, t'.step.id = t.step.id →
        t'.attempts = [] := by
  intro run resumed
  have hends := endsAlike_history hmanager hresume hlimit h
  refine ⟨hends.state, hends.outputs, fun t ht hskipped t' ht' hid => ?_⟩
  by_contra hattempts
  have hsame : t' = t := eq_of_attempted ht (hends.runs t' ht' hattempts) hid
  exact hattempts (hsame ▸ hskipped)

end WorkflowExecutor

open WorkflowExecutor

def dormant : WorkflowDefinition where
  name := "dormant"
  steps := [{ id := "check", action := .transform, condition := some "missing" },
    { id := "build", action := .transform, inputs := [("x", .str "built")] },
    { id := "ship", action := .transform }]
  nonempty := nofun
  uniqueStepIds := by decide
  knownDependencies := by decide

def dormantRun : WorkflowExecutor PUnit := plainExecutor dormant "r"

def dormantCut : Situation PUnit := dormantRun.cut Dict.empty [] 2

theorem dormant_killedCleanly : dormantRun.KilledCleanly Dict.empty [] 1 := by
  refine .inr ⟨2, by decide +kernel, by decide +kernel, by decide +kernel, ?_, ?_,
    by decide +kernel, fun h => absurd rfl h, by decide +kernel, "build", by decide +kernel⟩
  · have hshows : ∀ p ∈ List.zip ["check", "build"] dormantCut.1.stepResults,
        dormantCut.2.2.state.get? p.1 = some p.2.outputs.json ∧ p.2.status ≠ .failed := by
      decide +kernel
    exact List.forall₂_iff_zip.mpr ⟨by decide +kernel, fun hpair => ⟨(hshows _ hpair).1,
      (hshows _ hpair).2⟩⟩
  · have hskips : ∀ step ∈ dormant.steps, step.id ∉ dormantCut.1.completed →
        step.id ∈ ["check", "build"] →
        dormantCut.2.2.state.get? step.id = some (skippedResult step).outputs.json ∧
          dormantRun.shouldRun step dormantCut.2.2.state = .ok false := by
      decide +kernel
    intro sid hsid hnot step hstep heq
    subst heq
    obtain ⟨hget, hcondition⟩ := hskips step hstep hnot hsid
    exact ⟨⟨hget, nofun⟩, hcondition⟩

/-- The run is killed after the checkpoint of its second step. -/
theorem execute_resumed_dormant :
    let run := ((dormantRun.execute Dict.empty).run (⟨⟩, [])).1
    let resumed := ((dormantRun.execute Dict.empty).run
      (⟨⟩, history [] [dormantRun.killedAfter Dict.empty 1])).1
    resumed.state = run.state ∧ resumed.result.outputs = run.result.outputs ∧
      ∀ t ∈ run.runs, t.attempts = [] → ∀ t' ∈ resumed.runs, t'.step.id = t.step.id →
        t'.attempts = [] :=
  execute_resumed dormantRun Dict.empty [] [1] rfl rfl nofun ⟨dormant_killedCleanly, trivial⟩

def revisited : WorkflowDefinition where
  name := "revisited"
  steps := [{ id := "check", action := .transform, condition := some "build" },
    { id := "build", action := .transform, inputs := [("x", .str "built")] }]
  nonempty := nofun
  uniqueStepIds := by decide
  knownDependencies := by decide

/-- After a kill the first step runs. -/
theorem revisited_not_resumed :
    let x := plainExecutor revisited "r"
    let run := ((x.execute Dict.empty).run (⟨⟩, [])).1
    let resumed := ((x.execute Dict.empty).run
      (⟨⟩, history [] [x.killedAfter Dict.empty 1])).1
    resumed.state ≠ run.state ∧ resumed.result.outputs ≠ run.result.outputs ∧
      (∃ t ∈ run.runs, t.step.id = "check" ∧ t.attempts.length = 0) ∧
      ∃ t ∈ resumed.runs, t.step.id = "check" ∧ t.attempts.length = 1 := by
  intro x run resumed
  have hskipped : ((run.state.getD "check" .null).field? "skipped").isSome = true := by
    decide +kernel
  have hran : ((resumed.state.getD "check" .null).field? "skipped").isSome = false := by
    decide +kernel
  have houtputs : run.result.outputs.keys = ["skipped", "reason", "x"] := by decide +kernel
  have houtputs' : resumed.result.outputs.keys = ["x"] := by decide +kernel
  refine ⟨fun h => ?_, fun h => ?_, by decide +kernel, by decide +kernel⟩
  · rw [h, hskipped] at hran
    cases hran
  · rw [h, houtputs] at houtputs'
    simp at houtputs'

end Agent33.Workflows.Executor
