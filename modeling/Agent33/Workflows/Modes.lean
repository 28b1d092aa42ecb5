import Agent33.Workflows.Frames
import Agent33.Workflows.Propagation

/-!
# The two modes of execution

A chain of steps has one group per step, and its dependency-aware execution does what the
sequential one does as long as no group begins after a failure. Dependency-aware execution
stops at a failure only when it fails fast, and never asks whether it may continue on errors.
-/

namespace Agent33.Workflows.Executor

open Library Library.Async Library.Loop Workflows.Definition Workflows.Expressions
open Workflows.Checkpoint List
open Workflows.Dag.DAGBuilder (DependsOn)

variable {W : Type}

def InListOrder (steps : List WorkflowStep) : Prop :=
  (steps.IsChain fun s s' => s.id ∈ s'.dependsOn) ∧
    ∀ (i : ℕ) (hi : i < steps.length), steps[i].dependsOn ⊆ stepIds (steps.take i)

instance (steps : List WorkflowStep) : Decidable (InListOrder steps) :=
  inferInstanceAs (Decidable (_ ∧ ∀ (i : ℕ) (hi : i < steps.length), ∀ dep ∈ steps[i].dependsOn,
    dep ∈ stepIds (steps.take i)))

def StepRun.Failed (run : StepRun) : Prop := run.status = some .failed ∨ run.status = none

theorem eq_of_id_eq {steps : List WorkflowStep} (hu : UniqueStepIds steps)
    (hs : s ∈ steps) (hs' : s' ∈ steps) (hid : s.id = s'.id) : s = s' :=
  inj_on_of_nodup_map hu hs hs' hid

theorem parallelGroups_of_inListOrder {steps : List WorkflowStep} (hu : UniqueStepIds steps)
    (h : InListOrder steps) :
    WorkflowExecutor.parallelGroups steps = .ok (steps.map fun s => [s.id]) := by
  obtain ⟨rounds, hp, hnonempty, hbuild⟩ := Dag.DAGBuilder.build_eq hu
  have hchain : (stepIds steps).IsChain (DependsOn steps) := by
    rw [stepIds, isChain_map]
    exact h.1.imp_of_mem_imp fun s s' _ hs' hdep => ⟨s', hs', rfl, hdep⟩
  have hearlier : ∀ (i : ℕ) (hi : i < (stepIds steps).length) u,
      DependsOn steps u (stepIds steps)[i] → u ∈ (stepIds steps).take i := by
    intro i hi u hdep
    obtain ⟨s, hs, hid, hu'⟩ := hdep
    have hlength : i < steps.length := by simpa [stepIds] using hi
    have hstep : s = steps[i] :=
      eq_of_id_eq hu hs (getElem_mem hlength) (by simpa [stepIds] using hid)
    rw [hstep] at hu'
    have hmem := h.2 i hlength hu'
    rwa [stepIds, map_take] at hmem
  have hrounds := hp.eq_singletons hu hchain hearlier rfl hnonempty
  have hflatten : rounds.flatten = stepIds steps := by
    rw [hrounds, ← flatMap_def]
    exact flatMap_singleton' _
  rw [WorkflowExecutor.parallelGroups, hbuild, if_neg (by rw [hflatten]; exact fun h => h rfl)]
  simp [Except.map, hrounds, Dag.DAGBuilder.sorted]

namespace WorkflowExecutor

variable (x : WorkflowExecutor W)

def inMode (mode : ExecutionMode) : WorkflowExecutor W :=
  { x with definition := { x.definition with
      execution := { x.definition.execution with mode } } }

theorem attempts_inMode (mode : ExecutionMode)
    (dispatch : Async (Data W) (Except Raised Outputs × List StepRun)) (step : WorkflowStep)
    (inputs : Outputs) (n : ℕ) :
    (x.inMode mode).attempts dispatch step inputs n = x.attempts dispatch step inputs n := by
  induction n with
  | zero => rfl
  | succ n ih =>
    funext error made
    rw [attempts, attempts, ih]
    rfl

theorem executeStep_inMode (n : ℕ) (mode : ExecutionMode) :
    executeStep n (x.inMode mode) = executeStep n x := by
  induction n with
  | zero => rfl
  | succ n ih =>
    funext step
    rw [executeStep, executeStep, ih]
    simp only [runStepWith, attempts_inMode]
    rfl

def Extends (s s' : Situation W) : Prop :=
  s.1.runs <+: s'.1.runs ∧ s.1.stepResults <+: s'.1.stepResults

theorem Extends.refl (s : Situation W) : Extends s s :=
  ⟨prefix_refl _, prefix_refl _⟩

theorem Extends.trans (h : Extends s s') (h' : Extends s' s'') : Extends s s'' :=
  ⟨h.1.trans h'.1, h.2.trans h'.2⟩

theorem not_append_prefix {α : Type} (l : List α) (a : α) : ¬l ++ [a] <+: l := by
  intro h
  have hlength := h.length_le
  simp at hlength

theorem eq_of_append_prefix {α : Type} {l m : List α} {a b : α} (ha : l ++ [a] <+: m)
    (hb : l ++ [b] <+: m) : a = b := by
  have hlength : (l ++ [a]).length = (l ++ [b]).length := by simp
  have hbegins := prefix_of_prefix_length_le ha hb hlength.le
  simpa using hbegins.eq_of_length hlength

variable {ran : Async (Data W) StepRun} {sid : String}

theorem Turned.extends {d d' : Data W} (h : Turned ran sid p d p') : Extends (p, d) (p', d') := by
  cases h with
  | restored result _ => exact ⟨prefix_refl _, prefix_append _ _⟩
  | raised e _ => exact ⟨prefix_append _ _, prefix_refl _⟩
  | recorded result _ => exact ⟨prefix_append _ _, prefix_append _ _⟩

theorem Turned.adds {d d' : Data W} (h : Turned ran sid p d p') : ¬Extends (p', d') (p, d) := by
  cases h with
  | restored result _ => exact fun h => not_append_prefix _ _ h.2
  | raised e _ => exact fun h => not_append_prefix _ _ h.1
  | recorded result _ => exact fun h => not_append_prefix _ _ h.1

def Registry (scope : Local) : Prop :=
  (∀ sid step, scope.steps.get? sid = some step → step.id = sid) ∧
    ∀ sid ∈ stepIds x.definition.steps, scope.steps.get? sid ≠ none

variable {x runStep}

theorem frame_registry :
    Frame (fun _ : Shared W => True) x.Registry (fun _ => True) (fun _ => True) where
  world _ := trivial
  state _ hscope _ := hscope
  register hscope _ _ := by
    refine ⟨registryIds_set hscope.1, fun sid hsid => ?_⟩
    rw [Dict.get?_set]
    split_ifs
    · exact Option.some_ne_none _
    · exact hscope.2 sid hsid
  registered _ _ := trivial
  child _ _ := ⟨trivial, trivial⟩

theorem registry_start (inputs : Outputs) (shared : Shared W) :
    x.Registry (x.start inputs shared).2.2 := by
  refine ⟨registryIds_ofList x.definition.steps, fun sid hsid hnone => ?_⟩
  rw [start, Dict.get?_eq_none, Dict.keys, Dict.entries_ofList] at hnone
  · rw [map_map] at hnone
    exact hnone hsid
  · rw [map_map]
    exact x.definition.uniqueStepIds

theorem kept_executeStep_registry (n : ℕ) (step : WorkflowStep) :
    Frame.Kept (fun _ : Shared W => True) x.Registry (executeStep n x step) :=
  frame_registry.kept_executeStep n
    (fun _ _ _ _ _ _ _ => (ensures_any _).imp fun _ _ => trivial) trivial

variable {s : Situation W} {groups : List (List String)} {step : WorkflowStep}
    {group past : List String}

theorem registry_groupTurn (n : ℕ) (sid : String) (hs : x.Registry s.2.2) :
    x.Registry (x.groupTurn (executeStep n x) [sid] s).2.2 := by
  have hkept : Frame.Kept (fun _ : Shared W => True) x.Registry
      (x.runOne (runRegistered (executeStep n x) sid) sid s.1) := by
    rw [runOne]
    split_ifs
    · exact Frame.kept_read.bind fun _ => Frame.kept_pure _
    · refine (frame_registry.kept_runRegistered
        (fun step _ => kept_executeStep_registry n step) sid).bind fun run => ?_
      cases run.result with
      | error e => exact Frame.kept_pure _
      | ok result =>
        exact (ensures_settle (fun _ _ _ hd => hd) (fun _ _ _ hd => hd) _ _ _ _).imp
          fun _ _ => trivial
  exact (hkept.run (s := s.2) ⟨trivial, hs⟩).2.2

def FindsSteps (x : WorkflowExecutor W) (group : List String) (s : Situation W) : Prop :=
  ∀ step ∈ x.definition.steps, step.id ∈ group → step.id ∉ s.1.completed →
    s.2.2.steps.get? step.id = some step

theorem groupTurn_of_findsSteps
    (h : step.id ∉ s.1.completed → s.2.2.steps.get? step.id = some step) :
    x.groupTurn runStep [step.id] s = x.stepTurn runStep step s := by
  rw [groupTurn_singleton, stepTurn, runOne, runOne]
  split_ifs with hcompleted
  · rfl
  · rw [runRegistered, run_bind, run_bind, run_bind, run_read]
    dsimp only
    rw [h hcompleted]

theorem groupTurn_parts (hstep : step ∈ x.definition.steps)
    (hs : x.Registry s.2.2) (h : ¬(step.id ∉ s.1.completed → s.2.2.steps.get? step.id = some step))
    (hgroup : Extends (x.groupTurn (executeStep n x) [step.id] s) s') :
    ¬Extends (x.stepTurn (executeStep n x) step s) s' := by
  intro hown
  rw [Classical.not_imp] at h
  obtain ⟨hnot, hother⟩ := h
  obtain ⟨step', hstep'⟩ := Option.ne_none_iff_exists'.mp
    (hs.2 step.id (mem_map_of_mem hstep))
  have hruns := (x.runOne_turned (executeStep n x step) step.id s.1 s.2).runs hnot
  have hruns' := (x.runOne_turned (runRegistered (executeStep n x) step.id) step.id s.1 s.2).runs
    hnot
  have hsame : ((executeStep n x step).run s.2).1 =
      ((runRegistered (executeStep n x) step.id).run s.2).1 := by
    refine eq_of_append_prefix (l := s.1.runs) (m := s'.1.runs) ?_ ?_
    · rw [← hruns]
      exact hown.1
    · rw [← hruns']
      exact hgroup.1
  have hstep₁ := executeStep_run_step n x step s.2
  have hstep₂ := executeStep_run_step n x step' s.2
  rw [runRegistered, run_bind, run_read] at hsame
  dsimp only at hsame
  rw [hstep'] at hsame
  dsimp only at hsame
  rw [hsame, hstep₂] at hstep₁
  rw [hstep₁] at hstep'
  exact hother hstep'

def groupTurns (x : WorkflowExecutor W) (inputs : Outputs) (shared : Shared W) :
    List (List String × Situation W) :=
  match parallelGroups x.definition.steps with
  | .error _ => []
  | .ok groups =>
    turns x.stopsGroups (x.groupTurn (executeStep x.services.recursionLimit x)) groups
      (x.start inputs shared)

def HeedsFailures (x : WorkflowExecutor W) (s : Situation W) : Prop :=
  s.1.failed = true → x.definition.execution.continueOnError = true

def SameRun (run run' : WorkflowRun) : Prop :=
  run.runs = run'.runs ∧ run.result = run'.result

theorem execute_sequential (x : WorkflowExecutor W) (inputs : Outputs) (shared : Shared W) :
    (((x.inMode .sequential).execute inputs).run shared).1 =
      finish (loop x.stopsSequence (x.stepTurn (executeStep x.services.recursionLimit x))
        x.definition.steps (x.start inputs shared)) := by
  have hrun := runSequential_run (x.inMode .sequential)
    (executeStep x.services.recursionLimit (x.inMode .sequential)) x.definition.steps
    (s := x.start inputs shared) rfl
  rw [executeStep_inMode] at hrun
  rw [execute_run]
  refine congrArg finish (Eq.trans ?_ hrun)
  rw [runSteps]
  rw [executeStep_inMode]
  rfl

theorem execute_groups (hmode : x.definition.execution.mode ≠ .sequential)
    (hgroups : parallelGroups x.definition.steps = .ok groups) (inputs : Outputs)
    (shared : Shared W) : ((x.execute inputs).run shared).1 =
      finish (loop x.stopsGroups (x.groupTurn (executeStep x.services.recursionLimit x)) groups
        (x.start inputs shared)) := by
  rw [execute_run, ← runGroups_run, runSteps]
  cases hx : x.definition.execution.mode with
  | sequential => exact absurd hx hmode
  | parallel => rw [hgroups]
  | dependencyAware => rw [hgroups]

theorem stopsSequence_iff (hgo : x.stopsGroups s = false) :
    x.stopsSequence s = false ↔ x.HeedsFailures s := by
  rw [stopsGroups, Bool.or_eq_false_iff] at hgo
  rw [stopsSequence, hgo.1, Bool.false_or, HeedsFailures]
  cases hfailed : s.1.failed with
  | false => simp
  | true =>
    rw [hfailed, Bool.true_and] at hgo
    rw [hgo.2]
    simp

theorem findsSteps_singleton (hstep : step ∈ x.definition.steps) : x.FindsSteps [step.id] s ↔
      (step.id ∉ s.1.completed → s.2.2.steps.get? step.id = some step) := by
  constructor
  · exact fun h => h step hstep (mem_singleton_self _)
  · intro h step' hstep' hid
    have heq := eq_of_id_eq x.definition.uniqueStepIds hstep' hstep (mem_singleton.mp hid)
    rw [heq]
    exact h

theorem extends_of_same (h : SameRun (finish s) (finish s')) : Extends s s' ∧ Extends s' s := by
  obtain ⟨hruns, hresult⟩ := h
  have hruns : s.1.runs = s'.1.runs := hruns
  have hresults : s.1.stepResults = s'.1.stepResults := congrArg WorkflowResult.stepResults hresult
  rw [Extends, Extends, hruns, hresults]
  exact ⟨⟨prefix_refl _, prefix_refl _⟩, prefix_refl _, prefix_refl _⟩

def FindsStep (step : WorkflowStep) (s : Situation W) : Prop :=
  step.id ∉ s.1.completed → s.2.2.steps.get? step.id = some step

theorem compared_turns (x : WorkflowExecutor W) (n : ℕ) :
    Compared (fun step s => x.groupTurn (executeStep n x) [step.id] s)
      (x.stepTurn (executeStep n x)) Extends (fun s => x.Registry s.2.2) FindsStep
      x.definition.steps where
  refl := Extends.refl
  trans := Extends.trans
  extends_left step s :=
    (x.runOne_turned (runRegistered (executeStep n x) step.id) step.id s.1 s.2).extends
  extends_right step s := (x.runOne_turned (executeStep n x step) step.id s.1 s.2).extends
  adds step s := (x.runOne_turned (runRegistered (executeStep n x) step.id) step.id s.1 s.2).adds
  keeps hs := registry_groupTurn n _ hs
  agree _ h := (groupTurn_of_findsSteps h).symm
  part hstep hs h hgroup := groupTurn_parts hstep hs h hgroup

theorem chain_agrees_iff (hmode : x.definition.execution.mode ≠ .sequential)
    (hchain : InListOrder x.definition.steps) (inputs : Outputs) (shared : Shared W) :
    SameRun ((x.execute inputs).run shared).1
        (((x.inMode .sequential).execute inputs).run shared).1 ↔
      ∀ t ∈ x.groupTurns inputs shared, x.HeedsFailures t.2 ∧ x.FindsSteps t.1 t.2 := by
  have hgroups := parallelGroups_of_inListOrder x.definition.uniqueStepIds hchain
  have hgo : x.stopsGroups (x.start inputs shared) = false := rfl
  rw [execute_sequential, execute_groups hmode hgroups, loop_map, groupTurns, hgroups]
  dsimp only
  rw [turns_map, forall_mem_map]
  constructor
  · intro hsame t ht
    obtain ⟨hext, hext'⟩ := extends_of_same hsame
    have hstart : x.stopsSequence (x.start inputs shared) = false := rfl
    have hagree := (x.compared_turns x.services.recursionLimit).agree_of_same
      (List.Subset.refl _) (registry_start inputs shared) hstart hext hext' t ht
    exact ⟨(stopsSequence_iff (stop_of_mem_turns hgo ht)).mp hagree.1,
      (findsSteps_singleton (mem_of_mem_turns ht)).mpr hagree.2⟩
  · intro h
    have hstop : ∀ s, x.stopsGroups s = true → x.stopsSequence s = true := by
      intro s hs
      rw [stopsGroups] at hs
      rw [stopsSequence]
      cases hraised : s.1.raised.isSome with
      | true => rfl
      | false =>
        rw [hraised, Bool.false_or, Bool.and_eq_true] at hs
        rw [hs.1, hs.2]
        rfl
    rw [loop_congr hstop fun t ht => ?_]
    · exact ⟨rfl, rfl⟩
    · obtain ⟨hheeds, hfinds⟩ := h t ht
      exact ⟨(stopsSequence_iff (stop_of_mem_turns hgo ht)).mpr hheeds,
        (groupTurn_of_findsSteps ((findsSteps_singleton (mem_of_mem_turns ht)).mp hfinds)).symm⟩

theorem memberResult_failed {sid : String} {run : StepRun} (h : run.Failed) :
    (memberResult sid run).status = .failed := by
  rw [StepRun.Failed, StepRun.status] at h
  rw [memberResult]
  cases hresult : run.result with
  | error e => rfl
  | ok result =>
    rw [hresult] at h
    simpa using h

/-- The steps that have run are among the ids, and those of them that failed are not
among the past ones. -/
structure FailedSince (past ids : List String) (p : Progress) : Prop where
  past_sub : past ⊆ ids
  ran : ∀ run ∈ p.runs, run.step.id ∈ ids
  failed : ∀ run ∈ p.runs, run.Failed → p.failed = true ∧ run.step.id ∉ past

theorem accounts_failedSince : Accounts x (fun _ => True) (FailedSince past) where
  restore hp _ _ _ := ⟨fun _ h => mem_append_left _ (hp.past_sub h),
    fun run hrun => mem_append_left _ (hp.ran run hrun), hp.failed⟩
  record {ids p run} hp hnew _ _ _ := by
    refine ⟨fun _ h => mem_append_left _ (hp.past_sub h), ?_, ?_⟩
    · refine forall_mem_append.mpr ⟨fun run' hrun' => ?_, ?_⟩
      · exact mem_append_left _ (hp.ran run' hrun')
      · exact forall_mem_singleton.mpr (mem_append_right _ (mem_singleton_self _))
    · refine forall_mem_append.mpr ⟨fun run' hrun' hfailed => ?_, ?_⟩
      · obtain ⟨hp', hpast⟩ := hp.failed run' hrun' hfailed
        exact ⟨Bool.or_eq_true_iff.mpr (.inl hp'), hpast⟩
      · refine forall_mem_singleton.mpr fun hfailed => ⟨?_, fun h => hnew (hp.past_sub h)⟩
        exact Bool.or_eq_true_iff.mpr (.inr (decide_eq_true (memberResult_failed hfailed)))
  raise {ids p run e} hp hnew _ _ _ _ := by
    refine ⟨fun _ h => mem_append_left _ (hp.past_sub h), ?_, ?_⟩
    · refine forall_mem_append.mpr ⟨fun run' hrun' => ?_, ?_⟩
      · exact mem_append_left _ (hp.ran run' hrun')
      · exact forall_mem_singleton.mpr (mem_append_right _ (mem_singleton_self _))
    · refine forall_mem_append.mpr ⟨fun run' hrun' hfailed => ?_, ?_⟩
      · exact ⟨rfl, (hp.failed run' hrun' hfailed).2⟩
      · exact forall_mem_singleton.mpr fun _ => ⟨rfl, fun h => hnew (hp.past_sub h)⟩

theorem parallelGroups_isSchedule {steps : List WorkflowStep} (hu : UniqueStepIds steps)
    (hk : KnownDependencies steps) (h : parallelGroups steps = .ok groups) :
    ∃ order, Dag.DAGBuilder.IsSchedule steps groups order := by
  obtain ⟨rounds, hp, -, hbuild⟩ := Dag.DAGBuilder.build_eq hu
  rw [parallelGroups, hbuild] at h
  split_ifs at h with hlength
  · cases h
  · cases h
    rw [not_not] at hlength
    have hcover := (Dag.DAGBuilder.length_flatten_eq_iff hu hp).mp hlength
    exact ⟨_, Dag.DAGBuilder.isSchedule_of_peels hu hk hp hcover⟩

def Disciplined (steps : List WorkflowStep) (runs : List StepRun) : Prop :=
  ∀ run ∈ runs, ∀ dep ∈ runs, dep.Failed →
    ¬Relation.TransGen (DependsOn steps) dep.step.id run.step.id

theorem FailedSince.mono (h : FailedSince past ids p)
    (hids : ids ⊆ ids') : FailedSince past ids' p :=
  ⟨fun _ hmem => hids (h.past_sub hmem), fun run hrun => hids (h.ran run hrun), h.failed⟩

theorem failedSince_groupTurn (hmode : x.definition.execution.mode ≠ .sequential)
    (hgroups : parallelGroups x.definition.steps = .ok groups) {done rest : List (List String)}
    (hall : groups = done ++ group :: rest) (n : ℕ) (hregistry : RegistryIds s.2)
    (hs : FailedSince done.flatten done.flatten s.1) :
    RegistryIds (x.groupTurn (executeStep n x) group s).2 ∧
      FailedSince done.flatten (done ++ [group]).flatten
        (x.groupTurn (executeStep n x) group s).1 := by
  have hmem : group ∈ groups := by simp [hall]
  have hnodup : groups.flatten.Nodup :=
    (parallelGroups_perm x.definition.uniqueStepIds hgroups).nodup_iff.mpr
      x.definition.uniqueStepIds
  rw [hall, flatten_append, flatten_cons, nodup_append, nodup_append] at hnodup
  have hnew : ∀ sid ∈ group, sid ∉ done.flatten := fun sid hsid hdone =>
    hnodup.2.2 sid hdone sid (mem_append_left _ hsid) rfl
  have hstep := ensures_executeStep (R := fun _ => True) (fun _ _ _ => trivial) n x
  have hturn := (ensures_runGroup accounts_failedSince
    (ensures_runRegistered hstep fun _ _ => trivial)
    (fun sid hsid => gathered_iff hmode hgroups hmem hsid) hnodup.2.1.1 hnew hs).run hregistry
  obtain ⟨⟨order, horder, hafter⟩, hregistry⟩ := hturn
  refine ⟨hregistry, hafter.mono fun sid hsid => ?_⟩
  rw [flatten_append, flatten_singleton, mem_append]
  exact (mem_append.mp hsid).imp_right (horder sid).mp

structure Orderly (x : WorkflowExecutor W) (done : List (List String)) (s : Situation W) :
    Prop where
  registry : RegistryIds s.2
  ran : FailedSince [] done.flatten s.1
  disciplined : Disciplined x.definition.steps s.1.runs

theorem exists_index_le {done rest : List (List String)} (hall : groups = done ++ group :: rest)
    (hsid : sid ∈ (done ++ [group]).flatten) :
    ∃ (i : ℕ) (g : List String), i ≤ done.length ∧ groups[i]? = some g ∧ sid ∈ g := by
  obtain ⟨i, g, hi, hmem⟩ := Peeling.exists_index hsid
  have hlt : i < (done ++ [group]).length := (List.getElem?_eq_some_iff.mp hi).1
  have hbegins : groups = (done ++ [group]) ++ rest := by rw [hall, append_assoc]; rfl
  refine ⟨i, g, ?_, ?_, hmem⟩
  · rw [length_append, length_singleton] at hlt
    omega
  · rw [hbegins, getElem?_append_left hlt]
    exact hi

theorem orderly_groupTurn (hmode : x.definition.execution.mode ≠ .sequential)
    (hgroups : parallelGroups x.definition.steps = .ok groups) (n : ℕ)
    {done rest : List (List String)} (hall : groups = done ++ group :: rest)
    (hfailed : s.1.failed = false) (hs : x.Orderly done s) :
    x.Orderly (done ++ [group]) (x.groupTurn (executeStep n x) group s) := by
  obtain ⟨order, hschedule⟩ := parallelGroups_isSchedule x.definition.uniqueStepIds
    x.definition.knownDependencies hgroups
  have hbefore : FailedSince done.flatten done.flatten s.1 := by
    refine ⟨List.Subset.refl _, hs.ran.ran, fun run hrun hrunFailed => ?_⟩
    have hp := (hs.ran.failed run hrun hrunFailed).1
    exact absurd (hfailed.symm.trans hp) Bool.false_ne_true
  obtain ⟨hregistry, hafter⟩ := failedSince_groupTurn hmode hgroups hall n hs.registry hbefore
  refine ⟨hregistry, ⟨nil_subset _, hafter.ran, fun run hrun hrunFailed =>
    ⟨(hafter.failed run hrun hrunFailed).1, not_mem_nil⟩⟩,
    fun run hrun dep hdep hdepFailed hrel => ?_⟩
  -- The dependency is in this group, so that the step is in a later one.
  obtain ⟨i, g, hi, hget, hmem⟩ := exists_index_le hall (hafter.ran run hrun)
  have hgroup : groups[done.length]? = some group := by simp [hall]
  have hhere : dep.step.id ∈ group := by
    have hdep' := hafter.ran dep hdep
    rw [flatten_append, flatten_singleton, mem_append] at hdep'
    exact hdep'.resolve_left (hafter.failed dep hdep hdepFailed).2
  have hlt := hschedule.earlier _ _ hrel _ _ _ _ hgroup hget hhere hmem
  omega

theorem disciplined_execute (hmode : x.definition.execution.mode ≠ .sequential)
    (inputs : Outputs) (shared : Shared W)
    (hgo : ∀ t ∈ x.groupTurns inputs shared, t.2.1.failed = false) :
    Disciplined x.definition.steps ((x.execute inputs).run shared).1.runs := by
  cases hgroups : parallelGroups x.definition.steps with
  | error e =>
    have hnone : ((x.execute inputs).run shared).1.runs = [] := by
      rw [execute_run, runSteps]
      cases hx : x.definition.execution.mode with
      | sequential => exact absurd hx hmode
      | parallel => rw [hgroups]; rfl
      | dependencyAware => rw [hgroups]; rfl
    rw [hnone]
    rintro _ ⟨⟩
  | ok groups =>
    rw [execute_groups hmode hgroups]
    rw [groupTurns, hgroups] at hgo
    have hstart : x.Orderly [] (x.start inputs shared) :=
      ⟨(registry_start inputs shared).1, ⟨nil_subset _, by rintro _ ⟨⟩, by rintro _ ⟨⟩⟩,
        by rintro _ ⟨⟩⟩
    obtain ⟨done, hend⟩ := loop_induction
      (orderly_groupTurn hmode hgroups x.services.recursionLimit) rfl hgo hstart
    exact hend.disciplined

end WorkflowExecutor

open WorkflowExecutor

/-- In a chain, dependency-aware execution comes to what sequential execution comes to if and
only if no group begins after a failure, unless the workflow continues on errors, and every
group finds its own step. In any workflow, when no group begins so and errors are not to be
continued after, no step that runs depends on one that failed. -/
theorem execute_modes (x : WorkflowExecutor W) (inputs : Outputs) (shared : Shared W) :
    let aware := x.inMode .dependencyAware
    let run := ((aware.execute inputs).run shared).1
    let turns := aware.groupTurns inputs shared
    (InListOrder x.definition.steps →
      (SameRun run (((x.inMode .sequential).execute inputs).run shared).1 ↔
        (∀ t ∈ turns, aware.HeedsFailures t.2) ∧ ∀ t ∈ turns, aware.FindsSteps t.1 t.2)) ∧
      ((∀ t ∈ turns, aware.HeedsFailures t.2) →
        x.definition.execution.continueOnError = true ∨
          Disciplined x.definition.steps run.runs) := by
  intro aware run turns
  have hmode : aware.definition.execution.mode ≠ .sequential := nofun
  constructor
  · intro hchain
    have hiff := chain_agrees_iff hmode hchain inputs shared
    refine hiff.trans ⟨fun h => ⟨fun t ht => (h t ht).1, fun t ht => (h t ht).2⟩, ?_⟩
    exact fun h t ht => ⟨h.1 t ht, h.2 t ht⟩
  · intro hheeds
    cases hcontinues : x.definition.execution.continueOnError with
    | true => exact .inl rfl
    | false =>
      refine .inr (disciplined_execute hmode inputs shared fun t ht => ?_)
      have hheeds := hheeds t ht
      refine Bool.eq_false_iff.mpr fun hfailed => ?_
      have hcontinues' : x.definition.execution.continueOnError = true := hheeds hfailed
      exact absurd (hcontinues.symm.trans hcontinues') Bool.false_ne_true

/-- A chain of two steps of which the first fails, that neither fails fast nor continues on
errors. -/
def failingChain : WorkflowDefinition where
  name := "failing"
  steps := [{ id := "first", action := .runCommand, command := some "false" },
    { id := "second", action := .transform, dependsOn := ["first"] }]
  execution := { continueOnError := false, failFast := false }
  nonempty := nofun
  uniqueStepIds := by decide
  knownDependencies := by decide

/-- Sequential execution stops at the first step, dependency-aware execution does not. -/
theorem failingChain_not_agrees :
    let x := plainExecutor failingChain "r"
    let run := (((x.inMode .dependencyAware).execute Dict.empty).run (⟨⟩, [])).1
    let run' := (((x.inMode .sequential).execute Dict.empty).run (⟨⟩, [])).1
    InListOrder failingChain.steps ∧ failingChain.execution.continueOnError = false ∧
      ¬SameRun run run' ∧ ¬Disciplined failingChain.steps run.runs := by
  intro x run run'
  have hruns : run.runs.map (·.step.id) = ["first", "second"] := by decide +kernel
  have hruns' : run'.runs.map (·.step.id) = ["first"] := by decide +kernel
  have hfailed : ∃ dep ∈ run.runs, dep.status = some .failed ∧ dep.step.id = "first" := by
    decide +kernel
  refine ⟨by decide, rfl, fun hsame => ?_, fun hdisciplined => ?_⟩
  · rw [hsame.1, hruns'] at hruns
    cases hruns
  · obtain ⟨dep, hdep, hstatus, hid⟩ := hfailed
    have hsecond : "second" ∈ run.runs.map (·.step.id) := by rw [hruns]; decide
    obtain ⟨last, hlast, hlastId⟩ := mem_map.mp hsecond
    refine hdisciplined last hlast dep hdep (.inl hstatus) (.single ?_)
    rw [hid, hlastId]
    exact ⟨_, mem_cons_of_mem _ (mem_singleton_self _), rfl, mem_singleton_self _⟩

end Agent33.Workflows.Executor
