import Agent33.Workflows.Propagation

/-!
# The record of attempted steps

The results of a run list every attempted step once, except for a step that raises
outside of a gathered group: it ends the run without a result.
-/

namespace Agent33.Workflows.Executor

open Library Library.Async Workflows.Definition Workflows.Expressions WorkflowExecutor List

def RecordedOnce (result : WorkflowResult) (run : StepRun) : Prop :=
  result.stepsExecuted.count run.step.id = 1 ∧
    ∃ r, result.stepResults.filter (fun r => decide (r.stepId = run.step.id)) = [r] ∧
      (run.status = none → r.status = .failed)

variable {W : Type} {x : WorkflowExecutor W}

def Escaped (x : WorkflowExecutor W) (run : StepRun) : Prop :=
  run.status = none ∧ ¬x.Gathered run.step.id

def resultIds (p : Progress) : List String := p.stepResults.map (·.stepId)

structure Recorded (x : WorkflowExecutor W) (ids : List String) (p : Progress) : Prop where
  results : (resultIds p).Nodup ∧ resultIds p ⊆ ids
  executed : p.stepsExecuted.Nodup ∧ p.stepsExecuted ⊆ ids
  escaped : ∀ run ∈ p.runs, Escaped x run → run.step.id ∈ ids ∧ run.step.id ∉ p.stepsExecuted
  recorded : ∀ run ∈ p.runs, ¬Escaped x run → run.step.id ∈ p.stepsExecuted ∧
    ∃ r ∈ p.stepResults, r.stepId = run.step.id ∧ (run.status = none → r.status = .failed)
  raised : p.raised ≠ none → ∃ run ∈ p.runs, Escaped x run
  covered : ∀ sid ∈ ids, sid ∈ resultIds p ∨ ∃ run ∈ p.runs, Escaped x run

def NamesStep (run : StepRun) : Prop :=
  ∀ result, run.result = .ok result → result.stepId = run.step.id

variable {run : StepRun}

theorem RunOf.namesStep {R : StepRun → Prop} (h : RunOf R step run) : NamesStep run := by
  intro result hresult
  cases h with
  | raised e => cases hresult
  | skipped => cases hresult; rfl
  | refused error => cases hresult; rfl
  | exhausted error _ => cases hresult; rfl
  | succeeded _ _ _ => cases hresult; rfl

theorem memberResult_stepId (h : NamesStep run) :
    (memberResult run.step.id run).stepId = run.step.id := by
  rw [memberResult]
  cases hresult : run.result with
  | ok result => exact h result hresult
  | error e => rfl

theorem memberResult_raised (h : run.status = none) : (memberResult sid run).status = .failed := by
  obtain ⟨e, he⟩ := status_eq_none.mp h
  rw [memberResult, he]

theorem nodup_concat (h : known.Nodup ∧ known ⊆ ids) (hnew : sid ∉ ids) :
    (known ++ [sid]).Nodup ∧ known ++ [sid] ⊆ ids ++ [sid] := by
  refine ⟨nodup_append.mpr ⟨h.1, nodup_singleton sid, ?_⟩, ?_⟩
  · rintro a ha b hb rfl
    rw [mem_singleton] at hb
    exact hnew (hb ▸ h.2 ha)
  · exact append_subset.mpr
      ⟨fun a ha => mem_append_left _ (h.2 ha), subset_append_right _ _⟩

theorem accounts_recorded : Accounts x NamesStep (Recorded x) where
  restore {ids p result} hp hnew _ _ := by
    have hresults : resultIds (p.restore result) = resultIds p ++ [result.stepId] :=
      map_append
    refine ⟨?_, ⟨hp.executed.1, fun a ha => mem_append_left _ (hp.executed.2 ha)⟩,
      fun run hrun hesc => ?_, fun run hrun hesc => ?_, hp.raised, fun sid hsid => ?_⟩
    · rw [hresults]
      exact nodup_concat hp.results hnew
    · exact ⟨mem_append_left _ (hp.escaped run hrun hesc).1, (hp.escaped run hrun hesc).2⟩
    · obtain ⟨hexecuted, r, hr, hid⟩ := hp.recorded run hrun hesc
      exact ⟨hexecuted, r, mem_append_left _ hr, hid⟩
    · rw [hresults, mem_append]
      rcases mem_append.mp hsid with hsid | hsid
      · exact (hp.covered sid hsid).imp_left .inl
      · exact .inl (.inr hsid)
  record {ids p run} hp hnew _ hR hgathered := by
    have hid := memberResult_stepId hR
    have hresults : resultIds (p.record run.step.id run (memberResult run.step.id run)) =
        resultIds p ++ [run.step.id] := by
      rw [resultIds, Progress.record, map_append, map_singleton, hid, resultIds]
    have hesc : ¬Escaped x run := fun h => h.2 (hgathered (status_eq_none.mp h.1))
    refine ⟨?_, nodup_concat hp.executed hnew, fun run' hrun' hesc' => ?_,
      fun run' hrun' hesc' => ?_, fun hraised => ?_, fun sid hsid => ?_⟩
    · rw [hresults]
      exact nodup_concat hp.results hnew
    · rcases mem_append.mp hrun' with hrun' | hrun'
      · obtain ⟨hmem, hnot⟩ := hp.escaped run' hrun' hesc'
        refine ⟨mem_append_left _ hmem, fun hexecuted => ?_⟩
        rcases mem_append.mp hexecuted with hexecuted | hexecuted
        · exact hnot hexecuted
        · rw [mem_singleton.mp hexecuted] at hmem
          exact hnew hmem
      · rw [mem_singleton.mp hrun'] at hesc'
        exact absurd hesc' hesc
    · rcases mem_append.mp hrun' with hrun' | hrun'
      · obtain ⟨hexecuted, r, hr, hrid⟩ := hp.recorded run' hrun' hesc'
        exact ⟨mem_append_left _ hexecuted, r, mem_append_left _ hr, hrid⟩
      · rw [mem_singleton.mp hrun']
        exact ⟨mem_append_right _ (mem_singleton_self _), _,
          mem_append_right _ (mem_singleton_self _), hid, memberResult_raised⟩
    · obtain ⟨run', hrun', hesc'⟩ := hp.raised hraised
      exact ⟨run', mem_append_left _ hrun', hesc'⟩
    · rw [hresults, mem_append]
      rcases mem_append.mp hsid with hsid | hsid
      · refine (hp.covered sid hsid).imp .inl ?_
        rintro ⟨run', hrun', hesc'⟩
        exact ⟨run', mem_append_left _ hrun', hesc'⟩
      · exact .inl (.inr hsid)
  raise {ids p run e} hp hnew _ _ he hlone := by
    have hesc : Escaped x run := ⟨status_eq_none.mpr ⟨e, he⟩, hlone⟩
    have hmem : run ∈ p.runs ++ [run] := mem_append_right _ (mem_singleton_self run)
    refine ⟨⟨hp.results.1, fun a ha => mem_append_left _ (hp.results.2 ha)⟩,
      ⟨hp.executed.1, fun a ha => mem_append_left _ (hp.executed.2 ha)⟩,
      fun run' hrun' hesc' => ?_, fun run' hrun' hesc' => ?_, fun _ => ⟨run, hmem, hesc⟩,
      fun _ _ => .inr ⟨run, hmem, hesc⟩⟩
    · rcases mem_append.mp hrun' with hrun' | hrun'
      · obtain ⟨hin, hnot⟩ := hp.escaped run' hrun' hesc'
        exact ⟨mem_append_left _ hin, hnot⟩
      · rw [mem_singleton.mp hrun']
        exact ⟨mem_append_right _ (mem_singleton_self _),
          fun hexecuted => hnew (hp.executed.2 hexecuted)⟩
    · rcases mem_append.mp hrun' with hrun' | hrun'
      · exact hp.recorded run' hrun' hesc'
      · rw [mem_singleton.mp hrun'] at hesc'
        exact absurd hesc hesc'

theorem recorded_start (completed : List String) : Recorded x [] { completed } :=
  ⟨⟨nodup_nil, nil_subset _⟩, ⟨nodup_nil, nil_subset _⟩, nofun, nofun,
    fun h => absurd rfl h, nofun⟩

theorem filter_eq_singleton {results : List StepResult} (h : (results.map (·.stepId)).Nodup)
    {r : StepResult} (hr : r ∈ results) :
    results.filter (fun r' => decide (r'.stepId = r.stepId)) = [r] := by
  induction results with
  | nil => exact absurd hr not_mem_nil
  | cons r' rest ih =>
    rw [map_cons, nodup_cons] at h
    have hother (hrest : ∀ r'' ∈ rest, r''.stepId ≠ r.stepId) :
        rest.filter (fun r' => decide (r'.stepId = r.stepId)) = [] :=
      filter_eq_nil_iff.mpr fun r'' hr'' => by simpa using hrest r'' hr''
    rcases mem_cons.mp hr with heq | hin
    · subst heq
      rw [filter_cons_of_pos (by simp), hother]
      exact fun r'' hr'' heq => h.1 (heq ▸ mem_map_of_mem hr'')
    · have hne : r'.stepId ≠ r.stepId := fun heq => h.1 (heq ▸ mem_map_of_mem hin)
      rw [filter_cons_of_neg (by simpa using hne), ih h.2 hin]

theorem Recorded.recordedOnce_iff (h : Recorded x ids p)
    (hrun : run ∈ p.runs) : RecordedOnce (workflowResult p) run ↔ ¬Escaped x run := by
  constructor
  · intro hrecorded hesc
    have hnone := count_eq_zero_of_not_mem (h.escaped run hrun hesc).2
    have hone : p.stepsExecuted.count run.step.id = 1 := hrecorded.1
    omega
  · intro hesc
    obtain ⟨hexecuted, r, hr, hid, hfailed⟩ := h.recorded run hrun hesc
    refine ⟨count_eq_one_of_mem h.executed.1 hexecuted, r, ?_, hfailed⟩
    rw [← hid]
    exact filter_eq_singleton h.results.1 hr

def raisingInput : WorkflowDefinition where
  name := "raising"
  steps := [{ id := "first", action := .transform, inputs := [("x", .str "boom")] },
    { id := "second", action := .transform }]
  execution := { continueOnError := true, failFast := false }
  nonempty := nofun
  uniqueStepIds := by decide
  knownDependencies := by decide

end Agent33.Workflows.Executor
