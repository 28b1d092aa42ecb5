import Agent33.Library.Loop
import Agent33.Workflows.StepRuns

/-!
# What a run accounts for

The loops of a run meet every step at most once: they restore it, record its
result or end with its exception. What these three keep holds at the end of a
run, and what every execution of a step meets holds of all that a run attempted.
-/

namespace Agent33.Workflows.Executor

open Library Library.Async Workflows.Definition Workflows.Expressions Workflows.Checkpoint

namespace WorkflowExecutor

variable {W : Type} {x : WorkflowExecutor W} {R : StepRun → Prop}
  {Inv : List String → Progress → Prop}

def Gathered (x : WorkflowExecutor W) (sid : String) : Prop :=
  x.definition.execution.mode ≠ .sequential ∧
    ∃ groups, parallelGroups x.definition.steps = .ok groups ∧
      ∃ group ∈ groups, sid ∈ group ∧ group ≠ [sid]

def Stopped (x : WorkflowExecutor W) (p : Progress) : Prop :=
  p.raised ≠ none ∨ p.failed = true ∧ (x.definition.execution.failFast = true ∨
    x.definition.execution.mode = .sequential ∧ x.definition.execution.continueOnError = false)

/-- The ways in which a loop goes past a step keep the invariant, in which the ids of
the steps so far appear in their order. -/
structure Accounts (x : WorkflowExecutor W) (R : StepRun → Prop)
    (Inv : List String → Progress → Prop) : Prop where
  restore : ∀ {ids p} {result : StepResult}, Inv ids p → result.stepId ∉ ids →
    result.stepId ∈ p.completed → result.status = .skipped →
      Inv (ids ++ [result.stepId]) (p.restore result)
  record : ∀ {ids p} {run : StepRun}, Inv ids p → run.step.id ∉ ids → run.step.id ∉ p.completed →
    R run → ((∃ e, run.result = .error e) → x.Gathered run.step.id) →
      Inv (ids ++ [run.step.id]) (p.record run.step.id run (memberResult run.step.id run))
  raise : ∀ {ids p} {run : StepRun} {e : Raised}, Inv ids p → run.step.id ∉ ids →
    run.step.id ∉ p.completed → R run → run.result = .error e → ¬x.Gathered run.step.id →
      Inv (ids ++ [run.step.id]) (p.raise run e)

variable {p : Progress}
    {ids group sids : List String} {sid : String}


theorem ensures_settle
    (hI : ∀ (d : Data W) sid outputs, I d →
      I (d.1, { d.2 with state := d.2.state.set sid outputs }))
    (hsave : ∀ (d : Data W) sid completed, I d →
      I ((d.1.1, saveCheckpoint x.runId sid (x.checkpointPayload sid d.2.state completed) d.1.2),
        d.2))
    (sid : String) (run : StepRun) (result : StepResult) (p : Progress) :
    Ensures I (fun p' => p' = p.record sid run result) (x.settle sid run result p) := by
  refine (ensures_modify (Q := fun _ => True) (fun d hd => hI d _ _ hd) trivial).bind
    fun _ _ => ?_
  split_ifs
  · refine (ensures_modify (Q := fun _ => True) (fun d hd => ?_) trivial).bind
      fun _ _ => ensures_pure rfl
    split_ifs
    · exact hd
    · exact hsave d _ _ hd
  · exact (ensures_pure (Q := fun _ => True) trivial).bind fun _ _ => ensures_pure rfl

theorem ensures_restoreStep (sid : String) (p : Progress) :
    Ensures I (fun p' => ∃ result : StepResult, result.stepId = sid ∧ result.status = .skipped ∧
      p' = p.restore result) (restoreStep sid p : Async (Data W) Progress) :=
  (ensures_read (Q := fun _ => True) fun _ _ => trivial).bind fun _ _ =>
    ensures_pure ⟨_, rfl, rfl, rfl⟩

theorem ensures_settle_registry (sid : String) (run : StepRun) (result : StepResult)
    (p : Progress) :
    Ensures RegistryIds (fun p' => p' = p.record sid run result) (x.settle sid run result p) :=
  ensures_settle (fun _ _ _ hd => hd) (fun _ _ _ hd => hd) sid run result p

theorem memberResult_ok {run : StepRun} (h : run.result = .ok result) :
    memberResult sid run = result := by
  rw [memberResult, h]

def After (x : WorkflowExecutor W) (Inv : List String → Progress → Prop)
    (done pending : List String) (p : Progress) : Prop :=
  ∃ ids, done ⊆ ids ∧ Inv ids p ∧ (x.Stopped p ∨ pending ⊆ ids)

theorem After.cons {done : List String}
    (h : After x Inv (done ++ [sid]) pending p) : After x Inv done (sid :: pending) p := by
  obtain ⟨ids, hdone, hinv, hend⟩ := h
  refine ⟨ids, fun _ hmem => hdone (List.mem_append_left _ hmem), hinv, hend.imp_right ?_⟩
  exact fun hpending => List.cons_subset.mpr
    ⟨hdone (List.mem_append_right _ (List.mem_singleton_self sid)), hpending⟩

section

variable (hacc : Accounts x R Inv)
include hacc

theorem ensures_runSequential (hmode : x.definition.execution.mode = .sequential)
    (h : ∀ step, Ensures RegistryIds (fun run => run.step = step ∧ R run) (runStep step))
    (hnodup : (stepIds steps).Nodup) (hnew : ∀ sid ∈ stepIds steps, sid ∉ ids) (hp : Inv ids p) :
    Ensures RegistryIds (After x Inv ids (stepIds steps)) (x.runSequential runStep steps p) := by
  induction steps generalizing ids p with
  | nil => exact ensures_pure ⟨ids, List.Subset.refl _, hp, .inr (List.nil_subset _)⟩
  | cons step rest ih =>
    rw [stepIds, List.map_cons] at hnew hnodup
    rw [stepIds, List.map_cons]
    obtain ⟨hstep, hrest⟩ := List.forall_mem_cons.mp hnew
    obtain ⟨hnotin, hrestNodup⟩ := List.nodup_cons.mp hnodup
    have hnew' : ∀ sid ∈ stepIds rest, sid ∉ ids ++ [step.id] := by
      intro sid hsid hmem
      rcases List.mem_append.mp hmem with hmem | hmem
      · exact hrest sid hsid hmem
      · rw [List.mem_singleton.mp hmem] at hsid
        exact hnotin hsid
    rw [runSequential]
    split_ifs with hcompleted
    · refine (ensures_restoreStep step.id p).bind fun p' hp' => ?_
      obtain ⟨result, hid, hstatus, rfl⟩ := hp'
      rw [← hid] at hstep hcompleted hnew'
      refine (ih hrestNodup hnew' (hacc.restore hp hstep hcompleted hstatus)).imp fun _ hend => ?_
      rw [hid] at hend
      exact hend.cons
    · refine (h step).bind fun run hrun => ?_
      obtain ⟨rfl, hR⟩ := hrun
      cases hresult : run.result with
      | error e =>
        refine ensures_pure ⟨_, List.subset_append_left _ _,
          hacc.raise hp hstep hcompleted hR hresult fun hgathered => hgathered.1 hmode, .inl ?_⟩
        exact .inl nofun
      | ok result =>
        have hrecord := hacc.record hp hstep hcompleted hR fun ⟨e, he⟩ => by
          rw [hresult] at he
          cases he
        rw [memberResult_ok hresult] at hrecord
        refine (ensures_settle_registry _ run result p).bind fun p' hp' => ?_
        subst hp'
        split_ifs with hstop
        · refine ensures_pure ⟨_, List.subset_append_left _ _, hrecord, .inl (.inr ⟨?_, ?_⟩)⟩
          · rw [Progress.record]
            exact Bool.or_eq_true_iff.mpr (.inr (decide_eq_true hstop.1))
          · exact hstop.2.imp_right fun hcontinue => ⟨hmode, hcontinue⟩
        · exact (ih hrestNodup hnew' hrecord).imp fun _ hend => hend.cons

theorem ensures_runSingle (h : ∀ sid, Ensures RegistryIds (fun run => run.step.id = sid ∧ R run)
      (runRegistered runStep sid))
    (hlone : ¬x.Gathered sid) (hnew : sid ∉ ids) (hp : Inv ids p) :
    Ensures RegistryIds (Inv (ids ++ [sid])) (x.runSingle runStep sid p) := by
  rw [runSingle]
  split_ifs with hcompleted
  · refine (ensures_restoreStep sid p).imp ?_
    rintro p' ⟨result, rfl, hstatus, rfl⟩
    exact hacc.restore hp hnew hcompleted hstatus
  · refine (h sid).bind fun run hrun => ?_
    obtain ⟨rfl, hR⟩ := hrun
    cases hresult : run.result with
    | error e => exact ensures_pure (hacc.raise hp hnew hcompleted hR hresult hlone)
    | ok result =>
      have hrecord := hacc.record hp hnew hcompleted hR fun ⟨e, he⟩ => by
        rw [hresult] at he
        cases he
      rw [memberResult_ok hresult] at hrecord
      refine (ensures_settle_registry _ run result p).imp ?_
      rintro p' rfl
      exact hrecord

theorem ensures_restoreAll (hnodup : sids.Nodup)
    (hnew : ∀ sid ∈ sids, sid ∉ ids) (hcompleted : ∀ sid ∈ sids, sid ∈ p.completed)
    (hp : Inv ids p) :
    Ensures RegistryIds (fun p' => p'.completed = p.completed ∧ Inv (ids ++ sids) p')
      (restoreAll sids p : Async (Data W) Progress) := by
  induction sids generalizing ids p with
  | nil => exact ensures_pure ⟨rfl, by rwa [List.append_nil]⟩
  | cons sid rest ih =>
    obtain ⟨hsid, hrest⟩ := List.forall_mem_cons.mp hnew
    obtain ⟨hdone, hrestDone⟩ := List.forall_mem_cons.mp hcompleted
    obtain ⟨hnotin, hrestNodup⟩ := List.nodup_cons.mp hnodup
    refine (ensures_restoreStep sid p).bind fun p' hp' => ?_
    obtain ⟨result, rfl, hstatus, rfl⟩ := hp'
    rw [List.append_cons]
    refine ih hrestNodup (p := p.restore result) (fun sid hmem => ?_) hrestDone
      (hacc.restore hp hsid hdone hstatus)
    rw [List.mem_append, List.mem_singleton, not_or]
    exact ⟨hrest sid hmem, fun heq => hnotin (heq ▸ hmem)⟩

theorem ensures_settleAll (hnodup : sids.Nodup)
    (hruns : List.Forall₂ (fun sid run => run.step.id = sid ∧ R run) sids runs)
    (hnew : ∀ sid ∈ sids, sid ∉ ids) (hcompleted : ∀ sid ∈ sids, sid ∉ p.completed)
    (hgathered : ∀ sid ∈ sids, x.Gathered sid) (hp : Inv ids p) :
    Ensures RegistryIds (Inv (ids ++ sids)) (x.settleAll (sids.zip runs) p) := by
  induction hruns generalizing ids p with
  | nil => exact ensures_pure (by rwa [List.append_nil])
  | @cons sid run rest runs hrun hruns ih =>
    obtain ⟨rfl, hR⟩ := hrun
    obtain ⟨hsid, hrest⟩ := List.forall_mem_cons.mp hnew
    obtain ⟨hdone, hcompleted⟩ := List.forall_mem_cons.mp hcompleted
    obtain ⟨hhere, hgathered⟩ := List.forall_mem_cons.mp hgathered
    obtain ⟨hnotin, hnodup⟩ := List.nodup_cons.mp hnodup
    rw [List.zip_cons_cons, settleAll]
    refine (ensures_settle_registry _ _ _ _).bind fun p' hp' => ?_
    subst hp'
    rw [List.append_cons]
    refine ih hnodup (fun sid hmem => ?_) (fun sid hmem => ?_) hgathered
      (hacc.record hp hsid hdone hR fun _ => hhere)
    · rw [List.mem_append, List.mem_singleton, not_or]
      exact ⟨hrest sid hmem, fun heq => hnotin (heq ▸ hmem)⟩
    · rw [Progress.record]
      dsimp only
      split_ifs
      · rw [List.mem_cons, not_or]
        exact ⟨fun heq => hnotin (heq ▸ hmem), hcompleted sid hmem⟩
      · exact hcompleted sid hmem

end

def groupOrder (completed : List String) (group : List String) : List String :=
  group.filter (fun sid => decide (sid ∈ completed)) ++
    group.filter fun sid => decide (sid ∉ completed)

theorem mem_groupOrder {completed : List String} :
    sid ∈ groupOrder completed group ↔ sid ∈ group := by
  rw [groupOrder, List.mem_append, List.mem_filter, List.mem_filter, decide_eq_true_iff,
    decide_eq_true_iff]
  tauto

theorem ensures_runGathered (hacc : Accounts x R Inv)
    (h : ∀ sid, Ensures RegistryIds (fun run => run.step.id = sid ∧ R run)
      (runRegistered runStep sid))
    (hgathered : ∀ sid ∈ group, x.Gathered sid) (hnodup : group.Nodup)
    (hnew : ∀ sid ∈ group, sid ∉ ids) (hp : Inv ids p) :
    Ensures RegistryIds (Inv (ids ++ groupOrder p.completed group))
      (x.runGathered runStep group p) := by
  have hrestored : ∀ sid ∈ group.filter (fun sid => decide (sid ∈ p.completed)),
      sid ∈ group ∧ sid ∈ p.completed := fun sid hsid => by
    rwa [List.mem_filter, decide_eq_true_iff] at hsid
  have hpending : ∀ sid ∈ group.filter (fun sid => decide (sid ∉ p.completed)),
      sid ∈ group ∧ sid ∉ p.completed := fun sid hsid => by
    rwa [List.mem_filter, decide_eq_true_iff] at hsid
  refine (ensures_restoreAll hacc (hnodup.filter _)
    (fun sid hsid => hnew sid (hrestored sid hsid).1)
    (fun sid hsid => (hrestored sid hsid).2) hp).bind fun p' hp' => ?_
  obtain ⟨hcompleted, hp'⟩ := hp'
  refine (ensures_gather (fun sid _ => h sid) _).bind fun runs hruns => ?_
  rw [groupOrder, ← List.append_assoc]
  refine ensures_settleAll hacc (hnodup.filter _) hruns (fun sid hsid => ?_) (fun sid hsid => ?_)
    (fun sid hsid => hgathered sid (hpending sid hsid).1) hp'
  · rw [List.mem_append, not_or]
    exact ⟨hnew sid (hpending sid hsid).1, fun hmem =>
      (hpending sid hsid).2 (hrestored sid hmem).2⟩
  · rw [hcompleted]
    exact (hpending sid hsid).2

theorem ensures_runGroup (hacc : Accounts x R Inv)
    (h : ∀ sid, Ensures RegistryIds (fun run => run.step.id = sid ∧ R run)
      (runRegistered runStep sid))
    (hgroup : ∀ sid ∈ group, x.Gathered sid ↔ group ≠ [sid]) (hnodup : group.Nodup)
    (hnew : ∀ sid ∈ group, sid ∉ ids) (hp : Inv ids p) :
    Ensures RegistryIds (fun p' => ∃ order, (∀ sid, sid ∈ order ↔ sid ∈ group) ∧
      Inv (ids ++ order) p') (x.runGroup runStep group p) := by
  have hgathered (hmembers : ∀ sid ∈ group, x.Gathered sid) :
      Ensures RegistryIds (fun p' => ∃ order, (∀ sid, sid ∈ order ↔ sid ∈ group) ∧
        Inv (ids ++ order) p') (x.runGathered runStep group p) :=
    (ensures_runGathered hacc h hmembers hnodup hnew hp).imp fun p' hp' =>
      ⟨_, fun _ => mem_groupOrder, hp'⟩
  match group with
  | [] => exact hgathered nofun
  | [sid] =>
    have hlone : ¬x.Gathered sid := fun hmem =>
      (hgroup sid (List.mem_singleton_self sid)).mp hmem rfl
    exact (ensures_runSingle hacc h hlone (hnew sid (List.mem_singleton_self sid)) hp).imp
      fun p' hp' => ⟨[sid], fun _ => Iff.rfl, hp'⟩
  | _ :: _ :: _ => exact hgathered fun sid hsid => (hgroup sid hsid).mpr nofun

open List in
theorem ensures_runGroups (hacc : Accounts x R Inv)
    (h : ∀ sid, Ensures RegistryIds (fun run => run.step.id = sid ∧ R run)
      (runRegistered runStep sid))
    (hgroups : ∀ group ∈ groups, ∀ sid ∈ group, x.Gathered sid ↔ group ≠ [sid])
    (hnodup : groups.flatten.Nodup) (hnew : ∀ sid ∈ groups.flatten, sid ∉ ids) (hp : Inv ids p) :
    Ensures RegistryIds (After x Inv ids groups.flatten) (x.runGroups runStep groups p) := by
  induction groups generalizing ids p with
  | nil => exact ensures_pure ⟨ids, List.Subset.refl _, hp, .inr (nil_subset _)⟩
  | cons group rest ih =>
    rw [flatten_cons, nodup_append] at hnodup
    rw [flatten_cons] at hnew
    rw [flatten_cons]
    obtain ⟨hgroup, hrest, hdisjoint⟩ := hnodup
    obtain ⟨hhere, hgroups⟩ := forall_mem_cons.mp hgroups
    refine (ensures_runGroup hacc h hhere hgroup
      (fun sid hsid => hnew sid (mem_append_left _ hsid)) hp).bind fun p' hp' => ?_
    obtain ⟨order, horder, hp'⟩ := hp'
    split_ifs with hraised hfailed
    · exact ensures_pure ⟨_, subset_append_left _ _, hp',
        .inl (.inl (Option.isSome_iff_ne_none.mp hraised))⟩
    · exact ensures_pure ⟨_, subset_append_left _ _, hp',
        .inl (.inr ⟨hfailed.1, .inl hfailed.2⟩)⟩
    · refine (ih hgroups hrest (fun sid hsid hmem => ?_) hp').imp fun p'' hend => ?_
      · rcases mem_append.mp hmem with hmem | hmem
        · exact hnew sid (mem_append_right _ hsid) hmem
        · exact hdisjoint sid ((horder sid).mp hmem) sid hsid rfl
      · obtain ⟨ids', hdone, hinv, hend⟩ := hend
        refine ⟨ids', fun _ hmem => hdone (mem_append_left _ hmem), hinv, hend.imp_right ?_⟩
        exact fun hpending => append_subset.mpr ⟨fun sid hsid =>
          hdone (mem_append_right _ ((horder sid).mpr hsid)), hpending⟩

theorem parallelGroups_perm (hu : UniqueStepIds steps) (h : parallelGroups steps = .ok groups) :
    groups.flatten.Perm (stepIds steps) := by
  obtain ⟨rounds, hp, -, hbuild⟩ := Dag.DAGBuilder.build_eq hu
  rw [parallelGroups, hbuild] at h
  split_ifs at h with hlength
  · cases h
  · cases h
    rw [not_not] at hlength
    have hmem := (Dag.DAGBuilder.length_flatten_eq_iff hu hp).mp hlength
    refine (Dag.DAGBuilder.flatten_map_sorted_perm rounds).trans ?_
    exact (List.perm_ext_iff_of_nodup hp.nodup_flatten hu).mpr
      fun v => ⟨fun hv => (hp.mem_flatten hv).1, hmem v⟩

def Progress.cyclic (p : Progress) (message : String) : Progress :=
  { p with failed := true, errorMessage := some message, raised := some { message } }

theorem eq_of_mem_of_nodup_flatten {α : Type} {groups : List (List α)}
    (hnodup : groups.flatten.Nodup) {g g' : List α} (hg : g ∈ groups) (hg' : g' ∈ groups) {a : α}
    (ha : a ∈ g) (ha' : a ∈ g') : g = g' := by
  induction groups with
  | nil => exact absurd hg List.not_mem_nil
  | cons group rest ih =>
    rw [List.flatten_cons, List.nodup_append] at hnodup
    obtain ⟨-, hrest, hdisjoint⟩ := hnodup
    rcases List.mem_cons.mp hg with heq | hin
    · rcases List.mem_cons.mp hg' with heq' | hin'
      · rw [heq, heq']
      · rw [heq] at ha
        exact absurd rfl (hdisjoint a ha a (List.mem_flatten_of_mem hin' ha'))
    · rcases List.mem_cons.mp hg' with heq' | hin'
      · rw [heq'] at ha'
        exact absurd rfl (hdisjoint a ha' a (List.mem_flatten_of_mem hin ha))
      · exact ih hrest hin hin'

theorem gathered_iff (hmode : x.definition.execution.mode ≠ .sequential)
    (hg : parallelGroups x.definition.steps = .ok groups) (hgroup : group ∈ groups)
    (hsid : sid ∈ group) : x.Gathered sid ↔ group ≠ [sid] := by
  refine ⟨fun hgathered => ?_, fun hne => ⟨hmode, groups, hg, group, hgroup, hsid, hne⟩⟩
  obtain ⟨-, groups', hg', group', hgroup', hsid', hne⟩ := hgathered
  rw [hg] at hg'
  cases hg'
  have hnodup := (parallelGroups_perm x.definition.uniqueStepIds hg).nodup_iff.mpr
    x.definition.uniqueStepIds
  rwa [eq_of_mem_of_nodup_flatten hnodup hgroup hgroup' hsid hsid']

def Finished (x : WorkflowExecutor W) (Inv : List String → Progress → Prop) (start p : Progress) :
    Prop :=
  After x Inv [] (stepIds x.definition.steps) p ∨
    x.definition.execution.mode ≠ .sequential ∧
      ∃ e, parallelGroups x.definition.steps = .error e ∧ p = start.cyclic e.message

theorem ensures_runSteps (hacc : Accounts x R Inv)
    (h : ∀ step, Ensures RegistryIds (fun run => run.step = step ∧ R run) (runStep step))
    (hraised : ∀ step e, R { step, result := .error e }) (hp : Inv [] p) :
    Ensures RegistryIds (Finished x Inv p) (x.runSteps runStep p) := by
  have hsequential (hmode : x.definition.execution.mode = .sequential) :
      Ensures RegistryIds (Finished x Inv p) (x.runSequential runStep x.definition.steps p) :=
    (ensures_runSequential hacc hmode h x.definition.uniqueStepIds
      (fun _ _ => List.not_mem_nil) hp).imp fun _ => .inl
  rw [runSteps]
  cases hg : parallelGroups x.definition.steps with
  | error e =>
    have hcyclic (hmode : x.definition.execution.mode ≠ .sequential) :
        Ensures RegistryIds (Finished x Inv p)
          (pure (p.cyclic e.message) : Async (Data W) Progress) :=
      ensures_pure (.inr ⟨hmode, e, hg, rfl⟩)
    cases hmode : x.definition.execution.mode with
    | sequential => exact hsequential hmode
    | parallel => exact hcyclic (by rw [hmode]; decide)
    | dependencyAware => exact hcyclic (by rw [hmode]; decide)
  | ok groups =>
    have hperm := parallelGroups_perm x.definition.uniqueStepIds hg
    have hgroups (hmode : x.definition.execution.mode ≠ .sequential) :
        Ensures RegistryIds (Finished x Inv p) (x.runGroups runStep groups p) := by
      refine (ensures_runGroups hacc (ensures_runRegistered h hraised)
        (fun group hgroup sid hsid => gathered_iff hmode hg hgroup hsid)
        (hperm.nodup_iff.mpr x.definition.uniqueStepIds) (fun _ _ => List.not_mem_nil) hp).imp
          fun p' hend => .inl ?_
      obtain ⟨ids, hdone, hinv, hend⟩ := hend
      exact ⟨ids, hdone, hinv, hend.imp_right fun hall _ hsid => hall (hperm.mem_iff.mpr hsid)⟩
    cases hmode : x.definition.execution.mode with
    | sequential => exact hsequential hmode
    | parallel => exact hgroups (by rw [hmode]; decide)
    | dependencyAware => exact hgroups (by rw [hmode]; decide)

structure RunFrom (p : Progress) (run : WorkflowRun) : Prop where
  result : run.result = workflowResult p
  runs : run.runs = p.runs
  raised : run.raised = p.raised

theorem ensures_executeWith {Q : Progress → Progress → Prop}
    (h : ∀ completed, Ensures RegistryIds (Q { completed }) (x.runSteps runStep { completed }))
    (inputs : Outputs) :
    Ensures (fun _ => True) (fun run => ∃ completed p, Q { completed } p ∧ RunFrom p run)
      (x.executeWith runStep inputs) := by
  refine (ensures_read (Q := fun _ => True) fun _ _ => trivial).bind fun shared _ => ?_
  have hloop := (h (x.loadCheckpointState inputs shared.2).2).congr
    (J := fun d : Data W => True ∧ ∀ sid step, d.2.steps.get? sid = some step → step.id = sid)
    fun d => ⟨fun hd => ⟨trivial, hd⟩, And.right⟩
  refine (hloop.withLocal (L := fun scope : Local =>
    ∀ sid step, scope.steps.get? sid = some step → step.id = sid)
    (registryIds_ofList x.definition.steps)).bind fun p hp => ?_
  exact ensures_pure ⟨_, p.1, hp.1, rfl, rfl, rfl⟩

end WorkflowExecutor

open WorkflowExecutor

variable {W : Type}

theorem accounts_runs {x : WorkflowExecutor W} :
    Accounts x R (fun _ p => ∀ run ∈ p.runs, R run) where
  restore hp _ _ _ := hp
  record hp _ _ hR _ := List.forall_mem_append.mpr ⟨hp, List.forall_mem_singleton.mpr hR⟩
  raise hp _ _ hR _ _ := List.forall_mem_append.mpr ⟨hp, List.forall_mem_singleton.mpr hR⟩

theorem ensures_executeStep (hR : ∀ step run, RunOf R step run → R run) (n : ℕ)
    (x : WorkflowExecutor W) (step : WorkflowStep) :
    Ensures RegistryIds (fun run => run.step = step ∧ R run) (executeStep n x step) := by
  have hraised : ∀ step e, R { step, result := .error e } := fun step e => hR step _ (.raised e)
  induction n generalizing x step with
  | zero => exact ensures_pure ⟨rfl, hraised step _⟩
  | succ n ih =>
    have hworkflow : ∀ (y : WorkflowExecutor W) inputs, Ensures (fun _ => True)
        (fun run => ∀ r ∈ run.runs, R r) (y.executeWith (executeStep n y) inputs) := by
      intro y inputs
      have hloop : ∀ completed, Ensures RegistryIds
          (Finished y (fun _ p => ∀ run ∈ p.runs, R run) { completed })
          (y.runSteps (executeStep n y) { completed }) :=
        fun completed => ensures_runSteps accounts_runs (ih y) hraised nofun
      refine (ensures_executeWith hloop inputs).imp ?_
      rintro run ⟨completed, p, ⟨_, _, hp, _⟩ | ⟨_, e, _, rfl⟩, hfrom⟩
      · rw [hfrom.runs]
        exact hp
      · rw [hfrom.runs]
        exact nofun
    have hdispatch : ∀ inputs, Ensures RegistryIds (DispatchOf R step)
        (x.dispatchAction (executeStep n x) (fun y => y.executeWith (executeStep n y)) step
          inputs) :=
      ensures_dispatchAction (ih x) hraised hworkflow step
    exact (ensures_runStepWith (fun _ _ hd => hd) hdispatch).imp fun run hrun =>
      ⟨hrun.step_eq, hR step run hrun⟩

theorem ensures_execute {Inv : List String → Progress → Prop}
    (hR : ∀ step run, RunOf R step run → R run) (hacc : Accounts x R Inv)
    (hstart : ∀ completed, Inv [] { completed }) (inputs : Outputs) :
    Ensures (fun _ => True)
      (fun run => ∃ completed p, Finished x Inv { completed } p ∧ RunFrom p run)
      (x.execute inputs) :=
  ensures_executeWith (fun completed => ensures_runSteps hacc
    (ensures_executeStep hR x.services.recursionLimit x) (fun step e => hR step _ (.raised e))
    (hstart completed)) inputs

end Agent33.Workflows.Executor

/-!
## The turns of a run

A run as a loop over its rounds: the steps one after the other, or the groups of the graph.
A round takes the progress and the data of the run to the next ones.
-/

namespace Agent33.Workflows.Executor

open Library Library.Async Library.Loop Workflows.Definition Workflows.Expressions
open Workflows.Checkpoint

variable {W : Type}

namespace WorkflowExecutor

variable (x : WorkflowExecutor W)

abbrev Situation (W : Type) := Progress × Data W

def start (inputs : Outputs) (shared : Shared W) : Situation W :=
  let (state, completed) := x.loadCheckpointState inputs shared.2
  ({ completed }, shared,
    { state, steps := Dict.ofList (x.definition.steps.map fun s => (s.id, s)) })

def finish (s : Situation W) : WorkflowRun where
  result := workflowResult s.1
  state := s.2.2.state
  runs := s.1.runs
  raised := s.1.raised

theorem execute_run (inputs : Outputs) (shared : Shared W) :
    ((x.execute inputs).run shared).1 =
      finish ((x.runSteps (executeStep x.services.recursionLimit x) (x.start inputs shared).1).run
        (x.start inputs shared).2) := by
  rw [execute, executeWith, run_bind, run_read, run_bind, run_withLocal]
  rfl

def stopsGroups (s : Situation W) : Bool :=
  s.1.raised.isSome || (s.1.failed && x.definition.execution.failFast)

def stopsSequence (s : Situation W) : Bool :=
  s.1.raised.isSome || (s.1.failed && (x.definition.execution.failFast ||
    !x.definition.execution.continueOnError))

variable (runStep : WorkflowStep → Async (Data W) StepRun)

def groupTurn (group : List String) (s : Situation W) : Situation W :=
  (x.runGroup runStep group s.1).run s.2

/-- What a loop does at a single step, with the way in which it has the step executed. -/
def runOne (ran : Async (Data W) StepRun) (sid : String) (p : Progress) : Async (Data W) Progress :=
  if sid ∈ p.completed then restoreStep sid p
  else do
    let run ← ran
    match run.result with
    | .error e => return p.raise run e
    | .ok result => x.settle sid run result p

def stepTurn (step : WorkflowStep) (s : Situation W) : Situation W :=
  (x.runOne (runStep step) step.id s.1).run s.2

theorem groupTurn_singleton (sid : String) (s : Situation W) :
    x.groupTurn runStep [sid] s = (x.runOne (runRegistered runStep sid) sid s.1).run s.2 := rfl

inductive Turned (ran : Async (Data W) StepRun) (sid : String) (p : Progress) (d : Data W) :
    Progress → Prop
  | restored (result : StepResult) (h : sid ∈ p.completed) : Turned ran sid p d (p.restore result)
  | raised (e : Raised) (h : sid ∉ p.completed) : Turned ran sid p d (p.raise (ran.run d).1 e)
  | recorded (result : StepResult) (h : sid ∉ p.completed) :
      Turned ran sid p d (p.record sid (ran.run d).1 result)

theorem settle_progress (sid : String) (run : StepRun) (result : StepResult) (p : Progress)
    (d : Data W) : ((x.settle sid run result p).run d).1 = p.record sid run result := by
  rw [settle, run_bind, run_bind]
  rfl

theorem runOne_turned (ran : Async (Data W) StepRun) (sid : String) (p : Progress) (d : Data W) :
    Turned ran sid p d ((x.runOne ran sid p).run d).1 := by
  rw [runOne]
  by_cases hcompleted : sid ∈ p.completed
  · rw [if_pos hcompleted]
    exact .restored _ hcompleted
  · rw [if_neg hcompleted, run_bind]
    cases (ran.run d).1.result with
    | error e => exact .raised e hcompleted
    | ok result =>
      dsimp only
      rw [settle_progress]
      exact .recorded result hcompleted

theorem runGroups_run (groups : List (List String)) (s : Situation W) :
    (x.runGroups runStep groups s.1).run s.2 =
      loop x.stopsGroups (x.groupTurn runStep) groups s := by
  induction groups generalizing s with
  | nil => rfl
  | cons group rest ih =>
    rw [runGroups, run_bind, loop, ← ih, groupTurn]
    generalize (x.runGroup runStep group s.1).run s.2 = after
    rw [stopsGroups]
    by_cases hraised : after.1.raised.isSome = true
    · simp [hraised]
    · by_cases hfailed : after.1.failed = true ∧ x.definition.execution.failFast = true
      · simp [hfailed]
      · rw [if_neg hraised, if_neg hfailed, if_neg]
        simpa [hraised] using hfailed

variable {s : Situation W}

theorem stopsSequence_record (hgo : x.stopsSequence s = false) (sid : String) (run : StepRun)
    (result : StepResult) (d : Data W) :
    x.stopsSequence (s.1.record sid run result, d) = true ↔ result.status = .failed ∧
      (x.definition.execution.failFast = true ∨
        x.definition.execution.continueOnError = false) := by
  have hraised : s.1.raised = none := by
    simp only [stopsSequence, Bool.or_eq_false_iff] at hgo
    simpa using hgo.1
  have hgoes : s.1.failed = false ∨ (x.definition.execution.failFast ||
      !x.definition.execution.continueOnError) = false := by
    simp only [stopsSequence, Bool.or_eq_false_iff, Bool.and_eq_false_iff] at hgo
    simpa only [Bool.or_eq_false_iff] using hgo.2
  rcases hgoes with hfailed | hcontinues
  · simp [stopsSequence, Progress.record, hraised, hfailed]
  · simp only [Bool.or_eq_false_iff, Bool.not_eq_false'] at hcontinues
    simp [stopsSequence, Progress.record, hraised, hcontinues.1, hcontinues.2]

theorem runSequential_run (steps : List WorkflowStep) (hgo : x.stopsSequence s = false) :
    (x.runSequential runStep steps s.1).run s.2 =
      loop x.stopsSequence (x.stepTurn runStep) steps s := by
  induction steps generalizing s with
  | nil => rfl
  | cons step rest ih =>
    rw [runSequential, loop, stepTurn, runOne]
    by_cases hcompleted : step.id ∈ s.1.completed
    · rw [if_pos hcompleted, if_pos hcompleted, run_bind]
      have hgo' : x.stopsSequence ((restoreStep step.id s.1).run s.2) = false := hgo
      rw [hgo', if_neg Bool.false_ne_true]
      exact ih hgo'
    · rw [if_neg hcompleted, if_neg hcompleted, run_bind, run_bind]
      generalize (runStep step).run s.2 = ran
      obtain ⟨run, d⟩ := ran
      dsimp only
      cases run.result with
      | error e => rfl
      | ok result =>
        have hstops := x.stopsSequence_record hgo step.id run result
          ((x.settle step.id run result s.1).run d).2
        rw [← x.settle_progress step.id run result s.1 d] at hstops
        rw [run_bind]
        generalize (x.settle step.id run result s.1).run d = after at hstops
        by_cases hstop : x.stopsSequence after = true
        · rw [if_pos hstop, if_pos (hstops.mp hstop)]
          rfl
        · rw [if_neg hstop, if_neg (mt hstops.mpr hstop)]
          exact ih (Bool.eq_false_iff.mpr hstop)

theorem Turned.runs (h : Turned ran sid p d p') (hnot : sid ∉ p.completed) :
    p'.runs = p.runs ++ [(ran.run d).1] := by
  cases h with
  | restored result hcompleted => exact absurd hcompleted hnot
  | raised e _ => rfl
  | recorded result _ => rfl

/-- The rounds of a run, each with the ids of its steps. A graph with a cycle has none. -/
def rounds : List (List String × (Situation W → Situation W)) :=
  match x.definition.execution.mode with
  | .sequential => x.definition.steps.map fun step => ([step.id], x.stepTurn runStep step)
  | _ =>
    match parallelGroups x.definition.steps with
    | .error _ => []
    | .ok groups => groups.map fun group => (group, x.groupTurn runStep group)

theorem mem_rounds {round : List String × (Situation W → Situation W)}
    (h : round ∈ x.rounds runStep) :
    (∃ step ∈ x.definition.steps, round = ([step.id], x.stepTurn runStep step)) ∨
      x.definition.execution.mode ≠ .sequential ∧
        ∃ group, (∀ sid ∈ group, sid ∈ stepIds x.definition.steps) ∧
          round = (group, x.groupTurn runStep group) := by
  rw [rounds] at h
  cases hmode : x.definition.execution.mode with
  | sequential =>
    rw [hmode] at h
    obtain ⟨step, hstep, rfl⟩ := List.mem_map.mp h
    exact .inl ⟨step, hstep, rfl⟩
  | _ =>
    rw [hmode] at h
    cases hgroups : parallelGroups x.definition.steps with
    | error e =>
      rw [hgroups] at h
      exact absurd h List.not_mem_nil
    | ok groups =>
      rw [hgroups] at h
      obtain ⟨group, hgroup, rfl⟩ := List.mem_map.mp h
      have hperm := parallelGroups_perm x.definition.uniqueStepIds hgroups
      exact .inr ⟨nofun, group, fun sid hsid =>
        hperm.mem_iff.mp (List.mem_flatten_of_mem hgroup hsid), rfl⟩

def stops (s : Situation W) : Bool :=
  match x.definition.execution.mode with
  | .sequential => x.stopsSequence s
  | _ => x.stopsGroups s

def turn (round : List String × (Situation W → Situation W)) (s : Situation W) : Situation W :=
  round.2 s

def closing (s : Situation W) : Situation W :=
  match x.definition.execution.mode, parallelGroups x.definition.steps with
  | .sequential, _ => s
  | _, .error e => (s.1.cyclic e.message, s.2)
  | _, .ok _ => s

def ending (inputs : Outputs) (shared : Shared W) : Situation W :=
  x.closing (loop x.stops turn (x.rounds (executeStep x.services.recursionLimit x))
    (x.start inputs shared))

theorem runSteps_run (hraised : s.1.raised = none) (hfailed : s.1.failed = false) :
    (x.runSteps runStep s.1).run s.2 = x.closing (loop x.stops turn (x.rounds runStep) s) := by
  have hgo : x.stopsSequence s = false := by
    rw [stopsSequence, hraised, hfailed]
    rfl
  have hgroups (groups : List (List String)) :
      loop x.stopsGroups turn (groups.map fun group => (group, x.groupTurn runStep group)) s =
        (x.runGroups runStep groups s.1).run s.2 := by
    rw [loop_map, runGroups_run]
    rfl
  cases hmode : x.definition.execution.mode with
  | sequential =>
    have hstops : x.stops = x.stopsSequence := by
      funext s
      rw [stops, hmode]
    rw [runSteps, closing, rounds, hmode, hstops]
    dsimp only
    rw [loop_map, runSequential_run x runStep _ hgo]
    rfl
  | _ =>
    have hstops : x.stops = x.stopsGroups := by
      funext s
      rw [stops, hmode]
    rw [runSteps, closing, rounds, hmode, hstops]
    cases parallelGroups x.definition.steps with
    | error e => rfl
    | ok groups => exact (hgroups groups).symm

theorem execute_ending (inputs : Outputs) (shared : Shared W) :
    (x.execute inputs).run shared =
      (finish (x.ending inputs shared), (x.ending inputs shared).2.1) := by
  have hloop := x.runSteps_run (executeStep x.services.recursionLimit x)
    (s := x.start inputs shared) rfl rfl
  rw [execute, executeWith, run_bind, run_read, run_bind, run_withLocal, ending, ← hloop]
  rfl

end WorkflowExecutor

end Agent33.Workflows.Executor
