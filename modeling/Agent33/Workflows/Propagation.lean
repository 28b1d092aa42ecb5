import Agent33.Workflows.RunLoops

/-!
# Failures of nested steps

A step with nested steps ends with success as soon as its action returns, and the
actions return the outputs of nested steps without a look at their status. So a
nested failure reaches the enclosing step only where something is raised as well.
-/

namespace Agent33.Workflows.Executor

open Library Library.Async Workflows.Definition Workflows.Expressions WorkflowExecutor List

namespace StepRun

def status (run : StepRun) : Option StepStatus :=
  match run.result with
  | .ok result => some result.status
  | .error _ => none

def nested (run : StepRun) : List StepRun :=
  match run.attempts.getLast? with
  | some attempt => attempt.nested
  | none => []

def hookRaised (run : StepRun) : Bool :=
  match run.attempts.getLast? with
  | some attempt => attempt.hookRaised
  | none => false

def Below : StepRun → StepRun → Prop := Relation.TransGen fun inner outer => inner ∈ outer.nested

inductive Within : StepRun → StepRun → Prop
  | self (run : StepRun) : Within run run
  | inner {inner outer run : StepRun} {attempt : Attempt StepRun}
      (hattempt : attempt ∈ outer.attempts) (hrun : run ∈ attempt.nested)
      (h : Within inner run) : Within inner outer

def Propagates (run : StepRun) : Prop :=
  (∃ inner, Below inner run ∧ inner.status = some .failed) → run.status ≠ some .success

/-- The last attempt ended with an exception after its nested steps: the hook after
the action raised, or a step of a branch did. -/
def RaisedAfter (run : StepRun) : Prop :=
  run.hookRaised = true ∨
    run.step.action = .conditional ∧ ∃ inner ∈ run.nested, inner.status = none

end StepRun

def failureEntry (sid : String) (run : StepRun) : Option Json :=
  match run.result with
  | .ok result =>
    if result.status = .failed then
      some (.str (subError sid { message := result.error.getD "" }))
    else none
  | .error e => some (.str (subError sid e))

def ListsFailures (step : WorkflowStep) (attempt : Attempt StepRun) : Prop :=
  ∀ outputs errors, attempt.outcome = .ok outputs → outputs.get? "errors" = some errors →
    errors = .arr (((stepIds step.steps).zip attempt.nested).filterMap fun p =>
      failureEntry p.1 p.2)

theorem status_eq_none {run : StepRun} : run.status = none ↔ ∃ e, run.result = .error e := by
  rw [StepRun.status]
  cases run.result with
  | ok result => simp
  | error e => simp

theorem mem_nested {run inner : StepRun} (h : inner ∈ run.nested) :
    ∃ attempt, run.attempts.getLast? = some attempt ∧ inner ∈ attempt.nested := by
  rw [StepRun.nested] at h
  cases hlast : run.attempts.getLast? with
  | none =>
    rw [hlast] at h
    exact absurd h not_mem_nil
  | some attempt =>
    rw [hlast] at h
    exact ⟨attempt, rfl, h⟩

variable {W : Type} {step : WorkflowStep}

variable {run : StepRun} {attempt : Attempt StepRun}

theorem AttemptOf.outcome_ok_iff (h : AttemptOf R step attempt) (hnested : attempt.nested ≠ []) :
    (∃ outputs, attempt.outcome = .ok outputs) ↔
      ¬(attempt.hookRaised = true ∨
        step.action = .conditional ∧ ∃ inner ∈ attempt.nested, inner.status = none) := by
  cases h with
  | timedOut e => exact absurd rfl hnested
  | hooked e _ => simp
  | dispatched h =>
    cases h with
    | leaf outcome _ => exact absurd rfl hnested
    | refused e => exact absurd rfl hnested
    | dryRun _ _ => exact absurd rfl hnested
    | branch haction _ _ hall =>
      refine iff_of_true ⟨_, rfl⟩ ?_
      rintro (hhook | ⟨-, inner, hinner, hnone⟩)
      · cases hhook
      · obtain ⟨e, he⟩ := status_eq_none.mp hnone
        obtain ⟨-, result, hresult⟩ := hall inner hinner
        rw [he] at hresult
        cases hresult
    | @branchRaised _ e nested last haction _ _ _ hlast =>
      refine iff_of_false (fun ⟨_, h⟩ => by cases h) (not_not.mpr (.inr ⟨haction, last, ?_, ?_⟩))
      · exact mem_append_right _ (mem_singleton_self last)
      · exact status_eq_none.mpr ⟨e, hlast.2⟩
    | group haction _ =>
      refine iff_of_true ⟨_, rfl⟩ ?_
      rintro (hhook | ⟨hconditional, -⟩)
      · cases hhook
      · rw [haction] at hconditional
        cases hconditional
    | subWorkflow haction _ =>
      refine iff_of_true ⟨_, rfl⟩ ?_
      rintro (hhook | ⟨hconditional, -⟩)
      · cases hhook
      · rw [haction] at hconditional
        cases hconditional

theorem getLast?_failed {attempts : List (Attempt StepRun)}
    (hall : ∀ a ∈ attempts, FailedAttempt R step a) (hlast : attempts.getLast? = some attempt) :
    FailedAttempt R step attempt :=
  hall attempt (mem_of_getLast? hlast)

theorem RunOf.success_iff (h : RunOf R step run) (hnested : run.nested ≠ []) :
    run.status = some .success ↔ ¬run.RaisedAfter := by
  obtain ⟨inner, hinner⟩ := exists_mem_of_ne_nil _ hnested
  obtain ⟨attempt, hlast, hmem⟩ := mem_nested hinner
  have hne : attempt.nested ≠ [] := ne_nil_of_mem hmem
  have hafter : run.RaisedAfter ↔ (attempt.hookRaised = true ∨
      step.action = .conditional ∧ ∃ inner ∈ attempt.nested, inner.status = none) := by
    rw [StepRun.RaisedAfter, StepRun.hookRaised, StepRun.nested, hlast, h.step_eq]
  rw [hafter]
  cases h with
  | raised e => cases hlast
  | skipped => cases hlast
  | refused error => cases hlast
  | exhausted error hall =>
    obtain ⟨hattempt, e, he⟩ := getLast?_failed hall hlast
    rw [← hattempt.outcome_ok_iff hne, he]
    exact iff_of_false nofun nofun
  | @succeeded outputs made last hmade hattempt hok =>
    rw [getLast?_concat, Option.some_inj] at hlast
    subst hlast
    rw [← hattempt.outcome_ok_iff hne, hok]
    exact iff_of_true rfl ⟨outputs, rfl⟩

theorem nested_ne_nil (h : StepRun.Below nested run) : run.nested ≠ [] := by
  cases h with
  | single h => exact ne_nil_of_mem h
  | tail _ h => exact ne_nil_of_mem h

theorem RunOf.propagates_iff (h : RunOf R step run) : run.Propagates ↔
      (¬∃ inner, StepRun.Below inner run ∧ inner.status = some .failed) ∨ run.RaisedAfter := by
  by_cases hfailed : ∃ inner, StepRun.Below inner run ∧ inner.status = some .failed
  · obtain ⟨inner, hbelow, -⟩ := id hfailed
    rw [StepRun.Propagates, Ne, h.success_iff (nested_ne_nil hbelow), not_not]
    simp only [hfailed, true_implies, not_true_eq_false, false_or]
  · exact iff_of_true (fun h => absurd h hfailed) (.inl hfailed)

theorem filterMap_eq_iff {α β : Type} {f g : α → Option β} (hfg : ∀ a, f a = none ∨ f a = g a)
    (l : List α) : l.filterMap f = l.filterMap g ↔ ∀ a ∈ l, f a = g a := by
  have hlength (l : List α) : (l.filterMap f).length ≤ (l.filterMap g).length := by
    induction l with
    | nil => exact le_rfl
    | cons a l ih =>
      rw [filterMap_cons, filterMap_cons]
      rcases hfg a with hnone | heq
      · rw [hnone]
        cases g a with
        | none => exact ih
        | some b => exact Nat.le_succ_of_le ih
      · rw [heq]
        cases g a with
        | none => exact ih
        | some b => exact Nat.succ_le_succ ih
  refine ⟨fun h => ?_, fun h => filterMap_congr h⟩
  induction l with
  | nil => exact nofun
  | cons a l ih =>
    rw [filterMap_cons, filterMap_cons] at h
    rcases hfg a with hnone | heq
    · cases hg : g a with
      | none =>
        rw [hnone, hg] at h
        exact forall_mem_cons.mpr ⟨hnone.trans hg.symm, ih h⟩
      | some b =>
        rw [hnone, hg] at h
        dsimp only at h
        have hle := hlength l
        rw [h, length_cons] at hle
        omega
    · rw [heq] at h
      refine forall_mem_cons.mpr ⟨heq, ih ?_⟩
      cases hg : g a with
      | none =>
        rw [hg] at h
        exact h
      | some b =>
        rw [hg] at h
        exact (List.cons.inj h).2

theorem collectResults_errors (results : List (String × Except Raised Outputs)) :
    (collectResults results).get? "errors" = some (.arr (results.filterMap fun p =>
      match p.2 with
      | .ok _ => none
      | .error e => some (.str (subError p.1 e)))) := rfl

def raisedEntry (p : String × StepRun) : Option Json :=
  match p.2.result with
  | .ok _ => none
  | .error e => some (.str (subError p.1 e))

theorem raisedEntry_eq (p : String × StepRun) :
    raisedEntry p = none ∨ raisedEntry p = failureEntry p.1 p.2 := by
  rw [raisedEntry, failureEntry]
  cases p.2.result with
  | ok result => exact .inl rfl
  | error e => exact .inr rfl

theorem raisedEntry_eq_iff (p : String × StepRun) :
    raisedEntry p = failureEntry p.1 p.2 ↔ p.2.status ≠ some .failed := by
  rw [raisedEntry, failureEntry, StepRun.status]
  cases p.2.result with
  | error e => simp
  | ok result =>
    dsimp only
    split_ifs with hstatus
    · simp [hstatus]
    · simp [hstatus]

theorem AttemptOf.listsFailures_iff (h : AttemptOf R step attempt)
    (haction : step.action = .parallelGroup) (hok : ∃ outputs, attempt.outcome = .ok outputs) :
    ListsFailures step attempt ↔ ∀ run ∈ attempt.nested, run.status ≠ some .failed := by
  obtain ⟨outputs, hok⟩ := hok
  cases h with
  | timedOut e => cases hok
  | hooked e _ => cases hok
  | @dispatched _ nested h =>
    cases h with
    | leaf _ hleaf => exact absurd haction hleaf.2.1
    | refused e => cases hok
    | dryRun _ herrors =>
      refine iff_of_true ?_ nofun
      rintro _ errors ⟨⟩ hget
      rw [herrors] at hget
      cases hget
    | branch hconditional => rw [haction] at hconditional; cases hconditional
    | branchRaised hconditional => rw [haction] at hconditional; cases hconditional
    | subWorkflow hsub => rw [haction] at hsub; cases hsub
    | group _ hnested =>
      have hlength := hnested.length_eq
      have herrors := collectResults_errors ((stepIds step.steps).zip
        (nested.map fun run => run.result.map (·.outputs)))
      have hentries : ((stepIds step.steps).zip
          (nested.map fun run => run.result.map (·.outputs))).filterMap (fun p =>
            match p.2 with
            | .ok _ => none
            | .error e => some (Json.str (subError p.1 e))) =
          ((stepIds step.steps).zip nested).filterMap raisedEntry := by
        rw [zip_map_right, filterMap_map]
        refine filterMap_congr fun p _ => ?_
        rw [Function.comp_apply, raisedEntry]
        dsimp only [Prod.map]
        cases p.2.result with
        | ok result => rfl
        | error e => rfl
      rw [hentries] at herrors
      have hlists : ListsFailures step { outcome := .ok (collectResults ((stepIds step.steps).zip
          (nested.map fun run => run.result.map (·.outputs)))), nested } ↔
          ((stepIds step.steps).zip nested).filterMap raisedEntry =
            ((stepIds step.steps).zip nested).filterMap fun p => failureEntry p.1 p.2 := by
        constructor
        · exact fun h => Json.arr.inj (h _ _ rfl herrors)
        · rintro heq _ errors ⟨⟩ hget
          rw [herrors, heq] at hget
          exact (Option.some.inj hget).symm
      rw [hlists, filterMap_eq_iff raisedEntry_eq]
      simp only [raisedEntry_eq_iff]
      constructor
      · intro hall run hrun
        rw [← map_snd_zip hlength.ge, mem_map] at hrun
        obtain ⟨p, hp, rfl⟩ := hrun
        exact hall p hp
      · exact fun hall p hp => hall p.2 (of_mem_zip hp).2

structure Judged (run : StepRun) : Prop where
  propagates : run.Propagates ↔
    (¬∃ inner, StepRun.Below inner run ∧ inner.status = some .failed) ∨ run.RaisedAfter
  errors : run.step.action = .parallelGroup → ∀ attempt ∈ run.attempts,
    (∃ outputs, attempt.outcome = .ok outputs) →
      (ListsFailures run.step attempt ↔ ∀ inner ∈ attempt.nested, inner.status ≠ some .failed)

theorem RunOf.attempts_of (h : RunOf R step run) :
    ∀ attempt ∈ run.attempts, AttemptOf R step attempt := by
  cases h with
  | raised e => exact nofun
  | skipped => exact nofun
  | refused error => exact nofun
  | exhausted error hall => exact fun a ha => (hall a ha).1
  | succeeded hmade hlast _ =>
    exact forall_mem_append.mpr
      ⟨fun a ha => (hmade a ha).1, forall_mem_singleton.mpr hlast⟩

theorem RunOf.judged (h : RunOf R step run) : Judged run where
  propagates := h.propagates_iff
  errors haction attempt hattempt hok := by
    rw [h.step_eq] at haction ⊢
    exact (h.attempts_of attempt hattempt).listsFailures_iff haction hok

theorem forall₂_mem_right {α β : Type} {P : α → β → Prop} {as : List α} {bs : List β}
    (h : List.Forall₂ P as bs) : ∀ b ∈ bs, ∃ a, P a b := by
  induction h with
  | nil => exact nofun
  | cons hp _ ih => exact forall_mem_cons.mpr ⟨⟨_, hp⟩, ih⟩

theorem AttemptOf.nested_of (h : AttemptOf R step attempt) : ∀ run ∈ attempt.nested, R run := by
  have hdispatch {p : Except Raised Outputs × List StepRun} (h : DispatchOf R step p) :
      ∀ run ∈ p.2, R run := by
    cases h with
    | leaf _ _ => exact nofun
    | refused e => exact nofun
    | dryRun _ _ => exact nofun
    | branch _ _ _ hall => exact fun run hrun => (hall run hrun).1
    | branchRaised _ _ _ hall hlast =>
      exact forall_mem_append.mpr ⟨fun run hrun => (hall run hrun).1,
        forall_mem_singleton.mpr hlast.1⟩
    | group _ hnested =>
      intro run hrun
      obtain ⟨sid, -, hR⟩ := forall₂_mem_right hnested run hrun
      exact hR
    | subWorkflow _ hall => exact hall
  cases h with
  | timedOut e => exact nofun
  | dispatched h => exact hdispatch h
  | hooked e h => exact hdispatch h

def AllJudged (run : StepRun) : Prop := ∀ inner, StepRun.Within inner run → Judged inner

theorem RunOf.allJudged (h : RunOf AllJudged step run) : AllJudged run := by
  intro inner hwithin
  cases hwithin with
  | self => exact h.judged
  | inner hattempt hrun hwithin =>
    exact (h.attempts_of _ hattempt).nested_of _ hrun _ hwithin

def WorkflowRun.NestedFailed (run : WorkflowRun) : Prop :=
  ∃ outer ∈ run.runs, ∃ inner, StepRun.Below inner outer ∧ inner.status = some .failed

def WorkflowRun.Propagates (run : WorkflowRun) : Prop :=
  run.NestedFailed → run.result.status ≠ .success

def TopFailed (runs : List StepRun) : Prop := ∃ run ∈ runs, run.status ≠ some .success ∧
  run.status ≠ some .skipped

theorem memberResult_status (sid : String) (run : StepRun) :
    (memberResult sid run).status = .failed ↔
      run.status ≠ some .success ∧ run.status ≠ some .skipped := by
  rw [memberResult, StepRun.status]
  cases run.result with
  | error e => simp
  | ok result => cases hstatus : result.status <;> simp [hstatus]

theorem topFailed_append (runs : List StepRun) (run : StepRun) :
    TopFailed (runs ++ [run]) ↔ TopFailed runs ∨
      (run.status ≠ some .success ∧ run.status ≠ some .skipped) := by
  rw [TopFailed, TopFailed]
  constructor
  · rintro ⟨r, hr, hstatus⟩
    rcases mem_append.mp hr with hr | hr
    · exact .inl ⟨r, hr, hstatus⟩
    · rw [mem_singleton.mp hr] at hstatus
      exact .inr hstatus
  · rintro (⟨r, hr, hstatus⟩ | hstatus)
    · exact ⟨r, mem_append_left _ hr, hstatus⟩
    · exact ⟨run, mem_append_right _ (mem_singleton_self run), hstatus⟩

theorem accounts_failed {x : WorkflowExecutor W} : Accounts x AllJudged fun _ p =>
    (∀ run ∈ p.runs, AllJudged run) ∧ (p.failed = true ↔ TopFailed p.runs) where
  restore hp _ _ _ := hp
  record hp _ _ hR _ := by
    refine ⟨forall_mem_append.mpr ⟨hp.1, forall_mem_singleton.mpr hR⟩, ?_⟩
    rw [Progress.record]
    dsimp only
    rw [Bool.or_eq_true, decide_eq_true_iff, memberResult_status, hp.2, topFailed_append]
  raise hp _ _ hR he _ := by
    refine ⟨forall_mem_append.mpr ⟨hp.1, forall_mem_singleton.mpr hR⟩, ?_⟩
    have hnone := status_eq_none.mpr ⟨_, he⟩
    rw [Progress.raise, topFailed_append, hnone]
    exact iff_of_true rfl (.inr ⟨by rintro ⟨⟩, by rintro ⟨⟩⟩)

theorem finalStatus_success (p : Progress) : finalStatus p = .success ↔ p.failed = false := by
  rw [finalStatus]
  cases p.failed with
  | false => simp
  | true =>
    rw [if_pos rfl]
    split_ifs <;> simp

def failingBranch : WorkflowDefinition where
  name := "branching"
  steps := [{
    id := "check"
    action := .conditional
    condition := some "true"
    thenSteps := [{ id := "build", action := .runCommand, command := some "false" }] }]
  nonempty := nofun
  uniqueStepIds := by decide
  knownDependencies := by decide

end Agent33.Workflows.Executor
