import Agent33.Releases.Persistence

/-!
# The targets of a sync

A dry run reports what the run then does. With a target path, a file is copied to its base
name under that path, so that files of the same base name in different directories have one
target, where the last one is left.
-/

namespace Agent33.Releases

open Library List

namespace DurableService

variable {rules : Dict String SyncRule} {rule : SyncRule} {call : SyncCall}

def dryRunOf (rules : Dict String SyncRule) (call : SyncCall) : SyncExecution :=
  call.execution (rules.get? call.ruleId) true .dryRun none

def executeOf (rules : Dict String SyncRule) (call : SyncCall) (now : ℤ) : SyncExecution :=
  call.execution (rules.get? call.ruleId) false .completed (some now)

theorem returned_of_runRule {dryRun : Bool}
    (h : (runRule encoding call dryRun status completedAt).run svc = .ok execution svc') :
    execution = call.execution (svc.data.rules.get? call.ruleId) dryRun status completedAt := by
  rw [runRule, EStateM.run_bind] at h
  change EStateM.run (persistState encoding >>= fun _ => pure _) _ = _ at h
  rw [EStateM.run_bind] at h
  revert h
  cases EStateM.run (persistState encoding) _ with
  | error e s => exact fun h => nomatch h
  | ok _ s => exact fun h => (EStateM.Result.ok.inj h).1.symm

def baseName (f : Text) : Text := (f.reverse.takeWhile (· ≠ '/')).reverse

/-- The tree after the results were carried out in it. -/
def synced (source : Text → Text) (target : Dict Text Text) (results : List SyncFileResult) :
    Dict Text Text :=
  (results.map fun r => (r.targetPath, source r.sourcePath)).foldl (fun t e => t.set e.1 e.2) target

/-- The dry run reports what the run does, and no file takes the place of another one. -/
structure SyncsAll (rules : Dict String SyncRule) (call : SyncCall) (now : ℤ) : Prop where
  predicted : (dryRunOf rules call).fileResults = (executeOf rules call now).fileResults
  separate : ∀ r ∈ (executeOf rules call now).fileResults,
    ∀ r' ∈ (executeOf rules call now).fileResults, r.sourcePath ≠ r'.sourcePath →
      r.targetPath ≠ r'.targetPath
  present : ∀ rule, rules.get? call.ruleId = some rule →
    ∀ f ∈ matchFiles rule call.availableFiles, ∃ r ∈ (executeOf rules call now).fileResults,
      r.sourcePath = f ∧ ∀ source target, (synced source target
        (executeOf rules call now).fileResults).get? r.targetPath = some (source f)

theorem targetOf_eq_iff (hpath : rule.targetPath ≠ []) (f g : Text) :
    targetOf rule f = targetOf rule g ↔ baseName f = baseName g := by
  rw [targetOf, targetOf, if_neg hpath, if_neg hpath, append_cancel_left_eq,
    cons.injEq, and_iff_right rfl]
  rfl

theorem mem_fileResults (hrule : rules.get? call.ruleId = some rule) (now : ℤ)
    (r : SyncFileResult) : r ∈ (executeOf rules call now).fileResults ↔
      ∃ f ∈ matchFiles rule call.availableFiles,
        ⟨f, targetOf rule f, "added", true⟩ = r := by
  simp only [executeOf, SyncCall.execution, hrule, mem_map]

/-- Every matched file comes to the target exactly when there is no target path or the matched
files have different base names. -/
theorem syncsAll_iff (rules : Dict String SyncRule) (call : SyncCall) (now : ℤ) :
    SyncsAll rules call now ↔ ∀ rule, rules.get? call.ruleId = some rule →
      rule.targetPath = [] ∨ ∀ f ∈ matchFiles rule call.availableFiles,
        ∀ g ∈ matchFiles rule call.availableFiles, baseName f = baseName g → f = g := by
  constructor
  · intro h rule hrule
    refine or_iff_not_imp_left.mpr fun hpath f hf g hg hbase => ?_
    by_contra hne
    have hmem := mem_fileResults hrule now
    exact h.separate _ ((hmem _).mpr ⟨f, hf, rfl⟩) _ ((hmem _).mpr ⟨g, hg, rfl⟩) hne
      ((targetOf_eq_iff hpath f g).mpr hbase)
  · intro h
    have hinjective {rule : SyncRule} (hrule : rules.get? call.ruleId = some rule) {f g : Text}
        (hf : f ∈ matchFiles rule call.availableFiles)
        (hg : g ∈ matchFiles rule call.availableFiles)
        (heq : targetOf rule f = targetOf rule g) : f = g := by
      by_cases hpath : rule.targetPath = []
      · rwa [targetOf, targetOf, if_pos hpath, if_pos hpath] at heq
      · exact (h rule hrule).resolve_left hpath f hf g hg ((targetOf_eq_iff hpath f g).mp heq)
    refine ⟨?_, ?_, ?_⟩
    · rw [dryRunOf, executeOf]
      cases rules.get? call.ruleId <;> rfl
    · intro r hr r' hr' hne htarget
      cases hrule : rules.get? call.ruleId with
      | none =>
        simp only [executeOf, SyncCall.execution, hrule] at hr
        exact absurd hr not_mem_nil
      | some rule =>
        obtain ⟨f, hf, rfl⟩ := (mem_fileResults hrule now r).mp hr
        obtain ⟨g, hg, rfl⟩ := (mem_fileResults hrule now r').mp hr'
        exact hne (hinjective hrule hf hg htarget)
    · intro rule hrule f hf
      refine ⟨_, (mem_fileResults hrule now _).mpr ⟨f, hf, rfl⟩, rfl, fun source target => ?_⟩
      refine Dict.get?_foldl_set_of_unique (.inl ?_) fun w hw => ?_
      · exact mem_map.mpr ⟨_, (mem_fileResults hrule now _).mpr ⟨f, hf, rfl⟩, rfl⟩
      · obtain ⟨r, hr, heq⟩ := mem_map.mp hw
        obtain ⟨g, hg, rfl⟩ := (mem_fileResults hrule now r).mp hr
        obtain ⟨htarget, rfl⟩ := Prod.mk.inj heq
        exact congrArg source (hinjective hrule hg hf htarget)

def docsRule : SyncRule := { ruleId := "SYN-1", targetPath := "docs".toList }

def readmes : SyncCall where
  executionId := "SXE-1"
  ruleId := "SYN-1"
  availableFiles := ["core/a/README.md".toList, "core/b/README.md".toList]
  releaseVersion := "1.0.0"
  startedAt := 0

/-- Of two files called `README.md` one is left. -/
theorem readmes_not_syncsAll : ¬ SyncsAll (Dict.empty.set "SYN-1" docsRule) readmes 0 := by
  intro h
  have hrule : (Dict.empty.set "SYN-1" docsRule).get? readmes.ruleId = some docsRule := rfl
  have hmem := mem_fileResults hrule 0
  exact h.separate _ ((hmem _).mpr ⟨"core/a/README.md".toList, by decide +kernel, rfl⟩)
    _ ((hmem _).mpr ⟨"core/b/README.md".toList, by decide +kernel, rfl⟩) (by decide)
    (by decide +kernel)

end DurableService

end Agent33.Releases
