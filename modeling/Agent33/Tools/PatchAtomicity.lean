import Agent33.Tools.FailingDisk

/-!
# Patch atomicity

A patch that is not applied with success should leave every file alone. The tool
plans all changes before the first one is applied, and does not take back what was
applied when a later operation fails.
-/

namespace Agent33.Tools.FailingDisk

open Library Library.Hoare Library.Marks List EStateM Triple
open Tools.ApplyPatch (Fault PatchChange PlannedChange parsePatch)

variable {α : Type}

def Disk.start (t : FileTree) (outcomes : List (Option Failure)) : Disk where
  tree := t
  outcomes := outcomes

def unsuccessful : EStateM.Result DiskFault Disk ApplyPatch.ToolResult → Option Disk
  | .ok (.ok ..) _ => none
  | .ok (.fail _) d => some d
  | .error _ d => some d

def Untouched (t : FileTree) (d : Disk) : Prop :=
  d.changed = [] ∧ ∀ p, d.tree.file? p = t.file? p

def Atomic (store : MutationAuditStore) (context : ApplyPatch.ToolContext) (dryRun : Bool)
    (patchText : Text) (t : FileTree) (outcomes : List (Option Failure)) : Prop :=
  ∀ d,
    unsuccessful ((execute store context dryRun patchText).run (Disk.start t outcomes)) = some d →
      Untouched t d

def operations (plan : PlannedChange) : List (DiskM Unit) :=
  let write := [mkdirParents plan.targetPath.tail,
    writeText plan.targetPath (plan.afterContent.getD [])]
  match plan.action with
  | .add => write
  | .delete => [unlink plan.sourcePath]
  | .update => if plan.sourcePath ≠ plan.targetPath then write ++ [removeSource plan] else write

/-- Once the changes are planned, no operation fails from the first one on that opens
or removes a file, and neither does the audit record. -/
def Uninterrupted (store : MutationAuditStore) (context : ApplyPatch.ToolContext) (dryRun : Bool)
    (patchText : Text) (t : FileTree) (outcomes : List (Option Failure)) : Prop :=
  dryRun = true ∨ Text.strip patchText = [] ∨ ∀ changes, parsePatch patchText = .ok changes →
    ∀ plans d, (planChanges context changes).run (Disk.start t outcomes) = .ok plans d →
      StopsInTime Disk.Touched (plans.flatMap operations ++ [store.record]) d

section Operations

variable {t : FileTree} {I : Disk → Prop}

/-- A property that the next operation keeps, whichever it is, if it touches no other
files than it says. -/
structure Stable (I : Disk → Prop) : Prop where
  next : ∀ d, I d → I d.next
  put : ∀ d files t', (∀ p, p ∉ files → t'.file? p = d.tree.file? p) → I d → I (d.put files t')

theorem Failure.partOf_eq_some {part : ℕ → FileTree → Except OsError FileTree} {failure : Failure}
    (h : Failure.partOf part failure t = some t') : ∃ n, part n t = .ok t' := by
  cases failure with
  | refused => simp [Failure.partOf] at h
  | halfway n =>
    refine ⟨n, ?_⟩
    rw [Failure.partOf] at h
    cases hpart : part n t with
    | error e => simp [hpart, Except.toOption] at h
    | ok t₁ => simpa [hpart, Except.toOption] using h

theorem mkdirParents_file? (h : ApplyPatch.mkdirParents path t = .ok t') (p : Path) :
    t'.file? p = t.file? p := by
  rw [ApplyPatch.mkdirParents] at h
  cases hmade : FileTree.mkdirParents path t with
  | error e => simp [hmade, Except.map] at h
  | ok made =>
    obtain rfl : made.1 = t' := by simpa [hmade, Except.map] using h
    exact FileTree.mkdirParents_file? p

theorem writeText_file? (h : t.writeText path content = .ok t')
    (hp : p ∉ [path]) : t'.file? p = t.file? p := by
  rw [mem_singleton] at hp
  exact FileTree.file?_congr (by rw [FileTree.writeText_node h, if_neg hp])

theorem unlink_file? (h : t.unlink path = .ok t') (hp : p ∉ [path]) : t'.file? p = t.file? p := by
  rw [mem_singleton] at hp
  exact FileTree.file?_congr (by rw [FileTree.unlink_node h, if_neg hp])

theorem keeps_read (hI : ∀ d, I d → I d.next) (look : FileTree → Except OsError α) :
    Keeps I (read look) := by
  intro d hd
  simp only [EStateM.run, read]
  cases d.failure with
  | some failure => exact hI d hd
  | none => cases look d.tree <;> exact hI d hd

theorem keeps_lift (result : Except Fault α) : Keeps I (lift result) := by
  intro d hd
  cases result <;> exact hd

section

variable (hI : Stable I)
include hI

theorem keeps_change (hop : ∀ t t', op t = .ok t' → ∀ p, p ∉ files → t'.file? p = t.file? p)
    (hpart : ∀ failure t t', part failure t = some t' →
      ∀ p, p ∉ files → t'.file? p = t.file? p) :
    Keeps I (change files op part) := by
  intro d hd
  have hnext := hI.next d hd
  simp only [EStateM.run, change]
  cases d.failure with
  | none =>
    cases hrun : op d.tree with
    | ok t' => exact hI.put d.next files t' (hop d.tree t' hrun) hnext
    | error e => exact hnext
  | some failure =>
    cases hrun : part failure d.tree with
    | none =>
      simp only [hrun]
      exact hnext
    | some t' =>
      simp only [hrun]
      exact hI.put d.next files t' (hpart failure d.tree t' hrun) hnext

theorem keeps_mkdirParents (path : Path) : Keeps I (mkdirParents path) := by
  apply keeps_change hI
  · intro t t' hop p _
    exact mkdirParents_file? hop p
  · intro failure t t' hpart p _
    obtain ⟨n, hn⟩ := Failure.partOf_eq_some hpart
    exact mkdirParents_file? hn p

theorem keeps_writeText (path : Path) (content : Text) : Keeps I (writeText path content) := by
  apply keeps_change hI
  · intro t t' hop p hp
    exact writeText_file? hop hp
  · intro failure t t' hpart p hp
    obtain ⟨n, hn⟩ := Failure.partOf_eq_some hpart
    exact writeText_file? hn hp

theorem keeps_unlink (path : Path) : Keeps I (unlink path) := by
  apply keeps_change hI
  · intro t t' hop p hp
    exact unlink_file? hop hp
  · intro failure t t' hpart
    cases hpart

theorem keeps_removeSource (plan : PlannedChange) : Keeps I (removeSource plan) := by
  apply bind (keeps_read hI.next _)
  intro there
  cases there with
  | true => exact keeps_unlink hI plan.sourcePath
  | false => exact triple_pure fun _ => id

theorem keeps_operation (hx : x ∈ operations plan) : Keeps I x := by
  have hwrite : ∀ y ∈ [mkdirParents plan.targetPath.tail,
      writeText plan.targetPath (plan.afterContent.getD [])], Keeps I y := by
    intro y hy
    rcases mem_pair.mp hy with rfl | rfl
    · exact keeps_mkdirParents hI _
    · exact keeps_writeText hI _ _
  rw [operations] at hx
  cases hact : plan.action with
  | add =>
    rw [hact] at hx
    exact hwrite x hx
  | delete =>
    rw [hact] at hx
    obtain rfl := mem_singleton.mp hx
    exact keeps_unlink hI plan.sourcePath
  | update =>
    simp only [hact] at hx
    split_ifs at hx
    · rcases mem_append.mp hx with hx | hx
      · exact hwrite x hx
      · obtain rfl := mem_singleton.mp hx
        exact keeps_removeSource hI plan
    · exact hwrite x hx

end

theorem keeps_record (hI : ∀ d, I d → I d.next) (store : MutationAuditStore) :
    Keeps I store.record := by
  rw [MutationAuditStore.record]
  split_ifs
  · exact keeps_read hI _
  · exact triple_pure fun _ => id

end Operations

section Planning

theorem keeps_readFile (hI : ∀ d, I d → I d.next) (path : Path) : Keeps I (readFile path) := by
  apply bind (keeps_read hI _)
  intro there
  cases there with
  | false => exact triple_throw fun _ => id
  | true =>
    apply bind (keeps_read hI _)
    intro dir
    cases dir with
    | true => exact triple_throw fun _ => id
    | false =>
      simp only [Bool.false_eq_true, if_false]
      exact keeps_read hI _

theorem keeps_planAt (hI : ∀ d, I d → I d.next) (change : PatchChange) (source target : Path) :
    Keeps I (planAt change source target) := by
  rw [planAt]
  cases change.action with
  | add =>
    apply bind (keeps_read hI _)
    intro there
    cases there with
    | true => exact triple_throw fun _ => id
    | false => exact triple_pure fun _ => id
  | delete =>
    apply bind (keeps_readFile hI source)
    intro content
    exact triple_pure fun _ => id
  | update =>
    apply bind (keeps_readFile hI source)
    intro content
    apply bind (keeps_lift _)
    intro after
    by_cases hne : source ≠ target
    · simp only [if_pos hne]
      apply bind (keeps_read hI _)
      intro there
      cases there with
      | true => exact triple_throw fun _ => id
      | false => exact triple_pure fun _ => id
    · simp only [if_neg hne]
      exact triple_pure fun _ => id

theorem keeps_planChanges (hI : ∀ d, I d → I d.next) (context : ApplyPatch.ToolContext)
    (changes : List PatchChange) : Keeps I (planChanges context changes) := by
  induction changes with
  | nil => exact triple_pure fun _ => id
  | cons change rest ih =>
    have hplan : Keeps I (planChange context change) :=
      bind (keeps_lift _) fun source => bind (keeps_lift _) fun target =>
        keeps_planAt hI change source target
    exact bind hplan fun plan => bind ih fun plans => triple_pure fun _ => id

end Planning

section Atomicity

variable {t : FileTree}

def Logged (t : FileTree) (d : Disk) : Prop := ∀ p, p ∉ d.changed → d.tree.file? p = t.file? p

theorem stable_logged (t : FileTree) : Stable (Logged t) where
  next _ hlog := hlog
  put d files t' h hlog := by
    intro p hp
    rw [Disk.put, mem_append, not_or] at hp
    exact (h p hp.1).trans (hlog p hp.2)

theorem stable_touched : Stable Disk.Touched where
  next _ hd := hd
  put d files t' _ hd := by
    rw [Disk.Touched, Disk.put]
    exact append_ne_nil_of_right_ne_nil files hd

theorem untouched_iff (hlog : Logged t d) : Untouched t d ↔ ¬ d.Touched := by
  constructor
  · intro h
    exact not_not.mpr h.1
  · intro hd
    have hnil : d.changed = [] := not_not.mp hd
    refine ⟨hnil, fun p => hlog p ?_⟩
    rw [hnil]
    exact not_mem_nil

theorem applyChange_eq (plan : PlannedChange) : applyChange plan = runAll (operations plan) := by
  have hwrite : writeTarget plan = runAll [mkdirParents plan.targetPath.tail,
      writeText plan.targetPath (plan.afterContent.getD [])] := by
    simp only [writeTarget, runAll, bind_pure_unit]
  rw [applyChange, operations]
  cases plan.action with
  | add => exact hwrite
  | delete => simp only [runAll, bind_pure_unit]
  | update =>
    by_cases hne : plan.sourcePath ≠ plan.targetPath
    · simp only [if_pos hne, runAll_append, hwrite]
      simp only [runAll, bind_pure_unit]
    · simp only [if_neg hne, bind_pure_unit, hwrite]

theorem applyChanges_eq (plans : List PlannedChange) :
    applyChanges plans = runAll (plans.flatMap operations) := by
  induction plans with
  | nil => rfl
  | cons plan rest ih => rw [applyChanges, ih, applyChange_eq, flatMap_cons, runAll_append]

theorem untouched_start (t : FileTree) (outcomes : List (Option Failure)) :
    Untouched t (Disk.start t outcomes) :=
  ⟨rfl, fun _ => rfl⟩

theorem unsuccessful_recordFailure (store : MutationAuditStore) (error : String) (d : Disk) :
    ∃ d', unsuccessful ((recordFailure store error).run d) = some d' ∧
      (Untouched t d' ↔ Untouched t d) := by
  have hsame : Keeps (fun d' : Disk => Untouched t d' ↔ Untouched t d) store.record :=
    keeps_record (fun _ h => h) store
  have hrecord := hsame d Iff.rfl
  rw [recordFailure, run_bind]
  cases hrun : store.record.run d with
  | ok _ d' =>
    rw [hrun] at hrecord
    exact ⟨d', rfl, hrecord⟩
  | error fault d' =>
    rw [hrun] at hrecord
    exact ⟨d', rfl, hrecord⟩

section Run

variable (store : MutationAuditStore) (context : ApplyPatch.ToolContext) (dryRun : Bool)
  {patchText : Text} (outcomes : List (Option Failure))

theorem applyPatch_ok (h : (applyPatch store context dryRun patchText).run d = .ok result d') :
    unsuccessful (.ok result d') = none := by
  have hlast : ∀ plans : List PlannedChange, Triple (fun _ => True) (do
      store.record
      return .ok dryRun (if dryRun then "preview" else "applied")
        (plans.map ApplyPatch.buildOperationSummary) : DiskM ApplyPatch.ToolResult)
      (fun result d' => unsuccessful (.ok result d') = none) (fun _ _ => True) := fun plans =>
    (triple_true _).bind fun _ => triple_pure fun _ _ => rfl
  have hrun : Triple (fun _ => True) (applyPatch store context dryRun patchText)
      (fun result d' => unsuccessful (.ok result d') = none) (fun _ _ => True) := by
    refine (triple_true _).bind fun changes => (triple_true _).bind fun plans => ?_
    cases dryRun with
    | true => exact hlast plans
    | false => exact (triple_true _).bind fun _ => hlast plans
  have hresult := hrun d trivial
  rwa [h] at hresult

theorem atomic_iff_applyPatch (hempty : Text.strip patchText ≠ []) :
    Atomic store context dryRun patchText t outcomes ↔
      match (applyPatch store context dryRun patchText).run (Disk.start t outcomes) with
      | .ok _ _ => True
      | .error _ d => Untouched t d := by
  rw [Atomic, execute, if_neg hempty, Hoare.run_tryCatch]
  cases hrun : (applyPatch store context dryRun patchText).run (Disk.start t outcomes) with
  | ok result d =>
    simp only [applyPatch_ok store context dryRun hrun]
    exact iff_of_true (fun d hd => by cases hd) trivial
  | error fault d =>
    have hleft {answer} (h : ∃ d', unsuccessful answer = some d' ∧
        (Untouched t d' ↔ Untouched t d)) :
        (∀ d', unsuccessful answer = some d' → Untouched t d') ↔ Untouched t d := by
      obtain ⟨d', hd', hiff⟩ := h
      rw [← hiff]
      constructor
      · intro h
        exact h d' hd'
      · intro h d'' hd''
        obtain rfl := Option.some.inj (hd'.symm.trans hd'')
        exact h
    rcases fault with ⟨message | e⟩ | _
    · exact hleft (unsuccessful_recordFailure store message d)
    · exact hleft ⟨d, rfl, Iff.rfl⟩
    · exact hleft ⟨d, rfl, Iff.rfl⟩

theorem applyPlans_iff (hlog : Logged t d) (plans : List PlannedChange)
    (result : ApplyPatch.ToolResult) :
    (match (do applyChanges plans; store.record; return result :
        DiskM ApplyPatch.ToolResult).run d with
      | .ok _ _ => True
      | .error _ d' => Untouched t d') ↔
      StopsInTime Disk.Touched (plans.flatMap operations ++ [store.record]) d := by
  have hkeeps : ∀ I : Disk → Prop, Stable I →
      ∀ x ∈ plans.flatMap operations ++ [store.record], Keeps I x := by
    intro I hI x hx
    rcases mem_append.mp hx with hx | hx
    · obtain ⟨plan, _, hx⟩ := mem_flatMap.mp hx
      exact keeps_operation hI hx
    · obtain rfl := mem_singleton.mp hx
      exact keeps_record hI.next store
  have hall : (do applyChanges plans; store.record; return result : DiskM ApplyPatch.ToolResult) =
      (do runAll (plans.flatMap operations ++ [store.record]); return result) := by
    rw [runAll_append, applyChanges_eq]
    simp only [runAll, bind_assoc, pure_bind]
  rw [← allOrNothing_runAll_iff (hkeeps _ stable_touched), AllOrNothing, hall, run_bind]
  have hlogged := keeps_runAll (hkeeps _ (stable_logged t)) d hlog
  cases hrun : (runAll (plans.flatMap operations ++ [store.record])).run d with
  | ok _ d' => rfl
  | error fault d' =>
    rw [hrun] at hlogged
    exact untouched_iff hlogged

/-- A patch is atomic exactly if, once it is planned, no operation fails from the first
one on that touches a file. -/
theorem atomic_iff : Atomic store context dryRun patchText t outcomes ↔
    Uninterrupted store context dryRun patchText t outcomes := by
  have hstart := untouched_start t outcomes
  have hnext : ∀ d : Disk, Untouched t d → Untouched t d.next := fun _ => id
  rw [Uninterrupted]
  by_cases hempty : Text.strip patchText = []
  · simp only [hempty, true_or, or_true, iff_true]
    intro d hd
    rw [execute, if_pos hempty] at hd
    obtain ⟨d', hd', hiff⟩ := unsuccessful_recordFailure (t := t) store
      "Patch payload is required" (Disk.start t outcomes)
    obtain rfl := Option.some.inj (hd'.symm.trans hd)
    exact hiff.mpr hstart
  rw [atomic_iff_applyPatch store context dryRun outcomes hempty, applyPatch, run_bind]
  cases hparse : parsePatch patchText with
  | error message => exact iff_of_true hstart (.inr (.inr fun changes h => by cases h))
  | ok changes =>
    have hplan := keeps_planChanges hnext context changes (Disk.start t outcomes) hstart
    have hlift : (lift (Except.mapError Fault.patch (.ok changes))).run (Disk.start t outcomes) =
        .ok changes (Disk.start t outcomes) := rfl
    simp only [hempty, false_or, Except.ok.injEq, forall_eq', hlift, run_bind]
    cases hplans : (planChanges context changes).run (Disk.start t outcomes) with
    | error fault d =>
      rw [hplans] at hplan
      exact iff_of_true hplan (.inr fun plans d h => by cases h)
    | ok plans d =>
      rw [hplans] at hplan
      cases dryRun with
      | true =>
        have hrecord := keeps_record hnext store d hplan
        simp only [Bool.not_true, Bool.false_eq_true, if_false, true_or, iff_true,
          run_bind]
        cases hrun : store.record.run d with
        | ok _ d' => trivial
        | error fault d' =>
          rw [hrun] at hrecord
          exact hrecord
      | false =>
        have happly := applyPlans_iff store (fun p _ => hplan.2 p) plans
          (.ok false "applied" (plans.map ApplyPatch.buildOperationSummary))
        constructor
        · intro h
          refine .inr fun plans' d' heq => ?_
          cases heq
          exact happly.mp h
        · intro h
          exact happly.mpr (h.resolve_left Bool.false_ne_true plans d rfl)

end Run

def twoDeletes : Text :=
  "*** Begin Patch\n*** Delete File: f\n*** Delete File: f\n*** End Patch".toList

/-- Both deletions are planned while the file is there. The second one raises when it
is gone, on a device that does not fail. -/
theorem twoDeletes_not_atomic :
    ¬ Atomic ⟨false⟩ ApplyPatch.sampleContext false twoDeletes ApplyPatch.sampleTree [] := by
  intro hatomic
  have hgone : (unsuccessful ((execute ⟨false⟩ ApplyPatch.sampleContext false twoDeletes).run
      (Disk.start ApplyPatch.sampleTree []))).map (·.tree.file? ["f", "work"]) = some none := by
    decide +kernel
  obtain ⟨d, hd, hfile⟩ := Option.map_eq_some_iff.mp hgone
  rw [(hatomic d hd).2 ["f", "work"]] at hfile
  exact absurd hfile (by decide +kernel)

end Atomicity

end Agent33.Tools.FailingDisk
