import Agent33.Library.Dict
import Agent33.Library.History

/-!
# Managed processes

The processes that the manager starts, the tasks that wait for them and the calls that
terminate them, as steps between the points at which one of them waits. A new manager over
the same store finds the records of the one before.
-/

namespace Agent33.Processes

open Library

inductive ManagedProcessStatus
  | running
  | completed
  | failed
  | terminated
  | interrupted
  deriving DecidableEq

structure ManagedProcessRecord where
  processId : Text
  command : Text
  tenantId : Text
  status : ManagedProcessStatus := .running
  startedAt : ℤ
  finishedAt : Option ℤ := none
  exitCode : Option ℤ := none
  lastError : Text := []

inductive Watcher
  | waiting
  | draining (exitCode : ℤ)
  | done
  | cancelled

structure Job where
  processId : Text
  child : Option ℤ := none
  watcher : Watcher := .waiting

inductive StartError
  | emptyCommand
  | limitReached
  | badDirectory
  | notStarted (message : Text)

structure Start where
  processId : Text
  command : Text
  tenantId : Text
  outcome : Option (Except StartError ManagedProcessRecord) := none

inductive TerminateOutcome
  | returned (record : ManagedProcessRecord)
  | notFound
  | cancelled

structure Termination where
  processId : Text
  tenantId : Text
  job : ℕ
  outcome : Option TerminateOutcome := none

structure ProcessManagerService where
  redact : Text → Text
  maxProcesses : ℕ
  /-- Whether there is a state store. -/
  durable : Bool

structure ManagerState where
  records : Dict Text ManagedProcessRecord := Dict.empty
  handles : Dict Text ℕ := Dict.empty
  jobs : List Job := []
  starts : List Start := []
  terminations : List Termination := []
  persisted : List ManagedProcessRecord := []

inductive ProcessEvent
  | startBegins (processId command tenantId : Text) (directoryOk : Bool)
  /-- The creation of the process returns, or raises. -/
  | spawned (start : ℕ) (error : Option Text) (now : ℤ)
  | childExits (job : ℕ) (exitCode : ℤ)
  | watcherWakes (job : ℕ)
  | watcherFinishes (job : ℕ) (now : ℤ)
  | terminateBegins (processId tenantId : Text) (now : ℤ)
  | graceRunsOut (termination : ℕ)
  | terminateResumes (termination : ℕ)
  | cleanupCompleted (tenantId : Text) (maxAge now : ℤ)
  | restarts (now : ℤ)

namespace ProcessManagerService

variable (manager : ProcessManagerService)

def sanitize (record : ManagedProcessRecord) : ManagedProcessRecord :=
  { record with
    command := manager.redact record.command
    lastError := manager.redact record.lastError }

variable (s : ManagerState)

def persist : ManagerState :=
  if manager.durable then { s with persisted := s.records.values.map manager.sanitize } else s

def limit : ℕ := max 1 manager.maxProcesses

def visible? (processId tenantId : Text) : Option ManagedProcessRecord :=
  (s.records.get? processId).filter fun record => tenantId = [] ∨ record.tenantId = tenantId

def getProcess (processId tenantId : Text) : TerminateOutcome :=
  match visible? s processId tenantId with
  | none => .notFound
  | some record => .returned (manager.sanitize record)

def checkStart (command : Text) (directoryOk : Bool) : Option StartError :=
  if Text.strip command = [] then some .emptyCommand
  else if manager.limit ≤ s.handles.entries.length then some .limitReached
  else if directoryOk then none
  else some .badDirectory

def startBegins (processId command tenantId : Text) (directoryOk : Bool) : ManagerState :=
  let outcome := (manager.checkStart s command directoryOk).map Except.error
  { s with starts := s.starts ++ [⟨processId, Text.strip command, tenantId, outcome⟩] }

def register (start : Start) (now : ℤ) : ManagedProcessRecord × ManagerState :=
  let record : ManagedProcessRecord :=
    { processId := start.processId, command := manager.redact start.command,
      tenantId := start.tenantId, startedAt := now }
  (record, manager.persist
    { s with
      records := s.records.set start.processId record
      handles := s.handles.set start.processId s.jobs.length
      jobs := s.jobs ++ [{ processId := start.processId }] })

def spawned (k : ℕ) (error : Option Text) (now : ℤ) : ManagerState :=
  match s.starts[k]? with
  | some ⟨processId, command, tenantId, none⟩ =>
    let start : Start := ⟨processId, command, tenantId, none⟩
    match error with
    | some message =>
      { s with starts := s.starts.set k { start with
          outcome := some (.error (.notStarted (manager.redact message))) } }
    | none =>
      let (record, registered) := manager.register s start now
      { registered with starts := s.starts.set k { start with outcome := some (.ok record) } }
  | _ => s

def exitMessage (exitCode : ℤ) : Text :=
  "Process exited with code ".toList ++
    match exitCode with
    | .ofNat n => Text.ofNat n
    | .negSucc n => '-' :: Text.ofNat (n + 1)

def exited (record : ManagedProcessRecord) (exitCode now : ℤ) : ManagedProcessRecord :=
  let record := { record with exitCode := some exitCode, finishedAt := some now }
  if record.status = .terminated then record
  else if exitCode = 0 then { record with status := .completed }
  else
    { record with
      status := .failed
      lastError := if record.lastError = [] then exitMessage exitCode else record.lastError }

def setWatcher (j : ℕ) (job : Job) (watcher : Watcher) : ManagerState :=
  { s with jobs := s.jobs.set j { job with watcher } }

def childExits (j : ℕ) (exitCode : ℤ) : ManagerState :=
  match s.jobs[j]? with
  | some ⟨processId, none, watcher⟩ =>
    { s with jobs := s.jobs.set j ⟨processId, some exitCode, watcher⟩ }
  | _ => s

def watcherWakes (j : ℕ) : ManagerState :=
  match s.jobs[j]? with
  | some ⟨processId, some exitCode, .waiting⟩ =>
    setWatcher s j ⟨processId, some exitCode, .waiting⟩ (.draining exitCode)
  | _ => s

def watcherFinishes (j : ℕ) (now : ℤ) : ManagerState :=
  match s.jobs[j]? with
  | some ⟨processId, child, .draining exitCode⟩ =>
    let recorded :=
      match s.records.get? processId with
      | none => s
      | some record =>
        manager.persist
          { s with records := s.records.set processId (exited record exitCode now) }
    setWatcher { recorded with handles := recorded.handles.erase processId } j
      ⟨processId, child, .draining exitCode⟩ .done
  | _ => s

def terminateBegins (processId tenantId : Text) (now : ℤ) : ManagerState :=
  match visible? s processId tenantId with
  | none => s
  | some record =>
    match s.handles.get? processId with
    | none =>
      if record.status = .running then
        let closed :=
          { record with
            status := .interrupted
            finishedAt := some now
            lastError :=
              if record.lastError = [] then "Runtime handle unavailable".toList
              else record.lastError }
        let s := manager.persist { s with records := s.records.set processId closed }
        { s with terminations := s.terminations ++
            [⟨processId, tenantId, 0, some (.returned closed)⟩] }
      else
        { s with terminations := s.terminations ++
            [⟨processId, tenantId, 0, some (.returned record)⟩] }
    | some j =>
      let record := { record with status := .terminated, finishedAt := some now }
      let s := manager.persist { s with records := s.records.set processId record }
      { s with terminations := s.terminations ++ [⟨processId, tenantId, j, none⟩] }

def Watcher.isOver : Watcher → Bool
  | .done | .cancelled => true
  | .waiting | .draining _ => false

def finishTermination (k : ℕ) (termination : Termination)
    (outcome : TerminateOutcome) : ManagerState :=
  { s with terminations := s.terminations.set k { termination with outcome := some outcome } }

/-- `wait_for` cancels the task that it waits for; waiting for it once more raises. -/
def graceRunsOut (k : ℕ) : ManagerState :=
  match s.terminations[k]? with
  | some ⟨processId, tenantId, j, none⟩ =>
    match s.jobs[j]? with
    | none => s
    | some job =>
      if Watcher.isOver job.watcher then s
      else finishTermination (setWatcher s j job .cancelled) k ⟨processId, tenantId, j, none⟩
        .cancelled
  | _ => s

def terminateResumes (k : ℕ) : ManagerState :=
  match s.terminations[k]? with
  | some ⟨processId, tenantId, j, none⟩ =>
    match s.jobs[j]? with
    | some ⟨_, _, .done⟩ =>
      finishTermination s k ⟨processId, tenantId, j, none⟩ (manager.getProcess s processId tenantId)
    | some ⟨_, _, .cancelled⟩ =>
      finishTermination s k ⟨processId, tenantId, j, none⟩ .cancelled
    | _ => s
  | _ => s

def keepsRecord (tenantId : Text) (maxAge now : ℤ) (processId : Text)
    (record : ManagedProcessRecord) : Bool :=
  decide (processId ∈ s.handles.keys) ||
    (decide (tenantId ≠ []) && decide (record.tenantId ≠ tenantId)) ||
    decide (record.status = .running) ||
    (decide (0 < maxAge) && decide (now - max 0 maxAge < record.finishedAt.getD record.startedAt))

def cleanupCompleted (tenantId : Text) (maxAge now : ℤ) : ManagerState :=
  let records := s.records.filterMapValues fun processId record =>
    if keepsRecord s tenantId maxAge now processId record then some record else none
  if records.entries.length < s.records.entries.length then manager.persist { s with records }
  else s

def recovered (now : ℤ) (record : ManagedProcessRecord) : ManagedProcessRecord :=
  if record.status = .running then
    { record with
      status := .interrupted
      finishedAt := some now
      lastError :=
        if record.lastError = [] then
          "Recovered after restart without a live process handle".toList
        else record.lastError }
  else record

def restarts (now : ℤ) : ManagerState :=
  let records := Dict.ofList (s.persisted.map fun record =>
    (record.processId, recovered now (manager.sanitize record)))
  manager.persist { records, persisted := s.persisted }

def step : ProcessEvent → ManagerState
  | .startBegins processId command tenantId directoryOk =>
    manager.startBegins s processId command tenantId directoryOk
  | .spawned k error now => manager.spawned s k error now
  | .childExits j exitCode => childExits s j exitCode
  | .watcherWakes j => watcherWakes s j
  | .watcherFinishes j now => manager.watcherFinishes s j now
  | .terminateBegins processId tenantId now => manager.terminateBegins s processId tenantId now
  | .graceRunsOut k => graceRunsOut s k
  | .terminateResumes k => manager.terminateResumes s k
  | .cleanupCompleted tenantId maxAge now => manager.cleanupCompleted s tenantId maxAge now
  | .restarts now => manager.restarts s now

end ProcessManagerService

end Agent33.Processes

/-!
## Handles and records

Every handle belongs to a process whose task still waits for it and whose record is open or
terminated. Each of the changes that the steps make keeps this.
-/

namespace Agent33.Processes

open Library

namespace ProcessManagerService

variable {manager : ProcessManagerService} {s t : ManagerState} {id : Text}

structure Core (manager : ProcessManagerService) (s : ManagerState) : Prop where
  keyed : ∀ id record, s.records.get? id = some record → record.processId = id
  limited : s.handles.entries.length ≤ manager.limit
  handled : ∀ id j, s.handles.get? id = some j → ∃ job, s.jobs[j]? = some job ∧
    job.processId = id ∧ Watcher.isOver job.watcher = false ∧
      ∃ record, s.records.get? id = some record ∧
        (record.status = .running ∨ record.status = .terminated)
  watched : ∀ (j : ℕ) job, s.jobs[j]? = some job → Watcher.isOver job.watcher = false →
    s.handles.get? job.processId = some j
  uncancelled : ∀ job ∈ s.jobs, job.watcher ≠ .cancelled
  pending : ∀ t ∈ s.terminations, t.outcome = none →
    ∃ record, visible? s t.processId t.tenantId = some record ∧ record.status ≠ .running
  answered : ∀ t ∈ s.terminations, ∀ outcome, t.outcome = some outcome →
    ∃ record, outcome = .returned record ∧ record.processId = t.processId ∧
      record.status ≠ .running

theorem visible?_congr (h : t.records = s.records) : visible? t = visible? s := by
  funext processId tenantId
  rw [visible?, visible?, h]

theorem Core.congr (h : Core manager s) (hrecords : t.records = s.records)
    (hhandles : t.handles = s.handles) (hjobs : t.jobs = s.jobs)
    (hterminations : t.terminations = s.terminations) : Core manager t := by
  refine ⟨?_, ?_, ?_, ?_, ?_, ?_, ?_⟩
  · rw [hrecords]
    exact h.keyed
  · rw [hhandles]
    exact h.limited
  · rw [hhandles, hjobs, hrecords]
    exact h.handled
  · rw [hhandles, hjobs]
    exact h.watched
  · rw [hjobs]
    exact h.uncancelled
  · rw [hterminations, visible?_congr hrecords]
    exact h.pending
  · rw [hterminations]
    exact h.answered

variable {record old : ManagedProcessRecord} {termination : Termination}

theorem visible?_eq_some {processId tenantId : Text} :
    visible? s processId tenantId = some record ↔ s.records.get? processId = some record ∧
      (tenantId = [] ∨ record.tenantId = tenantId) := by
  rw [visible?, Option.filter_eq_some_iff, decide_eq_true_iff]

open Dict

theorem visible?_setRecord (hget : s.records.get? id = some old)
    (htenant : record.tenantId = old.tenantId) (h : visible? s processId tenantId = some seen) :
    visible? { s with records := s.records.set id record } processId tenantId =
      some (if processId = id then record else seen) := by
  obtain ⟨hseen, hvisible⟩ := visible?_eq_some.mp h
  refine visible?_eq_some.mpr ⟨?_, ?_⟩
  · dsimp only
    rw [get?_set]
    split_ifs
    · rfl
    · exact hseen
  · split_ifs with heq
    · rw [heq, hget] at hseen
      rw [htenant, Option.some.inj hseen]
      exact hvisible
    · exact hvisible

theorem Core.setRecord (h : Core manager s) (record : ManagedProcessRecord)
    (hget : s.records.get? id = some old) (hid : record.processId = id)
    (htenant : record.tenantId = old.tenantId) (hstatus : record.status ≠ .running)
    (hhandle : s.handles.get? id = none ∨ record.status = .terminated) :
    Core manager { s with records := s.records.set id record } := by
  refine ⟨?_, h.limited, ?_, h.watched, h.uncancelled, ?_, h.answered⟩
  · intro other found hfound
    dsimp only at hfound
    rw [get?_set] at hfound
    split_ifs at hfound with heq
    · rw [← Option.some.inj hfound, heq]
      exact hid
    · exact h.keyed other found hfound
  · intro other j hj
    obtain ⟨job, hjob, hjobid, hover, found, hfound, hrunning⟩ := h.handled other j hj
    refine ⟨job, hjob, hjobid, hover, ?_⟩
    dsimp only
    by_cases heq : other = id
    · refine ⟨record, ?_, .inr ?_⟩
      · rw [get?_set, if_pos heq]
      · rw [heq] at hj
        exact hhandle.resolve_left fun hnone => by rw [hnone] at hj; cases hj
    · refine ⟨found, ?_, hrunning⟩
      rw [get?_set, if_neg heq]
      exact hfound
  · intro t ht hnone
    obtain ⟨seen, hseen, hfinal⟩ := h.pending t ht hnone
    refine ⟨_, visible?_setRecord hget htenant hseen, ?_⟩
    split_ifs
    · exact hstatus
    · exact hfinal

theorem Core.release (h : Core manager s) (hjob : s.jobs[j]? = some job)
    (hover : Watcher.isOver job.watcher = false) :
    Core manager { s with
      handles := s.handles.erase job.processId
      jobs := s.jobs.set j { job with watcher := .done } } := by
  have hhandle := h.watched j job hjob hover
  refine ⟨h.keyed, ?_, ?_, ?_, ?_, h.pending, h.answered⟩
  · have hmem := (mem_entries _ _ _).mpr hhandle
    exact (length_erase_lt hmem).le.trans h.limited
  · intro other i hi
    dsimp only at hi ⊢
    rw [get?_erase] at hi
    split_ifs at hi with heq
    obtain ⟨found, hfound, hfoundid, hrest⟩ := h.handled other i hi
    refine ⟨found, ?_, hfoundid, hrest⟩
    rw [List.getElem?_set_ne, hfound]
    rintro rfl
    rw [hjob] at hfound
    rw [← Option.some.inj hfound] at hfoundid
    exact heq hfoundid.symm
  · intro i found hfound hunfinished
    dsimp only at hfound ⊢
    by_cases hij : j = i
    · subst hij
      rw [List.getElem?_set_self (List.getElem?_eq_some_iff.mp hjob).1] at hfound
      rw [← Option.some.inj hfound] at hunfinished
      cases hunfinished
    · rw [List.getElem?_set_ne hij] at hfound
      have hold := h.watched i found hfound hunfinished
      rw [get?_erase, if_neg, hold]
      intro heq
      rw [heq, hhandle] at hold
      exact hij (Option.some.inj hold)
  · intro found hfound
    rcases List.mem_or_eq_of_mem_set hfound with hold | rfl
    · exact h.uncancelled found hold
    · exact nofun

theorem Core.setJob (h : Core manager s) (hjob : s.jobs[j]? = some job)
    (hid : job'.processId = job.processId)
    (hover : Watcher.isOver job'.watcher = Watcher.isOver job.watcher)
    (hcancelled : job'.watcher ≠ .cancelled) :
    Core manager { s with jobs := s.jobs.set j job' } := by
  have hself : (s.jobs.set j job')[j]? = some job' :=
    List.getElem?_set_self (List.getElem?_eq_some_iff.mp hjob).1
  refine ⟨h.keyed, h.limited, ?_, ?_, ?_, h.pending, h.answered⟩
  · intro other i hi
    obtain ⟨found, hfound, hfoundid, hunfinished, hrecord⟩ := h.handled other i hi
    dsimp only
    by_cases hij : j = i
    · subst hij
      rw [hjob] at hfound
      cases hfound
      exact ⟨job', hself, hid.trans hfoundid, hover.trans hunfinished, hrecord⟩
    · refine ⟨found, ?_, hfoundid, hunfinished, hrecord⟩
      rw [List.getElem?_set_ne hij, hfound]
  · intro i found hfound hunfinished
    dsimp only at hfound
    by_cases hij : j = i
    · subst hij
      rw [hself] at hfound
      cases hfound
      rw [hid]
      exact h.watched j job hjob (hover.symm.trans hunfinished)
    · rw [List.getElem?_set_ne hij] at hfound
      exact h.watched i found hfound hunfinished
  · intro found hfound
    rcases List.mem_or_eq_of_mem_set hfound with hold | rfl
    · exact h.uncancelled found hold
    · exact hcancelled

/-- A termination that waits for a closed record, or one with a closed record as its result. -/
def Terminates (s : ManagerState) (termination : Termination) : Prop :=
  match termination.outcome with
  | none => ∃ record, visible? s termination.processId termination.tenantId = some record ∧
      record.status ≠ .running
  | some outcome => ∃ record, outcome = .returned record ∧
      record.processId = termination.processId ∧ record.status ≠ .running

theorem Core.withTerminations (h : Core manager s)
    (hterminations : ∀ t ∈ terminations, t ∈ s.terminations ∨ Terminates s t) :
    Core manager { s with terminations } := by
  refine ⟨h.keyed, h.limited, h.handled, h.watched, h.uncancelled, ?_, ?_⟩
  · intro t ht hnone
    rcases hterminations t ht with hold | hnew
    · exact h.pending t hold hnone
    · unfold Terminates at hnew
      rw [hnone] at hnew
      exact hnew
  · intro t ht outcome houtcome
    rcases hterminations t ht with hold | hnew
    · exact h.answered t hold outcome houtcome
    · unfold Terminates at hnew
      rw [houtcome] at hnew
      exact hnew

theorem Core.addTermination (h : Core manager s) (hnew : Terminates s termination) :
    Core manager { s with terminations := s.terminations ++ [termination] } := by
  apply h.withTerminations
  intro t ht
  rcases List.mem_append.mp ht with hold | hlast
  · exact .inl hold
  · rw [List.mem_singleton.mp hlast]
    exact .inr hnew

theorem Core.register (h : Core manager s) (record : ManagedProcessRecord)
    (hid : record.processId = id) (hstatus : record.status = .running)
    (hnew : id ∉ s.records.keys) (hroom : s.handles.entries.length < manager.limit) :
    Core manager { s with
      records := s.records.set id record
      handles := s.handles.set id s.jobs.length
      jobs := s.jobs ++ [{ processId := id }] } := by
  have hnone : s.records.get? id = none := (get?_eq_none _ _).mpr hnew
  refine ⟨?_, ?_, ?_, ?_, ?_, ?_, h.answered⟩
  · intro other found hfound
    dsimp only at hfound
    rw [get?_set] at hfound
    split_ifs at hfound with heq
    · rw [← Option.some.inj hfound, heq]
      exact hid
    · exact h.keyed other found hfound
  · dsimp only
    rw [length_set]
    split_ifs
    · exact hroom.le
    · exact hroom
  · intro other i hi
    dsimp only at hi ⊢
    rw [get?_set] at hi
    rw [get?_set]
    split_ifs at hi ⊢ with heq
    · cases hi
      exact ⟨_, List.getElem?_concat_length, heq.symm, rfl, record, rfl, .inl hstatus⟩
    · obtain ⟨job, hjob, hrest⟩ := h.handled other i hi
      refine ⟨job, ?_, hrest⟩
      rw [List.getElem?_append_left (List.getElem?_eq_some_iff.mp hjob).1, hjob]
  · intro i found hfound hunfinished
    dsimp only at hfound ⊢
    rw [get?_set]
    rcases lt_or_ge i s.jobs.length with hlt | hge
    · rw [List.getElem?_append_left hlt] at hfound
      have hold := h.watched i found hfound hunfinished
      rw [if_neg, hold]
      intro heq
      obtain ⟨_, _, _, _, other, hother, _⟩ := h.handled _ _ hold
      rw [heq, hnone] at hother
      cases hother
    · rw [List.getElem?_append_right hge] at hfound
      have hzero : i - s.jobs.length = 0 := by
        have := (List.getElem?_eq_some_iff.mp hfound).1
        simpa using this
      rw [hzero] at hfound
      cases hfound
      rw [if_pos rfl, Option.some.injEq]
      omega
  · intro found hfound
    rcases List.mem_append.mp hfound with hold | hlast
    · exact h.uncancelled found hold
    · rw [List.mem_singleton.mp hlast]
      exact nofun
  · intro t ht houtcome
    obtain ⟨seen, hseen, hfinal⟩ := h.pending t ht houtcome
    refine ⟨seen, ?_, hfinal⟩
    rw [visible?_eq_some] at hseen ⊢
    refine ⟨?_, hseen.2⟩
    dsimp only
    rw [get?_set, if_neg, hseen.1]
    intro heq
    rw [heq, hnone] at hseen
    cases hseen.1

theorem Core.restrict (h : Core manager s)
    (hsub : ∀ id record, records.get? id = some record → s.records.get? id = some record)
    (hhandles : ∀ id j record, s.handles.get? id = some j → s.records.get? id = some record →
      records.get? id = some record)
    (hpending : ∀ t ∈ s.terminations, t.outcome = none → ∀ record,
      s.records.get? t.processId = some record → records.get? t.processId = some record) :
    Core manager { s with records } := by
  refine ⟨?_, h.limited, ?_, h.watched, h.uncancelled, ?_, h.answered⟩
  · intro other found hfound
    exact h.keyed other found (hsub other found hfound)
  · intro other i hi
    obtain ⟨job, hjob, hjobid, hover, found, hfound, hrunning⟩ := h.handled other i hi
    exact ⟨job, hjob, hjobid, hover, found, hhandles other i found hi hfound, hrunning⟩
  · intro t ht houtcome
    obtain ⟨seen, hseen, hfinal⟩ := h.pending t ht houtcome
    refine ⟨seen, ?_, hfinal⟩
    rw [visible?_eq_some] at hseen ⊢
    exact ⟨hpending t ht houtcome seen hseen.1, hseen.2⟩

theorem persist_records (manager : ProcessManagerService) (s : ManagerState) :
    (manager.persist s).records = s.records := by
  unfold persist
  split_ifs <;> rfl

theorem persist_eq (manager : ProcessManagerService) (s : ManagerState) :
    ∃ persisted, manager.persist s = { s with persisted } := by
  unfold persist
  split_ifs
  · exact ⟨_, rfl⟩
  · exact ⟨s.persisted, rfl⟩

theorem Core.persist (h : Core manager s) : Core manager (manager.persist s) := by
  unfold ProcessManagerService.persist
  split_ifs
  · exact h.congr rfl rfl rfl rfl
  · exact h

structure Stored (manager : ProcessManagerService) (s : ManagerState) : Prop where
  recorded : manager.durable = true → s.persisted = s.records.values.map manager.sanitize
  empty : manager.durable = false → s.persisted = []

theorem stored_persist (h : manager.durable = false → s.persisted = []) :
    Stored manager (manager.persist s) := by
  unfold persist
  split_ifs with hdurable
  · exact ⟨fun _ => rfl, fun hnone => absurd hdurable (ne_true_of_eq_false hnone)⟩
  · exact ⟨fun hsome => absurd hsome hdurable, h⟩

theorem Stored.congr (h : Stored manager s) (hrecords : t.records = s.records)
    (hpersisted : t.persisted = s.persisted) : Stored manager t := by
  refine ⟨?_, ?_⟩
  · rw [hpersisted, hrecords]
    exact h.recorded
  · rw [hpersisted]
    exact h.empty

structure Kept (manager : ProcessManagerService) (s : ManagerState) : Prop where
  core : Core manager s
  stored : Stored manager s

theorem Core.kept_persist (h : Core manager s)
    (hempty : manager.durable = false → s.persisted = []) : Kept manager (manager.persist s) :=
  ⟨h.persist, stored_persist hempty⟩

theorem Kept.congr (h : Kept manager s) (hrecords : t.records = s.records)
    (hhandles : t.handles = s.handles) (hjobs : t.jobs = s.jobs)
    (hterminations : t.terminations = s.terminations) (hpersisted : t.persisted = s.persisted) :
    Kept manager t :=
  ⟨h.core.congr hrecords hhandles hjobs hterminations, h.stored.congr hrecords hpersisted⟩

theorem Kept.addTermination (h : Kept manager s) (hnew : Terminates s termination) :
    Kept manager { s with terminations := s.terminations ++ [termination] } :=
  ⟨h.core.addTermination hnew, h.stored.congr rfl rfl⟩

end ProcessManagerService

end Agent33.Processes
