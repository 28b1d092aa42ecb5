import Agent33.Library.Lines
import Agent33.Library.Python
import Agent33.Workflows.WsManager

/-!
# The archive of workflow runs

Each run has a directory of files: its metadata, the log of its events, its artifacts, its history
record and its result. A JSON file is kept as the value that it holds. The metadata counts the
events of the log, which is a file of its own.
-/

namespace Agent33.Workflows.RunArchive

open Library Library.Hoare Library.LineLog List Triple History

/-- `run.json`, `events.jsonl`, `artifacts.json`, `history.json` and `result.json` of a run. -/
structure RunDir where
  run : Option (Dict String Json) := none
  events : Option Text := none
  artifacts : Option (List Json) := none
  history : Option (Dict String Json) := none
  result : Option (Dict String Json) := none

abbrev Archive := Dict Text RunDir

inductive ArchiveError
  | invalidRunId (runId : Text)
  | notFound (runId : Text)
  | runIdMismatch (expected got : Text)
  | resultNotMapping
  | python (error : Exn)

/-- The texts of the errors that the archive raises itself, with `repr`. -/
def ArchiveError.message (repr : Text → Text) : ArchiveError → Option Text
  | invalidRunId runId => some ("Invalid workflow run_id: ".toList ++ repr runId)
  | notFound runId => some ("Workflow archive not found for run_id=".toList ++ repr runId)
  | runIdMismatch expected got => some ("Workflow event run_id mismatch: expected ".toList ++
      repr expected ++ ", got ".toList ++ repr got)
  | resultNotMapping => some "workflow result must serialize to a mapping".toList
  | python _ => none

/-- What the archive calls: the language runtime, the normalization of history records, and the
copying of artifacts, which returns the new manifest. -/
structure Runtime where
  python : Python
  /-- `float(value)`. -/
  float : Json → Except Exn (BitVec 64)
  /-- `int(value)` of a float. -/
  truncate : BitVec 64 → Except Exn Int
  normalizeExecutionRecord : Json → Except Exn (Dict String Json)
  extractArtifacts : Text → Dict String Json → List Json → Except Exn (List Json)

abbrev Clock := ℕ → BitVec 64

abbrev ArchiveM := EStateM ArchiveError Archive

def lift {α : Type} : Except ArchiveError α → ArchiveM α
  | .ok a => pure a
  | .error e => throw e

def liftPython {α : Type} : Except Exn α → ArchiveM α
  | .ok a => pure a
  | .error e => throw (.python e)

def text (t : Text) : Json := .str (String.ofList t)

/-- `int(value)`. -/
def toInt (runtime : Runtime) : Json → Except Exn Int
  | .int n => .ok n
  | .bool b => .ok (if b then 1 else 0)
  | .float bits => runtime.truncate bits
  | .str s =>
    match Text.parseInt (Text.strip s.toList) with
    | some n => .ok n
    | none => .error .valueError
  | _ => .error .typeError

def orElse (t default : Text) : Text := if t = [] then default else t

/-- `_RUN_ID_PATTERN` -/
def isRunId : Text → Bool
  | [] => false
  | c :: rest => c.isAlphanum &&
      rest.all (fun c => c.isAlphanum || c == '.' || c == '_' || c == '-') &&
      decide (rest.length ≤ 127)

variable (runId : Text)

def validateRunId : Except ArchiveError Text :=
  let safeRunId := Text.strip runId
  if isRunId safeRunId then .ok safeRunId else .error (.invalidRunId runId)

def writeDir (safeRunId : Text) (f : RunDir → RunDir) : ArchiveM PUnit :=
  modify fun archive => archive.set safeRunId (f (archive.getD safeRunId {}))

structure RunStart where
  workflowName : Text
  triggerType : Text := "manual".toList
  startedAt : Option (BitVec 64) := none
  metadata : Json := .null
  ownerSubject : Option String := none
  tenantId : String := ""

def coerceMapping : Json → Json
  | .obj fields => .obj fields
  | _ => .obj []

def startPayload (safeRunId : Text) (start : RunStart) (clock : Clock) : Dict String Json :=
  let now := start.startedAt.getD (clock 0)
  Dict.ofList [("run_id", text safeRunId), ("workflow_name", text (Text.strip start.workflowName)),
    ("trigger_type", text (orElse (Text.strip start.triggerType) "manual".toList)),
    ("status", .str "running"), ("started_at", .float now), ("updated_at", .float now),
    ("completed_at", .null), ("owner_subject", start.ownerSubject.elim .null .str),
    ("tenant_id", .str start.tenantId), ("metadata", coerceMapping start.metadata),
    ("event_count", .int 0), ("artifact_count", .int 0)]

def startRun (start : RunStart) (clock : Clock) :
    ArchiveM (Dict String Json) := do
  let safeRunId ← lift (validateRunId runId)
  let payload := startPayload safeRunId start clock
  writeDir safeRunId fun dir => { dir with
    run := some payload
    events := some (dir.events.getD [])
    artifacts := some [] }
  return payload

def loadSummary : ArchiveM (Option (Dict String Json)) := do
  let safeRunId ← lift (validateRunId runId)
  let archive ← get
  return (archive.getD safeRunId {}).run

def loadRequiredRun : ArchiveM (Dict String Json) := do
  match ← loadSummary runId with
  | none => throw (.notFound runId)
  | some payload => return payload

inductive EventInput
  | event (e : WsManager.WorkflowEvent)
  | mapping (payload : Dict String Json)

def EventInput.payload : EventInput → Dict String Json
  | mapping payload => payload
  | event e =>
    match e.toDict with
    | .obj fields =>
      let payload := Dict.ofList fields
      match e.eventId with
      | none => payload
      | some eventId => payload.set "event_id" (text eventId)
    | _ => Dict.empty

def normalizeEvent (runtime : Runtime) (runId : Text) (event : EventInput) (workflowName : Text)
    (clock : Clock) : Except ArchiveError (Dict String Json) :=
  let payload := event.payload
  let eventRunId := Text.strip (runtime.python.str (payload.getD "run_id" (.str "")))
  if eventRunId ≠ [] ∧ eventRunId ≠ runId then .error (.runIdMismatch runId eventRunId)
  else
    let payload := payload.set "run_id" (text runId)
    let name := runtime.python.str (payload.getD "workflow_name" (text workflowName))
    let payload := payload.set "workflow_name" (text (Text.strip name))
    match runtime.float (payload.getD "timestamp" (.float (clock 0))) with
    | .error e => .error (.python e)
    | .ok timestamp =>
      let payload := payload.set "timestamp" (.float timestamp)
      match payload.get? "type", payload.get? "event_type" with
      | none, some eventType => .ok (payload.set "type" (text (runtime.python.str eventType)))
      | _, _ => .ok payload

def RunDir.appendLine (line : Text) (dir : RunDir) : RunDir :=
  { dir with events := some (dir.events.getD [] ++ (line ++ ['\n'])) }

def appendEvent (runtime : Runtime) (runId : Text) (event : EventInput) (clock : Clock) :
    ArchiveM (Dict String Json) := do
  let runPayload ← loadRequiredRun runId
  let workflowName := runtime.python.str (runPayload.getD "workflow_name" (.str ""))
  let eventPayload ← lift (normalizeEvent runtime runId event workflowName clock)
  let safeRunId ← lift (validateRunId runId)
  writeDir safeRunId
    (RunDir.appendLine (runtime.python.jsonDumpsSorted (.obj eventPayload.entries)))
  let eventCount ← liftPython (toInt runtime (runPayload.getD "event_count" (.int 0)))
  writeDir safeRunId fun dir => { dir with
    run := some ((runPayload.set "event_count" (.int (eventCount + 1))).set "updated_at"
      (.float (clock 1))) }
  return eventPayload

def extractResultError (runtime : Runtime) (result : Dict String Json) : Option Text :=
  match result.get? "step_results" with
  | some (.arr items) => items.reverse.findSome? fun item =>
    match item.field? "error" with
    | none | some .null => none
    | some error =>
      let t := Text.strip (runtime.python.str error)
      if t = [] then none else some t
  | _ => none

def resolveStatus (runtime : Runtime) (result : Dict String Json)
    (history : Option (Dict String Json)) : Text :=
  let payload := history.getD result
  orElse (runtime.python.str (payload.getD "status" (.str "completed"))) "completed".toList

def resolveCompletedAt (runtime : Runtime) (history : Option (Dict String Json))
    (clock : Clock) : Except Exn (BitVec 64) :=
  match history with
  | some history => runtime.float (history.getD "timestamp" (.float (clock 0)))
  | none => .ok (clock 0)

def resultPayload (runtime : Runtime) (run result : Dict String Json)
    (history : Option (Dict String Json)) (manifest : List Json) (completedAt : BitVec 64)
    (clock : Clock) : Dict String Json :=
  let run := (((run.set "status" (text (resolveStatus runtime result history))).set "completed_at"
    (.float completedAt)).set "updated_at" (.float (clock 1))).set "artifact_count"
    (.int manifest.length)
  match history, result.get? "duration_ms" with
  | some history, _ => ((run.set "duration_ms" (history.getD "duration_ms" (.float 0))).set "error"
      (history.getD "error" .null)).set "timestamp" (history.getD "timestamp" .null)
  | none, some duration => (run.set "duration_ms" duration).set "error"
      ((extractResultError runtime result).elim .null text)
  | none, none => run

def recordHistory (runtime : Runtime) (safeRunId : Text) :
    Option Json → ArchiveM (Option (Dict String Json))
  | some record => do
    let history ← liftPython (runtime.normalizeExecutionRecord record)
    writeDir safeRunId fun dir => { dir with history := some history }
    return some history
  | none => do
    let archive ← get
    return (archive.getD safeRunId {}).history

def recordArtifacts (runtime : Runtime) (safeRunId : Text) (result : Dict String Json) :
    ArchiveM (List Json) := do
  let archive ← get
  let old := ((archive.getD safeRunId {}).artifacts.getD []).filter Json.isObj
  let manifest ← liftPython (runtime.extractArtifacts safeRunId result old)
  writeDir safeRunId fun dir => { dir with artifacts := some manifest }
  return manifest

def normalizeResult : Json → Except ArchiveError (Dict String Json)
  | .obj fields => .ok (Dict.ofList fields)
  | _ => .error .resultNotMapping

def recordResult (runtime : Runtime) (runId : Text) (result : Json) (historyRecord : Option Json)
    (clock : Clock) : ArchiveM (Dict String Json) := do
  let runPayload ← loadRequiredRun runId
  let result ← lift (normalizeResult result)
  let safeRunId ← lift (validateRunId runId)
  writeDir safeRunId fun dir => { dir with result := some result }
  let history ← recordHistory runtime safeRunId historyRecord
  let manifest ← recordArtifacts runtime safeRunId result
  let completedAt ← liftPython (resolveCompletedAt runtime history clock)
  writeDir safeRunId fun dir => { dir with
    run := some (resultPayload runtime runPayload result history manifest completedAt clock) }
  return result

/-- The loop of `list_events` over the lines after the offset. -/
def listFrom (python : Python) (limit : Option Int) :
    List Text → List Json → Except ArchiveError (List Json)
  | [], events => .ok events
  | rawLine :: rest, events =>
    let line := Text.strip rawLine
    if line = [] then listFrom python limit rest events
    else
      match python.jsonLoads line with
      | none => .error (.python .valueError)
      | some payload =>
        let events := if payload.isObj then events ++ [payload] else events
        match limit with
        | none => listFrom python limit rest events
        | some n =>
          if 0 ≤ n ∧ n ≤ events.length then .ok events else listFrom python limit rest events

def listEvents (runtime : Runtime) (archive : Archive) (runId : Text) (offset : Int)
    (limit : Option Int) : Except ArchiveError (List Json) :=
  match validateRunId runId with
  | .error e => .error e
  | .ok safeRunId =>
    match (archive.getD safeRunId {}).events with
    | none => .ok []
    | some log => listFrom runtime.python limit ((lines log).drop (max 0 offset).toNat) []

inductive Op
  | start (runId : Text) (start : RunStart) (clock : Clock)
  | append (runId : Text) (event : EventInput) (clock : Clock)
  | record (runId : Text) (result : Json) (historyRecord : Option Json) (clock : Clock)

def step (runtime : Runtime) : Op → ArchiveM PUnit
  | .start runId start clock => discard (startRun runId start clock)
  | .append runId event clock => discard (appendEvent runtime runId event clock)
  | .record runId result historyRecord clock =>
    discard (recordResult runtime runId result historyRecord clock)

/-- The lines of `events.jsonl`. -/
def RunDir.eventLines (dir : RunDir) : List Text := lines (dir.events.getD [])

def LogOf (dir : RunDir) (ls : List Text) : Prop :=
  dir.events.getD [] = terminated ls ∧ ∀ line ∈ ls, OneLine line

def Counted (dir : RunDir) : Prop :=
  ∀ run, dir.run = some run → run.get? "event_count" = some (.int dir.eventLines.length)

def Agrees (archive : Archive) : Prop := ∀ safeRunId, Counted (archive.getD safeRunId {})

def LogsOk (archive : Archive) : Prop := ∀ safeRunId, ∃ ls, LogOf (archive.getD safeRunId {}) ls

variable {runtime : Runtime} {archive : Archive} {safeRunId : Text} {dir : RunDir}

theorem LogOf.eventLines (h : LogOf dir ls) : dir.eventLines = ls := by
  rw [RunDir.eventLines, h.1, lines_terminated h.2]

theorem LogOf.appendLine (h : LogOf dir ls) (hline : OneLine line) :
    LogOf (dir.appendLine line) (ls ++ [line]) := by
  refine ⟨?_, ?_⟩
  · rw [terminated_concat, ← h.1]
    rfl
  · intro l hl
    rcases mem_append.mp hl with hl | hl
    · exact h.2 l hl
    · exact mem_singleton.mp hl ▸ hline

section Triples

variable {α : Type}

variable {Q : α → Archive → Prop}

theorem triple_lift (hok : ∀ a, x = .ok a → ∀ s, P s → Q a s)
    (herror : ∀ e s, P s → E e s) : Triple P (lift x) Q E := by
  cases x with
  | ok a => exact triple_pure (hok a rfl)
  | error e => exact triple_throw (herror e)

theorem triple_liftPython (hok : ∀ a, x = .ok a → ∀ s, P s → Q a s)
    (herror : ∀ e, x = .error e → ∀ s, P s → E (.python e) s) : Triple P (liftPython x) Q E := by
  cases x with
  | ok a => exact triple_pure (hok a rfl)
  | error e => exact triple_throw (herror e rfl)

theorem keeps_lift (x : Except ArchiveError α) : Keeps P (lift x) :=
  triple_lift (fun _ _ _ h => h) fun _ _ h => h

theorem keeps_liftPython (x : Except Exn α) : Keeps P (liftPython x) :=
  triple_liftPython (fun _ _ _ h => h) fun _ _ _ h => h

theorem triple_writeDir {Q : Archive → Prop}
    (h : ∀ s, P s → Q (s.set safeRunId (f (s.getD safeRunId {})))) :
    Triple P (writeDir safeRunId f) (fun _ => Q) E :=
  triple_modify h

theorem run_loadRequiredRun (s : Archive) :
    (loadRequiredRun runId).run s =
      match validateRunId runId with
      | .error e => .error e s
      | .ok safeRunId =>
        match (s.getD safeRunId {}).run with
        | none => .error (.notFound runId) s
        | some run => .ok run s := by
  have hsummary : (loadSummary runId).run s =
      match validateRunId runId with
      | .error e => .error e s
      | .ok safeRunId => .ok (s.getD safeRunId {}).run s := by
    rw [loadSummary]
    cases validateRunId runId <;> rfl
  rw [loadRequiredRun, EStateM.run_bind, hsummary]
  cases validateRunId runId with
  | error e => rfl
  | ok safeRunId =>
    dsimp only
    cases (s.getD safeRunId {}).run <;> rfl

theorem triple_loadRequiredRun : Triple P (loadRequiredRun runId)
    (fun run s => P s ∧ ∃ safeRunId, validateRunId runId = .ok safeRunId ∧
      (s.getD safeRunId {}).run = some run) fun _ => P := by
  intro s hs
  rw [run_loadRequiredRun]
  cases hid : validateRunId runId with
  | error e => exact hs
  | ok safeRunId =>
    dsimp only
    cases hrun : (s.getD safeRunId {}).run with
    | none => exact hs
    | some run => exact ⟨hs, safeRunId, rfl, hrun⟩

theorem keeps_loadRequiredRun : Keeps P (loadRequiredRun runId) :=
  (triple_loadRequiredRun runId).conseq (fun _ h => h) (fun _ _ h => h.1) fun _ _ h => h

end Triples

section Logs

theorem getD_set (archive : Archive) (id id' : Text) (dir : RunDir) :
    (archive.set id dir).getD id' {} = if id' = id then dir else archive.getD id' {} :=
  Dict.getD_set ..

theorem LogsOk.set (h : LogsOk archive) (hdir : ∃ ls, LogOf dir ls) :
    LogsOk (archive.set safeRunId dir) := by
  intro id
  rw [getD_set]
  split_ifs
  · exact hdir
  · exact h id

theorem keeps_logsOk_writeDir (hf : ∀ dir, (f dir).events.getD [] = dir.events.getD []) :
    Keeps LogsOk (writeDir safeRunId f) := by
  refine triple_writeDir ?_
  intro s hs
  obtain ⟨ls, hlog, hls⟩ := hs safeRunId
  exact hs.set ⟨ls, (hf _).trans hlog, hls⟩

theorem keeps_logsOk_append (hline : ∀ v, OneLine (runtime.python.jsonDumpsSorted v))
    (runId : Text) (event : EventInput) (clock : Clock) :
    Keeps LogsOk (appendEvent runtime runId event clock) := by
  refine (keeps_loadRequiredRun runId).bind fun run => ?_
  refine (keeps_lift _).bind fun payload => (keeps_lift _).bind fun safeRunId => ?_
  refine Keeps.bind ?_ fun _ => (keeps_liftPython _).bind fun count => ?_
  · refine triple_writeDir ?_
    intro s hs
    obtain ⟨ls, hlog⟩ := hs safeRunId
    exact hs.set ⟨_, hlog.appendLine (hline _)⟩
  · refine Keeps.bind ?_ fun _ => keeps_pure payload
    exact keeps_logsOk_writeDir fun _ => rfl

theorem keeps_recordHistory {P : Archive → Prop} {record : Option Json}
    (h : ∀ history, Keeps P (writeDir safeRunId fun dir => { dir with history := history })) :
    Keeps P (recordHistory runtime safeRunId record) := by
  cases record with
  | none => exact keeps_get.bind fun _ => keeps_pure _
  | some record =>
    exact (keeps_liftPython _).bind fun history => (h _).bind fun _ => keeps_pure _

theorem keeps_recordArtifacts {P : Archive → Prop} {result : Dict String Json}
    (h : ∀ manifest, Keeps P (writeDir safeRunId fun dir => { dir with artifacts := manifest })) :
    Keeps P (recordArtifacts runtime safeRunId result) :=
  keeps_get.bind fun _ => (keeps_liftPython _).bind fun _ => (h _).bind fun _ => keeps_pure _

theorem keeps_logsOk_record (runtime : Runtime) (runId : Text) (result : Json)
    (historyRecord : Option Json) (clock : Clock) :
    Keeps LogsOk (recordResult runtime runId result historyRecord clock) := by
  refine (keeps_loadRequiredRun runId).bind fun run => ?_
  refine (keeps_lift _).bind fun result => (keeps_lift _).bind fun safeRunId => ?_
  refine Keeps.bind ?_ fun _ => Keeps.bind ?_ fun history => Keeps.bind ?_ fun manifest => ?_
  · exact keeps_logsOk_writeDir fun _ => rfl
  · exact keeps_recordHistory fun _ => keeps_logsOk_writeDir fun _ => rfl
  · exact keeps_recordArtifacts fun _ => keeps_logsOk_writeDir fun _ => rfl
  · refine (keeps_liftPython _).bind fun completedAt => ?_
    refine Keeps.bind ?_ fun _ => keeps_pure result
    exact keeps_logsOk_writeDir fun _ => rfl

end Logs

section Counts

theorem Agrees.set (h : Agrees archive) (hdir : Counted dir) :
    Agrees (archive.set safeRunId dir) := by
  intro id
  rw [getD_set]
  split_ifs
  · exact hdir
  · exact h id

structure Consistent (archive : Archive) : Prop where
  logs : LogsOk archive
  agrees : Agrees archive

structure Loaded (safeRunId : Text) (run : Dict String Json) (archive : Archive) : Prop where
  consistent : Consistent archive
  count : run.get? "event_count" =
    some (.int (archive.getD safeRunId {}).eventLines.length)

structure Appended (safeRunId : Text) (run : Dict String Json) (archive : Archive) : Prop where
  logs : LogsOk archive
  others : ∀ id ≠ safeRunId, Counted (archive.getD id {})
  count : ∃ n : ℕ, run.get? "event_count" = some (.int n) ∧
    (archive.getD safeRunId {}).eventLines.length = n + 1

variable {run : Dict String Json}

theorem triple_loaded : Triple Consistent (loadRequiredRun runId)
    (fun run s => Consistent s ∧
      ∀ safeRunId, validateRunId runId = .ok safeRunId → Loaded safeRunId run s)
    fun _ => Consistent := by
  refine (triple_loadRequiredRun runId).conseq (fun _ h => h) ?_ fun _ _ h => h
  rintro run s ⟨hs, id, hid, hrun⟩
  refine ⟨hs, ?_⟩
  intro id' hid'
  obtain rfl : id = id' := Except.ok.inj (hid.symm.trans hid')
  exact ⟨hs, hs.agrees id run hrun⟩

theorem Loaded.append (h : Loaded safeRunId run archive) (hline : OneLine line) :
    Appended safeRunId run
      (archive.set safeRunId ((archive.getD safeRunId {}).appendLine line)) := by
  obtain ⟨ls, hlog⟩ := h.consistent.logs safeRunId
  have hlog' := hlog.appendLine hline
  refine ⟨h.consistent.logs.set ⟨_, hlog'⟩, ?_, ls.length, ?_, ?_⟩
  · intro id hid
    rw [getD_set, if_neg hid]
    exact h.consistent.agrees id
  · rw [h.count, hlog.eventLines]
  · rw [getD_set, if_pos rfl, hlog'.eventLines, length_append, length_singleton]

theorem Appended.count_written (h : Appended safeRunId run archive)
    (hn : toInt runtime (run.getD "event_count" (.int 0)) = .ok n) (updatedAt : Json) :
    Consistent (archive.set safeRunId { archive.getD safeRunId {} with
      run := some ((run.set "event_count" (.int (n + 1))).set "updated_at" updatedAt) }) := by
  obtain ⟨count, hcount, hlength⟩ := h.count
  obtain ⟨ls, hlog⟩ := h.logs safeRunId
  rw [Dict.getD, hcount] at hn
  obtain rfl : (count : Int) = n := Except.ok.inj hn
  refine ⟨h.logs.set ⟨ls, hlog⟩, ?_⟩
  intro id
  rw [getD_set]
  split_ifs with hid
  · rintro run' ⟨⟩
    have hlines : (archive.getD safeRunId {}).eventLines.length = count + 1 := hlength
    rw [Dict.get?_set, if_neg (by decide), Dict.get?_set, if_pos rfl]
    exact congrArg (fun k : ℕ => some (Json.int k)) hlines.symm
  · exact h.others id hid

theorem keeps_consistent_append (hline : ∀ v, OneLine (runtime.python.jsonDumpsSorted v))
    (runId : Text) (event : EventInput) (clock : Clock) :
    Keeps Consistent (appendEvent runtime runId event clock) := by
  refine bind (triple_loaded runId) fun run => ?_
  refine bind (triple_lift (fun _ _ _ h => h) fun _ _ h => h.1) fun payload => ?_
  refine bind (triple_lift (fun id hid _ h => h.2 id hid) fun _ _ h => h.1) fun id => ?_
  refine bind (triple_writeDir fun _ h => h.append (hline _)) fun _ => ?_
  refine bind (triple_liftPython (fun n hn _ h => And.intro h hn) ?_) fun n => ?_
  · rintro e he s h
    obtain ⟨count, hcount, -⟩ := h.count
    rw [Dict.getD, hcount] at he
    cases he
  · refine bind (triple_writeDir ?_) fun _ => triple_pure fun _ h => h
    rintro s ⟨h, hn⟩
    exact h.count_written hn _

theorem keeps_loaded_writeDir (hrun : ∀ dir, (f dir).run = dir.run)
    (hevents : ∀ dir, (f dir).events = dir.events) :
    Keeps (Loaded safeRunId run) (writeDir safeRunId f) := by
  refine triple_writeDir ?_
  intro s hs
  have hlines : (f (s.getD safeRunId {})).eventLines = (s.getD safeRunId {}).eventLines := by
    rw [RunDir.eventLines, hevents]
    rfl
  obtain ⟨ls, hlog, hls⟩ := hs.consistent.logs safeRunId
  refine ⟨⟨hs.consistent.logs.set ⟨ls, ?_, hls⟩, hs.consistent.agrees.set ?_⟩, ?_⟩
  · rw [hevents]
    exact hlog
  · intro run' hrun'
    rw [hrun] at hrun'
    rw [hlines]
    exact hs.consistent.agrees safeRunId run' hrun'
  · rw [getD_set, if_pos rfl, hlines]
    exact hs.count

theorem Loaded.triple {α : Type} {x : ArchiveM α} (h : Keeps (Loaded safeRunId run) x) :
    Triple (Loaded safeRunId run) x (fun _ => Loaded safeRunId run) fun _ => Consistent :=
  h.conseq (fun _ h => h) (fun _ _ h => h) fun _ _ h => h.consistent

theorem Loaded.result_written (h : Loaded safeRunId run archive)
    (hcount : run'.get? "event_count" = run.get? "event_count") :
    Consistent (archive.set safeRunId { archive.getD safeRunId {} with run := some run' }) := by
  obtain ⟨ls, hlog⟩ := h.consistent.logs safeRunId
  refine ⟨h.consistent.logs.set ⟨ls, hlog⟩, h.consistent.agrees.set ?_⟩
  rintro _ ⟨⟩
  exact hcount.trans h.count

theorem get?_resultPayload (result : Dict String Json) (history : Option (Dict String Json))
    (manifest : List Json) (completedAt : BitVec 64) (clock : Clock) :
    (resultPayload runtime run result history manifest completedAt clock).get? "event_count" =
      run.get? "event_count" := by
  unfold resultPayload
  cases history with
  | some history => simp
  | none =>
    cases result.get? "duration_ms" with
    | some duration => simp
    | none => simp

theorem keeps_consistent_record (runtime : Runtime) (runId : Text) (result : Json)
    (historyRecord : Option Json) (clock : Clock) :
    Keeps Consistent (recordResult runtime runId result historyRecord clock) := by
  refine bind (triple_loaded runId) fun run => ?_
  refine bind (triple_lift (fun _ _ _ h => h) fun _ _ h => h.1) fun result => ?_
  refine bind (triple_lift (fun id hid _ h => h.2 id hid) fun _ _ h => h.1) fun id => ?_
  refine bind (Loaded.triple ?_) fun _ => ?_
  · exact keeps_loaded_writeDir (fun _ => rfl) fun _ => rfl
  refine bind (Loaded.triple (keeps_recordHistory fun _ => ?_)) fun history => ?_
  · exact keeps_loaded_writeDir (fun _ => rfl) fun _ => rfl
  refine bind (Loaded.triple (keeps_recordArtifacts fun _ => ?_)) fun manifest => ?_
  · exact keeps_loaded_writeDir (fun _ => rfl) fun _ => rfl
  refine bind (Loaded.triple (keeps_liftPython _)) fun completedAt => ?_
  refine bind (triple_writeDir fun s h => ?_) fun _ => triple_pure fun _ h => h
  exact h.result_written (get?_resultPayload result history manifest completedAt clock)

def Restarts (archive : Archive) : Op → Prop
  | .start runId _ _ => ∃ safeRunId, validateRunId runId = .ok safeRunId ∧
      (archive.getD safeRunId {}).eventLines ≠ []
  | _ => False

def RunDir.started (safeRunId : Text) (start : RunStart) (clock : Clock) (dir : RunDir) : RunDir :=
  { dir with
    run := some (startPayload safeRunId start clock)
    events := some (dir.events.getD [])
    artifacts := some [] }

theorem run_startRun (start : RunStart) (clock : Clock) (s : Archive) :
    (startRun runId start clock).run s =
      match validateRunId runId with
      | .error e => .error e s
      | .ok safeRunId => .ok (startPayload safeRunId start clock)
          (s.set safeRunId ((s.getD safeRunId {}).started safeRunId start clock)) := by
  rw [startRun, EStateM.run_bind]
  cases validateRunId runId <;> rfl

theorem next_start (start : RunStart) (clock : Clock) (s : Archive) :
    next (step runtime) s (.start runId start clock) =
      match validateRunId runId with
      | .error _ => s
      | .ok safeRunId => s.set safeRunId
          ((s.getD safeRunId {}).started safeRunId start clock) := by
  rw [History.next, step, run_discard, run_startRun]
  cases validateRunId runId <;> rfl

theorem counted_started_iff (safeRunId : Text) (start : RunStart) (clock : Clock) (dir : RunDir) :
    Counted (dir.started safeRunId start clock) ↔ dir.eventLines = [] := by
  have hzero : (startPayload safeRunId start clock).get? "event_count" = some (.int 0) := by
    rw [startPayload, Dict.get?_ofList (by simp)]
    simp
  rw [← length_eq_zero_iff]
  constructor
  · intro h
    have hcount := (h _ rfl).symm.trans hzero
    exact Int.ofNat_eq_zero.mp (Json.int.inj (Option.some.inj hcount))
  · rintro hlength _ ⟨⟩
    rw [hzero]
    exact congrArg (fun k : ℕ => some (Json.int k)) hlength.symm

theorem logsOk_next (hline : ∀ v, OneLine (runtime.python.jsonDumpsSorted v)) (op : Op)
    (h : LogsOk archive) : LogsOk (next (step runtime) archive op) := by
  cases op with
  | start runId start clock =>
    rw [next_start]
    cases validateRunId runId with
    | error e => exact h
    | ok safeRunId => exact h.set (h safeRunId)
  | append runId event clock =>
    have hkeep := (keeps_logsOk_append hline runId event clock).discard
    exact next_of_triple (step runtime) hkeep h
  | record runId result historyRecord clock =>
    have hkeep := (keeps_logsOk_record runtime runId result historyRecord clock).discard
    exact next_of_triple (step runtime) hkeep h

theorem agrees_next_iff (hline : ∀ v, OneLine (runtime.python.jsonDumpsSorted v)) (op : Op)
    (h : Consistent archive) :
    Agrees (next (step runtime) archive op) ↔ ¬ Restarts archive op := by
  cases op with
  | start runId start clock =>
    rw [next_start, Restarts]
    cases hid : validateRunId runId with
    | error e => simp [h.agrees]
    | ok safeRunId =>
      have hstarted := counted_started_iff safeRunId start clock (archive.getD safeRunId {})
      simp only [Except.ok.injEq, exists_eq_left', not_not]
      rw [← hstarted]
      constructor
      · intro hagrees
        have hcounted := hagrees safeRunId
        rwa [getD_set, if_pos rfl] at hcounted
      · exact h.agrees.set
  | append runId event clock =>
    have hkeep := (keeps_consistent_append hline runId event clock).discard
    have hnext : Consistent (next (step runtime) archive (.append runId event clock)) :=
      next_of_triple (step runtime) hkeep h
    simp [Restarts, hnext.agrees]
  | record runId result historyRecord clock =>
    have hkeep := (keeps_consistent_record runtime runId result historyRecord clock).discard
    have hnext : Consistent
        (next (step runtime) archive (.record runId result historyRecord clock)) :=
      next_of_triple (step runtime) hkeep h
    simp [Restarts, hnext.agrees]

theorem consistent_empty : Consistent Dict.empty where
  logs _ := ⟨[], rfl, fun _ h => by cases h⟩
  agrees _ _ h := by cases h

def AlwaysAgrees (runtime : Runtime) (ops : List Op) : Prop :=
  History.Along (History.next (step runtime))
    (fun archive op => Agrees (History.next (step runtime) archive op)) Dict.empty ops

def NeverRestarts (runtime : Runtime) (ops : List Op) : Prop :=
  History.Along (History.next (step runtime)) (fun archive op => ¬ Restarts archive op)
    Dict.empty ops

theorem alwaysAgrees_iff (hline : ∀ v, OneLine (runtime.python.jsonDumpsSorted v))
    (ops : List Op) : AlwaysAgrees runtime ops ↔ NeverRestarts runtime ops := by
  refine along_congr (I := Consistent) ?_ ?_ consistent_empty ops
  · intro s op hs hop
    exact ⟨logsOk_next hline op hs.logs, (agrees_next_iff hline op hs).mpr hop⟩
  · exact fun s op hs => agrees_next_iff hline op hs

end Counts

end Agent33.Workflows.RunArchive
