import Agent33.Library.History

/-!
# The replay log of an operator session

A session is kept in memory while it is active, and in a file; beside it lies the log of its
events. Replayed from the beginning, the log gives the status of the session. A resumption is
logged with the status after it, the tasks are logged without being counted, and a checkpoint
moves a log away that has grown too large.
-/

namespace Agent33.Sessions

open Library List Option

inductive OperatorSessionStatus where
  | active
  | completed
  | crashed
  | suspended
  | archived
deriving DecidableEq

structure TaskEntry where
  taskId : Text
  description : Text
  status : Text := Text.ofString "pending"

inductive SessionEvent where
  | started (purpose : Text)
  | ended (status : OperatorSessionStatus) (taskSummary : Text)
  | resumed (previousStatus : OperatorSessionStatus)
  | taskAdded (taskId description : Text)
  | taskUpdated (taskId status : Text)
  | checkpoint (eventCount : ℕ)

structure OperatorSession where
  purpose : Text
  status : OperatorSessionStatus := .active
  tasks : List TaskEntry := []
  taskSummary : Text := []
  eventCount : ℕ := 0

/-- `Session … not found`, `Task … not found in session …`, and what is wrong with a status. -/
inductive SessionError where
  | sessionNotFound (sessionId : ℕ)
  | taskNotFound (taskId : Text)
  | cannotEnd (status : OperatorSessionStatus)
  | endStatus (status : OperatorSessionStatus)
  | cannotResume (status : OperatorSessionStatus)
  | invalidTaskStatus (status : Text)

def validStatuses : List Text :=
  [Text.ofString "pending", Text.ofString "in_progress", Text.ofString "done",
    Text.ofString "blocked"]

def buildTaskSummary (tasks : List TaskEntry) : Text :=
  let total := tasks.length
  let count (status : String) := tasks.countP fun t => t.status = Text.ofString status
  let part (n : ℕ) (label : String) := if n = 0 then [] else [Text.ofNat n ++ Text.ofString label]
  if total = 0 then Text.ofString "No tasks tracked"
  else
    (Text.ofString ", ").intercalate
      ((Text.ofNat (count "done") ++ '/' :: Text.ofNat total ++ Text.ofString " done") ::
        (part (count "in_progress") " in progress" ++ part (count "blocked") " blocked" ++
          part (total - count "done" - count "in_progress" - count "blocked") " pending"))

/-- The files of a session, and the session when it is in memory. -/
structure SessionFiles where
  stored : OperatorSession
  active : Option OperatorSession
  log : List SessionEvent
  checkpoint : Option OperatorSession := none

inductive SessionOp where
  | endSession (status : OperatorSessionStatus)
  | resume
  | checkpoint
  | addTask (taskId description : Text)
  | updateTask (taskId status : Text)

/-- The size from which a log is rotated, and that of the line of an event. -/
structure Storage where
  maxReplayBytes : ℕ
  lineBytes : SessionEvent → ℕ

namespace SessionFiles

variable (storage : Storage) (f : SessionFiles)

def session : OperatorSession := f.active.getD f.stored

def rotates (log : List SessionEvent) : Prop :=
  storage.maxReplayBytes ≤ (log.map storage.lineBytes).sum

instance (log : List SessionEvent) : Decidable (rotates storage log) :=
  inferInstanceAs (Decidable (_ ≤ _))

def start (purpose : Text) : SessionFiles where
  stored := { purpose, eventCount := 1 }
  active := some { purpose, eventCount := 1 }
  log := [.started purpose]

def endSession (status : OperatorSessionStatus) : Except SessionError SessionFiles :=
  if f.session.status ≠ .active ∧ f.session.status ≠ .suspended then
    .error (.cannotEnd f.session.status)
  else if status ≠ .completed ∧ status ≠ .suspended then .error (.endStatus status)
  else
    let taskSummary := buildTaskSummary f.session.tasks
    let log := f.log ++ [.ended status taskSummary]
    let session := { f.session with status, taskSummary, eventCount := log.length }
    .ok { stored := session, active := none, log, checkpoint := some session }

def resume : Except SessionError SessionFiles :=
  if f.session.status ≠ .crashed ∧ f.session.status ≠ .suspended then
    .error (.cannotResume f.session.status)
  else
    let session := { f.session with status := .active }
    -- the status has been set before it is logged
    let log := f.log ++ [.resumed session.status]
    let session := { session with eventCount := log.length }
    .ok { f with stored := session, active := some session, log }

def saveCheckpoint : SessionFiles :=
  let log := f.log ++ [.checkpoint f.log.length]
  let session := { f.session with
    taskSummary := buildTaskSummary f.session.tasks, eventCount := log.length }
  { stored := session, active := f.active.map fun _ => session,
    log := if rotates storage log then [] else log, checkpoint := some session }

/-- Save the session and log the event, which is not counted. -/
def saveTasks (tasks : List TaskEntry) (event : SessionEvent) : SessionFiles :=
  let session := { f.session with tasks }
  { f with stored := session, active := f.active.map fun _ => session, log := f.log ++ [event] }

def updateTask (taskId status : Text) : Except SessionError SessionFiles :=
  if f.session.tasks.all fun t => t.taskId ≠ taskId then .error (.taskNotFound taskId)
  else
    .ok (f.saveTasks (f.session.tasks.replaceF fun t =>
      if t.taskId = taskId then some { t with status } else none) (.taskUpdated taskId status))

def perform : SessionOp → Except SessionError SessionFiles
  | .endSession status => f.endSession status
  | .resume => f.resume
  | .checkpoint => .ok (f.saveCheckpoint storage)
  | .addTask taskId description =>
    .ok (f.saveTasks (f.session.tasks ++ [{ taskId, description }]) (.taskAdded taskId description))
  | .updateTask taskId status => f.updateTask taskId status

end SessionFiles

/-- What is checked before the session is looked up. -/
def SessionOp.refused : SessionOp → Option SessionError
  | .updateTask _ status =>
    if status ∈ validStatuses then none else some (.invalidTaskStatus status)
  | _ => none

/-- New sessions are numbered. -/
inductive ServiceOp where
  | start (purpose : Text)
  | on (sessionId : ℕ) (op : SessionOp)

abbrev OperatorSessionService := List SessionFiles

namespace OperatorSessionService

def perform (storage : Storage) (s : OperatorSessionService) :
    ServiceOp → Except SessionError OperatorSessionService
  | .start purpose => .ok (s ++ [.start purpose])
  | .on sessionId op =>
    match op.refused, s[sessionId]? with
    | some e, _ => .error e
    | none, none => .error (.sessionNotFound sessionId)
    | none, some f => (f.perform storage op).map (s.set sessionId)

def next (storage : Storage) (s : OperatorSessionService) (op : ServiceOp) :
    OperatorSessionService :=
  match s.perform storage op with
  | .error _ => s
  | .ok s' => s'

end OperatorSessionService

def SessionEvent.after (status : Option OperatorSessionStatus) :
    SessionEvent → Option OperatorSessionStatus
  | .started _ => some .active
  | .ended status _ => some status
  | .resumed _ => some .active
  | .taskAdded _ _ | .taskUpdated _ _ | .checkpoint _ => status

def replayed (log : List SessionEvent) : Option OperatorSessionStatus :=
  log.foldl SessionEvent.after none

/-- The log gives the status and the count, and a resumption was logged with the status that it
found. -/
structure SessionFiles.Replays (f : SessionFiles) : Prop where
  status : replayed f.log = some f.session.status
  resumed : ∀ before previous after, f.log = before ++ .resumed previous :: after →
    replayed before = some previous
  counted : f.session.eventCount = f.log.length

/-- All logs can be replayed, and no count has gone down. -/
structure Replayable (s s' : OperatorSessionService) : Prop where
  replays : ∀ f ∈ s', f.Replays
  counts : ∀ (id : ℕ) (f f' : SessionFiles), s[id]? = some f → s'[id]? = some f' →
    f.session.eventCount ≤ f'.session.eventCount

/-- The operation resumes nothing, touches no task, and the log stays in its place. -/
def SessionFiles.Careful (storage : Storage) (f : SessionFiles) : SessionOp → Prop
  | .endSession _ => True
  | .resume => f.session.status ≠ .crashed ∧ f.session.status ≠ .suspended
  | .checkpoint => ¬ rotates storage (f.log ++ [.checkpoint f.log.length])
  | .addTask _ _ => False
  | .updateTask taskId status =>
    status ∉ validStatuses ∨ f.session.tasks.all (fun t => t.taskId ≠ taskId) = true

def Careful (storage : Storage) (s : OperatorSessionService) : ServiceOp → Prop
  | .start _ => True
  | .on sessionId op => ∀ f, s[sessionId]? = some f → f.Careful storage op

theorem replayed_append (log : List SessionEvent) (event : SessionEvent) :
    replayed (log ++ [event]) = event.after (replayed log) := by
  rw [replayed, foldl_append]
  rfl

namespace SessionFiles

variable {storage : Storage} {f f' : SessionFiles}

theorem Replays.append (h : f.Replays)
    (hlog : f'.log = f.log ++ [event]) (hstatus : event.after (replayed f.log) =
      some f'.session.status) (hcount : f'.session.eventCount = f'.log.length)
    (hresumed : ∀ previous, event = .resumed previous → replayed f.log = some previous) :
    f'.Replays ∧ f.session.eventCount ≤ f'.session.eventCount := by
  refine ⟨⟨?_, ?_, hcount⟩, ?_⟩
  · rw [hlog, replayed_append, hstatus]
  · intro before previous after hsplit
    rw [hlog, append_eq_append_iff] at hsplit
    rcases hsplit with ⟨rest, rfl, hrest⟩ | ⟨rest, hlog, hrest⟩
    · cases rest with
      | nil =>
        rw [append_nil]
        exact hresumed previous (cons.inj hrest).1
      | cons e rest => simp at hrest
    · cases rest with
      | nil =>
        rw [append_nil] at hlog
        rw [← hlog]
        exact hresumed previous (cons.inj hrest).1.symm
      | cons e rest =>
        obtain ⟨rfl, -⟩ := cons.inj hrest
        exact h.resumed before previous rest hlog
  · rw [hcount, h.counted, hlog, length_append]
    exact Nat.le_add_right _ _

theorem replays_start (purpose : Text) : (start purpose).Replays := by
  refine ⟨rfl, fun before previous after h => ?_, rfl⟩
  cases before with
  | nil => exact SessionEvent.noConfusion (cons.inj h).1
  | cons e before => exact absurd (cons.inj h).2 (by simp)

theorem not_replays_saveTasks (h : f.Replays) (tasks : List TaskEntry) (event : SessionEvent) :
    ¬ (f.saveTasks tasks event).Replays := by
  intro h'
  have hcounted := h'.counted
  have hsame : (f.saveTasks tasks event).session.eventCount = f.session.eventCount := by
    rw [session, saveTasks]
    cases hactive : f.active <;> rfl
  rw [hsame, h.counted, saveTasks, length_append] at hcounted
  exact absurd hcounted (by simp)

theorem session_saveCheckpoint (storage : Storage) (f : SessionFiles) :
    (f.saveCheckpoint storage).session = { f.session with
      taskSummary := buildTaskSummary f.session.tasks, eventCount := f.log.length + 1 } := by
  rw [session, saveCheckpoint, length_append]
  cases hactive : f.active <;> rfl

variable (storage) in
/-- The files after an operation, which are the same when it raises. -/
def next (f : SessionFiles) (op : SessionOp) : SessionFiles :=
  match op.refused, f.perform storage op with
  | none, .ok f' => f'
  | _, _ => f

theorem replays_next_iff (h : f.Replays) (op : SessionOp) :
    (f.next storage op).Replays ∧ f.session.eventCount ≤ (f.next storage op).session.eventCount ↔
      f.Careful storage op := by
  have hsame : f.Replays ∧ f.session.eventCount ≤ f.session.eventCount := ⟨h, le_rfl⟩
  cases op with
  | endSession status =>
    refine iff_of_true ?_ trivial
    simp only [next, SessionOp.refused, perform, endSession]
    split_ifs
    · exact hsame
    · exact hsame
    · exact h.append rfl rfl rfl (fun _ => nofun)
  | resume =>
    simp only [next, SessionOp.refused, perform, resume]
    split_ifs with hstatus
    · exact iff_of_true hsame hstatus
    · refine iff_of_false (fun h' => hstatus ?_) hstatus
      have hprevious := h'.1.resumed f.log .active [] rfl
      rw [h.status] at hprevious
      rw [some.inj hprevious]
      decide
  | checkpoint =>
    change (f.saveCheckpoint storage).Replays ∧
      _ ≤ (f.saveCheckpoint storage).session.eventCount ↔ _
    by_cases hrotates : rotates storage (f.log ++ [.checkpoint f.log.length])
    · refine iff_of_false (fun h' => ?_) fun hcareful => hcareful hrotates
      have hstatus := h'.1.status
      rw [saveCheckpoint, if_pos hrotates] at hstatus
      cases hstatus
    · refine iff_of_true ?_ hrotates
      have hlog : (f.saveCheckpoint storage).log = f.log ++ [.checkpoint f.log.length] :=
        if_neg hrotates
      refine h.append hlog ?_ ?_ fun _ => nofun
      · rw [session_saveCheckpoint]
        exact h.status
      · rw [session_saveCheckpoint, hlog, length_append]
        rfl
  | addTask taskId description =>
    exact iff_of_false (fun h' => not_replays_saveTasks h _ _ h'.1) id
  | updateTask taskId status =>
    by_cases hvalid : status ∈ validStatuses
    · simp only [next, SessionOp.refused, if_pos hvalid, perform, updateTask]
      split_ifs with hmissing
      · exact iff_of_true hsame (.inr hmissing)
      · refine iff_of_false (fun h' => not_replays_saveTasks h _ _ h'.1) fun hcareful => ?_
        exact hcareful.elim (fun hinvalid => hinvalid hvalid) hmissing
    · simp only [next, SessionOp.refused, if_neg hvalid]
      exact iff_of_true hsame (.inl hvalid)

end SessionFiles

namespace OperatorSessionService

variable {storage : Storage} {s : OperatorSessionService}

theorem replayable_refl (h : ∀ f ∈ s, f.Replays) : Replayable s s :=
  ⟨h, fun _ _ _ hf hf' => (congrArg (fun f => f.session.eventCount)
    (some.inj (hf.symm.trans hf'))).le⟩

theorem replayable_set_iff (h : ∀ f ∈ s, f.Replays) {id : ℕ}
    (hid : s[id]? = some f) (f' : SessionFiles) :
    Replayable s (s.set id f') ↔
      f'.Replays ∧ f.session.eventCount ≤ f'.session.eventCount := by
  obtain ⟨hlt, -⟩ := List.getElem?_eq_some_iff.mp hid
  have hset : (s.set id f')[id]? = some f' := getElem?_set_self hlt
  constructor
  · exact fun hs => ⟨hs.replays f' (mem_of_getElem? hset), hs.counts id f f' hid hset⟩
  · rintro ⟨hf', hcount⟩
    refine ⟨fun g hg => ?_, fun other g g' hg hg' => ?_⟩
    · rcases mem_or_eq_of_mem_set hg with hg | rfl
      · exact h g hg
      · exact hf'
    · by_cases hother : id = other
      · subst hother
        rw [hid] at hg
        rw [hset] at hg'
        cases hg
        cases hg'
        exact hcount
      · rw [getElem?_set_ne hother] at hg'
        exact (replayable_refl h).counts other g g' hg hg'

theorem replayable_next_iff (h : ∀ f ∈ s, f.Replays) (op : ServiceOp) :
    Replayable s (s.next storage op) ↔ Careful storage s op := by
  cases op with
  | start purpose =>
    refine iff_of_true ⟨fun f hf => ?_, fun id f f' hf hf' => ?_⟩ trivial
    · rcases mem_append.mp hf with hf | hf
      · exact h f hf
      · exact mem_singleton.mp hf ▸ SessionFiles.replays_start purpose
    · obtain ⟨hlt, -⟩ := List.getElem?_eq_some_iff.mp hf
      have hsame : (s ++ [SessionFiles.start purpose])[id]? = some f :=
        (getElem?_append_left hlt).trans hf
      exact (congrArg (fun f => f.session.eventCount)
        (some.inj (hsame.symm.trans hf'))).le
  | on id op =>
    cases hid : s[id]? with
    | none =>
      have hnext : s.next storage (.on id op) = s := by
        rw [next, perform, hid]
        cases op.refused <;> rfl
      rw [hnext]
      exact iff_of_true (replayable_refl h) fun f hf => nomatch hid.symm.trans hf
    | some f =>
      have hnext : s.next storage (.on id op) = s.set id (f.next storage op) := by
        obtain ⟨hlt, rfl⟩ := List.getElem?_eq_some_iff.mp hid
        rw [next, perform, hid, SessionFiles.next]
        cases op.refused with
        | some e => exact (set_getElem_self hlt).symm
        | none =>
          dsimp only
          cases s[id].perform storage op with
          | error e => exact (set_getElem_self hlt).symm
          | ok f' => rfl
      rw [hnext, replayable_set_iff h hid,
        SessionFiles.replays_next_iff (h f (mem_of_getElem? hid))]
      exact ⟨fun hcareful g hg => some.inj (hid.symm.trans hg) ▸ hcareful,
        fun hcareful => hcareful f hid⟩

/-- All logs can be replayed after every operation, just when nothing is resumed, no task is
touched and no log is rotated. -/
theorem run_replayable_iff (storage : Storage) (ops : List ServiceOp) :
    History.Along (next storage) (fun s op => Replayable s (next storage s op)) [] ops ↔
      History.Along (next storage) (Careful storage) [] ops :=
  History.along_congr (I := fun s => ∀ f ∈ s, f.Replays)
    (fun _ op h hcareful => ((replayable_next_iff h op).mpr hcareful).replays)
    (fun _ op h => replayable_next_iff h op) nofun ops

/-- The resumption of a suspended session is logged as one of an active session. -/
theorem resume_not_replayable :
    ¬ History.Along (next ⟨52428800, fun _ => 300⟩)
      (fun s op => Replayable s (next ⟨52428800, fun _ => 300⟩ s op)) []
      [.start [], .on 0 (.endSession .suspended), .on 0 .resume] := by
  intro h
  have hresumed := (h.2.2.1.replays _ mem_cons_self).resumed
    [.started [], .ended .suspended (Text.ofString "No tasks tracked")] .active [] rfl
  exact absurd hresumed (by decide)

end OperatorSessionService

end Agent33.Sessions
